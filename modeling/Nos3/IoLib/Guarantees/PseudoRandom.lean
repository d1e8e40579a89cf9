import Nos3.IoLib.Source.TcSync
import Nos3.Base.CrcRegister

/-!
# The pseudo-random sequence

The services for telecommands and telemetry combine a frame with the output of a
shift register of eight bits. 32 octets of the output are kept, one bit more than
its period.
-/
namespace Nos3.IoLib
open Base.BigEndian (Octet)
open Base.ShiftRegister

/-- `IO_LIB_UTIL_PseudoRandomize` -/
def pseudoRandomize (pBuff : List Octet) (buffSize : Nat) (prSeq : List Octet) : List Octet :=
  (List.range buffSize).foldl (fun buff byte =>
    buff.modify byte (· ^^^ pseudoRandomOctet prSeq byte)) pBuff

variable {poly seed lfsr : Octet} {prSeq pBuff : List Octet}

/-! ## The table -/

theorem reverseBits_getMsbD (byte : Octet) {j : Nat} (hj : j < 8) :
    (reverseBits byte).getMsbD j = byte.getLsbD j := by
  have hall : ∀ (byte : Octet) (j : Fin 8), (reverseBits byte).getMsbD j = byte.getLsbD j := by
    decide +kernel
  exact hall byte ⟨j, hj⟩

theorem lfsrBit_eq (poly lfsr : Octet) :
    lfsrBit poly lfsr = (BitVec.ofBool (parity (lfsr &&& poly) 8)).setWidth 8 := by
  have hrange : ∀ n, (List.range n).foldl
      (fun bit i => bit ^^^ (((lfsr >>> i) &&& (poly >>> i)) &&& 1)) (0 : Octet) =
        (BitVec.ofBool (parity (lfsr &&& poly) n)).setWidth 8 := by
    intro n
    induction n with
    | zero => rfl
    | succ n ih =>
      rw [List.range_succ, List.foldl_append, ih, List.foldl_cons, List.foldl_nil, parity,
        BitVec.getLsbD_and]
      refine BitVec.eq_of_getLsbD_eq fun i hi => ?_
      by_cases hzero : i = 0
      · subst hzero
        simp
      · simp [hzero]
  exact hrange 8

theorem lfsr_next (poly lfsr : Octet) :
    (lfsr >>> 1) ||| (lfsrBit poly lfsr <<< 7) = step poly lfsr := by
  rw [lfsrBit_eq, step]

/-- The octets kept after some rounds of the generator. -/
theorem genLoop_eq (poly seed : Octet) (period : Nat) :
    (List.range period).foldl (fun (lfsr, seq) period =>
      let seq := if period % 8 = 0 then seq ++ [reverseBits lfsr] else seq
      ((lfsr >>> 1) ||| (lfsrBit poly lfsr <<< 7), seq)) (seed, []) =
    ((step poly)^[period] seed,
      (List.range ((period + 7) / 8)).map fun i => reverseBits ((step poly)^[8 * i] seed)) := by
  induction period with
  | zero => rfl
  | succ period ih =>
    rw [List.range_succ, List.foldl_append, ih, List.foldl_cons, List.foldl_nil]
    dsimp only
    rw [lfsr_next, ← Function.iterate_succ_apply' (step poly)]
    congr 1
    split
    case isTrue hstart =>
      have hcount : (period + 1 + 7) / 8 = (period + 7) / 8 + 1 := by omega
      have hmul : 8 * ((period + 7) / 8) = period := by omega
      rw [hcount, List.range_succ, List.map_append, List.map_singleton, hmul]
    case isFalse hinside =>
      have hcount : (period + 1 + 7) / 8 = (period + 7) / 8 := by omega
      rw [hcount]

theorem genPseudoRandomSeq_getMsbD (poly seed : Octet) {i j : Nat} (hi : i < 32) (hj : j < 8) :
    ((genPseudoRandomSeq poly seed).getD i 0).getMsbD j = output poly seed (8 * i + j) := by
  rw [genPseudoRandomSeq, genLoop_eq]
  dsimp only
  rw [List.getD_eq_getElem?_getD, List.getElem?_map, List.getElem?_range (by omega), Option.map_some,
    Option.getD_some, reverseBits_getMsbD _ hj, getLsbD_iterate poly seed hj]

/-! ## The octets a frame is combined with -/

theorem shift_or_getMsbD (first second : Octet) {off j : Nat} (hoff : off < 8) (hj : j < 8) :
    ((first <<< off) ||| (second >>> (8 - off))).getMsbD j =
      if off + j < 8 then first.getMsbD (off + j) else second.getMsbD (off + j - 8) := by
  rw [BitVec.getMsbD_or, BitVec.getMsbD_shiftLeft, BitVec.getMsbD_ushiftRight]
  split
  case isTrue hlt =>
    have hnone : j < 8 - off := by omega
    simp [hnone, Nat.add_comm]
  case isFalse hge =>
    have hsub : j - (8 - off) = off + j - 8 := by omega
    have hsome : ¬ j < 8 - off := by omega
    have hout : first.getMsbD (j + off) = false := by
      rw [BitVec.getMsbD_of_ge]
      omega
    rw [hout, hsub]
    simp [hsome, hj]

/-- The output repeats after 255 bits, and starts with eight ones. -/
theorem pseudoRandomOctet_getMsbD (hperiod : Function.Periodic (output poly 0xFF) 255) (i : Nat)
    {j : Nat} (hj : j < 8) :
    (pseudoRandomOctet (genPseudoRandomSeq poly 0xFF) i).getMsbD j =
      output poly 0xFF (8 * i + j) := by
  have hbit : i * 8 % 255 < 255 := Nat.mod_lt _ (by decide)
  have hsplit : 8 * (i * 8 % 255 / 8) + i * 8 % 255 % 8 = i * 8 % 255 := Nat.div_add_mod _ 8
  have hoff : i * 8 % 255 % 8 < 8 := Nat.mod_lt _ (by decide)
  have hwrap : output poly 0xFF (8 * i + j) = output poly 0xFF (i * 8 % 255 + j) := by
    rw [← hperiod.map_mod_nat (8 * i + j), ← hperiod.map_mod_nat (i * 8 % 255 + j),
      Nat.mod_add_mod, Nat.mul_comm]
  rw [hwrap, pseudoRandomOctet]
  generalize hstart : i * 8 % 255 = bit at *
  rw [shift_or_getMsbD _ _ hoff hj]
  split
  case isTrue hinside =>
    rw [genPseudoRandomSeq_getMsbD poly 0xFF (by omega) hinside]
    congr 1
    omega
  case isFalse hnext =>
    rw [genPseudoRandomSeq_getMsbD poly 0xFF (Nat.mod_lt _ (by decide)) (by omega)]
    by_cases hlast : bit / 8 + 1 < 32
    · rw [Nat.mod_eq_of_lt hlast]
      congr 1
      omega
    · -- the last octet ends one bit into the next period: both bits are among the first eight
      have hback : bit + j = bit % 8 + j - 7 + 255 := by omega
      have hzero : (bit / 8 + 1) % 32 = 0 := by omega
      have hones : ∀ n < 8, output poly 0xFF n = true := by
        intro n hn
        rw [output_seed poly 0xFF hn]
        decide +revert
      rw [hzero, hback, hperiod, hones _ (by omega), hones _ (by omega)]

theorem tc_periodic : Function.Periodic (output (0x5F : Octet) 0xFF) 255 :=
  output_periodic (by decide +kernel)

theorem tm_periodic : Function.Periodic (output (0xA9 : Octet) 0xFF) 255 :=
  output_periodic (by decide +kernel)

/-! ## A frame -/

theorem pseudoRandomize_get (pBuff : List Octet) (buffSize : Nat) (prSeq : List Octet) (i : Nat) :
    (pseudoRandomize pBuff buffSize prSeq)[i]? =
      if i < buffSize then pBuff[i]?.map (· ^^^ pseudoRandomOctet prSeq i) else pBuff[i]? := by
  rw [pseudoRandomize]
  induction buffSize with
  | zero => rfl
  | succ buffSize ih =>
    rw [List.range_succ, List.foldl_append, List.foldl_cons, List.foldl_nil, List.getElem?_modify,
      ih]
    rcases Nat.lt_trichotomy i buffSize with hlt | rfl | hgt
    · simp [hlt, hlt.ne', Nat.lt_succ_of_lt hlt]
    · simp
    · simp [hgt.ne, hgt.not_gt, Nat.not_lt.mpr (Nat.succ_le_of_lt hgt)]

/-- With the table of either service, bit `j` of octet `i` of a frame is combined with bit
`8 * i + j` of the output of the register. -/
theorem pseudoRandomize_eq_lfsr_stream {poly : Octet} (hpoly : poly = 0x5F ∨ poly = 0xA9)
    {stream : Nat → Bool} (hstream : IsOutput poly 0xFF stream) (pBuff : List Octet)
    (buffSize : BitVec 16) :
    (∀ i, i < buffSize.toNat → ∀ octet, pBuff[i]? = some octet →
      ∃ combined,
        (pseudoRandomize pBuff buffSize.toNat (genPseudoRandomSeq poly 0xFF))[i]? = some combined ∧
        ∀ j < 8, combined.getMsbD j = (octet.getMsbD j ^^ stream (8 * i + j))) ∧
    (∀ i, buffSize.toNat ≤ i →
      (pseudoRandomize pBuff buffSize.toNat (genPseudoRandomSeq poly 0xFF))[i]? = pBuff[i]?) := by
  have hperiod : Function.Periodic (output poly 0xFF) 255 := by
    rcases hpoly with rfl | rfl
    · exact tc_periodic
    · exact tm_periodic
  refine ⟨fun i hi octet hoctet => ?_, fun i hi => ?_⟩
  · rw [pseudoRandomize_get, if_pos hi, hoctet]
    refine ⟨_, rfl, fun j hj => ?_⟩
    rw [BitVec.getMsbD_xor, pseudoRandomOctet_getMsbD hperiod i hj,
      hstream.eq_output (by decide)]
  · rw [pseudoRandomize_get, if_neg (Nat.not_lt.mpr hi)]

theorem pseudoRandomize_eq_lfsr_stream_ones :
    (∃ combined, (pseudoRandomize [0x00, 0xFF] 2 (genPseudoRandomSeq 0xA9 0xFF))[1]? =
        some combined ∧
      ∀ j < 8, combined.getMsbD j =
        ((0xFF : Octet).getMsbD j ^^ output (0xA9 : Octet) 0xFF (8 + j))) ∧
      (pseudoRandomize [0x00, 0xFF] 2 (genPseudoRandomSeq 0xA9 0xFF))[2]? = none := by
  have hspec := pseudoRandomize_eq_lfsr_stream (.inr rfl) (output_isOutput (0xA9 : Octet) 0xFF
    (by decide)) [0x00, 0xFF] 2
  exact ⟨hspec.1 1 (by decide) 0xFF rfl, hspec.2 2 (by decide)⟩

end Nos3.IoLib
