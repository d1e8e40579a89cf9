import Nos3.Base.CrcRegister
import Nos3.Sdls.Source.TcState

/-!
# What the error control fields of frames are worth

The two frame CRCs are one function, and a frame followed by its CRC has CRC zero.
The parity of a frame header is kept in a shift register of four field elements,
but what is fed back is an octet reduced modulo 15: values that this does not tell
apart are lost, and no others.
-/
namespace Nos3.Sdls
open Nos3.Base.BigEndian (Octet)
open Nos3.Base.CrcRegister

/-! ## The two CRCs -/

def fecfPolynomial : BitVec 16 := 0x1021

theorem fecfBit_eq (fecf : BitVec 16) (bit : Bool) :
    fecfBit fecf bit = digestBit fecfPolynomial fecf bit := by
  have hmsb : (fecf ^^^ (BitVec.ofBool bit).setWidth 16 <<< 15).msb = (fecf.msb ^^ bit) := by
    rw [BitVec.msb_xor]
    cases bit <;> rfl
  have hout : (fecf ^^^ (BitVec.ofBool bit).setWidth 16 <<< 15) <<< 1 = fecf <<< 1 := by
    have hbit : ((BitVec.ofBool bit).setWidth 16 <<< 15) <<< 1 = (0 : BitVec 16) := by
      cases bit <;> rfl
    rw [BitVec.shiftLeft_xor_distrib, hbit]
    exact BitVec.xor_zero
  rw [digestBit, shift, hmsb, hout]
  rfl

theorem calcFecf_eq_digest (octets : List Octet) :
    calcFecf octets = digest fecfPolynomial 0xFFFF octets := by
  have hbit : fecfBit = digestBit fecfPolynomial := by
    funext fecf bit
    exact fecfBit_eq fecf bit
  rw [digest, List.foldl_flatMap, calcFecf]
  simp only [bits, List.foldl_map, hbit]

theorem crc16Table_entry (octet : Octet) :
    crc16Table.getD octet.toNat 0 = tableEntry fecfPolynomial octet := by
  have hentry : ∀ octet : Octet, crc16Entry octet.toNat = tableEntry fecfPolynomial octet := by
    decide +kernel
  rw [← hentry, crc16Table, List.getD_eq_getElem?_getD, List.getElem?_map,
    List.getElem?_range octet.isLt]
  rfl

theorem crc16Octet_eq (crc : BitVec 16) (octet : Octet) :
    crc16Octet crc octet = digestOctet fecfPolynomial crc octet := by
  have hmask : (crc <<< 8) &&& (0xFF00 : BitVec 16) = crc <<< 8 := by
    have hones : (0xFF00 : BitVec 16) = BitVec.allOnes 16 <<< 8 := by decide
    rw [hones, ← BitVec.shiftLeft_and_distrib, BitVec.and_allOnes]
  have hindex : (crc >>> 8).toNat ^^^ octet.toNat =
      ((crc >>> 8).setWidth 8 ^^^ octet).toNat := by
    have hlt := crc.isLt
    rw [BitVec.toNat_xor, BitVec.toNat_setWidth, BitVec.toNat_ushiftRight,
      Nat.shiftRight_eq_div_pow, Nat.mod_eq_of_lt (by omega)]
  rw [crc16Octet, hmask, hindex, crc16Table_entry, digestOctet_eq]

theorem calcCrc16_eq_calcFecf (data : List Octet) : calcCrc16 data = calcFecf data := by
  have hstep : crc16Octet = digestOctet fecfPolynomial := by
    funext crc octet
    exact crc16Octet_eq crc octet
  rw [calcCrc16, hstep, calcFecf_eq_digest, digest_eq_foldl]

/-- A frame with its CRC behind it. -/
theorem calcFecf_own (frame : List Octet) :
    calcFecf (frame ++ [(calcFecf frame >>> 8).setWidth 8, (calcFecf frame).setWidth 8]) = 0 := by
  rw [calcFecf_eq_digest (frame ++ _), digest_append, ← calcFecf_eq_digest, digest_own]

/-- The table-driven CRC is the bit-serial one, and a frame followed by its CRC
leaves nothing in the register. -/
theorem frame_crcs_agree :
    (∀ data, calcCrc16 data = calcFecf data) ∧
      ∀ frame, calcFecf
        (frame ++ [(calcFecf frame >>> 8).setWidth 8, (calcFecf frame).setWidth 8]) = 0 :=
  ⟨calcCrc16_eq_calcFecf, calcFecf_own⟩

/-! ## The parity register as four field elements -/

/-- What the register holds; the code keeps every element in an octet. -/
structure Parity where
  p0 : BitVec 4
  p1 : BitVec 4
  p2 : BitVec 4
  p3 : BitVec 4
  deriving DecidableEq

/-- Product with a coefficient of the generator polynomial. -/
def times (coefficient : Octet) (x : BitVec 4) : BitVec 4 :=
  (gfMul (x.setWidth 8) coefficient).setWidth 4

theorem times_xor (x y : BitVec 4) :
    times 8 (x ^^^ y) = times 8 x ^^^ times 8 y ∧ times 2 (x ^^^ y) = times 2 x ^^^ times 2 y := by
  revert x y
  decide +kernel

@[simp] theorem times_zero (coefficient : Octet) : times coefficient 0#4 = 0#4 := by
  simp [times, gfMul]

theorem gfMul_nibble (x : BitVec 4) :
    gfMul (x.setWidth 8) 8 = (times 8 x).setWidth 8 ∧
      gfMul (x.setWidth 8) 2 = (times 2 x).setWidth 8 ∧ gfMul (x.setWidth 8) 1 = x.setWidth 8 := by
  revert x
  decide +kernel

namespace Parity

def octets (p : Parity) : List Octet :=
  [p.p0.setWidth 8, p.p1.setWidth 8, p.p2.setWidth 8, p.p3.setWidth 8]

def feedback (p : Parity) (symbol : Octet) : BitVec 4 :=
  (fhecfFeedback p.octets symbol).setWidth 4

/-- The register after `k` has been fed back. -/
def fed (p : Parity) (k : BitVec 4) : Parity :=
  ⟨p.p1 ^^^ times 8 k, p.p2 ^^^ times 2 k, p.p3 ^^^ times 8 k, k⟩

def after (p : Parity) (symbols : List Octet) : Parity :=
  symbols.foldl (fun p symbol => p.fed (p.feedback symbol)) p

/-- What two registers differ by. -/
def diff (p q : Parity) : Parity := ⟨p.p0 ^^^ q.p0, p.p1 ^^^ q.p1, p.p2 ^^^ q.p2, p.p3 ^^^ q.p3⟩

theorem feedback_octet (p : Parity) (symbol : Octet) :
    fhecfFeedback p.octets symbol = (p.feedback symbol).setWidth 8 := by
  have hrange : ∀ octet : Octet, octet % 15 = ((octet % 15).setWidth 4).setWidth 8 := by
    decide +kernel
  exact hrange _

theorem fhecfSymbol_octets (p : Parity) (symbol : Octet) :
    fhecfSymbol p.octets symbol = (p.fed (p.feedback symbol)).octets := by
  obtain ⟨height, htwo, hone⟩ := gfMul_nibble (p.feedback symbol)
  rw [fhecfSymbol, feedback_octet]
  simp only [octets, cryptoGenPoly, List.drop_succ_cons, List.drop_zero, List.cons_append,
    List.nil_append, List.zipWith_cons_cons, List.zipWith_nil_right, height, htwo, hone, fed,
    BitVec.setWidth_xor]
  simp

theorem foldl_fhecfSymbol (p : Parity) (symbols : List Octet) :
    symbols.foldl fhecfSymbol p.octets = (p.after symbols).octets := by
  induction symbols generalizing p with
  | nil => rfl
  | cons symbol symbols ih => rw [List.foldl_cons, fhecfSymbol_octets, ih]; rfl

theorem fhecfWord_injective {p q : Parity} (h : fhecfWord p.octets = fhecfWord q.octets) :
    p = q := by
  have hbits : ∀ (r : Parity) (i : Nat), i < 4 →
      (fhecfWord r.octets).getLsbD (12 + i) = r.p0.getLsbD i ∧
        (fhecfWord r.octets).getLsbD (8 + i) = r.p1.getLsbD i ∧
        (fhecfWord r.octets).getLsbD (4 + i) = r.p2.getLsbD i ∧
        (fhecfWord r.octets).getLsbD i = r.p3.getLsbD i := by
    intro r i hi
    obtain rfl | rfl | rfl | rfl : i = 0 ∨ i = 1 ∨ i = 2 ∨ i = 3 := by omega
    all_goals simp [fhecfWord, octets, BitVec.getLsbD_of_ge]
  have hword : ∀ i, i < 4 → p.p0.getLsbD i = q.p0.getLsbD i ∧ p.p1.getLsbD i = q.p1.getLsbD i ∧
      p.p2.getLsbD i = q.p2.getLsbD i ∧ p.p3.getLsbD i = q.p3.getLsbD i := by
    intro i hi
    have hp := hbits p i hi
    have hq := hbits q i hi
    rw [h] at hp
    exact ⟨hp.1.symm.trans hq.1, hp.2.1.symm.trans hq.2.1, hp.2.2.1.symm.trans hq.2.2.1,
      hp.2.2.2.symm.trans hq.2.2.2⟩
  obtain ⟨p0, p1, p2, p3⟩ := p
  obtain ⟨q0, q1, q2, q3⟩ := q
  rw [mk.injEq]
  exact ⟨BitVec.eq_of_getLsbD_eq fun i hi => (hword i hi).1,
    BitVec.eq_of_getLsbD_eq fun i hi => (hword i hi).2.1,
    BitVec.eq_of_getLsbD_eq fun i hi => (hword i hi).2.2.1,
    BitVec.eq_of_getLsbD_eq fun i hi => (hword i hi).2.2.2⟩

/-! ## Differences that die out -/

theorem diff_fed (p q : Parity) (k l : BitVec 4) :
    (p.fed k).diff (q.fed l) = (p.diff q).fed (k ^^^ l) := by
  have hswap : ∀ a b c d : BitVec 4, (a ^^^ b) ^^^ (c ^^^ d) = (a ^^^ c) ^^^ (b ^^^ d) := by
    intro a b c d
    rw [BitVec.xor_assoc, BitVec.xor_assoc, ← BitVec.xor_assoc b, BitVec.xor_comm b c,
      BitVec.xor_assoc]
  simp only [diff, fed, (times_xor k l).1, (times_xor k l).2, hswap]

/-- The two elements that the reduction modulo 15 does not tell apart differ by
all four bits. -/
def Faint (x : BitVec 4) : Prop := x = 0 ∨ x = 15

instance (x : BitVec 4) : Decidable (Faint x) := inferInstanceAs (Decidable (_ ∨ _))

theorem faint_of_feedback {p q : Parity} {symbol : Octet}
    (h : p.feedback symbol = q.feedback symbol) : Faint (p.p0 ^^^ q.p0) := by
  have hsplit : ∀ (octet : Octet) (x : BitVec 4), octet ^^^ x.setWidth 8 =
      octet.extractLsb' 4 4 ++ (octet.extractLsb' 0 4 ^^^ x) := by decide +kernel
  have hmerge : ∀ high x y : BitVec 4,
      (high ++ x) % (15 : BitVec 8) = (high ++ y) % (15 : BitVec 8) → Faint (x ^^^ y) := by
    decide +kernel
  have hsame : (symbol ^^^ p.p0.setWidth 8) % 15 = (symbol ^^^ q.p0.setWidth 8) % 15 := by
    have hoctet := congrArg (BitVec.setWidth 8) h
    rwa [← feedback_octet, ← feedback_octet] at hoctet
  rw [hsplit, hsplit] at hsame
  have hfaint := hmerge _ _ _ hsame
  rwa [BitVec.xor_assoc, BitVec.xor_comm p.p0, BitVec.xor_assoc, ← BitVec.xor_assoc,
    BitVec.xor_self, BitVec.zero_xor, BitVec.xor_comm] at hfaint

@[simp] theorem fed_zero (d : Parity) : d.fed 0 = ⟨d.p1, d.p2, d.p3, 0⟩ := by simp [fed]

/-- A difference that `n` symbols can wipe out lies in the first `n` elements. -/
structure Sinks (n : Nat) (d : Parity) : Prop where
  p0 : if 0 < n then Faint d.p0 else d.p0 = 0
  p1 : if 1 < n then Faint d.p1 else d.p1 = 0
  p2 : if 2 < n then Faint d.p2 else d.p2 = 0
  p3 : if 3 < n then Faint d.p3 else d.p3 = 0

def AllFaint (d : Parity) : Prop := Faint d.p0 ∧ Faint d.p1 ∧ Faint d.p2 ∧ Faint d.p3

instance (d : Parity) : Decidable (AllFaint d) := inferInstanceAs (Decidable (_ ∧ _))

theorem sinks_of_same {symbols : List Octet} (hlen : symbols.length ≤ 4) {p q : Parity}
    (h : p.after symbols = q.after symbols) : Sinks symbols.length (p.diff q) := by
  induction symbols generalizing p q with
  | nil =>
    obtain rfl : p = q := h
    constructor <;> simp [diff]
  | cons symbol symbols ih =>
    rw [List.length_cons] at hlen ⊢
    have hrest := ih (by omega) (p := p.fed (p.feedback symbol)) (q := q.fed (q.feedback symbol)) h
    rw [diff_fed] at hrest
    -- the last element is what was fed back: both registers fed back the same
    have hsame := hrest.p3
    rw [if_neg (by omega)] at hsame
    change p.feedback symbol ^^^ q.feedback symbol = 0 at hsame
    have hfaint := faint_of_feedback (BitVec.xor_eq_zero_iff.mp hsame)
    rw [hsame, fed_zero] at hrest
    refine ⟨?_, ?_, ?_, ?_⟩
    · rw [if_pos (by omega)]
      exact hfaint
    · simpa using hrest.p0
    · simpa [show 2 < symbols.length + 1 ↔ 1 < symbols.length by omega] using hrest.p1
    · simpa [show 3 < symbols.length + 1 ↔ 2 < symbols.length by omega] using hrest.p2

theorem Sinks.allFaint {n : Nat} {d : Parity} (h : Sinks n d) : AllFaint d := by
  have hweak : ∀ {c : Prop} [Decidable c] {x : BitVec 4},
      (if c then Faint x else x = 0) → Faint x := by
    intro c _ x hx
    split at hx
    · exact hx
    · exact .inl hx
  exact ⟨hweak h.p0, hweak h.p1, hweak h.p2, hweak h.p3⟩

/-- Neither right after it came in nor one symbol later can a difference of the
feedback be hidden in faint elements. -/
theorem not_allFaint_fed (g m : BitVec 4)
    (h : AllFaint ((⟨0, 0, 0, 0⟩ : Parity).fed g) ∨
      AllFaint (((⟨0, 0, 0, 0⟩ : Parity).fed g).fed m)) : g = 0 := by
  revert g m
  decide +kernel

/-- Registers that fed back different values stay different for five symbols. -/
theorem after_fed_ne {symbols : List Octet} (hlen : symbols.length ≤ 5) {p : Parity}
    {k l : BitVec 4} (hne : k ≠ l) : (p.fed k).after symbols ≠ (p.fed l).after symbols := by
  intro hsame
  have hdiff : (p.fed k).diff (p.fed l) = (⟨0, 0, 0, 0⟩ : Parity).fed (k ^^^ l) := by
    rw [diff_fed]
    simp [diff]
  refine hne (BitVec.xor_eq_zero_iff.mp ?_)
  by_cases hfour : symbols.length ≤ 4
  · have hfaint := (sinks_of_same hfour hsame).allFaint
    rw [hdiff] at hfaint
    exact not_allFaint_fed _ 0 (.inl hfaint)
  · obtain ⟨symbol, rest, rfl⟩ := List.exists_cons_of_length_pos (l := symbols) (by omega)
    rw [List.length_cons] at hlen
    have hfaint := (sinks_of_same (by omega) (p := (p.fed k).fed ((p.fed k).feedback symbol))
      (q := (p.fed l).fed ((p.fed l).feedback symbol)) hsame).allFaint
    rw [diff_fed, hdiff] at hfaint
    exact not_allFaint_fed _ _ (.inr hfaint)

end Parity

/-! ## One symbol exchanged -/

/-- The register in front of symbol `i`. -/
def parityBefore (data : Fin RS_DATA → Octet) (i : Fin RS_DATA) : List Octet :=
  fhecfParity ((List.ofFn data).take i)

theorem ofFn_update (data : Fin RS_DATA → Octet) (i : Fin RS_DATA) (symbol : Octet) :
    List.ofFn (Function.update data i symbol) =
      (List.ofFn data).take i ++ symbol :: (List.ofFn data).drop (i + 1) := by
  have hset : List.ofFn (Function.update data i symbol) = (List.ofFn data).set i symbol := by
    refine List.ext_getElem (by simp) fun j hj _ => ?_
    rw [List.getElem_set, List.getElem_ofFn, Function.update_apply]
    simp only [Fin.ext_iff, List.getElem_ofFn]
    simp only [eq_comm]
  rw [hset, List.set_eq_take_append_cons_drop, if_pos (by simp)]

theorem fhecf_of_update (data : Fin RS_DATA → Octet) (i : Fin RS_DATA) :
    ∃ p : Parity, parityBefore data i = p.octets ∧ ∀ symbol,
      calcFhecf (Function.update data i symbol) =
        fhecfWord ((p.fed (p.feedback symbol)).after ((List.ofFn data).drop (i + 1))).octets := by
  have hempty : List.replicate RS_PARITY 0 = (⟨0, 0, 0, 0⟩ : Parity).octets := rfl
  refine ⟨(⟨0, 0, 0, 0⟩ : Parity).after ((List.ofFn data).take i), ?_, fun symbol => ?_⟩
  · rw [parityBefore, fhecfParity, hempty, Parity.foldl_fhecfSymbol]
  · rw [calcFhecf, fhecfParity, hempty, ofFn_update, List.foldl_append, List.foldl_cons,
      Parity.foldl_fhecfSymbol, Parity.fhecfSymbol_octets, Parity.foldl_fhecfSymbol]

/-- An exchanged symbol shows exactly if, combined with the leading element of the
register in front of it, it is not the old one modulo 15. -/
theorem fhecf_detects_iff (data : Fin RS_DATA → Octet) (i : Fin RS_DATA) (symbol : Octet) :
    calcFhecf (Function.update data i symbol) ≠ calcFhecf data ↔
      fhecfFeedback (parityBefore data i) symbol ≠ fhecfFeedback (parityBefore data i) (data i) := by
  obtain ⟨p, hp, hword⟩ := fhecf_of_update data i
  have hself := hword (data i)
  rw [Function.update_eq_self] at hself
  rw [hp, hword symbol, hself, not_iff_not, Parity.feedback_octet, Parity.feedback_octet]
  constructor
  · intro hsame
    by_contra hne
    have hlen : ((List.ofFn data).drop (i + 1)).length ≤ 5 := by
      have hdata : RS_DATA = 6 := rfl
      rw [List.length_drop, List.length_ofFn]
      omega
    refine Parity.after_fed_ne hlen (fun hk => hne ?_) (Parity.fhecfWord_injective hsame)
    rw [hk]
  · intro hsame
    have hk : p.feedback symbol = p.feedback (data i) := by
      have hlow := congrArg (BitVec.setWidth 4) hsame
      simpa using hlow
    rw [hk]

/-- The spacecraft identifier of a frame altered in its low bits. -/
theorem identifier_octet_undetected :
    ¬ ∀ (data : Fin RS_DATA → Octet) (i : Fin RS_DATA) (symbol : Octet), symbol ≠ data i →
      calcFhecf (Function.update data i symbol) ≠ calcFhecf data := by
  intro hdetects
  refine hdetects (fun j => [0x40, 0xC0, 0, 0, 0, 0].getD j 0) ⟨0, by decide⟩ 0x4F (by decide) ?_
  decide +kernel

end Nos3.Sdls
