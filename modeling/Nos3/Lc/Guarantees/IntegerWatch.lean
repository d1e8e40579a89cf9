import Nos3.Lc.Source.Watch

/-!
# Integer watchpoints

The swap maps name the places of the declared byte order, so that the octets come out of
the union in the declared order on every processor. What a processor makes of a
watchpoint is therefore what the number in its comparison value makes of it, and
an integer watchpoint is true when the masked field and the comparison value compare so
as the integers of the declared type.
-/
namespace Nos3.Lc
open Nos3.Base (ByteOrder)
open Nos3.Base.BigEndian (Octet)
open Nos3.Base.ByteMemory (Memory)

/-! ## The copy -/

section Copy
variable {host declared : ByteOrder} {src : Nat → Option Octet} {swapMap dest : MultiType}
variable {n : Nat}

theorem copyBytesWithSwap_copies {data : Memory} (dest : MultiType)
    (h : ∀ k, k < n → src (swapMap.rawByte k &&& 0x3).toNat = some (data k)) :
    ∃ copied, copyBytesWithSwap src swapMap n dest = some copied ∧
      (∀ k, k < n → copied.rawByte k = data k) ∧
      ∀ k, n ≤ k → copied.rawByte k = dest.rawByte k := by
  induction n generalizing dest with
  | zero => exact ⟨dest, rfl, fun k hk => absurd hk (Nat.not_lt_zero k), fun _ _ => rfl⟩
  | succ n ih =>
    obtain ⟨copied, hcopied, hin, hout⟩ :=
      ih (dest.setRawByte n (data n)) fun k hk => h k (Nat.lt_succ_of_lt hk)
    refine ⟨copied, ?_, ?_, ?_⟩
    · rw [copyBytesWithSwap, h n (Nat.lt_succ_self n), Option.bind_eq_bind, Option.bind_some,
        hcopied]
    · intro k hk
      by_cases hlast : k = n
      · rw [hlast, hout n (Nat.le_refl n), MultiType.setRawByte_self]
      · exact hin k (by omega)
    · intro k hk
      rw [hout k (by omega), MultiType.setRawByte_of_ne (by omega)]

theorem copyBytesWithSwap_stops {k : Nat} (hk : k < n)
    (h : src (swapMap.rawByte k &&& 0x3).toNat = none) :
    copyBytesWithSwap src swapMap n dest = none := by
  induction n generalizing dest with
  | zero => exact absurd hk (Nat.not_lt_zero k)
  | succ n ih =>
    rw [copyBytesWithSwap, Option.bind_eq_bind]
    by_cases hlast : k = n
    · rw [← hlast, h, Option.bind_none]
    · cases src (swapMap.rawByte n &&& 0x3).toNat with
      | none => rfl
      | some octet => exact ih (by omega)

theorem masked_place {place : Octet} (h : place.toNat < 4) :
    (place &&& 0x3).toNat = place.toNat := by
  have hmask : (0x3 : Octet).toNat = 2 ^ 2 - 1 := rfl
  rw [BitVec.toNat_and, hmask, Nat.and_two_pow_sub_one_eq_mod]
  exact Nat.mod_eq_of_lt h

/-- The places a stored swap map names. -/
theorem swapMap_place {swapVal : BitVec (8 * n)} {m : Memory} {k : Nat}
    (hmap : ByteOrder.IsSwapMap declared n swapVal) (hn : n ≤ 4) (hk : k < n) :
    (ByteOrder.store host n swapVal m k &&& 0x3).toNat
      = declared.place n (host.place n k) := by
  have hstored : (ByteOrder.store host n swapVal m k).toNat = declared.place n (host.place n k) :=
    hmap.stored hk
  have hlt : declared.place n (host.place n k) < n := ByteOrder.place_lt (ByteOrder.place_lt hk)
  rw [masked_place (by omega), hstored]

theorem copy_loads {swapVal : BitVec (8 * n)} (host : ByteOrder) (dest : MultiType) (m : Memory)
    {data : Memory} (hmap : ByteOrder.IsSwapMap declared n swapVal) (hn : n ≤ 4)
    (h : ∀ k, k < n → src k = some (data k)) :
    ∃ copied, copyBytesWithSwap src ⟨ByteOrder.store host n swapVal m⟩ n dest = some copied ∧
      ByteOrder.load host n copied.rawByte = ByteOrder.load declared n data := by
  have hplaces : ∀ k, k < n →
      src (MultiType.rawByte ⟨ByteOrder.store host n swapVal m⟩ k &&& 0x3).toNat
        = some ((fun k => data (declared.place n (host.place n k))) k) := by
    intro k hk
    rw [swapMap_place hmap hn hk]
    exact h _ (ByteOrder.place_lt (ByteOrder.place_lt hk))
  obtain ⟨copied, hcopied, hin, -⟩ := copyBytesWithSwap_copies dest hplaces
  exact ⟨copied, hcopied, ByteOrder.load_swapped data hin⟩

theorem copy_stops {swapVal : BitVec (8 * n)} {m : Memory} {k : Nat}
    (hmap : ByteOrder.IsSwapMap declared n swapVal) (hn : n ≤ 4) (hk : k < n)
    (h : src k = none) :
    copyBytesWithSwap src ⟨ByteOrder.store host n swapVal m⟩ n dest = none := by
  have hplace : declared.place n k < n := ByteOrder.place_lt hk
  have hindex : host.place n (declared.place n k) < n := ByteOrder.place_lt hplace
  apply copyBytesWithSwap_stops hindex
  rw [swapMap_place hmap hn (ByteOrder.place_lt hplace), ByteOrder.place_place hplace,
    ByteOrder.place_place hk, h]

end Copy

/-! ## The value of a watchpoint -/

section Value
variable {host declared : ByteOrder} {src : Nat → Option Octet}

/-- Octets behind each other. -/
def inOrder (octets : List Octet) : Memory := fun k => octets.getD k 0

theorem convert16_eq {swapVal : BitVec 16} (hmap : ByteOrder.IsSwapMap declared 2 swapVal)
    (extend : BitVec 16 → BitVec 32) :
    convert16 host src swapVal extend = (src 0).bind fun b0 => (src 1).bind fun b1 =>
      some (extend (ByteOrder.load declared 2 (inOrder [b0, b1]))) := by
  rw [convert16, Option.bind_eq_bind, MultiType.setUnsigned16]
  cases h0 : src 0 with
  | none => rw [copy_stops hmap (by decide) (by decide) h0]; rfl
  | some b0 =>
    cases h1 : src 1 with
    | none => rw [copy_stops hmap (by decide) (by decide) h1]; rfl
    | some b1 =>
      have hread : ∀ k, k < 2 → src k = some (inOrder [b0, b1] k) := by
        intro k hk
        obtain rfl | rfl : k = 0 ∨ k = 1 := by omega
        · exact h0
        · exact h1
      obtain ⟨copied, hcopied, hload⟩ := copy_loads host (MultiType.setUnsigned32 host {} 0)
        (MultiType.setUnsigned32 host {} 0).rawByte hmap (by decide) hread
      rw [hcopied, Option.bind_some]
      dsimp only
      rw [MultiType.unsigned32_setUnsigned32]
      exact congrArg (fun v => some (extend v)) hload

theorem convert32_eq {swapVal : BitVec 32} (hmap : ByteOrder.IsSwapMap declared 4 swapVal) :
    convert32 host src swapVal = (src 0).bind fun b0 => (src 1).bind fun b1 =>
      (src 2).bind fun b2 => (src 3).bind fun b3 =>
        some (ByteOrder.load declared 4 (inOrder [b0, b1, b2, b3])) := by
  have hstops (k : Nat) (hk : k < 4) (h : src k = none) : convert32 host src swapVal = none := by
    rw [convert32, Option.bind_eq_bind, MultiType.setUnsigned32, copy_stops hmap (by decide) hk h]
    rfl
  cases h0 : src 0 with
  | none => exact hstops 0 (by decide) h0
  | some b0 =>
    cases h1 : src 1 with
    | none => exact hstops 1 (by decide) h1
    | some b1 =>
      cases h2 : src 2 with
      | none => exact hstops 2 (by decide) h2
      | some b2 =>
        cases h3 : src 3 with
        | none => exact hstops 3 (by decide) h3
        | some b3 =>
          have hread : ∀ k, k < 4 → src k = some (inOrder [b0, b1, b2, b3] k) := by
            intro k hk
            obtain rfl | rfl | rfl | rfl : k = 0 ∨ k = 1 ∨ k = 2 ∨ k = 3 := by omega
            · exact h0
            · exact h1
            · exact h2
            · exact h3
          obtain ⟨copied, hcopied, hload⟩ := copy_loads host (MultiType.setUnsigned32 host {} 0)
            (MultiType.setUnsigned32 host {} 0).rawByte hmap (by decide) hread
          rw [convert32, Option.bind_eq_bind, MultiType.setUnsigned32, hcopied, Option.bind_some]
          dsimp only
          rw [MultiType.unsigned32_setUnsigned32]
          exact congrArg some hload

theorem getSizedWPDataOn_eq (record : WDTRecord) (message : Message) :
    getSizedWPDataOn host record message = getSizedWPData (record.entry host) message := by
  have hbe16 : ByteOrder.IsSwapMap .big 2 LC_16BIT_BE_VAL := by decide
  have hle16 : ByteOrder.IsSwapMap .little 2 LC_16BIT_LE_VAL := by decide
  have hbe32 : ByteOrder.IsSwapMap .big 4 LC_32BIT_BE_VAL := by decide
  have hle32 : ByteOrder.IsSwapMap .little 4 LC_32BIT_LE_VAL := by decide
  rcases record with ⟨dataType⟩
  cases dataType <;>
    simp [getSizedWPDataOn, getSizedWPData, WDTRecord.entry, convert16_eq hbe16,
      convert16_eq hle16, convert32_eq hbe32, convert32_eq hle32, ByteOrder.load_two_big,
      ByteOrder.load_two_little, ByteOrder.load_four_big, ByteOrder.load_four_little, inOrder,
      Option.map_bind, Function.comp_def]

end Value

/-! ## The comparison -/

section Comparison
variable {host : ByteOrder}

theorem low_octet (data : BitVec 32) : (data &&& 0xFF).truncate 8 = data.truncate 8 := by
  rw [BitVec.truncate_eq_setWidth, BitVec.setWidth_and]
  exact BitVec.and_allOnes

theorem low_word (data : BitVec 32) : (data &&& 0xFFFF).truncate 16 = data.truncate 16 := by
  rw [BitVec.truncate_eq_setWidth, BitVec.setWidth_and]
  exact BitVec.and_allOnes

theorem operatorCompareOn_eq (floats : FloatOrder) (record : WDTRecord) (data : BitVec 32) :
    operatorCompareOn floats host record data
      = operatorCompare floats (record.entry host) data := by
  have hbyte (v : BitVec 8) : (v.zeroExtend 32).truncate 8 = v := by simp
  have hword (v : BitVec 16) : (v.zeroExtend 32).truncate 16 = v := by simp
  have hdword (v : BitVec 32) : v.truncate 32 = v := BitVec.setWidth_eq v
  rcases record with ⟨dataType⟩
  cases dataType <;>
    simp only [operatorCompareOn, operatorCompare, truncatedValue, WDTRecord.entry,
      WDTRecord.comparison, low_octet, low_word, hbyte, hword, hdword,
      MultiType.unsigned8_setUnsigned8, MultiType.unsigned16_setUnsigned16,
      MultiType.unsigned32_setUnsigned32]

/-- A processor of either byte order makes of a message what the numbers make of it. -/
theorem processWPOn_eq (floats : FloatOrder) (record : WDTRecord) (message : Message)
    (timestamp : SysTime) (wrt : WRTEntry) :
    processWPOn floats host record message timestamp wrt
      = processWP floats (record.entry host) message timestamp wrt := by
  simp only [processWPOn, processWP, getSizedWPDataOn_eq, operatorCompareOn_eq, evaluateWP]
  rfl

end Comparison

/-! ## Integer types -/

structure IntegerType where
  octets : Nat
  signed : Bool
  order : ByteOrder

/-- The ten integer types; an octet is the same in both orders. -/
def DataType.integer? : DataType → Option IntegerType
  | .byte => some ⟨1, true, .big⟩
  | .ubyte => some ⟨1, false, .big⟩
  | .wordBE => some ⟨2, true, .big⟩
  | .wordLE => some ⟨2, true, .little⟩
  | .uwordBE => some ⟨2, false, .big⟩
  | .uwordLE => some ⟨2, false, .little⟩
  | .dwordBE => some ⟨4, true, .big⟩
  | .dwordLE => some ⟨4, true, .little⟩
  | .udwordBE => some ⟨4, false, .big⟩
  | .udwordLE => some ⟨4, false, .little⟩
  | .floatBE | .floatLE | .notUsed | .undefined => none

namespace IntegerType

/-- The integer that a word of the type stands for. -/
def value (type : IntegerType) (v : BitVec (8 * type.octets)) : Int :=
  if type.signed then v.toInt else v.toNat

/-- The field of a message in the declared byte order. -/
def field (type : IntegerType) (message : Message) (offset : BitVec 32) :
    BitVec (8 * type.octets) :=
  ByteOrder.load type.order type.octets fun k => message.bytes.getD (offset.toNat + k) 0

/-- The comparison value as a processor reads it at the type. -/
def comparison (type : IntegerType) (host : ByteOrder) (u : MultiType) :
    BitVec (8 * type.octets) :=
  ByteOrder.load host type.octets u.rawByte

end IntegerType

/-- The comparison of integers that an operator stands for. -/
def OperatorID.relation? : OperatorID → Option (Int → Int → Prop)
  | .lt => some (· < ·)
  | .le => some (· ≤ ·)
  | .ne => some (· ≠ ·)
  | .eq => some (· = ·)
  | .ge => some (· ≥ ·)
  | .gt => some (· > ·)
  | .custom | .invalid => none

theorem ofBool_isTrue (b : Bool) : WatchResult.ofBool b = .isTrue ↔ b = true := by
  cases b <;> simp [WatchResult.ofBool]

theorem ofBool_isFalse (b : Bool) : WatchResult.ofBool b = .isFalse ↔ ¬ b = true := by
  cases b <;> simp [WatchResult.ofBool]

theorem signedCompare_iff {operatorID : OperatorID} {relation : Int → Int → Prop}
    (h : operatorID.relation? = some relation) (a b : Int) :
    (signedCompare operatorID a b = .isTrue ↔ relation a b) ∧
      (signedCompare operatorID a b = .isFalse ↔ ¬ relation a b) := by
  cases operatorID <;> cases h <;>
    simp only [signedCompare, relationalCompare, ofBool_isTrue, ofBool_isFalse] <;>
    constructor <;> simp <;> omega

theorem unsignedCompare_eq (operatorID : OperatorID) (a b : Nat) :
    unsignedCompare operatorID a b = signedCompare operatorID a b := by
  simp only [unsignedCompare, signedCompare, Int.ofNat_lt, Int.ofNat_inj]

/-- What the extension to 32 bits puts in front is cut off again. -/
theorem setWidth_signExtend {w n : Nat} (h : w ≤ n) (v : BitVec w) :
    (v.signExtend n).setWidth w = v := by
  apply BitVec.eq_of_getLsbD_eq
  intro i hi
  rw [BitVec.getLsbD_setWidth, BitVec.getLsbD_signExtend]
  simp [hi, Nat.lt_of_lt_of_le hi h]

theorem setWidth_zeroExtend {w n : Nat} (h : w ≤ n) (v : BitVec w) :
    (v.zeroExtend n).setWidth w = v := by
  simp [BitVec.setWidth_setWidth_of_le, h]

section Exact
variable {floats : FloatOrder} {host : ByteOrder} {record : WDTRecord} {type : IntegerType}
variable {message : Message}

/-- The data of an integer watchpoint, cut to the size of its type, are its field. -/
theorem sizedWPData_field (host : ByteOrder) (htype : record.dataType.integer? = some type)
    (hoffset : record.watchpointOffset.toNat + type.octets ≤ message.bytes.length) :
    ∃ data, getSizedWPDataOn host record message = some (some data) ∧
      data.setWidth (8 * type.octets) = type.field message record.watchpointOffset := by
  have hread (k : Nat) (hk : k < type.octets) :
      message.bytes[record.watchpointOffset.toNat + k]?
        = some (message.bytes.getD (record.watchpointOffset.toNat + k) 0) := by
    have hinside : record.watchpointOffset.toNat + k < message.bytes.length := by omega
    simp [List.getD_eq_getElem?_getD, List.getElem?_eq_getElem hinside]
  rw [getSizedWPDataOn_eq]
  rcases record with ⟨dataType, operatorID, messageID, offset⟩
  cases dataType <;> cases htype <;>
    simp only [getSizedWPData, WDTRecord.entry]
  case byte.refl =>
    refine ⟨_, by rw [hread 0 (by decide)]; rfl, ?_⟩
    rw [IntegerType.field, ByteOrder.load_one]
    exact setWidth_signExtend (by decide) _
  case ubyte.refl =>
    refine ⟨_, by rw [hread 0 (by decide)]; rfl, ?_⟩
    rw [IntegerType.field, ByteOrder.load_one]
    exact setWidth_zeroExtend (by decide) _
  case wordBE.refl =>
    refine ⟨_, by rw [hread 0 (by decide), hread 1 (by decide)]; rfl, ?_⟩
    rw [IntegerType.field, ByteOrder.load_two_big]
    exact setWidth_signExtend (by decide) _
  case wordLE.refl =>
    refine ⟨_, by rw [hread 0 (by decide), hread 1 (by decide)]; rfl, ?_⟩
    rw [IntegerType.field, ByteOrder.load_two_little]
    exact setWidth_signExtend (by decide) _
  case uwordBE.refl =>
    refine ⟨_, by rw [hread 0 (by decide), hread 1 (by decide)]; rfl, ?_⟩
    rw [IntegerType.field, ByteOrder.load_two_big]
    exact setWidth_zeroExtend (by decide) _
  case uwordLE.refl =>
    refine ⟨_, by rw [hread 0 (by decide), hread 1 (by decide)]; rfl, ?_⟩
    rw [IntegerType.field, ByteOrder.load_two_little]
    exact setWidth_zeroExtend (by decide) _
  case dwordBE.refl | udwordBE.refl =>
    refine ⟨_, by rw [hread 0 (by decide), hread 1 (by decide), hread 2 (by decide),
      hread 3 (by decide)]; rfl, ?_⟩
    rw [IntegerType.field, ByteOrder.load_four_big]
    exact BitVec.setWidth_eq _
  case dwordLE.refl | udwordLE.refl =>
    refine ⟨_, by rw [hread 0 (by decide), hread 1 (by decide), hread 2 (by decide),
      hread 3 (by decide)]; rfl, ?_⟩
    rw [IntegerType.field, ByteOrder.load_four_little]
    exact BitVec.setWidth_eq _

theorem operatorCompareOn_integer (htype : record.dataType.integer? = some type)
    (data : BitVec 32) :
    operatorCompareOn floats host record data
      = signedCompare record.operatorID (type.value (data.setWidth (8 * type.octets)))
          (type.value (type.comparison host record.comparisonValue)) := by
  have hdword : data.setWidth 32 = data := BitVec.setWidth_eq data
  rcases record with ⟨dataType⟩
  cases dataType <;> cases htype <;>
    simp only [operatorCompareOn, truncatedValue, low_octet, low_word, unsignedCompare_eq,
      MultiType.unsigned8_setUnsigned8, MultiType.unsigned16_setUnsigned16,
      MultiType.unsigned32_setUnsigned32]
  all_goals rfl

theorem updateWP_watchResult (entry : WDTEntry) (timestamp : SysTime) (masked : BitVec 32)
    (evalResult : WatchResult) (wrt : WRTEntry) :
    (updateWP entry timestamp masked evalResult wrt).watchResult = evalResult := by
  cases evalResult <;> simp only [updateWP]
  case isTrue => split <;> rfl
  case isFalse => split <;> rfl

theorem wpOffsetValid_of_inside (host : ByteOrder) (htype : record.dataType.integer? = some type)
    (hoffset : record.watchpointOffset.toNat + type.octets ≤ message.bytes.length) :
    wpOffsetValid (record.entry host) message = true := by
  rcases record with ⟨dataType, operatorID, messageID, offset⟩
  cases dataType <;> cases htype <;>
    simp [wpOffsetValid, DataType.numOfDataBytes, WDTRecord.entry] <;>
    exact Nat.le_trans (Nat.mod_le _ _) hoffset

/-- The entry of a processor depends on the comparison value at its type only. -/
theorem entry_of_comparison {host' : ByteOrder} {comparisonValue : MultiType}
    (htype : record.dataType.integer? = some type)
    (h : type.comparison host' comparisonValue = type.comparison host record.comparisonValue) :
    { record with comparisonValue := comparisonValue }.entry host' = record.entry host := by
  rcases record with ⟨dataType⟩
  cases dataType <;> cases htype <;>
    exact congrArg (fun v => WDTEntry.mk _ _ _ _ _ (BitVec.zeroExtend 32 v) _) h

end Exact

/-- On a processor of either byte order an integer watchpoint is true exactly when its
operator holds of the masked field and the comparison value as integers of the declared
type, and what is written depends on the comparison value at that type only. -/
theorem integer_watchpoint_exact (floats : FloatOrder) (host : ByteOrder) (record : WDTRecord)
    (message : Message) (timestamp : SysTime) (wrt : WRTEntry) (type : IntegerType)
    (relation : Int → Int → Prop) (htype : record.dataType.integer? = some type)
    (hoperator : record.operatorID.relation? = some relation)
    (hoffset : record.watchpointOffset.toNat + type.octets ≤ message.bytes.length) :
    let wpValue := type.value
      (type.field message record.watchpointOffset &&& record.bitMask.setWidth _)
    let compareValue := type.value (type.comparison host record.comparisonValue)
    (∃ wrt' result,
      processWPOn floats host record message timestamp wrt = some (wrt', some result) ∧
        wrt'.watchResult = result ∧ (result = .isTrue ↔ relation wpValue compareValue) ∧
        (result = .isFalse ↔ ¬ relation wpValue compareValue)) ∧
      ∀ (host' : ByteOrder) (comparisonValue : MultiType),
        type.comparison host' comparisonValue = type.comparison host record.comparisonValue →
          processWPOn floats host' { record with comparisonValue := comparisonValue } message
              timestamp wrt
            = processWPOn floats host record message timestamp wrt := by
  intro wpValue compareValue
  constructor
  · obtain ⟨data, hdata, hfield⟩ := sizedWPData_field host htype hoffset
    have hvalid := wpOffsetValid_of_inside host htype hoffset
    have hinteger : record.operatorID ≠ .custom := by
      intro hcustom
      rw [hcustom] at hoperator
      cases hoperator
    have hmasked : (data &&& record.bitMask).setWidth (8 * type.octets)
        = type.field message record.watchpointOffset &&& record.bitMask.setWidth _ := by
      rw [BitVec.setWidth_and, hfield]
    have hcompare := signedCompare_iff hoperator wpValue compareValue
    have hresult : operatorCompareOn floats host record (data &&& record.bitMask)
        = signedCompare record.operatorID wpValue compareValue := by
      rw [operatorCompareOn_integer htype, hmasked]
    have hrun : processWPOn floats host record message timestamp wrt
        = some (updateWP (record.entry host) timestamp (data &&& record.bitMask)
            (signedCompare record.operatorID wpValue compareValue) wrt,
          some (signedCompare record.operatorID wpValue compareValue)) := by
      simp only [processWPOn, hvalid, if_true, hdata, Option.bind_eq_bind, Option.bind_some,
        if_neg hinteger, hresult]
    exact ⟨_, _, hrun, updateWP_watchResult .., hcompare⟩
  · intro host' comparisonValue hsame
    rw [processWPOn_eq, processWPOn_eq, entry_of_comparison htype hsame]

/-- A signed word, sent with its low octet first, that is to be below one. -/
def wordBelowOne : WDTRecord where
  dataType := .wordLE
  operatorID := .lt
  watchpointOffset := 2
  bitMask := 0xFFFF
  comparisonValue := MultiType.setUnsigned16 .big {} 1

theorem integer_watchpoint_exact_minus_two :
    ∃ wrt', processWPOn (fun _ _ _ => false) .big wordBelowOne ⟨0, [0, 0, 0xFE, 0xFF], {}⟩ {} {}
      = some (wrt', some .isTrue) := by
  obtain ⟨⟨wrt', result, hrun, -, htrue, -⟩, -⟩ :=
    integer_watchpoint_exact (fun _ _ _ => false) .big wordBelowOne ⟨0, [0, 0, 0xFE, 0xFF], {}⟩
      {} {} ⟨2, true, .little⟩ (· < ·) rfl rfl (by decide)
  exact ⟨wrt', htrue.mpr (by decide) ▸ hrun⟩

end Nos3.Lc
