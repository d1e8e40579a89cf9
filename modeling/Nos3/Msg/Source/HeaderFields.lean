import Nos3.Msg.Source.Header
import Nos3.Base.BitField

/-!
# The header fields

Each field of the header is a bit field of one of the words, and different fields
have no bit in common. Getter and setter of a field therefore meet what is asked of a
lens, and two setters commute.
-/
namespace Nos3.Msg
open Nos3.Base.BigEndian (Octet)
open Nos3.Base.BitField (Field)
open Function (update update_self update_of_ne)

inductive HeaderField
  | headerVersion
  | type
  | hasSecondaryHeader
  | apId
  | segmentationFlag
  | sequenceCount
  | size
  | edsVersion
  | endian
  | playbackFlag
  | subsystem
  | system
  deriving DecidableEq

/-- The type of a field in its getter and setter. -/
abbrev HeaderField.Value : HeaderField → Type
  | .headerVersion | .apId | .sequenceCount | .edsVersion | .subsystem | .system => BitVec 16
  | .type => MsgType
  | .hasSecondaryHeader => Bool
  | .segmentationFlag => SegmentationFlag
  | .size => Nat
  | .endian => Endian
  | .playbackFlag => PlaybackFlag

def HeaderField.get (m : Message) : (f : HeaderField) → f.Value
  | .headerVersion => getHeaderVersion m
  | .type => getType m
  | .hasSecondaryHeader => getHasSecondaryHeader m
  | .apId => getApId m
  | .segmentationFlag => getSegmentationFlag m
  | .sequenceCount => getSequenceCount m
  | .size => getSize m
  | .edsVersion => getEDSVersion m
  | .endian => getEndian m
  | .playbackFlag => getPlaybackFlag m
  | .subsystem => getSubsystem m
  | .system => getSystem m

def HeaderField.set (m : Message) : (f : HeaderField) → f.Value → Status × Message
  | .headerVersion, v => setHeaderVersion m v
  | .type, v => setType m v
  | .hasSecondaryHeader, v => setHasSecondaryHeader m v
  | .apId, v => setApId m v
  | .segmentationFlag, v => setSegmentationFlag m v
  | .sequenceCount, v => setSequenceCount m v
  | .size, v => setSize m v
  | .edsVersion, v => setEDSVersion m v
  | .endian, v => setEndian m v
  | .playbackFlag, v => setPlaybackFlag m v
  | .subsystem, v => setSubsystem m v
  | .system, v => setSystem m v

/-- The range of a field: what its bits can hold, and the enumerators but for the invalid
one. -/
def HeaderField.InRange : (f : HeaderField) → f.Value → Prop
  | .headerVersion, v => v.toNat < 2 ^ 3
  | .type, v => v ≠ .invalid
  | .hasSecondaryHeader, _ => True
  | .apId, v => v.toNat < 2 ^ 11
  | .segmentationFlag, v => v ≠ .invalid
  | .sequenceCount, v => v.toNat < 2 ^ 14
  | .size, v => 7 ≤ v ∧ v < 2 ^ 16 + 7
  | .edsVersion, v => v.toNat < 2 ^ 5
  | .endian, v => v ≠ .invalid
  | .playbackFlag, v => v ≠ .invalid
  | .subsystem, v => v.toNat < 2 ^ 9
  | .system, _ => True

/-! ## Words -/

section Words
variable {m : Message} {offset : Nat}

/-- A word written over both its octets. -/
def setWord (m : Message) (offset : Nat) (w : BitVec 16) : Message :=
  update (update m offset ((w >>> 8).setWidth 8)) (offset + 1) (w.setWidth 8)

theorem word_setWord (m : Message) (offset : Nat) (w : BitVec 16) :
    word (setWord m offset w) offset = w := by
  rw [word, setWord, update_self, update_of_ne (Nat.ne_of_lt (Nat.lt_succ_self offset)),
    update_self]
  refine BitVec.eq_of_getLsbD_eq fun i hi => ?_
  simp only [BitVec.getLsbD_or, BitVec.getLsbD_shiftLeft, BitVec.getLsbD_setWidth,
    BitVec.getLsbD_ushiftRight, hi, decide_true, Bool.true_and]
  by_cases hlow : i < 8
  · simp [hlow]
  · have hback : 8 + (i - 8) = i := by omega
    have hrest : i - 8 < 8 := by omega
    have hrest' : i - 8 < 16 := by omega
    simp [hlow, hback, hrest, hrest']

theorem word_setWord_of_apart {offset' : Nat} (h : offset' + 2 ≤ offset ∨ offset + 2 ≤ offset')
    (m : Message) (w : BitVec 16) : word (setWord m offset w) offset' = word m offset' := by
  rw [word, word, setWord, update_of_ne (by omega), update_of_ne (by omega),
    update_of_ne (by omega), update_of_ne (by omega)]

theorem setWord_apply (m : Message) (offset : Nat) (w : BitVec 16) (i : Nat) :
    setWord m offset w i = if i = offset + 1 then w.setWidth 8
      else if i = offset then (w >>> 8).setWidth 8 else m i := by
  rw [setWord, Function.update_apply, Function.update_apply]

theorem setWord_setWord (m : Message) (offset : Nat) (w w' : BitVec 16) :
    setWord (setWord m offset w') offset w = setWord m offset w := by
  funext i
  rw [setWord_apply, setWord_apply, setWord_apply]
  split
  · rfl
  · split
    · rfl
    · rfl

theorem setWord_comm {offset' : Nat} (h : offset' + 2 ≤ offset ∨ offset + 2 ≤ offset')
    (m : Message) (w w' : BitVec 16) :
    setWord (setWord m offset w) offset' w' = setWord (setWord m offset' w') offset w := by
  funext i
  rw [setWord_apply, setWord_apply, setWord_apply, setWord_apply]
  by_cases hin : i = offset ∨ i = offset + 1
  · have hsecond : i ≠ offset' + 1 := by omega
    have hfirst : i ≠ offset' := by omega
    rw [if_neg hsecond, if_neg hfirst, if_neg hsecond, if_neg hfirst]
  · have hsecond : i ≠ offset + 1 := fun h => hin (.inr h)
    have hfirst : i ≠ offset := fun h => hin (.inl h)
    rw [if_neg hsecond, if_neg hfirst, if_neg hsecond, if_neg hfirst]

theorem getLsbD_word (m : Message) (offset : Nat) {i : Nat} (hi : i < 16) :
    (word m offset).getLsbD i =
      if i < 8 then (m (offset + 1)).getLsbD i else (m offset).getLsbD (i - 8) := by
  rw [word, BitVec.getLsbD_or, BitVec.getLsbD_shiftLeft, BitVec.getLsbD_setWidth,
    BitVec.getLsbD_setWidth]
  have hrest : i - 8 < 16 := by omega
  by_cases hlow : i < 8
  · simp [hlow, hi]
  · have hnone : (m (offset + 1)).getLsbD i = false := BitVec.getLsbD_of_ge _ _ (by omega)
    simp [hlow, hi, hrest, hnone]

theorem high_word (m : Message) (offset : Nat) : (word m offset >>> 8).setWidth 8 = m offset := by
  refine BitVec.eq_of_getLsbD_eq fun i hi => ?_
  rw [BitVec.getLsbD_setWidth, BitVec.getLsbD_ushiftRight, getLsbD_word m offset (by omega),
    if_neg (by omega), Nat.add_sub_cancel_left, decide_eq_true hi, Bool.true_and]

theorem low_word (m : Message) (offset : Nat) : (word m offset).setWidth 8 = m (offset + 1) := by
  refine BitVec.eq_of_getLsbD_eq fun i hi => ?_
  rw [BitVec.getLsbD_setWidth, getLsbD_word m offset (by omega), if_pos hi, decide_eq_true hi,
    Bool.true_and]

theorem high_and (a b : BitVec 16) :
    ((a &&& b) >>> 8).setWidth 8 = (a >>> 8).setWidth 8 &&& (b >>> 8).setWidth 8 := by
  rw [BitVec.ushiftRight_and_distrib, BitVec.setWidth_and]

theorem high_or (a b : BitVec 16) :
    ((a ||| b) >>> 8).setWidth 8 = (a >>> 8).setWidth 8 ||| (b >>> 8).setWidth 8 := by
  rw [BitVec.ushiftRight_or_distrib, BitVec.setWidth_or]

theorem high_not (mask : BitVec 16) :
    (~~~mask >>> 8).setWidth 8 = ~~~((mask >>> 8).setWidth 8) := by
  refine BitVec.eq_of_getLsbD_eq fun i hi => ?_
  have hword : 8 + i < 16 := by omega
  simp [hi, hword]

theorem low_not (mask : BitVec 16) : (~~~mask).setWidth 8 = ~~~(mask.setWidth 8) := by
  refine BitVec.eq_of_getLsbD_eq fun i hi => ?_
  have hword : i < 16 := by omega
  simp [hi, hword]

/-- A masked write is a write of the whole word with the other bits kept. -/
theorem setHeaderField_eq (m : Message) (offset : Nat) (val mask : BitVec 16) :
    setHeaderField m offset val mask =
      setWord m offset ((word m offset &&& ~~~mask) ||| (val &&& mask)) := by
  rw [setHeaderField, setWord, update_of_ne (Nat.ne_of_gt (Nat.lt_succ_self offset)),
    high_or, high_and (word m offset), high_word, high_not, BitVec.setWidth_or,
    BitVec.setWidth_and (x := word m offset), low_word, low_not]

/-- A flag in the first octet is set by a masked write too. -/
theorem setFlag_eq {mask : BitVec 16} (hmask : mask.setWidth 8 = 0#8) (m : Message) (offset : Nat)
    (flag : Bool) :
    setFlag m offset mask flag = setHeaderField m offset (if flag = true then mask else 0) mask := by
  have hlow : ∀ val : BitVec 16, (val &&& mask).setWidth 8 = 0#8 := by
    intro val
    rw [BitVec.setWidth_and, hmask, BitVec.and_zero]
  have hsame : ∀ octet : Octet, update (update m offset octet) (offset + 1) (m (offset + 1)) =
      update m offset octet := by
    intro octet
    rw [Function.update_comm (Nat.ne_of_lt (Nat.lt_succ_self offset)), Function.update_eq_self]
  rw [setFlag, setHeaderField, update_of_ne (Nat.ne_of_gt (Nat.lt_succ_self offset)), hlow, hmask,
    BitVec.not_zero, BitVec.and_allOnes, BitVec.or_zero, hsame]
  cases flag with
  | true =>
    rw [if_pos rfl, if_pos rfl, BitVec.and_self]
    congr 1
    refine BitVec.eq_of_getLsbD_eq fun i hi => ?_
    rw [BitVec.getLsbD_or, BitVec.getLsbD_or, BitVec.getLsbD_and, BitVec.getLsbD_not,
      decide_eq_true hi]
    cases ((mask >>> 8).setWidth 8).getLsbD i with
    | true => simp
    | false => simp
  | false =>
    rw [if_neg Bool.false_ne_true, if_neg Bool.false_ne_true]
    simp

/-! ## Bit fields -/

section BitFields
variable {f : Field} {mask : BitVec 16}

theorem setHeaderField_field (hmask : mask = f.mask <<< f.shift) (m : Message) (offset : Nat)
    (v : BitVec 16) :
    setHeaderField m offset (v <<< f.shift) mask =
      setWord m offset (f.set (word m offset) v) := by
  rw [setHeaderField_eq, hmask, Field.set, BitVec.shiftLeft_and_distrib]

theorem setHeaderField_low {n : Nat} (hmask : mask = Field.mask ⟨n, 0⟩) (m : Message)
    (offset : Nat) (v : BitVec 16) :
    setHeaderField m offset v mask = setWord m offset (Field.set ⟨n, 0⟩ (word m offset) v) := by
  have hfield := setHeaderField_field (f := ⟨n, 0⟩) (hmask.trans (BitVec.shiftLeft_zero _).symm) m
    offset v
  rwa [BitVec.shiftLeft_zero] at hfield

theorem getHeaderField_field (hmask : mask >>> f.shift = f.mask) (m : Message) (offset : Nat) :
    getHeaderField m offset mask >>> f.shift = f.get (word m offset) := by
  rw [getHeaderField, BitVec.ushiftRight_and_distrib, hmask, Field.get]

theorem setFlag_field (hmask : mask = 1#16 <<< f.shift) (hwidth : f.width = 1) (hhigh : 8 ≤ f.shift)
    (m : Message) (offset : Nat) (flag : Bool) :
    setFlag m offset mask flag =
      setWord m offset (f.set (word m offset) (if flag = true then 1#16 else 0#16)) := by
  have hone : (f.mask : BitVec 16) = 1#16 := by
    rw [Field.mask, hwidth]
    rfl
  have hval : (if flag = true then mask else 0) =
      (if flag = true then 1#16 else 0#16) <<< f.shift := by
    cases flag with
    | true => exact hmask
    | false => exact (BitVec.zero_shiftLeft ..).symm
  have hlow : mask.setWidth 8 = 0#8 := by
    refine BitVec.eq_of_getLsbD_eq fun i hi => ?_
    have hbelow : i < f.shift := by omega
    simp [hmask, hbelow]
  rw [setFlag_eq hlow, hval]
  exact setHeaderField_field (by rw [hone]; exact hmask) m offset _

theorem getFlag_bit {k : Nat} (hk : k < 8) (hbit : (mask >>> 8).setWidth 8 = BitVec.twoPow 8 k)
    (m : Message) (offset : Nat) : getFlag m offset mask = (m offset).getLsbD k := by
  rw [getFlag, hbit, BitVec.and_twoPow]
  cases (m offset).getLsbD k with
  | true =>
    have hone : (BitVec.twoPow 8 k).getLsbD k = true := by simp [hk]
    have hne : BitVec.twoPow 8 k ≠ 0 := fun h => by simp [h] at hone
    simpa using hne
  | false => simp

theorem setFlag_bit {k : Nat} (hk : k < 8) (hbit : (mask >>> 8).setWidth 8 = BitVec.twoPow 8 k)
    (m : Message) (offset : Nat) (flag : Bool) (i : Nat) :
    (setFlag m offset mask flag offset).getLsbD i =
      if i = k then flag else (m offset).getLsbD i := by
  rw [setFlag, update_self, hbit]
  by_cases hi : i < 8
  · cases flag with
    | true =>
      by_cases hik : i = k
      · simp [hik, hk]
      · simp [hik, Ne.symm hik]
    | false =>
      by_cases hik : i = k
      · simp [hik, hk]
      · simp [hik, hi]
  · have hne : i ≠ k := by omega
    rw [if_neg hne, BitVec.getLsbD_of_ge _ _ (Nat.not_lt.mp hi),
      BitVec.getLsbD_of_ge _ _ (Nat.not_lt.mp hi)]

theorem getFlag_field {k : Nat} (hk : k < 8) (hbit : (mask >>> 8).setWidth 8 = BitVec.twoPow 8 k)
    (m : Message) (offset : Nat) :
    getFlag m offset mask = (Field.get ⟨1, 8 + k⟩ (word m offset)).getLsbD 0 := by
  have hword : 8 + k < 16 := by omega
  have hhigh : ¬ 8 + k < 8 := by omega
  have hback : 8 + k - 8 = k := by omega
  rw [getFlag_bit hk hbit, Field.getLsbD_get]
  dsimp only [Nat.add_zero]
  rw [getLsbD_word m offset hword, if_neg hhigh, hback, decide_eq_true Nat.zero_lt_one,
    Bool.and_true]

/-- A field of the width of the word is the word. -/
theorem set_full (w v : BitVec 16) : Field.set ⟨16, 0⟩ w v = v := by
  refine BitVec.eq_of_getLsbD_eq fun i hi => ?_
  rw [Field.getLsbD_set _ _ _ hi, if_pos ⟨Nat.zero_le i, by simpa using hi⟩, Nat.sub_zero]

theorem get_full (w : BitVec 16) : Field.get ⟨16, 0⟩ w = w := by
  refine BitVec.eq_of_getLsbD_eq fun i hi => ?_
  rw [Field.getLsbD_get, Nat.zero_add, decide_eq_true hi, Bool.and_true]

theorem toNat_word (m : Message) (offset : Nat) :
    (word m offset).toNat = ((m offset).toNat <<< 8) + (m (offset + 1)).toNat := by
  have hhigh : (m offset).toNat <<< 8 < 2 ^ 16 := by
    rw [Nat.shiftLeft_eq]
    exact Nat.mul_lt_mul_of_pos_right (m offset).isLt (by decide)
  have hlow := (m (offset + 1)).isLt
  rw [word, BitVec.toNat_or, BitVec.toNat_shiftLeft, BitVec.toNat_setWidth, BitVec.toNat_setWidth,
    Nat.mod_eq_of_lt ((m offset).isLt.trans (by decide)),
    Nat.mod_eq_of_lt (hlow.trans (by decide)), Nat.mod_eq_of_lt hhigh,
    Nat.shiftLeft_add_eq_or_of_lt hlow]

/-- What a check against the complement of a low mask means. -/
theorem and_not_mask (n : Nat) (v : BitVec 16) :
    v &&& ~~~(BitVec.ofNat 16 (2 ^ n - 1)) = 0#16 ↔ v.toNat < 2 ^ n := by
  have hbits : v &&& ~~~(BitVec.ofNat 16 (2 ^ n - 1)) = 0#16 ↔
      ∀ i, n ≤ i → v.getLsbD i = false := by
    constructor
    · intro h i hi
      by_cases hlt : i < 16
      · have hbit : (v &&& ~~~(BitVec.ofNat 16 (2 ^ n - 1))).getLsbD i = false := by
          rw [h]
          exact BitVec.getLsbD_zero
        rw [BitVec.getLsbD_and, BitVec.getLsbD_not, BitVec.getLsbD_ofNat,
          Nat.testBit_two_pow_sub_one] at hbit
        simpa [hlt, Nat.not_lt.mpr hi] using hbit
      · exact BitVec.getLsbD_of_ge _ _ (Nat.not_lt.mp hlt)
    · intro h
      refine BitVec.eq_of_getLsbD_eq fun i hi => ?_
      by_cases hlow : i < n
      · rw [BitVec.getLsbD_and, BitVec.getLsbD_not, BitVec.getLsbD_ofNat,
          Nat.testBit_two_pow_sub_one]
        simp [hi, hlow]
      · simp [h i (Nat.not_lt.mp hlow)]
  rw [hbits]
  constructor
  · intro h
    exact Nat.lt_pow_two_of_testBit v.toNat fun i hi => h i hi
  · intro h i hi
    exact Nat.testBit_lt_two_pow (h.trans_le (Nat.pow_le_pow_right (by decide) hi))

end BitFields

end Words

/-! ## Every field in its word -/

def HeaderField.offset : HeaderField → Nat
  | .headerVersion | .type | .hasSecondaryHeader | .apId => STREAM_ID
  | .segmentationFlag | .sequenceCount => SEQUENCE
  | .size => LENGTH
  | .edsVersion | .endian | .playbackFlag | .subsystem => SUBSYSTEM
  | .system => SYSTEM_ID

/-- Width and place of a field in its word. -/
def HeaderField.bits : HeaderField → Field
  | .headerVersion => ⟨3, 13⟩
  | .type => ⟨1, 12⟩
  | .hasSecondaryHeader => ⟨1, 11⟩
  | .apId => ⟨11, 0⟩
  | .segmentationFlag => ⟨2, 14⟩
  | .sequenceCount => ⟨14, 0⟩
  | .size => ⟨16, 0⟩
  | .edsVersion => ⟨5, 11⟩
  | .endian => ⟨1, 10⟩
  | .playbackFlag => ⟨1, 9⟩
  | .subsystem => ⟨9, 0⟩
  | .system => ⟨16, 0⟩

def HeaderField.encode : (f : HeaderField) → f.Value → BitVec 16
  | .headerVersion, v | .apId, v | .sequenceCount, v | .edsVersion, v | .subsystem, v
  | .system, v => v
  | .type, v => if v = .cmd then 1 else 0
  | .hasSecondaryHeader, v => if v = true then 1 else 0
  | .segmentationFlag, v =>
    match v with
    | .invalid | .continue => 0
    | .first => 1
    | .last => 2
    | .unsegmented => 3
  | .size, v => BitVec.ofNat 16 (v - MSG_SIZE_OFFSET)
  | .endian, v => if v = .little then 1 else 0
  | .playbackFlag, v => if v = .playback then 1 else 0

def HeaderField.decode : (f : HeaderField) → BitVec 16 → f.Value
  | .headerVersion, x | .apId, x | .sequenceCount, x | .edsVersion, x | .subsystem, x
  | .system, x => x
  | .type, x => if x.getLsbD 0 = true then .cmd else .tlm
  | .hasSecondaryHeader, x => x.getLsbD 0
  | .segmentationFlag, x =>
    if x = 0 then .continue else if x = 1 then .first else if x = 2 then .last else .unsegmented
  | .size, x => x.toNat + MSG_SIZE_OFFSET
  | .endian, x => if x.getLsbD 0 = true then .little else .big
  | .playbackFlag, x => if x.getLsbD 0 = true then .playback else .original

theorem HeaderField.bits_fit (f : HeaderField) : f.bits.shift + f.bits.width ≤ 16 := by
  cases f <;> decide

theorem HeaderField.offset_even (f : HeaderField) : f.offset % 2 = 0 := by
  cases f <;> decide

theorem HeaderField.bits_disjoint {f g : HeaderField} (hne : f ≠ g) (hoffset : f.offset = g.offset) :
    f.bits.Disjoint g.bits := by
  cases f <;> cases g <;> first
    | exact absurd rfl hne
    | exact absurd hoffset (by decide)
    | decide

theorem toNat_ofNat_size {size : Nat} (hlow : 7 ≤ size) (hhigh : size < 2 ^ 16 + 7) :
    (BitVec.ofNat 16 (size - MSG_SIZE_OFFSET)).toNat + MSG_SIZE_OFFSET = size := by
  rw [BitVec.toNat_ofNat]
  unfold MSG_SIZE_OFFSET
  omega

theorem HeaderField.decode_encode {f : HeaderField} {v : f.Value} (hv : f.InRange v) :
    f.decode (f.encode v) = v := by
  cases f with
  | headerVersion | apId | sequenceCount | edsVersion | subsystem | system => rfl
  | type | segmentationFlag | endian | playbackFlag =>
    cases v <;> first
      | rfl
      | exact absurd rfl hv
  | hasSecondaryHeader => cases v <;> rfl
  | size =>
    exact toNat_ofNat_size hv.1 hv.2

theorem HeaderField.encode_lt {f : HeaderField} {v : f.Value} (hv : f.InRange v) :
    (f.encode v).toNat < 2 ^ f.bits.width := by
  cases f with
  | headerVersion | apId | sequenceCount | edsVersion | subsystem => exact hv
  | type | segmentationFlag | endian | playbackFlag => cases v <;> decide
  | hasSecondaryHeader => cases v <;> decide
  | size | system => exact BitVec.isLt _

theorem version_check_iff (v : BitVec 16) :
    MSG_CCSDSVER_MASK >>> MSG_CCSDSVER_SHIFT < v ↔ ¬ v.toNat < 2 ^ 3 := by
  rw [BitVec.lt_def, Nat.not_lt]
  exact Iff.rfl

theorem edsVersion_check_iff (v : BitVec 16) :
    MSG_EDSVER_MASK >>> MSG_EDSVER_SHIFT < v ↔ ¬ v.toNat < 2 ^ 5 := by
  rw [BitVec.lt_def, Nat.not_lt]
  exact Iff.rfl

theorem size_check_iff (size : Nat) :
    (size < MSG_SIZE_OFFSET ∨ 0xFFFF + MSG_SIZE_OFFSET < size) ↔
      ¬(7 ≤ size ∧ size < 2 ^ 16 + 7) := by
  unfold MSG_SIZE_OFFSET
  omega

/-- The octets written by `CFE_MSG_SetSize`. -/
theorem setWord_ofNat (m : Message) (offset size : Nat) :
    update (update m offset (BitVec.ofNat 8 (size >>> 8 &&& 0xFF))) (offset + 1)
      (BitVec.ofNat 8 (size &&& 0xFF)) = setWord m offset (BitVec.ofNat 16 size) := by
  have hand : ∀ n : Nat, n &&& 0xFF = n % 2 ^ 8 := fun n => Nat.and_two_pow_sub_one_eq_mod n 8
  rw [setWord, hand, hand]
  congr 1
  · congr 1
    refine BitVec.eq_of_toNat_eq ?_
    simp only [BitVec.toNat_ofNat, BitVec.toNat_setWidth, BitVec.toNat_ushiftRight,
      Nat.shiftRight_eq_div_pow]
    omega
  · refine BitVec.eq_of_toNat_eq ?_
    simp only [BitVec.toNat_ofNat, BitVec.toNat_setWidth]
    omega

/-- The octets written by `CFE_MSG_SetSystem`. -/
theorem setWord_octets (m : Message) (offset : Nat) (v : BitVec 16) :
    update (update m offset (((v >>> 8) &&& 0xFF).setWidth 8)) (offset + 1)
      ((v &&& 0xFF).setWidth 8) = setWord m offset v := by
  have hand : ∀ x : BitVec 16, (x &&& 0xFF).setWidth 8 = x.setWidth 8 := by
    intro x
    rw [BitVec.setWidth_and]
    exact BitVec.and_allOnes
  rw [setWord, hand, hand]

theorem HeaderField.set_eq {f : HeaderField} {v : f.Value} (hv : f.InRange v) (m : Message) :
    f.set m v = (.success, setWord m f.offset (f.bits.set (word m f.offset) (f.encode v))) := by
  cases f with
  | headerVersion =>
    exact (if_neg (not_not.mpr hv ∘ (version_check_iff v).mp)).trans (congrArg (Prod.mk _)
      (setHeaderField_field (f := ⟨3, 13⟩) rfl m STREAM_ID v))
  | edsVersion =>
    exact (if_neg (not_not.mpr hv ∘ (edsVersion_check_iff v).mp)).trans (congrArg (Prod.mk _)
      (setHeaderField_field (f := ⟨5, 11⟩) rfl m SUBSYSTEM v))
  | apId =>
    exact (if_neg (not_not.mpr ((and_not_mask 11 v).mpr hv))).trans (congrArg (Prod.mk _)
      (setHeaderField_low (n := 11) rfl m STREAM_ID v))
  | sequenceCount =>
    exact (if_neg (not_not.mpr ((and_not_mask 14 v).mpr hv))).trans (congrArg (Prod.mk _)
      (setHeaderField_low (n := 14) rfl m SEQUENCE v))
  | subsystem =>
    exact (if_neg (not_not.mpr ((and_not_mask 9 v).mpr hv))).trans (congrArg (Prod.mk _)
      (setHeaderField_low (n := 9) rfl m SUBSYSTEM v))
  | type =>
    cases v with
    | invalid => exact absurd rfl hv
    | cmd => exact congrArg (Prod.mk _) (setFlag_field (f := ⟨1, 12⟩) rfl rfl (by decide) m _ true)
    | tlm => exact congrArg (Prod.mk _) (setFlag_field (f := ⟨1, 12⟩) rfl rfl (by decide) m _ false)
  | hasSecondaryHeader =>
    exact congrArg (Prod.mk _) (setFlag_field (f := ⟨1, 11⟩) rfl rfl (by decide) m _ v)
  | segmentationFlag =>
    cases v with
    | invalid => exact absurd rfl hv
    | «continue» =>
      exact congrArg (Prod.mk _) (setHeaderField_field (f := ⟨2, 14⟩) rfl m SEQUENCE 0)
    | first => exact congrArg (Prod.mk _) (setHeaderField_field (f := ⟨2, 14⟩) rfl m SEQUENCE 1)
    | last => exact congrArg (Prod.mk _) (setHeaderField_field (f := ⟨2, 14⟩) rfl m SEQUENCE 2)
    | unsegmented =>
      exact congrArg (Prod.mk _) (setHeaderField_field (f := ⟨2, 14⟩) rfl m SEQUENCE 3)
  | size =>
    have hval : setWord m LENGTH (BitVec.ofNat 16 (v - MSG_SIZE_OFFSET)) = setWord m LENGTH
        (Field.set ⟨16, 0⟩ (word m LENGTH) (BitVec.ofNat 16 (v - MSG_SIZE_OFFSET))) := by
      rw [set_full]
    exact (if_neg (not_not.mpr hv ∘ (size_check_iff v).mp)).trans (congrArg (Prod.mk _)
      ((setWord_ofNat m LENGTH (v - MSG_SIZE_OFFSET)).trans hval))
  | endian =>
    cases v with
    | invalid => exact absurd rfl hv
    | little =>
      exact congrArg (Prod.mk _) (setFlag_field (f := ⟨1, 10⟩) rfl rfl (by decide) m _ true)
    | big => exact congrArg (Prod.mk _) (setFlag_field (f := ⟨1, 10⟩) rfl rfl (by decide) m _ false)
  | playbackFlag =>
    cases v with
    | invalid => exact absurd rfl hv
    | playback =>
      exact congrArg (Prod.mk _) (setFlag_field (f := ⟨1, 9⟩) rfl rfl (by decide) m _ true)
    | original =>
      exact congrArg (Prod.mk _) (setFlag_field (f := ⟨1, 9⟩) rfl rfl (by decide) m _ false)
  | system =>
    have hval : setWord m SYSTEM_ID v =
        setWord m SYSTEM_ID (Field.set ⟨16, 0⟩ (word m SYSTEM_ID) v) := by
      rw [set_full]
    exact congrArg (Prod.mk _) ((setWord_octets m SYSTEM_ID v).trans hval)

/-- The two bits of the segmentation flag, in their place in the word. -/
theorem segmentation_raw (m : Message) : getHeaderField m SEQUENCE MSG_SEGFLG_MASK =
    Field.get ⟨2, 14⟩ (word m SEQUENCE) <<< 14 := by
  have hmask : MSG_SEGFLG_MASK = Field.mask ⟨2, 14⟩ <<< 14 := rfl
  refine BitVec.eq_of_getLsbD_eq fun i hi => ?_
  rw [getHeaderField, hmask, BitVec.getLsbD_and, BitVec.getLsbD_shiftLeft,
    BitVec.getLsbD_shiftLeft, Field.getLsbD_get, Field.getLsbD_mask]
  by_cases hlow : i < 14
  · simp [hlow]
  · have hback : 14 + (i - 14) = i := by omega
    have hrest : i - 14 < 16 := by omega
    simp [hlow, hi, hback, hrest]

theorem HeaderField.get_eq (f : HeaderField) (m : Message) :
    f.get m = f.decode (f.bits.get (word m f.offset)) := by
  cases f with
  | headerVersion => exact getHeaderField_field (f := ⟨3, 13⟩) rfl m STREAM_ID
  | edsVersion => exact getHeaderField_field (f := ⟨5, 11⟩) rfl m SUBSYSTEM
  | apId => exact getHeaderField_field (f := ⟨11, 0⟩) rfl m STREAM_ID
  | sequenceCount => exact getHeaderField_field (f := ⟨14, 0⟩) rfl m SEQUENCE
  | subsystem => exact getHeaderField_field (f := ⟨9, 0⟩) rfl m SUBSYSTEM
  | type =>
    exact congrArg (fun b : Bool => if b = true then MsgType.cmd else .tlm)
      (getFlag_field (k := 4) (by decide) rfl m STREAM_ID)
  | hasSecondaryHeader => exact getFlag_field (k := 3) (by decide) rfl m STREAM_ID
  | endian =>
    exact congrArg (fun b : Bool => if b = true then Endian.little else .big)
      (getFlag_field (k := 2) (by decide) rfl m SUBSYSTEM)
  | playbackFlag =>
    exact congrArg (fun b : Bool => if b = true then PlaybackFlag.playback else .original)
      (getFlag_field (k := 1) (by decide) rfl m SUBSYSTEM)
  | segmentationFlag =>
    have hlt : (Field.get ⟨2, 14⟩ (word m SEQUENCE)).toNat < 4 := Field.get_lt _ _
    have hraw := segmentation_raw m
    change getSegmentationFlag m = decode .segmentationFlag (Field.get ⟨2, 14⟩ (word m SEQUENCE))
    rw [getSegmentationFlag, hraw]
    generalize Field.get ⟨2, 14⟩ (word m SEQUENCE) = x at hlt
    have hcases : x = 0#16 ∨ x = 1#16 ∨ x = 2#16 ∨ x = 3#16 := by bv_omega
    rcases hcases with rfl | rfl | rfl | rfl <;> rfl
  | size =>
    have hval : getSize m = (Field.get ⟨16, 0⟩ (word m LENGTH)).toNat + MSG_SIZE_OFFSET := by
      rw [get_full, toNat_word, getSize]
    exact hval
  | system =>
    have hval : getSystem m = Field.get ⟨16, 0⟩ (word m SYSTEM_ID) := by
      rw [get_full]
      refine BitVec.eq_of_toNat_eq ?_
      rw [toNat_word, getSystem, BitVec.toNat_add, BitVec.toNat_shiftLeft, BitVec.toNat_setWidth,
        BitVec.toNat_setWidth, Nat.shiftLeft_eq, Nat.shiftLeft_eq]
      have hhigh := (m SYSTEM_ID).isLt
      have hlow := (m (SYSTEM_ID + 1)).isLt
      omega
    exact hval

theorem HeaderField.set_rejected {f : HeaderField} {v : f.Value} (hv : ¬ f.InRange v) (m : Message) :
    f.set m v = (.badArgument, m) := by
  cases f with
  | headerVersion => exact if_pos ((version_check_iff v).mpr hv)
  | edsVersion => exact if_pos ((edsVersion_check_iff v).mpr hv)
  | apId => exact if_pos (mt (and_not_mask 11 v).mp hv)
  | sequenceCount => exact if_pos (mt (and_not_mask 14 v).mp hv)
  | subsystem => exact if_pos (mt (and_not_mask 9 v).mp hv)
  | type | segmentationFlag | endian | playbackFlag =>
    obtain rfl := not_not.mp hv
    rfl
  | hasSecondaryHeader | system => exact absurd trivial hv
  | size => exact if_pos ((size_check_iff v).mpr hv)

/-! ## The laws -/

/-- Different fields lie apart: in different words, or in different bits of one word. -/
theorem HeaderField.apart {f g : HeaderField} (hne : f ≠ g) :
    (f.offset + 2 ≤ g.offset ∨ g.offset + 2 ≤ f.offset) ∨
      f.offset = g.offset ∧ f.bits.Disjoint g.bits := by
  by_cases heq : f.offset = g.offset
  · exact .inr ⟨heq, bits_disjoint hne heq⟩
  · have hf := f.offset_even
    have hg := g.offset_even
    exact .inl (by omega)

theorem HeaderField.get_set {f : HeaderField} {v : f.Value} (hv : f.InRange v) (m : Message) :
    f.get (f.set m v).2 = v := by
  rw [set_eq hv, get_eq, word_setWord, Field.get_set f.bits_fit _ (encode_lt hv),
    decode_encode hv]

theorem HeaderField.get_set_of_ne {f g : HeaderField} (hne : f ≠ g) (v : f.Value) (m : Message) :
    g.get (f.set m v).2 = g.get m := by
  by_cases hv : f.InRange v
  · rw [set_eq hv, get_eq, get_eq]
    rcases apart hne with hapart | ⟨hsame, hdisjoint⟩
    · rw [word_setWord_of_apart hapart.symm]
    · rw [← hsame, word_setWord, Field.get_set_of_disjoint hdisjoint.symm]
  · rw [set_rejected hv]

theorem HeaderField.set_comm {f g : HeaderField} (hne : f ≠ g) (v : f.Value) (u : g.Value)
    (m : Message) : (g.set (f.set m v).2 u).2 = (f.set (g.set m u).2 v).2 := by
  by_cases hv : f.InRange v
  · by_cases hu : g.InRange u
    · rw [set_eq hv, set_eq hu, set_eq hu, set_eq hv]
      rcases apart hne with hapart | ⟨hsame, hdisjoint⟩
      · rw [word_setWord_of_apart hapart.symm, word_setWord_of_apart hapart,
          setWord_comm hapart.symm]
      · rw [← hsame, word_setWord, word_setWord, setWord_setWord, setWord_setWord,
          Field.set_comm hdisjoint]
    · rw [set_rejected hu, set_rejected hu]
  · rw [set_rejected hv, set_rejected hv]

theorem HeaderField.set_status (f : HeaderField) (v : f.Value) (m m' : Message) :
    (f.set m v).1 = (f.set m' v).1 := by
  by_cases hv : f.InRange v
  · rw [set_eq hv, set_eq hv]
  · rw [set_rejected hv, set_rejected hv]

end Nos3.Msg
