import Nos3.Msg.Source.HeaderFields

/-!
# The header fields as lenses

A message id is put together from bits of two words, some of them only parts of a field.
Set and read back it is a lens too, on just these bits.
-/
namespace Nos3.Msg
open Function (update update_self update_of_ne)

/-! ## Message ids -/

section MsgIds
variable {i : Nat}

theorem getLsbD_apid_mask : MSG_MSGID_APID_MASK.getLsbD i = decide (i < 7) := by
  have hmask : MSG_MSGID_APID_MASK = BitVec.ofNat 32 (2 ^ 7 - 1) := rfl
  rw [hmask, BitVec.getLsbD_ofNat, Nat.testBit_two_pow_sub_one]
  by_cases hi : i < 7
  · simp [hi, Nat.lt_trans hi (by decide : 7 < 32)]
  · simp [hi]

theorem getLsbD_subsys_mask :
    MSG_MSGID_SUBSYS_MASK.getLsbD i = (decide (8 ≤ i) && decide (i < 16)) := by
  have hmask : MSG_MSGID_SUBSYS_MASK = BitVec.ofNat 32 (2 ^ 8 - 1) <<< 8 := rfl
  rw [hmask, BitVec.getLsbD_shiftLeft, BitVec.getLsbD_ofNat, Nat.testBit_two_pow_sub_one]
  by_cases hlow : i < 8
  · simp [hlow]
  · by_cases hhigh : i < 16
    · have hrest : i - 8 < 8 := by omega
      have hword : i < 32 := by omega
      have hword' : i - 8 < 32 := by omega
      simp [hlow, hhigh, hrest, hword, hword', Nat.not_lt.mp hlow]
    · have hrest : ¬ i - 8 < 8 := by omega
      simp [hhigh, hrest]

theorem getLsbD_type_mask : MSG_MSGID_TYPE_MASK.getLsbD i = decide (i = 7) := by
  have hmask : MSG_MSGID_TYPE_MASK = BitVec.twoPow 32 7 := rfl
  rw [hmask, BitVec.getLsbD_twoPow]
  simp [eq_comm]

theorem getType_eq_cmd (m : Message) : getType m = .cmd ↔ (m STREAM_ID).getLsbD 4 = true := by
  rw [getType, getFlag_bit (k := 4) (by decide) rfl]
  cases (m STREAM_ID).getLsbD 4 with
  | true => decide
  | false => decide

/-- The bits of a message id. -/
theorem getLsbD_getMsgId (m : Message) (i : Nat) :
    (getMsgId m).getLsbD i =
      if i < 7 then (m (STREAM_ID + 1)).getLsbD i
      else if i = 7 then (m STREAM_ID).getLsbD 4
      else decide (i < 16) && (m (SUBSYSTEM + 1)).getLsbD (i - 8) := by
  have htype : ∀ x : BitVec 32,
      (if getType m = .cmd then x ||| MSG_MSGID_TYPE_MASK else x).getLsbD i =
        (x.getLsbD i || (decide (i = 7) && (m STREAM_ID).getLsbD 4)) := by
    intro x
    split
    case isTrue hcmd => rw [BitVec.getLsbD_or, getLsbD_type_mask, (getType_eq_cmd m).mp hcmd,
      Bool.and_true]
    case isFalse hcmd => rw [Bool.eq_false_iff.mpr (mt (getType_eq_cmd m).mpr hcmd), Bool.and_false,
      Bool.or_false]
  rw [getMsgId, BitVec.getLsbD_or, htype, BitVec.getLsbD_and, BitVec.getLsbD_and,
    getLsbD_apid_mask, getLsbD_subsys_mask, BitVec.getLsbD_setWidth, BitVec.getLsbD_shiftLeft,
    BitVec.getLsbD_setWidth]
  by_cases hapid : i < 7
  · have hword : i < 32 := by omega
    have hne : i ≠ 7 := by omega
    have hsub : ¬ 8 ≤ i := by omega
    simp [hapid, hword, hne, hsub]
  · by_cases hseven : i = 7
    · simp [hseven]
    · have hsub : 8 ≤ i := by omega
      by_cases hhigh : i < 16
      · have hword : i < 32 := by omega
        have hword' : i - 8 < 32 := by omega
        simp [hapid, hseven, hsub, hhigh, hword, hword', Nat.not_lt.mpr hsub]
      · simp [hapid, hseven, hhigh]

/-- The bits of a message id, in their words. -/
theorem getLsbD_stream_bits (m : Message) (hi : i < 16) :
    (word m STREAM_ID &&& 0x107F).getLsbD i =
      ((decide (i < 7) && (m (STREAM_ID + 1)).getLsbD i) ||
        (decide (i = 12) && (m STREAM_ID).getLsbD 4)) := by
  have hmask : ∀ i : Fin 16, (0x107F : BitVec 16).getLsbD i = (decide (i.val < 7) ||
      decide (i.val = 12)) := by decide
  rw [BitVec.getLsbD_and, hmask ⟨i, hi⟩, getLsbD_word m STREAM_ID hi]
  by_cases htype : i = 12
  · subst htype
    simp
  · by_cases hapid : i < 7
    · have hlow : i < 8 := by omega
      simp [htype, hapid, hlow]
    · simp [htype, hapid]

theorem getLsbD_subsystem_bits (m : Message) (hi : i < 16) :
    (word m SUBSYSTEM &&& 0x00FF).getLsbD i =
      (decide (i < 8) && (m (SUBSYSTEM + 1)).getLsbD i) := by
  have hmask : ∀ i : Fin 16, (0x00FF : BitVec 16).getLsbD i = decide (i.val < 8) := by decide
  rw [BitVec.getLsbD_and, hmask ⟨i, hi⟩, getLsbD_word m SUBSYSTEM hi]
  by_cases hlow : i < 8
  · simp [hlow]
  · simp [hlow]

/-- What an id is made of. -/
structure SameIdBits (m m' : Message) : Prop where
  apid : ∀ i < 7, (m (STREAM_ID + 1)).getLsbD i = (m' (STREAM_ID + 1)).getLsbD i
  type : (m STREAM_ID).getLsbD 4 = (m' STREAM_ID).getLsbD 4
  subsystem : ∀ i < 8, (m (SUBSYSTEM + 1)).getLsbD i = (m' (SUBSYSTEM + 1)).getLsbD i

theorem getMsgId_eq_iff_bits (m m' : Message) : getMsgId m = getMsgId m' ↔ SameIdBits m m' := by
  constructor
  · intro h
    have hbit : ∀ i, (getMsgId m).getLsbD i = (getMsgId m').getLsbD i := fun i => by rw [h]
    refine ⟨fun i hi => ?_, ?_, fun i hi => ?_⟩
    · simpa [getLsbD_getMsgId, hi] using hbit i
    · have hseven := hbit 7
      rw [getLsbD_getMsgId, getLsbD_getMsgId] at hseven
      simpa using hseven
    · have hne : i + 8 ≠ 7 := by omega
      have hapid : ¬ i + 8 < 7 := by omega
      have hlt : i + 8 < 16 := by omega
      simpa [getLsbD_getMsgId, hne, hapid, hlt] using hbit (i + 8)
  · intro h
    refine BitVec.eq_of_getLsbD_eq fun i _ => ?_
    rw [getLsbD_getMsgId, getLsbD_getMsgId, h.type]
    split
    · exact h.apid i ‹_›
    · split
      · rfl
      · by_cases hlt : i < 16
        · rw [h.subsystem (i - 8) (by omega)]
        · simp [hlt]

theorem word_eq_iff_bits (m m' : Message) :
    (word m STREAM_ID &&& 0x107F = word m' STREAM_ID &&& 0x107F ∧
      word m SUBSYSTEM &&& 0x00FF = word m' SUBSYSTEM &&& 0x00FF) ↔ SameIdBits m m' := by
  constructor
  · rintro ⟨hstream, hsubsystem⟩
    have hbit : ∀ i, (word m STREAM_ID &&& 0x107F).getLsbD i =
      (word m' STREAM_ID &&& 0x107F).getLsbD i := fun i => by rw [hstream]
    have hbit' : ∀ i, (word m SUBSYSTEM &&& 0x00FF).getLsbD i =
      (word m' SUBSYSTEM &&& 0x00FF).getLsbD i := fun i => by rw [hsubsystem]
    refine ⟨fun i hi => ?_, ?_, fun i hi => ?_⟩
    · have hword : i < 16 := by omega
      have hne : i ≠ 12 := by omega
      have hsame := hbit i
      rw [getLsbD_stream_bits m hword, getLsbD_stream_bits m' hword] at hsame
      simpa [hi, hne] using hsame
    · have hsame := hbit 12
      rw [getLsbD_stream_bits m (by decide), getLsbD_stream_bits m' (by decide)] at hsame
      simpa using hsame
    · have hword : i < 16 := by omega
      have hsame := hbit' i
      rw [getLsbD_subsystem_bits m hword, getLsbD_subsystem_bits m' hword] at hsame
      simpa [hi] using hsame
  · intro h
    refine ⟨BitVec.eq_of_getLsbD_eq fun i hi => ?_, BitVec.eq_of_getLsbD_eq fun i hi => ?_⟩
    · rw [getLsbD_stream_bits m hi, getLsbD_stream_bits m' hi, h.type]
      by_cases hapid : i < 7
      · rw [h.apid i hapid]
      · simp [hapid]
    · rw [getLsbD_subsystem_bits m hi, getLsbD_subsystem_bits m' hi]
      by_cases hlow : i < 8
      · rw [h.subsystem i hlow]
      · simp [hlow]

/-! ### Setting the id -/

section SetMsgId
variable {msgId : BitVec 32}

theorem setMsgId_status (h : msgId ≤ PLATFORM_SB_HIGHEST_VALID_MSGID) (m : Message) :
    (setMsgId m msgId).1 = .success := by
  rw [setMsgId, if_neg (BitVec.not_lt.mpr h)]

theorem setMsgId_eq (h : msgId ≤ PLATFORM_SB_HIGHEST_VALID_MSGID) (m : Message) :
    (setMsgId m msgId).2 = setFlag
      (update (update m (STREAM_ID + 1)
          ((m (STREAM_ID + 1) &&& ~~~MSG_MSGID_APID_MASK.setWidth 8) |||
            (msgId &&& MSG_MSGID_APID_MASK).setWidth 8))
        (SUBSYSTEM + 1) (((msgId &&& MSG_MSGID_SUBSYS_MASK) >>> 8).setWidth 8))
      STREAM_ID MSG_TYPE_MASK (msgId.getLsbD 7) := by
  have htype : msgId &&& MSG_MSGID_TYPE_MASK =
      if msgId.getLsbD 7 = true then MSG_MSGID_TYPE_MASK else 0#32 := BitVec.and_twoPow msgId 7
  rw [setMsgId, if_neg (BitVec.not_lt.mpr h), htype]
  cases msgId.getLsbD 7 with
  | true => rfl
  | false => rfl

theorem setMsgId_octet (h : msgId ≤ PLATFORM_SB_HIGHEST_VALID_MSGID) (m : Message)
    {a : Nat} (htype : a ≠ STREAM_ID) (hapid : a ≠ STREAM_ID + 1) (hsub : a ≠ SUBSYSTEM + 1) :
    (setMsgId m msgId).2 a = m a := by
  rw [setMsgId_eq h, setFlag, update_of_ne htype, update_of_ne hsub, update_of_ne hapid]

theorem setMsgId_type (h : msgId ≤ PLATFORM_SB_HIGHEST_VALID_MSGID) (m : Message) (i : Nat) :
    ((setMsgId m msgId).2 STREAM_ID).getLsbD i =
      if i = 4 then msgId.getLsbD 7 else (m STREAM_ID).getLsbD i := by
  rw [setMsgId_eq h, setFlag_bit (k := 4) (by decide) rfl, update_of_ne (by decide),
    update_of_ne (by decide)]

theorem setMsgId_apid (h : msgId ≤ PLATFORM_SB_HIGHEST_VALID_MSGID) (m : Message) (i : Nat) :
    ((setMsgId m msgId).2 (STREAM_ID + 1)).getLsbD i =
      if i < 7 then msgId.getLsbD i else (m (STREAM_ID + 1)).getLsbD i := by
  rw [setMsgId_eq h, setFlag, update_of_ne (by decide), update_of_ne (by decide), update_self,
    BitVec.getLsbD_or, BitVec.getLsbD_and, BitVec.getLsbD_not, BitVec.getLsbD_setWidth,
    BitVec.getLsbD_setWidth, BitVec.getLsbD_and, getLsbD_apid_mask]
  by_cases hoctet : i < 8
  · by_cases hapid : i < 7
    · simp [hapid, hoctet]
    · simp [hapid, hoctet]
  · have hapid : ¬ i < 7 := by omega
    have hnone : (m (STREAM_ID + 1)).getLsbD i = false :=
      BitVec.getLsbD_of_ge _ _ (Nat.not_lt.mp hoctet)
    simp [hapid, hoctet, hnone]

theorem setMsgId_subsystem (h : msgId ≤ PLATFORM_SB_HIGHEST_VALID_MSGID) (m : Message) {i : Nat}
    (hi : i < 8) : ((setMsgId m msgId).2 (SUBSYSTEM + 1)).getLsbD i = msgId.getLsbD (8 + i) := by
  have hhigh : 8 + i < 16 := by omega
  rw [setMsgId_eq h, setFlag, update_of_ne (by decide), update_self, BitVec.getLsbD_setWidth,
    BitVec.getLsbD_ushiftRight, BitVec.getLsbD_and, getLsbD_subsys_mask, decide_eq_true hi,
    decide_eq_true (Nat.le_add_right 8 i), decide_eq_true hhigh, Bool.true_and, Bool.true_and,
    Bool.and_true]

/-- The id that was set is read back. -/
theorem getMsgId_setMsgId (h : msgId ≤ PLATFORM_SB_HIGHEST_VALID_MSGID) (m : Message) :
    getMsgId (setMsgId m msgId).2 = msgId := by
  refine BitVec.eq_of_getLsbD_eq fun i _ => ?_
  rw [getLsbD_getMsgId, setMsgId_apid h, setMsgId_type h]
  by_cases hapid : i < 7
  · rw [if_pos hapid, if_pos hapid]
  · rw [if_neg hapid]
    by_cases hseven : i = 7
    · rw [if_pos hseven, if_pos rfl, hseven]
    · rw [if_neg hseven]
      by_cases hhigh : i < 16
      · rw [setMsgId_subsystem h m (by omega), decide_eq_true hhigh, Bool.true_and]
        congr 1
        omega
      · -- no id that is accepted has a bit up there
        have hlt : msgId.toNat < 2 ^ 16 := by
          have hle : msgId.toNat ≤ PLATFORM_SB_HIGHEST_VALID_MSGID.toNat := h
          exact hle.trans_lt (by decide)
        rw [decide_eq_false hhigh, Bool.false_and, eq_comm]
        exact Nat.testBit_lt_two_pow
          (hlt.trans_le (Nat.pow_le_pow_right (by decide) (Nat.not_lt.mp hhigh)))

/-- Of the two words that hold bits of an id, the other bits stay as they are. -/
theorem setMsgId_stream_rest (h : msgId ≤ PLATFORM_SB_HIGHEST_VALID_MSGID) (m : Message) :
    word (setMsgId m msgId).2 STREAM_ID &&& ~~~0x107F = word m STREAM_ID &&& ~~~0x107F := by
  have hmask : ∀ i : Fin 16, (~~~0x107F : BitVec 16).getLsbD i = (decide (7 ≤ i.val) &&
      decide (i.val ≠ 12)) := by decide
  refine BitVec.eq_of_getLsbD_eq fun i hi => ?_
  rw [BitVec.getLsbD_and, BitVec.getLsbD_and, hmask ⟨i, hi⟩, getLsbD_word _ STREAM_ID hi,
    getLsbD_word m STREAM_ID hi, setMsgId_apid h, setMsgId_type h]
  by_cases htype : i = 12
  · simp [htype]
  · by_cases hapid : i < 7
    · simp [Nat.not_le.mpr hapid]
    · have hne : i - 8 ≠ 4 := by omega
      rw [if_neg hapid, if_neg hne]

theorem setMsgId_subsystem_rest (h : msgId ≤ PLATFORM_SB_HIGHEST_VALID_MSGID) (m : Message) :
    word (setMsgId m msgId).2 SUBSYSTEM &&& ~~~0x00FF = word m SUBSYSTEM &&& ~~~0x00FF := by
  have hmask : ∀ i : Fin 16, (~~~0x00FF : BitVec 16).getLsbD i = decide (8 ≤ i.val) := by decide
  refine BitVec.eq_of_getLsbD_eq fun i hi => ?_
  rw [BitVec.getLsbD_and, BitVec.getLsbD_and, hmask ⟨i, hi⟩, getLsbD_word _ SUBSYSTEM hi,
    getLsbD_word m SUBSYSTEM hi]
  by_cases hlow : i < 8
  · simp [Nat.not_le.mpr hlow]
  · rw [if_neg hlow, if_neg hlow, setMsgId_octet h m (by decide) (by decide) (by decide)]

end SetMsgId

end MsgIds

/-! ## The header -/

/-- Every field is a lens that is independent of all others, a value out of range is refused
without a change, and message ids are lenses on the bits they are made of. -/
theorem header_fields_independent :
    (∀ (f : HeaderField) (v : f.Value) (m : Message), f.InRange v →
      (f.set m v).1 = .success ∧ f.get (f.set m v).2 = v ∧
      ∀ g : HeaderField, g ≠ f → g.get (f.set m v).2 = g.get m ∧
        ∀ u : g.Value, (g.set (f.set m v).2 u).1 = (g.set m u).1 ∧
          (g.set (f.set m v).2 u).2 = (f.set (g.set m u).2 v).2) ∧
    (∀ (f : HeaderField) (v : f.Value) (m : Message), ¬ f.InRange v →
      f.set m v = (.badArgument, m)) ∧
    (∀ (m : Message) (msgId : BitVec 32), msgId ≤ PLATFORM_SB_HIGHEST_VALID_MSGID →
      (setMsgId m msgId).1 = .success ∧ getMsgId (setMsgId m msgId).2 = msgId ∧
      word (setMsgId m msgId).2 STREAM_ID &&& ~~~0x107F = word m STREAM_ID &&& ~~~0x107F ∧
      word (setMsgId m msgId).2 SUBSYSTEM &&& ~~~0x00FF = word m SUBSYSTEM &&& ~~~0x00FF ∧
      ∀ a, a ≠ STREAM_ID → a ≠ STREAM_ID + 1 → a ≠ SUBSYSTEM + 1 →
        (setMsgId m msgId).2 a = m a) ∧
    ∀ m m' : Message, getMsgId m = getMsgId m' ↔
      word m STREAM_ID &&& 0x107F = word m' STREAM_ID &&& 0x107F ∧
        word m SUBSYSTEM &&& 0x00FF = word m' SUBSYSTEM &&& 0x00FF := by
  refine ⟨fun f v m hv => ⟨?_, HeaderField.get_set hv m, fun g hne => ⟨?_, fun u => ⟨?_, ?_⟩⟩⟩,
    fun f v m hv => HeaderField.set_rejected hv m, fun m msgId h => ?_, fun m m' => ?_⟩
  · rw [HeaderField.set_eq hv]
  · exact HeaderField.get_set_of_ne hne.symm v m
  · exact HeaderField.set_status g u _ _
  · exact HeaderField.set_comm hne.symm v u m
  · exact ⟨setMsgId_status h m, getMsgId_setMsgId h m, setMsgId_stream_rest h m,
      setMsgId_subsystem_rest h m, fun a => setMsgId_octet h m⟩
  · exact (getMsgId_eq_iff_bits m m').trans (word_eq_iff_bits m m').symm

end Nos3.Msg
