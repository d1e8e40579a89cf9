import Nos3.Msg.Source.HeaderFields

/-!
# The checksum of a command

The header is updated before a message is sent: the sequence count first, then the
time or the checksum. The exclusive or of all octets of a valid command is `0xFF`, so
a change to one octet shows.
-/
namespace Nos3.Msg
open Nos3.Base.BigEndian (Octet)
open Nos3.Base.BitField (Field)
open Function (update update_self update_of_ne)

variable {m m' : Message} {layout : Layout} {currentTime : SysTime} {seqCnt : BitVec 16}
  {a n start : Nat} {octet : Octet}

/-! ## The exclusive or of a message -/

theorem checkSumLoop_xor (m : Message) (n start : Nat) (chksum x : BitVec 32) :
    checkSumLoop m n start (chksum ^^^ x) = checkSumLoop m n start chksum ^^^ x := by
  induction n generalizing start chksum with
  | zero => rfl
  | succ n ih =>
    rw [checkSumLoop, checkSumLoop, ← ih, BitVec.xor_assoc, BitVec.xor_comm x, ← BitVec.xor_assoc]

theorem checkSumLoop_congr (h : ∀ i, start ≤ i → i < start + n → m i = m' i) (chksum : BitVec 32) :
    checkSumLoop m n start chksum = checkSumLoop m' n start chksum := by
  induction n generalizing start chksum with
  | zero => rfl
  | succ n ih =>
    rw [checkSumLoop, checkSumLoop, h start (Nat.le_refl _) (by omega)]
    exact ih (fun i hlow hhigh => h i (by omega) (by omega)) _

theorem checkSumLoop_lt (m : Message) (n start : Nat) {chksum : BitVec 32}
    (h : chksum.toNat < 2 ^ 8) : (checkSumLoop m n start chksum).toNat < 2 ^ 8 := by
  induction n generalizing start chksum with
  | zero => exact h
  | succ n ih =>
    refine ih _ ?_
    rw [BitVec.toNat_xor, BitVec.toNat_setWidth]
    exact Nat.xor_lt_two_pow h ((Nat.mod_le _ _).trans_lt (m start).isLt)

/-- The octet at a place enters the checksum by one exclusive or. -/
theorem checkSumLoop_update (hlow : start ≤ a) (hhigh : a < start + n) (m : Message)
    (octet : Octet) (chksum : BitVec 32) :
    checkSumLoop (update m a octet) n start chksum =
      checkSumLoop (update m a 0) n start chksum ^^^ octet.setWidth 32 := by
  induction n generalizing start chksum with
  | zero => omega
  | succ n ih =>
    rw [checkSumLoop, checkSumLoop]
    by_cases hstart : start = a
    · subst hstart
      have hrest : ∀ i, start + 1 ≤ i → i < start + 1 + n →
          update m start octet i = update m start 0 i := by
        intro i hi _
        rw [update_of_ne (by omega), update_of_ne (by omega)]
      have hzero : (0 : Octet).setWidth 32 = 0#32 := rfl
      rw [update_self, update_self, checkSumLoop_xor, checkSumLoop_congr hrest, hzero,
        BitVec.xor_zero]
    · rw [update_of_ne hstart, update_of_ne hstart]
      exact ih (by omega) (by omega) _

/-! ## The first words -/

/-- The type, the flag of the secondary header and the length of two messages are the same. -/
structure SameKind (m m' : Message) : Prop where
  type : getType m' = getType m
  hasSecondary : getHasSecondaryHeader m' = getHasSecondaryHeader m
  size : getSize m' = getSize m

theorem SameKind.trans {m'' : Message} (h : SameKind m m') (h' : SameKind m' m'') :
    SameKind m m'' :=
  ⟨h'.type.trans h.type, h'.hasSecondary.trans h.hasSecondary, h'.size.trans h.size⟩

theorem sameKind_of_octets (htype : m' STREAM_ID = m STREAM_ID) (hhigh : m' LENGTH = m LENGTH)
    (hlow : m' (LENGTH + 1) = m (LENGTH + 1)) : SameKind m m' where
  type := by rw [getType, getType, getFlag, getFlag, htype]
  hasSecondary := by rw [getHasSecondaryHeader, getHasSecondaryHeader, getFlag, getFlag, htype]
  size := by rw [getSize, getSize, hhigh, hlow]

/-! ## The three parts of the update -/

theorem setSequenceCount_octet (m : Message) (seqCnt : BitVec 16) (hfirst : a ≠ SEQUENCE)
    (hsecond : a ≠ SEQUENCE + 1) : (setSequenceCount m seqCnt).2 a = m a := by
  rw [setSequenceCount]
  split
  · rfl
  · dsimp only
    rw [setHeaderField_eq, setWord_apply, if_neg hsecond, if_neg hfirst]

/-- A masked write keeps the bits outside of the mask. -/
theorem masked_rest (w val mask : BitVec 16) :
    ((w &&& ~~~mask) ||| (val &&& mask)) &&& ~~~mask = w &&& ~~~mask := by
  refine BitVec.eq_of_getLsbD_eq fun i hi => ?_
  rw [BitVec.getLsbD_and, BitVec.getLsbD_or, BitVec.getLsbD_and, BitVec.getLsbD_and,
    BitVec.getLsbD_not]
  cases mask.getLsbD i with
  | true => simp
  | false => simp [hi]

theorem setSequenceCount_rest (m : Message) (seqCnt : BitVec 16) :
    word (setSequenceCount m seqCnt).2 SEQUENCE &&& ~~~MSG_SEQCNT_MASK =
      word m SEQUENCE &&& ~~~MSG_SEQCNT_MASK := by
  rw [setSequenceCount]
  split
  · rfl
  · dsimp only
    rw [setHeaderField_eq, word_setWord, masked_rest]

theorem setMsgTime_octet (layout : Layout) (m : Message) (newTime : SysTime)
    (ha : getType m = .tlm → getHasSecondaryHeader m = true →
      a < layout.secondaryHeader ∨ layout.secondaryHeader + 6 ≤ a) :
    (setMsgTime layout m newTime).2 a = m a := by
  rw [setMsgTime]
  split
  case isTrue => rfl
  case isFalse hkind =>
    rw [not_or, not_not, Bool.not_eq_false] at hkind
    have hout := ha hkind.1 hkind.2
    dsimp only
    rw [update_of_ne (by omega), update_of_ne (by omega), update_of_ne (by omega),
      update_of_ne (by omega), update_of_ne (by omega), update_of_ne (by omega)]

theorem generateChecksum_octet (layout : Layout) (m : Message)
    (ha : getType m = .cmd → getHasSecondaryHeader m = true → a ≠ layout.checksum) :
    (generateChecksum layout m).2 a = m a := by
  rw [generateChecksum]
  split
  case isTrue => rfl
  case isFalse hkind =>
    rw [not_or, not_not, Bool.not_eq_false] at hkind
    have hne := ha hkind.1 hkind.2
    dsimp only
    rw [update_of_ne hne, update_of_ne hne]

theorem Layout.secondaryHeader_ge (layout : Layout) : 6 ≤ layout.secondaryHeader := by
  cases layout <;> decide

theorem setSequenceCount_sameKind (m : Message) (seqCnt : BitVec 16) :
    SameKind m (setSequenceCount m seqCnt).2 :=
  sameKind_of_octets (setSequenceCount_octet m seqCnt (by decide) (by decide))
    (setSequenceCount_octet m seqCnt (by decide) (by decide))
    (setSequenceCount_octet m seqCnt (by decide) (by decide))

theorem setMsgTime_sameKind (layout : Layout) (m : Message) (newTime : SysTime) :
    SameKind m (setMsgTime layout m newTime).2 := by
  have hge := layout.secondaryHeader_ge
  exact sameKind_of_octets
    (setMsgTime_octet layout m newTime fun _ _ => .inl (by unfold STREAM_ID; omega))
    (setMsgTime_octet layout m newTime fun _ _ => .inl (by unfold LENGTH; omega))
    (setMsgTime_octet layout m newTime fun _ _ => .inl (by unfold LENGTH; omega))

theorem generateChecksum_sameKind (layout : Layout) (m : Message) :
    SameKind m (generateChecksum layout m).2 := by
  have hge := layout.secondaryHeader_ge
  exact sameKind_of_octets
    (generateChecksum_octet layout m fun _ _ => by unfold Layout.checksum STREAM_ID; omega)
    (generateChecksum_octet layout m fun _ _ => by unfold Layout.checksum LENGTH; omega)
    (generateChecksum_octet layout m fun _ _ => by unfold Layout.checksum LENGTH; omega)

/-! ## A valid checksum -/

theorem validateChecksum_cmd (htype : getType m = .cmd) (hsec : getHasSecondaryHeader m = true) :
    validateChecksum m = (.success, some (decide (computeCheckSum m = 0))) := by
  rw [validateChecksum, if_neg (by simp [htype, hsec])]

/-- Once the checksum is in its place, the checksum over all octets is 0. -/
theorem computeCheckSum_generateChecksum (htype : getType m = .cmd)
    (hsec : getHasSecondaryHeader m = true) (hlen : layout.checksum < getSize m) :
    computeCheckSum (generateChecksum layout m).2 = 0 := by
  have hkind := generateChecksum_sameKind layout m
  have hresult : (generateChecksum layout m).2 = update (update m layout.checksum 0) layout.checksum
      ((computeCheckSum (update m layout.checksum 0)).setWidth 8) := by
    rw [generateChecksum, if_neg (by simp [htype, hsec])]
  have hcleared : getSize (update m layout.checksum 0) = getSize m := by
    have hge := layout.secondaryHeader_ge
    rw [getSize, getSize, update_of_ne (by unfold Layout.checksum LENGTH; omega),
      update_of_ne (by unfold Layout.checksum LENGTH; omega)]
  have hoctet : ((computeCheckSum (update m layout.checksum 0)).setWidth 8).setWidth 32 =
      computeCheckSum (update m layout.checksum 0) := by
    refine BitVec.eq_of_toNat_eq ?_
    have hlt : (computeCheckSum (update m layout.checksum 0)).toNat < 2 ^ 8 :=
      checkSumLoop_lt _ _ _ (by decide)
    rw [BitVec.toNat_setWidth, BitVec.toNat_setWidth, Nat.mod_eq_of_lt hlt,
      Nat.mod_eq_of_lt (hlt.trans (by decide))]
  rw [computeCheckSum, hkind.size, hresult,
    checkSumLoop_update (Nat.zero_le _) (hlen.trans_eq (Nat.zero_add _).symm), hoctet,
    Function.update_idem, computeCheckSum, hcleared, BitVec.xor_self]
  rfl

/-- An octet that is changed in a message with a valid checksum shows. -/
theorem computeCheckSum_update (hvalid : computeCheckSum m = 0) (ha : a < getSize m)
    (hne : octet ≠ m a) (hsize : getSize (update m a octet) = getSize m) :
    computeCheckSum (update m a octet) ≠ 0 := by
  have hhigh : a < 0 + getSize m := ha.trans_eq (Nat.zero_add _).symm
  have hbefore := checkSumLoop_update (Nat.zero_le a) hhigh m (m a) 0xFF
  have hafter := checkSumLoop_update (Nat.zero_le a) hhigh m octet 0xFF
  rw [Function.update_eq_self, ← computeCheckSum, hvalid] at hbefore
  intro hzero
  rw [computeCheckSum, hsize, hafter] at hzero
  -- both octets complete the rest of the message to 0
  have hsame : octet.setWidth 32 = (m a).setWidth 32 :=
    (BitVec.xor_right_inj _).mp (hzero.trans hbefore)
  have hback := congrArg (BitVec.setWidth 8) hsame
  rw [BitVec.setWidth_setWidth_of_le _ (by decide), BitVec.setWidth_setWidth_of_le _ (by decide),
    BitVec.setWidth_eq, BitVec.setWidth_eq] at hback
  exact hne hback

/-! ## The whole update -/

theorem updateHeader_sameKind (layout : Layout) (currentTime : SysTime) (m : Message)
    (seqCnt : BitVec 16) : SameKind m (updateHeader layout currentTime m seqCnt) :=
  ((setSequenceCount_sameKind m seqCnt).trans (setMsgTime_sameKind layout _ currentTime)).trans
    (generateChecksum_sameKind layout _)

/-- An octet that is neither of the sequence count nor of the time or the checksum of this kind
of message stays as it is. -/
theorem updateHeader_octet (layout : Layout) (currentTime : SysTime) (m : Message)
    (seqCnt : BitVec 16) (hfirst : a ≠ SEQUENCE) (hsecond : a ≠ SEQUENCE + 1)
    (htime : getType m = .tlm → getHasSecondaryHeader m = true →
      a < layout.secondaryHeader ∨ layout.secondaryHeader + 6 ≤ a)
    (hsum : getType m = .cmd → getHasSecondaryHeader m = true → a ≠ layout.checksum) :
    updateHeader layout currentTime m seqCnt a = m a := by
  have hseq := setSequenceCount_sameKind m seqCnt
  have hkind := hseq.trans (setMsgTime_sameKind layout _ currentTime)
  rw [updateHeader, generateChecksum_octet, setMsgTime_octet,
    setSequenceCount_octet m seqCnt hfirst hsecond]
  · rw [hseq.type, hseq.hasSecondary]
    exact htime
  · rw [hkind.type, hkind.hasSecondary]
    exact hsum

/-- Of the sequence word only the count changes. -/
theorem updateHeader_sequence (layout : Layout) (currentTime : SysTime) (m : Message)
    (seqCnt : BitVec 16) :
    word (updateHeader layout currentTime m seqCnt) SEQUENCE &&& ~~~MSG_SEQCNT_MASK =
      word m SEQUENCE &&& ~~~MSG_SEQCNT_MASK := by
  have hge := layout.secondaryHeader_ge
  have hsame : word (updateHeader layout currentTime m seqCnt) SEQUENCE =
      word (setSequenceCount m seqCnt).2 SEQUENCE := by
    have hoctet : ∀ a, a < 6 → updateHeader layout currentTime m seqCnt a =
        (setSequenceCount m seqCnt).2 a := by
      intro a ha
      rw [updateHeader, generateChecksum_octet _ _ fun _ _ => by unfold Layout.checksum; omega,
        setMsgTime_octet _ _ _ fun _ _ => .inl (by omega)]
    rw [word, word, hoctet _ (by decide), hoctet _ (by decide)]
  rw [hsame, setSequenceCount_rest]

/-- The update changes nothing but the sequence count and the time or the checksum; a command
so updated is valid, and not any more when one octet of it is changed. -/
theorem updateHeader_valid_until_corrupted (layout : Layout) (currentTime : SysTime) (m : Message)
    (seqCnt : BitVec 16) (hlen : layout.commandHeaderSize ≤ getSize m) :
    word (updateHeader layout currentTime m seqCnt) SEQUENCE &&& ~~~MSG_SEQCNT_MASK =
        word m SEQUENCE &&& ~~~MSG_SEQCNT_MASK ∧
    (∀ a, a ≠ SEQUENCE → a ≠ SEQUENCE + 1 →
      (getType m = .tlm → getHasSecondaryHeader m = true →
        a < layout.secondaryHeader ∨ layout.secondaryHeader + 6 ≤ a) →
      (getType m = .cmd → getHasSecondaryHeader m = true → a ≠ layout.checksum) →
      updateHeader layout currentTime m seqCnt a = m a) ∧
    (getType m = .cmd → getHasSecondaryHeader m = true →
      validateChecksum (updateHeader layout currentTime m seqCnt) = (.success, some true) ∧
      ∀ (a : Nat) (octet : Octet), a < getSize m →
        octet ≠ updateHeader layout currentTime m seqCnt a →
        SameKind m (update (updateHeader layout currentTime m seqCnt) a octet) →
        validateChecksum (update (updateHeader layout currentTime m seqCnt) a octet) =
          (.success, some false)) := by
  refine ⟨updateHeader_sequence layout currentTime m seqCnt,
    fun a => updateHeader_octet layout currentTime m seqCnt, fun htype hsec => ?_⟩
  have hkind := updateHeader_sameKind layout currentTime m seqCnt
  have hseq := (setSequenceCount_sameKind m seqCnt).trans
    (setMsgTime_sameKind layout _ currentTime)
  have hchecksum : layout.checksum < getSize m := by
    refine Nat.lt_of_lt_of_le ?_ hlen
    cases layout <;> decide
  have hvalid : computeCheckSum (updateHeader layout currentTime m seqCnt) = 0 :=
    computeCheckSum_generateChecksum (hseq.type.trans htype) (hseq.hasSecondary.trans hsec)
      (hchecksum.trans_eq hseq.size.symm)
  refine ⟨?_, fun a octet ha hne hsame => ?_⟩
  · rw [validateChecksum_cmd (hkind.type.trans htype) (hkind.hasSecondary.trans hsec), hvalid]
    rfl
  · have hcorrupt := computeCheckSum_update hvalid (ha.trans_eq hkind.size.symm) hne
      (hsame.size.trans hkind.size.symm)
    rw [validateChecksum_cmd (hsame.type.trans htype) (hsame.hasSecondary.trans hsec),
      decide_eq_false hcorrupt]

/-- A command of eight octets, as long as its header. -/
def shortCommand : Message := fun a => if a = 0 then 0x18 else if a = 5 then 1 else 0

theorem updateHeader_valid_until_corrupted_short :
    validateChecksum (updateHeader .pri ⟨7, 9⟩ shortCommand 3) = (.success, some true) ∧
      validateChecksum (update (updateHeader .pri ⟨7, 9⟩ shortCommand 3) 6 0x55) =
        (.success, some false) := by
  have hspec := updateHeader_valid_until_corrupted .pri ⟨7, 9⟩ shortCommand 3 (by decide)
  obtain ⟨hvalid, hcorrupt⟩ := hspec.2.2 (by decide) (by decide)
  exact ⟨hvalid, hcorrupt 6 0x55 (by decide) (by decide) ⟨by decide, by decide, by decide⟩⟩

end Nos3.Msg
