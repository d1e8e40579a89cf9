import Nos3.Sc.Source.Rts
import Mathlib.Data.List.Nodup
import Mathlib.Data.List.FinRange

/-!
# The commands on relative time sequences

Eight commands name one sequence or a range of them. Each checks its identifiers
before it makes an index of them, and the group forms repeat what the single ones
do to one sequence.
-/
namespace Nos3.Sc
open Function (update)

/-- The commands, with the identifiers as they arrive. -/
inductive RtsCommand
  | start (rtsId : BitVec 16)
  | stop (rtsId : BitVec 16)
  | disable (rtsId : BitVec 16)
  | enable (rtsId : BitVec 16)
  | startGrp (firstId lastId : BitVec 16)
  | stopGrp (firstId lastId : BitVec 16)
  | disableGrp (firstId lastId : BitVec 16)
  | enableGrp (firstId lastId : BitVec 16)
  deriving DecidableEq

def RtsCommand.run (currentTime : BitVec 32) (s : RtsState) : RtsCommand → Option RtsState
  | .start rtsId => startRtsCmd currentTime rtsId s
  | .stop rtsId => some (stopRtsCmd rtsId s)
  | .disable rtsId => disableRtsCmd rtsId s
  | .enable rtsId => some (enableRtsCmd rtsId s)
  | .startGrp firstId lastId => startRtsGrpCmd currentTime firstId lastId s
  | .stopGrp firstId lastId => some (stopRtsGrpCmd firstId lastId s)
  | .disableGrp firstId lastId => some (disableRtsGrpCmd firstId lastId s)
  | .enableGrp firstId lastId => some (enableRtsGrpCmd firstId lastId s)

/-- The sequences of a range of identifiers, which count from 1. -/
def InRange (firstId lastId : BitVec 16) (i : RtsIndex) : Prop :=
  firstId.toNat ≤ i.val + 1 ∧ i.val + 1 ≤ lastId.toNat

instance (firstId lastId : BitVec 16) (i : RtsIndex) : Decidable (InRange firstId lastId i) :=
  inferInstanceAs (Decidable (_ ∧ _))

/-- The sequences a command names. -/
def RtsCommand.Names : RtsCommand → RtsIndex → Prop
  | .start rtsId | .stop rtsId | .disable rtsId | .enable rtsId => InRange rtsId rtsId
  | .startGrp firstId lastId | .stopGrp firstId lastId | .disableGrp firstId lastId
  | .enableGrp firstId lastId => InRange firstId lastId

/-! ## What changes -/

/-- The tables stay as they are, and so do all entries but those in `p`. -/
structure RtsState.OnlyChanges (p : RtsIndex → Prop) (s s' : RtsState) : Prop where
  tables : s'.rtsTbl = s.rtsTbl
  others : ∀ i, ¬ p i → s'.rtsInfo i = s.rtsInfo i

variable {p q : RtsIndex → Prop} {s s' s'' : RtsState} {i : RtsIndex}
  {rtsId firstId lastId : BitVec 16} {currentTime : BitVec 32}

theorem RtsState.OnlyChanges.refl (p : RtsIndex → Prop) (s : RtsState) : s.OnlyChanges p s :=
  ⟨rfl, fun _ _ => rfl⟩

theorem RtsState.OnlyChanges.trans (h : s.OnlyChanges p s') (h' : s'.OnlyChanges p s'') :
    s.OnlyChanges p s'' :=
  ⟨h'.tables.trans h.tables, fun i hi => (h'.others i hi).trans (h.others i hi)⟩

theorem RtsState.OnlyChanges.mono (h : s.OnlyChanges q s') (hpq : ∀ i, q i → p i) :
    s.OnlyChanges p s' :=
  ⟨h.tables, fun i hi => h.others i fun hq => hi (hpq i hq)⟩

theorem RtsState.OnlyChanges.setActive (h : s.OnlyChanges p s') (count : BitVec 16) :
    s.OnlyChanges p { s' with numRtsActive := count } := ⟨h.tables, h.others⟩

theorem setInfo_onlyChanges (s : RtsState) (i : RtsIndex) (entry : RtsInfoEntry) :
    s.OnlyChanges (· = i) (s.setInfo i entry) :=
  ⟨rfl, fun _ hj => s.rtsInfo_setInfo_of_ne hj entry⟩

theorem setDisabled_onlyChanges (flag : Bool) (s : RtsState) (i : RtsIndex) :
    s.OnlyChanges (· = i) (s.setDisabled flag i) := setInfo_onlyChanges s i _

theorem killRts_onlyChanges (rtsIndex : Nat) (s : RtsState) :
    s.OnlyChanges (fun i => i.val = rtsIndex) (killRts rtsIndex s) := by
  rw [killRts]
  split
  case isFalse => exact .refl _ s
  case isTrue hindex =>
    have hset := fun entry => (setInfo_onlyChanges s ⟨rtsIndex, hindex⟩ entry).mono
      (p := fun i => i.val = rtsIndex) fun i hi => congrArg Fin.val hi
    dsimp only
    split
    · split
      · exact (hset _).setActive _
      · exact hset _
    · exact .refl _ s

/-- A start reads the table and changes one entry. -/
theorem initRtsInfo_spec (currentTime : BitVec 32) (i : RtsIndex) (s : RtsState) :
    initRtsInfo currentTime i s = none ∧ s.rtsTbl i = none ∨
    ∃ s', initRtsInfo currentTime i s = some s' ∧ s.OnlyChanges (· = i) s' ∧
      (s'.rtsInfo i).rtsStatus = .executing ∧ s'.numRtsActive = s.numRtsActive + 1 := by
  rw [initRtsInfo]
  cases htable : s.rtsTbl i with
  | none => exact .inl ⟨rfl, rfl⟩
  | some table =>
    have htag : ∃ timeTag, rtsTimeTag table.cells 0 = some timeTag :=
      ⟨_, congrArg (Option.map _) (List.getElem?_eq_getElem (by rw [table.length_cells]; decide))⟩
    obtain ⟨timeTag, htag⟩ := htag
    right
    simp only [htag, Option.bind_eq_bind, Option.bind_some]
    refine ⟨_, rfl, (setInfo_onlyChanges s i _).setActive _, ?_, rfl⟩
    exact congrArg RtsInfoEntry.rtsStatus (s.rtsInfo_setInfo i _)

theorem foldl_onlyChanges {step : RtsState → RtsIndex → RtsState} {indices : List RtsIndex}
    (hstep : ∀ s : RtsState, ∀ i ∈ indices, s.OnlyChanges p (step s i)) (s : RtsState) :
    s.OnlyChanges p (indices.foldl step s) := by
  induction indices generalizing s with
  | nil => exact .refl p s
  | cons i indices ih =>
    exact (hstep s i List.mem_cons_self).trans
      (ih (fun s j hj => hstep s j (List.mem_cons_of_mem i hj)) _)

/-! ## One sequence -/

/-- Enabled, and waiting to be started. -/
def RtsState.Ready (s : RtsState) (i : RtsIndex) : Prop :=
  (s.rtsInfo i).disabledFlag = false ∧ (s.rtsInfo i).rtsStatus = .loaded

instance (s : RtsState) (i : RtsIndex) : Decidable (s.Ready i) :=
  inferInstanceAs (Decidable (_ ∧ _))

/-- The length of the first command is one that `SC_StartRtsCmd` accepts. -/
def FirstCmdFits (table : RtsTable) : Prop :=
  ∃ cmdLength, rtsMsgSize table.cells 0 = some cmdLength ∧ SC_PACKET_MIN_SIZE ≤ cmdLength ∧
    cmdLength ≤ SC_PACKET_MAX_SIZE

theorem startRtsOfGroup_of_ready (h : s.Ready i) :
    startRtsOfGroup currentTime s i = initRtsInfo currentTime i s := if_pos h

theorem startRtsOfGroup_of_not_ready (h : ¬ s.Ready i) :
    startRtsOfGroup currentTime s i = some s := if_neg h

theorem startRtsCmd_of_not_ready (hi : rtsId.toNat = i.val + 1) (h : ¬ s.Ready i) :
    startRtsCmd currentTime rtsId s = some s := by
  have hindex : (⟨rtsId.toNat - 1, by omega⟩ : RtsIndex) = i := Fin.ext (by dsimp only; omega)
  rw [startRtsCmd, dif_pos (by omega)]
  simp only [hindex]
  split
  case isTrue henabled =>
    rw [if_neg fun hloaded => h ⟨henabled, hloaded⟩]
  case isFalse => rfl

theorem startRtsCmd_of_ready (currentTime : BitVec 32) (hi : rtsId.toNat = i.val + 1)
    (h : s.Ready i) :
    s.rtsTbl i = none ∧ startRtsCmd currentTime rtsId s = none ∨
    ∃ table, s.rtsTbl i = some table ∧
      (FirstCmdFits table ∧ startRtsCmd currentTime rtsId s = initRtsInfo currentTime i s ∨
        ¬ FirstCmdFits table ∧ startRtsCmd currentTime rtsId s = some s) := by
  have hindex : (⟨rtsId.toNat - 1, by omega⟩ : RtsIndex) = i := Fin.ext (by dsimp only; omega)
  rw [startRtsCmd, dif_pos (by omega)]
  simp only [hindex, if_pos h.1, if_pos h.2]
  cases htable : s.rtsTbl i with
  | none => exact .inl ⟨rfl, rfl⟩
  | some table =>
    obtain ⟨cmdLength, hlength⟩ : ∃ cmdLength, rtsMsgSize table.cells 0 = some cmdLength :=
      ⟨_, congrArg (Option.map _) (List.getElem?_eq_getElem (by rw [table.length_cells]; decide))⟩
    refine .inr ⟨table, rfl, ?_⟩
    simp only [hlength, Option.bind_eq_bind, Option.bind_some]
    split
    case isTrue hfits => exact .inl ⟨⟨cmdLength, hlength, hfits⟩, rfl⟩
    case isFalse hbad =>
      refine .inr ⟨fun ⟨other, hother, hfits⟩ => hbad ?_, rfl⟩
      rw [Option.some.inj (hlength.symm.trans hother)]
      exact hfits

theorem startRtsCmd_of_invalid (h : ∀ i : RtsIndex, rtsId.toNat ≠ i.val + 1) :
    startRtsCmd currentTime rtsId s = some s := by
  rw [startRtsCmd, dif_neg]
  intro hvalid
  exact h ⟨rtsId.toNat - 1, by omega⟩ (by dsimp only; omega)

/-! ## A range of sequences -/

theorem nodup_rtsGroup (firstId lastId : BitVec 16) : (rtsGroup firstId lastId).Nodup := by
  rw [rtsGroup]
  split
  · exact (List.nodup_finRange _).filter _
  · exact List.nodup_nil

theorem inRange_of_mem_rtsGroup (h : i ∈ rtsGroup firstId lastId) : InRange firstId lastId i := by
  rw [rtsGroup] at h
  split at h
  case isTrue hvalid =>
    have hbounds := of_decide_eq_true (List.mem_filter.mp h).2
    exact ⟨by omega, by omega⟩
  case isFalse => exact nomatch h

/-- A range of identifiers that the group commands accept. -/
def ValidRange (firstId lastId : BitVec 16) : Prop :=
  0 < firstId.toNat ∧ firstId.toNat ≤ lastId.toNat ∧ lastId.toNat ≤ SC_NUMBER_OF_RTS

instance (firstId lastId : BitVec 16) : Decidable (ValidRange firstId lastId) :=
  inferInstanceAs (Decidable (_ ∧ _))

theorem mem_rtsGroup (hvalid : ValidRange firstId lastId) :
    i ∈ rtsGroup firstId lastId ↔ InRange firstId lastId i := by
  refine ⟨inRange_of_mem_rtsGroup, fun ⟨hfirst, hlast⟩ => ?_⟩
  obtain ⟨hpos, hle, hmax⟩ := hvalid
  rw [rtsGroup, if_pos ⟨hpos, by omega, by omega, hmax, hle⟩]
  exact List.mem_filter.mpr ⟨List.mem_finRange i, decide_eq_true ⟨by omega, by omega⟩⟩

/-! ## Only the named sequences -/

/-- Only entries of named sequences change; and if the command cannot go on, it is
because a named sequence is marked as loaded and has no table to read. A write outside
the information table is none of these. -/
def RtsCommand.Contained (currentTime : BitVec 32) (s : RtsState) (c : RtsCommand) : Prop :=
  (∀ s', c.run currentTime s = some s' → s.OnlyChanges c.Names s') ∧
  (c.run currentTime s = none →
    ∃ i, c.Names i ∧ (s.rtsInfo i).rtsStatus = .loaded ∧ s.rtsTbl i = none)

theorem contained_of_run {c : RtsCommand} (hrun : c.run currentTime s = some s')
    (h : s.OnlyChanges c.Names s') : c.Contained currentTime s :=
  ⟨fun _ hother => Option.some.inj (hrun.symm.trans hother) ▸ h, fun hnone =>
    nomatch hrun.symm.trans hnone⟩

theorem startRtsCmd_contained (currentTime : BitVec 32) (rtsId : BitVec 16) (s : RtsState) :
    (RtsCommand.start rtsId).Contained currentTime s := by
  by_cases hnamed : ∃ i : RtsIndex, rtsId.toNat = i.val + 1
  case neg =>
    exact contained_of_run (startRtsCmd_of_invalid fun i hi => hnamed ⟨i, hi⟩) (.refl _ s)
  case pos =>
    obtain ⟨i, hi⟩ := hnamed
    have hname : (RtsCommand.start rtsId).Names i := ⟨Nat.le_of_eq hi, Nat.le_of_eq hi.symm⟩
    by_cases hready : s.Ready i
    case neg => exact contained_of_run (startRtsCmd_of_not_ready hi hready) (.refl _ s)
    case pos =>
      obtain ⟨htable, hstart⟩ | ⟨table, htable, ⟨-, hstart⟩ | ⟨-, hstart⟩⟩ :=
        startRtsCmd_of_ready currentTime hi hready
      · exact ⟨fun s' hrun => (nomatch hstart.symm.trans hrun),
          fun _ => ⟨i, hname, hready.2, htable⟩⟩
      · obtain ⟨-, hnone⟩ | ⟨s', hinit, honly, -⟩ := initRtsInfo_spec currentTime i s
        · exact nomatch htable.symm.trans hnone
        · exact contained_of_run (hstart.trans hinit) (honly.mono fun j hj => hj ▸ hname)
      · exact contained_of_run hstart (.refl _ s)

theorem startRtsOfGroup_onlyChanges (h : startRtsOfGroup currentTime s i = some s') :
    s.OnlyChanges (· = i) s' := by
  by_cases hready : s.Ready i
  · rw [startRtsOfGroup_of_ready hready] at h
    obtain ⟨hnone, -⟩ | ⟨next, hinit, honly, -⟩ := initRtsInfo_spec currentTime i s
    · exact nomatch hnone.symm.trans h
    · exact Option.some.inj (hinit.symm.trans h) ▸ honly
  · rw [startRtsOfGroup_of_not_ready hready] at h
    exact Option.some.inj h ▸ .refl _ s

/-- A loop whose body changes the entry of its round. -/
theorem foldlM_onlyChanges {step : RtsState → RtsIndex → Option RtsState}
    (hstep : ∀ s i s', step s i = some s' → s.OnlyChanges (· = i) s') {indices : List RtsIndex}
    (h : indices.foldlM step s = some s') : s.OnlyChanges (· ∈ indices) s' := by
  induction indices generalizing s with
  | nil => exact Option.some.inj h ▸ .refl _ s
  | cons i indices ih =>
    rw [List.foldlM_cons] at h
    obtain ⟨next, hnext, h⟩ := Option.bind_eq_some_iff.mp h
    exact ((hstep s i next hnext).mono fun j hj => hj ▸ List.mem_cons_self).trans
      ((ih h).mono fun j hj => List.mem_cons_of_mem i hj)

/-- Where the loop of the group start can stop. -/
theorem startRtsGrp_stuck {indices : List RtsIndex} (hnodup : indices.Nodup)
    (h : indices.foldlM (startRtsOfGroup currentTime) s = none) :
    ∃ i ∈ indices, (s.rtsInfo i).rtsStatus = .loaded ∧ s.rtsTbl i = none := by
  induction indices generalizing s with
  | nil => exact nomatch h
  | cons i indices ih =>
    obtain ⟨hnot, hrest⟩ := List.nodup_cons.mp hnodup
    rw [List.foldlM_cons] at h
    cases hnext : startRtsOfGroup currentTime s i with
    | none =>
      have hready : s.Ready i := by
        by_contra hready
        exact nomatch (startRtsOfGroup_of_not_ready hready).symm.trans hnext
      rw [startRtsOfGroup_of_ready hready] at hnext
      obtain ⟨-, htable⟩ | ⟨next, hinit, -⟩ := initRtsInfo_spec currentTime i s
      · exact ⟨i, List.mem_cons_self, hready.2, htable⟩
      · exact nomatch hinit.symm.trans hnext
    | some next =>
      rw [hnext] at h
      obtain ⟨j, hj, hloaded, hmissing⟩ := ih hrest h
      have honly := startRtsOfGroup_onlyChanges hnext
      have hne : j ≠ i := fun heq => hnot (heq ▸ hj)
      rw [honly.others j hne] at hloaded
      rw [honly.tables] at hmissing
      exact ⟨j, List.mem_cons_of_mem i hj, hloaded, hmissing⟩

theorem stopRtsOfGroup_onlyChanges (s : RtsState) (i : RtsIndex) :
    s.OnlyChanges (· = i) (stopRtsOfGroup s i) := by
  rw [stopRtsOfGroup]
  split
  · exact (killRts_onlyChanges i.val s).mono fun j hj => Fin.ext hj
  · exact .refl _ s

theorem toNat_sub_one (h : rtsId.toNat ≠ 0) : (rtsId - 1).toNat = rtsId.toNat - 1 :=
  BitVec.toNat_sub_of_le (show (1 : BitVec 16).toNat ≤ rtsId.toNat from Nat.pos_of_ne_zero h)

/-- A command without an identifier 0 for the disabling of one sequence. -/
theorem contained_of_ne {c : RtsCommand} (hc : c ≠ .disable 0) (currentTime : BitVec 32)
    (s : RtsState) : c.Contained currentTime s := by
  cases c with
  | start rtsId => exact startRtsCmd_contained currentTime rtsId s
  | stop rtsId =>
    refine contained_of_run rfl ?_
    rw [stopRtsCmd]
    split
    case isFalse => exact .refl _ s
    case isTrue =>
      -- the index of the identifier 0 is outside the table
      refine (killRts_onlyChanges (rtsId - 1).toNat s).mono fun i hi => ?_
      have hpos : rtsId.toNat ≠ 0 := by
        intro hzero
        obtain rfl : rtsId = 0 := BitVec.eq_of_toNat_eq hzero
        have hoff : (0 - 1 : BitVec 16).toNat = 0xFFFF := by decide
        have hbound : SC_NUMBER_OF_RTS < 0xFFFF := by decide
        have := i.isLt
        omega
      have hid : rtsId.toNat = i.val + 1 := by
        rw [toNat_sub_one hpos] at hi
        omega
      exact ⟨Nat.le_of_eq hid, Nat.le_of_eq hid.symm⟩
  | disable rtsId =>
    have hpos : rtsId.toNat ≠ 0 := fun h =>
      hc (congrArg RtsCommand.disable (BitVec.eq_of_toNat_eq h))
    have hindex := toNat_sub_one hpos
    by_cases hvalid : rtsId.toNat ≤ SC_NUMBER_OF_RTS
    case neg => exact contained_of_run (if_neg hvalid) (.refl _ s)
    case pos =>
      have hlt : (rtsId - 1).toNat < SC_NUMBER_OF_RTS := by omega
      refine contained_of_run ((if_pos hvalid).trans (dif_pos hlt)) ?_
      refine (setDisabled_onlyChanges true s _).mono fun i hi => ?_
      have hid : rtsId.toNat = i.val + 1 := by
        rw [hi]
        dsimp only
        omega
      exact ⟨Nat.le_of_eq hid, Nat.le_of_eq hid.symm⟩
  | enable rtsId =>
    refine contained_of_run rfl ?_
    rw [enableRtsCmd]
    split
    case isFalse => exact .refl _ s
    case isTrue hvalid =>
      refine (setDisabled_onlyChanges false s _).mono fun i hi => ?_
      have hid : rtsId.toNat = i.val + 1 := by
        rw [hi]
        dsimp only
        omega
      exact ⟨Nat.le_of_eq hid, Nat.le_of_eq hid.symm⟩
  | startGrp firstId lastId =>
    refine ⟨fun s' h => ?_, fun h => ?_⟩
    · exact (foldlM_onlyChanges (fun _ _ _ => startRtsOfGroup_onlyChanges) h).mono
        fun i hi => inRange_of_mem_rtsGroup hi
    · obtain ⟨i, hi, hstuck⟩ := startRtsGrp_stuck (nodup_rtsGroup firstId lastId) h
      exact ⟨i, inRange_of_mem_rtsGroup hi, hstuck⟩
  | stopGrp firstId lastId =>
    exact contained_of_run rfl (foldl_onlyChanges (fun s i hi =>
      (stopRtsOfGroup_onlyChanges s i).mono fun j hj => hj ▸ inRange_of_mem_rtsGroup hi) s)
  | disableGrp firstId lastId =>
    exact contained_of_run rfl (foldl_onlyChanges (fun s i hi =>
      (setDisabled_onlyChanges true s i).mono fun j hj => hj ▸ inRange_of_mem_rtsGroup hi) s)
  | enableGrp firstId lastId =>
    exact contained_of_run rfl (foldl_onlyChanges (fun s i hi =>
      (setDisabled_onlyChanges false s i).mono fun j hj => hj ▸ inRange_of_mem_rtsGroup hi) s)

/-- A disable command for the identifier 0 is taken for a valid one. -/
theorem not_contained_disable (currentTime : BitVec 32) (s : RtsState) :
    ¬ (RtsCommand.disable 0).Contained currentTime s := by
  intro h
  obtain ⟨i, ⟨-, hlast⟩, -⟩ := h.2 rfl
  exact absurd hlast (Nat.not_succ_le_zero i.val)

/-- Every command on relative time sequences stays inside the sequences it names, except
for the disabling of the identifier 0. -/
theorem rts_command_contained_iff (currentTime : BitVec 32) (s : RtsState) (c : RtsCommand) :
    c.Contained currentTime s ↔ c ≠ .disable 0 := by
  refine ⟨fun h hc => ?_, fun hc => contained_of_ne hc currentTime s⟩
  subst hc
  exact not_contained_disable currentTime s h

/-- With the identifier 0 the disable command writes behind the information table. -/
theorem disable_zero_not_contained : ¬ (RtsCommand.disable 0).Contained 0 {} :=
  not_contained_disable 0 {}

/-! ## A group start and single starts -/

/-- `SC_StartRtsCmd` for each identifier of a range, in order. -/
def startEachRts (currentTime : BitVec 32) (firstId lastId : BitVec 16) (s : RtsState) :
    Option RtsState :=
  (List.range' firstId.toNat (lastId.toNat + 1 - firstId.toNat)).foldlM
    (fun s rtsId => startRtsCmd currentTime (BitVec.ofNat 16 rtsId) s) s

/-- The identifiers of a range are those of the sequences its loop visits. -/
theorem map_rtsGroup (hvalid : ValidRange firstId lastId) :
    (rtsGroup firstId lastId).map (fun i => i.val + 1) =
      List.range' firstId.toNat (lastId.toNat + 1 - firstId.toNat) := by
  have hsorted : ((rtsGroup firstId lastId).map fun i => i.val + 1).Pairwise (· < ·) := by
    refine List.pairwise_map.mpr (List.Pairwise.imp Nat.succ_lt_succ ?_)
    rw [rtsGroup]
    split
    · exact (List.pairwise_lt_finRange _).filter _
    · exact .nil
  refine List.Perm.eq_of_pairwise (fun x y _ _ h h' => absurd h' (Nat.lt_asymm h)) hsorted
    List.pairwise_lt_range' ?_
  refine (List.perm_ext_iff_of_nodup hsorted.nodup List.nodup_range').mpr fun k => ?_
  have hmax := hvalid.2.2
  have hpos := hvalid.1
  simp only [List.mem_map, mem_rtsGroup hvalid, InRange, List.mem_range'_1]
  constructor
  · rintro ⟨i, hi, rfl⟩
    omega
  · intro hk
    exact ⟨⟨k - 1, by omega⟩, by dsimp only; omega, by dsimp only; omega⟩

/-- The start of one sequence by its identifier. -/
def startOneRts (currentTime : BitVec 32) (s : RtsState) (i : RtsIndex) : Option RtsState :=
  startRtsCmd currentTime (BitVec.ofNat 16 (i.val + 1)) s

theorem toNat_rtsId (i : RtsIndex) : (BitVec.ofNat 16 (i.val + 1)).toNat = i.val + 1 := by
  rw [BitVec.toNat_ofNat]
  exact Nat.mod_eq_of_lt (Nat.lt_of_le_of_lt i.isLt (by decide))

theorem startEachRts_eq (hvalid : ValidRange firstId lastId) (s : RtsState) :
    startEachRts currentTime firstId lastId s =
      (rtsGroup firstId lastId).foldlM (startOneRts currentTime) s := by
  rw [startEachRts, ← map_rtsGroup hvalid, List.foldlM_map]
  rfl

theorem startOneRts_onlyChanges (h : startOneRts currentTime s i = some s') :
    s.OnlyChanges (· = i) s' := by
  refine ((startRtsCmd_contained currentTime _ s).1 s' h).mono fun j hj => ?_
  have hnamed : InRange (BitVec.ofNat 16 (i.val + 1)) (BitVec.ofNat 16 (i.val + 1)) j := hj
  rw [InRange, toNat_rtsId] at hnamed
  exact Fin.ext (by omega)

/-- In a loop whose body changes one entry a round, the round of a sequence sees its
entry as it was at the start and leaves it as it is at the end. -/
theorem round_of_foldlM {step : RtsState → RtsIndex → Option RtsState}
    (hstep : ∀ s i s', step s i = some s' → s.OnlyChanges (· = i) s') {indices : List RtsIndex}
    (hnodup : indices.Nodup) (hi : i ∈ indices) (h : indices.foldlM step s = some s') :
    ∃ before after, before.rtsInfo i = s.rtsInfo i ∧ before.rtsTbl = s.rtsTbl ∧
      step before i = some after ∧ s'.rtsInfo i = after.rtsInfo i := by
  induction indices generalizing s with
  | nil => exact nomatch hi
  | cons j indices ih =>
    obtain ⟨hnot, hrest⟩ := List.nodup_cons.mp hnodup
    rw [List.foldlM_cons] at h
    obtain ⟨next, hnext, hloop⟩ := Option.bind_eq_some_iff.mp h
    obtain rfl | hi := List.mem_cons.mp hi
    · exact ⟨s, next, rfl, rfl, hnext, (foldlM_onlyChanges hstep hloop).others i hnot⟩
    · obtain ⟨before, after, hinfo, htbl, hround⟩ := ih hrest hi hloop
      have honly := hstep s j next hnext
      have hne : i ≠ j := fun heq => hnot (heq ▸ hi)
      exact ⟨before, after, hinfo.trans (honly.others i hne), htbl.trans honly.tables, hround⟩

/-- A start of the sequence by its identifier does what a start of its group does. -/
def RtsState.Startable (s : RtsState) (i : RtsIndex) : Prop :=
  ∃ table, s.rtsTbl i = some table ∧ FirstCmdFits table

theorem start_loops_agree (currentTime : BitVec 32) {indices : List RtsIndex}
    (hnodup : indices.Nodup)
    (h : ∀ i ∈ indices, s.Ready i → s.Startable i) :
    ∃ s', indices.foldlM (startRtsOfGroup currentTime) s = some s' ∧
      indices.foldlM (startOneRts currentTime) s = some s' := by
  induction indices generalizing s with
  | nil => exact ⟨s, rfl, rfl⟩
  | cons i indices ih =>
    obtain ⟨hnot, hrest⟩ := List.nodup_cons.mp hnodup
    obtain ⟨next, hgroup, hone⟩ : ∃ next, startRtsOfGroup currentTime s i = some next ∧
        startOneRts currentTime s i = some next := by
      by_cases hready : s.Ready i
      case neg =>
        exact ⟨s, startRtsOfGroup_of_not_ready hready,
          startRtsCmd_of_not_ready (toNat_rtsId i) hready⟩
      case pos =>
        obtain ⟨table, htable, hfits⟩ := h i List.mem_cons_self hready
        obtain ⟨-, hnone⟩ | ⟨next, hinit, -⟩ := initRtsInfo_spec currentTime i s
        · exact nomatch htable.symm.trans hnone
        · refine ⟨next, (startRtsOfGroup_of_ready hready).trans hinit, ?_⟩
          obtain ⟨hnone, -⟩ | ⟨other, hother, ⟨-, hstart⟩ | ⟨hshort, -⟩⟩ :=
            startRtsCmd_of_ready currentTime (toNat_rtsId i) hready
          · exact nomatch htable.symm.trans hnone
          · exact hstart.trans hinit
          · exact absurd (Option.some.inj (htable.symm.trans hother) ▸ hfits) hshort
    rw [List.foldlM_cons, List.foldlM_cons, hgroup, hone]
    refine ih hrest fun j hj hready => ?_
    have honly := startRtsOfGroup_onlyChanges hgroup
    have hne : j ≠ i := fun heq => hnot (heq ▸ hj)
    rw [RtsState.Ready, honly.others j hne] at hready
    rw [RtsState.Startable, honly.tables]
    exact h j (List.mem_cons_of_mem i hj) hready

/-- A group start and the starts one by one leave the same information table and count. -/
def RtsState.StartsAlike (currentTime : BitVec 32) (firstId lastId : BitVec 16) (s : RtsState) :
    Prop :=
  ∃ group each, startRtsGrpCmd currentTime firstId lastId s = some group ∧
    startEachRts currentTime firstId lastId s = some each ∧
    group.rtsInfo = each.rtsInfo ∧ group.numRtsActive = each.numRtsActive

theorem startable_of_startsAlike (hvalid : ValidRange firstId lastId)
    (h : s.StartsAlike currentTime firstId lastId) (hi : InRange firstId lastId i)
    (hready : s.Ready i) : s.Startable i := by
  obtain ⟨group, each, hgroup, heach, hsame, -⟩ := h
  rw [startEachRts_eq hvalid] at heach
  have hmem := (mem_rtsGroup hvalid).mpr hi
  have hnodup := nodup_rtsGroup firstId lastId
  obtain ⟨before, after, hinfo, htbl, hround, hafter⟩ :=
    round_of_foldlM (fun _ _ _ => startRtsOfGroup_onlyChanges) hnodup hmem hgroup
  have hbefore : before.Ready i := by
    rw [RtsState.Ready, hinfo]
    exact hready
  rw [startRtsOfGroup_of_ready hbefore] at hround
  obtain ⟨hnone, -⟩ | ⟨next, hinit, -, hexecuting, -⟩ := initRtsInfo_spec currentTime i before
  · exact nomatch hnone.symm.trans hround
  · obtain rfl := Option.some.inj (hinit.symm.trans hround)
    obtain ⟨before', after', hinfo', htbl', hround', hafter'⟩ :=
      round_of_foldlM (fun _ _ _ => startOneRts_onlyChanges) hnodup hmem heach
    have hbefore' : before'.Ready i := by
      rw [RtsState.Ready, hinfo']
      exact hready
    obtain ⟨-, hnone⟩ | ⟨table, htable, ⟨hfits, -⟩ | ⟨-, hrefused⟩⟩ :=
      startRtsCmd_of_ready currentTime (toNat_rtsId i) hbefore'
    · exact nomatch hnone.symm.trans hround'
    · exact ⟨table, htbl' ▸ htable, hfits⟩
    · -- the single start leaves the sequence loaded, the group start runs it
      obtain rfl := Option.some.inj (hrefused.symm.trans hround')
      have hloaded : (group.rtsInfo i).rtsStatus = .loaded := by
        rw [hsame, hafter']
        exact hbefore'.2
      rw [hafter, hexecuting] at hloaded
      cases hloaded

/-- A group start does what the starts one by one do exactly when every sequence of the
range that waits to be started has a table whose first command has a length that the
single start accepts. -/
theorem group_start_iff (currentTime : BitVec 32) (firstId lastId : BitVec 16) (s : RtsState)
    (hvalid : ValidRange firstId lastId) :
    s.StartsAlike currentTime firstId lastId ↔
      ∀ i, InRange firstId lastId i → s.Ready i → s.Startable i := by
  refine ⟨fun h i => startable_of_startsAlike hvalid h, fun h => ?_⟩
  obtain ⟨s', hgroup, hone⟩ := start_loops_agree currentTime
    (nodup_rtsGroup firstId lastId) fun i hi => h i (inRange_of_mem_rtsGroup hi)
  exact ⟨s', s', hgroup, (startEachRts_eq hvalid s).trans hone, rfl, rfl⟩

/-- A table with one command of eight bytes. -/
def oneCommandTable : RtsTable where
  cells := ⟨0, 0, 0, 0⟩ :: ⟨0x18, 0xA9, 0, 0⟩ :: ⟨0, 1, 0, 0⟩ :: List.replicate 72 Word.zero
  length_cells := by decide

/-- The first sequence loaded with a table and enabled. -/
def enabledWith (table : RtsTable) : RtsState :=
  enableRtsCmd 1 (manageRtsTable ⟨0, SC_NUMBER_OF_RTS_pos⟩ table {})

theorem group_start_alike_one : (enabledWith oneCommandTable).StartsAlike 0 1 2 := by
  refine (group_start_iff 0 1 2 _ (by decide)).mpr fun i hi hready => ?_
  have hfirst : i = ⟨0, by decide⟩ := by
    by_contra hne
    have hsecond : i = ⟨1, by decide⟩ := by
      obtain ⟨-, hlast⟩ := hi
      have hpos : i.val ≠ 0 := fun h => hne (Fin.ext h)
      have htwo : i.val + 1 ≤ 2 := hlast
      exact Fin.ext (by dsimp only; omega)
    subst hsecond
    exact absurd hready (by decide)
  subst hfirst
  exact ⟨oneCommandTable, rfl, 8, by decide⟩

/-- A table without commands passes the validation; the group start runs it. -/
theorem empty_table_starts_in_group :
    parseRts (Base.FixedArray.Buffer.replicate _ Word.zero) = some (some []) ∧
    ¬ (enabledWith (Base.FixedArray.Buffer.replicate _ Word.zero)).StartsAlike 0 1 1 := by
  refine ⟨by decide, fun h => ?_⟩
  obtain ⟨table, htable, cmdLength, hlength, hmin, -⟩ :=
    startable_of_startsAlike (i := ⟨0, by decide⟩) (by decide) h (by decide) (by decide)
  obtain rfl := Option.some.inj htable
  obtain rfl : 7 = cmdLength := Option.some.inj hlength
  exact absurd hmin (by decide)

end Nos3.Sc
