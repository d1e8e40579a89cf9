import Mathlib.Data.Fintype.Card
import Mathlib.Data.Fintype.Basic
import Nos3.Sc.Source.Process

/-!
# Bookkeeping of the active sequences

The RTP control block counts the sequences that execute. Starting and killing
keep the count; loading the table of an executing sequence does not, since it
changes the status and nothing else.
-/
namespace Nos3.Sc
open Base.Transition

def RtsState.executing (s : RtsState) : Finset RtsIndex :=
  Finset.univ.filter fun i => (s.rtsInfo i).rtsStatus = .executing

/-- `NumRtsActive` is the number of executing sequences. -/
def RtsState.counted (s : RtsState) : Prop := s.numRtsActive.toNat = s.executing.card

theorem RtsState.mem_executing {s : RtsState} {i : RtsIndex} :
    i ∈ s.executing ↔ (s.rtsInfo i).rtsStatus = .executing := by
  simp [RtsState.executing]

/-- An entry that stays on its side of executing leaves the set alone. -/
theorem executing_setInfo_same {s : RtsState} {i : RtsIndex} {entry : RtsInfoEntry}
    (h : entry.rtsStatus = .executing ↔ (s.rtsInfo i).rtsStatus = .executing) :
    (s.setInfo i entry).executing = s.executing := by
  ext j
  rw [RtsState.mem_executing, RtsState.mem_executing]
  by_cases hj : j = i
  · subst hj
    rw [RtsState.rtsInfo_setInfo]
    exact h
  · rw [RtsState.rtsInfo_setInfo_of_ne s hj]

theorem executing_setInfo_insert {s : RtsState} {i : RtsIndex} {entry : RtsInfoEntry}
    (h : entry.rtsStatus = .executing) :
    (s.setInfo i entry).executing = Insert.insert i s.executing := by
  ext j
  rw [RtsState.mem_executing, Finset.mem_insert, RtsState.mem_executing]
  by_cases hj : j = i
  · subst hj
    simp [h]
  · simp [RtsState.rtsInfo_setInfo_of_ne s hj, hj]

theorem executing_setInfo_erase {s : RtsState} {i : RtsIndex} {entry : RtsInfoEntry}
    (h : entry.rtsStatus ≠ .executing) :
    (s.setInfo i entry).executing = s.executing.erase i := by
  ext j
  rw [RtsState.mem_executing, Finset.mem_erase, RtsState.mem_executing]
  by_cases hj : j = i
  · subst hj
    simp [h]
  · simp [RtsState.rtsInfo_setInfo_of_ne s hj, hj]

theorem counted_setInfo_same {s : RtsState} {i : RtsIndex} {entry : RtsInfoEntry}
    (hs : s.counted) (h : entry.rtsStatus = (s.rtsInfo i).rtsStatus) :
    (s.setInfo i entry).counted := by
  rw [RtsState.counted, executing_setInfo_same (by rw [h])]
  exact hs

theorem counted_killRts {s : RtsState} (hs : s.counted) (rtsIndex : Nat) :
    (killRts rtsIndex s).counted := by
  rw [killRts]
  split
  case isFalse => exact hs
  case isTrue hindex =>
    dsimp only
    split
    case isFalse => exact hs
    case isTrue hstatus =>
      have hmem := RtsState.mem_executing.mpr hstatus
      have hpos : 0 < s.numRtsActive.toNat := hs ▸ Finset.card_pos.mpr ⟨_, hmem⟩
      split
      case isFalse hzero => exact absurd hpos hzero
      case isTrue =>
        refine Eq.trans ?_ ((congrArg Finset.card (executing_setInfo_erase ?_)).trans
          (Finset.card_erase_of_mem hmem)).symm
        · rw [← hs]
          exact BitVec.toNat_sub_of_le (show (1 : BitVec 16) ≤ s.numRtsActive from hpos)
        · nofun

theorem counted_initRtsInfo {currentTime : BitVec 32} {i : RtsIndex} {s s' : RtsState}
    (hs : s.counted) (hidle : (s.rtsInfo i).rtsStatus ≠ .executing)
    (h : initRtsInfo currentTime i s = some s') : s'.counted := by
  obtain ⟨table, -, h⟩ := Option.bind_eq_some_iff.mp h
  obtain ⟨timeTag, -, h⟩ := Option.bind_eq_some_iff.mp h
  cases h
  have hnot : i ∉ s.executing := fun hi => hidle (RtsState.mem_executing.mp hi)
  have hroom : s.executing.card < SC_NUMBER_OF_RTS := by
    have hlt := Finset.card_lt_card (Finset.ssubset_univ_iff.mpr
      fun hall : s.executing = Finset.univ => hnot (hall ▸ Finset.mem_univ i))
    rwa [Finset.card_univ, Fintype.card_fin] at hlt
  have hinsert : ({s.setInfo i { s.rtsInfo i with
        rtsStatus := .executing
        cmdCtr := 0
        cmdErrCtr := 0
        nextCommandPtr := 0
        useCtr := (s.rtsInfo i).useCtr + 1
        nextCommandTime := computeAbsTime currentTime timeTag } with
      numRtsActive := s.numRtsActive + 1 } : RtsState).executing =
      Insert.insert i s.executing := executing_setInfo_insert rfl
  rw [RtsState.counted]
  refine Eq.trans ?_ (congrArg Finset.card hinsert).symm
  rw [Finset.card_insert_of_notMem hnot, ← hs, BitVec.toNat_add]
  rw [← hs] at hroom
  exact Nat.mod_eq_of_lt (Nat.lt_of_le_of_lt hroom (by decide))

theorem counted_startRtsCmd {currentTime : BitVec 32} {rtsId : BitVec 16} {s s' : RtsState}
    (hs : s.counted) (h : startRtsCmd currentTime rtsId s = some s') : s'.counted := by
  rw [startRtsCmd] at h
  split at h
  case isFalse => exact Option.some.inj h ▸ hs
  case isTrue =>
    dsimp only at h
    split at h
    case isFalse => exact Option.some.inj h ▸ hs
    case isTrue =>
      split at h
      case isFalse => exact Option.some.inj h ▸ hs
      case isTrue hloaded =>
        obtain ⟨table, -, h⟩ := Option.bind_eq_some_iff.mp h
        obtain ⟨cmdLength, -, h⟩ := Option.bind_eq_some_iff.mp h
        split at h
        case isFalse => exact Option.some.inj h ▸ hs
        case isTrue => exact counted_initRtsInfo hs (by rw [hloaded]; nofun) h

theorem counted_startRtsOfGroup {currentTime : BitVec 32} {s s' : RtsState} {i : RtsIndex}
    (hs : s.counted) (h : startRtsOfGroup currentTime s i = some s') : s'.counted := by
  rw [startRtsOfGroup] at h
  split at h
  case isFalse => exact Option.some.inj h ▸ hs
  case isTrue hloaded => exact counted_initRtsInfo hs (by rw [hloaded.2]; nofun) h

/-- What every step keeps, a group command keeps. -/
theorem foldlM_keeps {P : RtsState → Prop} {step : RtsState → RtsIndex → Option RtsState}
    (hstep : ∀ {s s' : RtsState} {i : RtsIndex}, P s → step s i = some s' → P s')
    {group : List RtsIndex} {s s' : RtsState} (hs : P s)
    (h : group.foldlM step s = some s') : P s' := by
  induction group generalizing s with
  | nil => exact Option.some.inj h ▸ hs
  | cons i group ih =>
    rw [List.foldlM_cons] at h
    obtain ⟨mid, hmid, hrest⟩ := Option.bind_eq_some_iff.mp h
    exact ih (hstep hs hmid) hrest

theorem foldl_keeps {P : RtsState → Prop} {step : RtsState → RtsIndex → RtsState}
    (hstep : ∀ {s : RtsState} {i : RtsIndex}, P s → P (step s i))
    {group : List RtsIndex} {s : RtsState} (hs : P s) : P (group.foldl step s) := by
  induction group generalizing s with
  | nil => exact hs
  | cons i group ih => exact ih (hstep hs)

theorem counted_stopRtsCmd {s : RtsState} (hs : s.counted) (rtsId : BitVec 16) :
    (stopRtsCmd rtsId s).counted := by
  rw [stopRtsCmd]
  split
  · exact counted_killRts hs _
  · exact hs

theorem counted_stopRtsOfGroup {s : RtsState} {i : RtsIndex} (hs : s.counted) :
    (stopRtsOfGroup s i).counted := by
  rw [stopRtsOfGroup]
  split
  · exact counted_killRts hs _
  · exact hs

theorem counted_setDisabled {flag : Bool} {s : RtsState} {i : RtsIndex} (hs : s.counted) :
    (s.setDisabled flag i).counted :=
  counted_setInfo_same hs rfl

theorem counted_disableRtsCmd {rtsId : BitVec 16} {s s' : RtsState} (hs : s.counted)
    (h : disableRtsCmd rtsId s = some s') : s'.counted := by
  rw [disableRtsCmd] at h
  split at h
  case isFalse => exact Option.some.inj h ▸ hs
  case isTrue =>
    split at h
    case isTrue => exact Option.some.inj h ▸ counted_setDisabled hs
    case isFalse => cases h

theorem counted_enableRtsCmd {s : RtsState} (hs : s.counted) (rtsId : BitVec 16) :
    (enableRtsCmd rtsId s).counted := by
  rw [enableRtsCmd]
  split
  · exact counted_setDisabled hs
  · exact hs

theorem counted_autoEnableRts {s : RtsState} (hs : s.counted) (i : RtsIndex) :
    (autoEnableRts i s).counted := by
  rw [autoEnableRts]
  split
  · exact counted_setDisabled hs
  · exact hs

/-- Loading keeps the count where the sequence does not execute. -/
theorem counted_manageRtsTable {i : RtsIndex} {s : RtsState} (hs : s.counted)
    (hidle : (s.rtsInfo i).rtsStatus ≠ .executing) (table : RtsTable) :
    (manageRtsTable i table s).counted := by
  refine Eq.trans hs (congrArg Finset.card (executing_setInfo_same ?_)).symm
  exact ⟨nofun, fun h => absurd h hidle⟩

theorem counted_getNextRtsTime {s : RtsState} (hs : s.counted) : (getNextRtsTime s).counted := by
  rw [getNextRtsTime]
  split <;> exact hs

theorem counted_rtsCmdError {i : RtsIndex} {s : RtsState} (hs : s.counted) :
    (rtsCmdError i s).counted := by
  refine counted_killRts ?_ _
  exact counted_setInfo_same (s := { s with rtsCmdErrCtr := s.rtsCmdErrCtr + 1 }) hs rfl

theorem counted_getNextRtsCommand {currentTime : BitVec 32} {s s' : RtsState} (hs : s.counted)
    (h : getNextRtsCommand currentTime s = some s') : s'.counted := by
  rw [getNextRtsCommand] at h
  split at h
  case isFalse => exact Option.some.inj h ▸ hs
  case isTrue =>
    dsimp only at h
    split at h
    case isFalse => exact Option.some.inj h ▸ hs
    case isTrue =>
      obtain ⟨table, -, h⟩ := Option.bind_eq_some_iff.mp h
      obtain ⟨length, -, h⟩ := Option.bind_eq_some_iff.mp h
      split at h
      case isFalse => exact Option.some.inj h ▸ counted_killRts hs _
      case isTrue =>
        obtain ⟨length, -, h⟩ := Option.bind_eq_some_iff.mp h
        split at h
        case isFalse => exact Option.some.inj h ▸ counted_killRts hs _
        case isTrue =>
          split at h
          case isFalse => exact Option.some.inj h ▸ counted_rtsCmdError hs
          case isTrue =>
            split at h
            case isFalse => exact Option.some.inj h ▸ counted_rtsCmdError hs
            case isTrue =>
              obtain ⟨timeTag, -, h⟩ := Option.bind_eq_some_iff.mp h
              exact Option.some.inj h ▸ counted_setInfo_same hs rfl

theorem counted_processRtpCommand {accepted : Bool} {currentTime : BitVec 32} {s s' : RtsState}
    {sent : Option RtsSent} (hs : s.counted)
    (h : processRtpCommand accepted currentTime s = some (s', sent)) : s'.counted := by
  rw [processRtpCommand] at h
  split at h
  case isFalse =>
    cases h
    exact hs
  case isTrue =>
    dsimp only at h
    split at h
    case isFalse =>
      cases h
      exact hs
    case isTrue =>
      obtain ⟨table, -, h⟩ := Option.bind_eq_some_iff.mp h
      split at h
      case isTrue =>
        obtain ⟨next, hnext, h⟩ := Option.bind_eq_some_iff.mp h
        cases h
        refine counted_getNextRtsCommand ?_ hnext
        exact counted_setInfo_same hs rfl
      case isFalse =>
        cases h
        exact counted_rtsCmdError hs

theorem counted_processNext {bus : Nat → Bool} {s s' : ScState} (hs : s.rts.counted)
    (h : processNext bus s = some s') : s'.rts.counted := by
  rw [processNext] at h
  split at h
  · obtain ⟨outcome, -, h⟩ := Option.bind_eq_some_iff.mp h
    exact Option.some.inj h ▸ hs
  · obtain ⟨⟨rts, sent⟩, hrts, h⟩ := Option.bind_eq_some_iff.mp h
    exact Option.some.inj h ▸ counted_processRtpCommand hs hrts
  · exact Option.some.inj h ▸ hs

theorem rts_servicePending {s s' : ScState} (h : servicePending s = some s') :
    s'.rts = s.rts := by
  rw [servicePending] at h
  split at h
  · obtain ⟨ats, -, rfl⟩ := Option.map_eq_some_iff.mp h
    rfl
  · cases h
    rfl

theorem rts_endRound (s : ScState) : (endRound s).1.rts = s.rts := by
  rw [endRound]
  split
  · rfl
  · split <;> rfl

theorem counted_wakeupBody {bus : Nat → Bool} {s s' : ScState} {another : Bool}
    (hs : s.rts.counted) (h : wakeupBody bus s = some (s', another)) : s'.rts.counted := by
  obtain ⟨served, hserved, h⟩ := Option.bind_eq_some_iff.mp h
  obtain ⟨next, hnext, h⟩ := Option.bind_eq_some_iff.mp h
  have hcounted : served.rts.counted := by
    rw [rts_servicePending hserved]
    exact hs
  have hend := congrArg (fun p => p.1.rts) (Option.some.inj h)
  rw [← show (endRound (updateNextTime next)).1.rts = s'.rts from hend, rts_endRound]
  exact counted_getNextRtsTime (counted_processNext hcounted hnext)

theorem counted_wakeupLoop {bus : Nat → Bool} {fuel : Nat} {s s' : ScState}
    (hs : s.rts.counted) (h : wakeupLoop bus fuel s = some s') : s'.rts.counted := by
  induction fuel generalizing s with
  | zero => cases h
  | succ fuel ih =>
    obtain ⟨⟨mid, another⟩, hbody, h⟩ := Option.bind_eq_some_iff.mp h
    have hmid := counted_wakeupBody hs hbody
    dsimp only at h
    split at h
    · exact ih hmid h
    · exact Option.some.inj h ▸ hmid

/-- No request activates the table of a sequence that executes. -/
def noExecutingRtsLoad (s : ScState) (label : TimedRequest) : Prop :=
  match label.request with
  | .manageRts i _ => (s.rts.rtsInfo i).rtsStatus ≠ .executing
  | _ => True

instance (s : ScState) (label : TimedRequest) : Decidable (noExecutingRtsLoad s label) := by
  apply Request.casesOn (motive := fun request => Decidable (noExecutingRtsLoad s ⟨request, label.time⟩))
  all_goals
    intros
    delta noExecutingRtsLoad
    infer_instance

theorem counted_onRts {s s' : ScState} {rts : Option RtsState}
    (hrts : ∀ next, rts = some next → next.counted) (h : s.onRts rts = some s') :
    s'.rts.counted := by
  obtain ⟨next, hnext, rfl⟩ := Option.map_eq_some_iff.mp h
  exact hrts next hnext

theorem counted_onAts {s s' : ScState} {ats : Option AtsState} (hs : s.rts.counted)
    (h : s.onAts ats = some s') : s'.rts.counted := by
  obtain ⟨next, -, rfl⟩ := Option.map_eq_some_iff.mp h
  exact hs

theorem counted_processRequest {s s' : ScState} {request : Request} {time : BitVec 32}
    (hs : s.rts.counted) (hok : noExecutingRtsLoad s ⟨request, time⟩)
    (h : processRequest request s = some s') : s'.rts.counted := by
  have hpure : ∀ {rts : RtsState}, rts.counted → ∀ next, some rts = some next → next.counted :=
    fun hrts next hnext => Option.some.inj hnext ▸ hrts
  cases request with
  | startAts | stopAts | switchAts | jumpAts | appendAts => exact counted_onAts hs h
  | startRts rtsId => exact counted_onRts (fun _ => counted_startRtsCmd hs) h
  | stopRts rtsId => exact counted_onRts (hpure (counted_stopRtsCmd hs rtsId)) h
  | disableRts rtsId => exact counted_onRts (fun _ => counted_disableRtsCmd hs) h
  | enableRts rtsId => exact counted_onRts (hpure (counted_enableRtsCmd hs rtsId)) h
  | startRtsGrp => exact counted_onRts (fun _ => foldlM_keeps counted_startRtsOfGroup hs) h
  | stopRtsGrp => exact counted_onRts (hpure (foldl_keeps counted_stopRtsOfGroup hs)) h
  | disableRtsGrp => exact counted_onRts (hpure (foldl_keeps counted_setDisabled hs)) h
  | enableRtsGrp => exact counted_onRts (hpure (foldl_keeps counted_setDisabled hs)) h
  | autoEnable i => exact counted_onRts (hpure (counted_autoEnableRts hs i)) h
  | manageRts i table =>
    rw [processRequest] at h
    split at h
    · exact counted_onRts (hpure (counted_manageRtsTable hs hok table)) h
    · cases h
  | manageAts a table =>
    rw [processRequest] at h
    split at h
    · exact counted_onAts hs h
    · cases h
  | manageAppend table =>
    rw [processRequest] at h
    split at h
    · exact counted_onAts hs h
    · cases h
  | wakeup bus fuel =>
    exact counted_wakeupLoop hs h

/-- In every run that loads no executing sequence the counter of active
sequences is right. -/
theorem numRtsActive_counts {s : ScState} (h : machine.Reaches noExecutingRtsLoad s) :
    s.rts.counted := by
  refine @Machine.Reaches.invariant _ _ machine _ (fun s => s.rts.counted) ?_
    (fun s label s' hs hok hnext =>
      counted_processRequest (s := { s with currentTime := label.time }) hs hok hnext) s h
  rintro s rfl
  have hnone : ({} : ScState).rts.executing = ∅ := by
    refine Finset.filter_eq_empty_iff.mpr fun i _ => ?_
    nofun
  rw [RtsState.counted, hnone]
  rfl

instance (s : RtsState) : Decidable s.counted := inferInstanceAs (Decidable (_ = _))

/-- One command of eight bytes without delay. -/
def oneCommandRts : RtsTable :=
  ⟨[⟨0, 0, 0, 0⟩, ⟨0x18, 0x01, 0xC0, 0⟩, ⟨0, 1, 0, 0⟩] ++ List.replicate 72 Word.zero,
    by decide⟩

def firstRts : RtsIndex := ⟨0, SC_NUMBER_OF_RTS_pos⟩

/-- Load, enable and start the first sequence. -/
def startFirstRts : List TimedRequest :=
  [⟨.manageRts firstRts oneCommandRts, 0⟩, ⟨.enableRts 1, 0⟩, ⟨.startRts 1, 0⟩]

theorem numRtsActive_counts_started : ∃ s, machine.Reaches noExecutingRtsLoad s ∧
    s.rts.counted ∧ s.rts.numRtsActive = 1 := by
  obtain ⟨s, hs, hactive⟩ := machine.exists_reaches noExecutingRtsLoad
    (fun s => s.rts.numRtsActive = 1) rfl startFirstRts (by decide +kernel)
  exact ⟨s, hs, numRtsActive_counts hs, of_decide_eq_true hactive⟩

/-- The table of the started sequence is loaded again. -/
theorem numRtsActive_miscounts : ∃ s, machine.Reachable s ∧ ¬ s.rts.counted := by
  obtain ⟨s, hs, hcount⟩ := machine.exists_reaches (fun _ _ => True)
    (fun s => ¬ s.rts.counted) rfl
    (startFirstRts ++ [⟨.manageRts firstRts oneCommandRts, 1⟩]) (by decide +kernel)
  exact ⟨s, hs, of_decide_eq_true hcount⟩

end Nos3.Sc
