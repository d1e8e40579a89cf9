import Nos3.Base.Rounds
import Nos3.Sc.Guarantees.ActiveRts
import Nos3.Sc.Guarantees.UsableState

/-!
# The end of the 1 Hz processing

A round sends and counts a command, clears the pending switch, or gets on in the
ATS. Only a round that finds the next ATS command due as an unsigned number, but
later as a spacecraft time, changes nothing, and then repeats for ever.
-/
namespace Nos3.Sc
open Base.Transition
open Base.Rounds

/-! ## The next sequence of relative time -/

theorem foldl_scanNextRts {info : RtsIndex → RtsInfoEntry} (list : List RtsIndex)
    {next : Option RtsIndex × BitVec 32}
    (hnext : ∀ i, next.1 = some i → (info i).rtsStatus = .executing) {i : RtsIndex}
    (h : (list.foldl (scanNextRts info) next).1 = some i) : (info i).rtsStatus = .executing := by
  induction list generalizing next with
  | nil => exact hnext i h
  | cons j list ih =>
    refine ih (fun k hk => ?_) h
    rw [scanNextRts] at hk
    split at hk
    case isTrue hexecuting => exact Option.some.inj hk ▸ hexecuting.1
    case isFalse => exact hnext k hk

theorem getNextRtsTime_number {s : RtsState} (h : (getNextRtsTime s).rtsNumber > 0) :
    ∃ i : RtsIndex, (getNextRtsTime s).rtsNumber = i.val + 1 ∧
      ((getNextRtsTime s).rtsInfo i).rtsStatus = .executing := by
  rw [getNextRtsTime] at h ⊢
  split at h
  · cases h
  case h_2 i time hscan =>
    have hnone : ∀ j, ((none, SC_MAX_TIME) : Option RtsIndex × BitVec 32).1 = some j →
        (s.rtsInfo j).rtsStatus = .executing := fun _ h => by cases h
    refine ⟨i, rfl, foldl_scanNextRts
      (List.finRange SC_NUMBER_OF_RTS).reverse hnone ?_⟩
    rw [hscan]

theorem getNextRtsTime_idem (s : RtsState) :
    getNextRtsTime (getNextRtsTime s) = getNextRtsTime s := by
  have hinfo : (getNextRtsTime s).rtsInfo = s.rtsInfo := by
    rw [getNextRtsTime]
    split <;> rfl
  rw [getNextRtsTime, hinfo]
  rw [getNextRtsTime]
  split <;> rfl

/-! ## One round -/

/-- The processing of one second is under way. -/
structure ScState.Running (base : Nat) (s : ScState) : Prop where
  ats : s.ats.Usable
  rts : s.rts.Usable
  room : s.numCmdsSec.toNat < SC_MAX_CMDS_PER_SEC
  sent : s.sent.length ≤ base + s.numCmdsSec.toNat

/-- A command was sent and counted, or none was. -/
structure ScState.Processed (base : Nat) (s : ScState) : Prop where
  ats : s.ats.Usable
  rts : s.rts.Usable
  room : s.numCmdsSec.toNat ≤ SC_MAX_CMDS_PER_SEC
  sent : s.sent.length ≤ base + s.numCmdsSec.toNat

/-- The state between two requests. -/
structure ScState.Finished (base : Nat) (s : ScState) : Prop where
  ats : s.ats.Usable
  rts : s.rts.Usable
  count : s.numCmdsSec = 0
  sent : s.sent.length ≤ base + SC_MAX_CMDS_PER_SEC

/-- A round that follows another one. -/
structure ScState.Round (base : Nat) (s : ScState) : Prop extends s.Running base where
  scanned : getNextRtsTime s.rts = s.rts
  next : s.nextProcNumber = nextProcessor s.ats s.rts
  busy : s.nextProcNumber ≠ .none
  due : s.nextCmdTime ≤ s.currentTime

/-- The command of the ATS that is next lies ahead, and no switch is pending. -/
structure ScState.Stalled (s : ScState) : Prop where
  next : s.nextProcNumber = .atp
  settled : s.ats.switchPendFlag = false
  ahead : compareAbsTime s.ats.nextCmdTime s.currentTime = true

/-- A pending switch is serviced where the next command lies ahead. -/
theorem servicePending_running {base : Nat} {s : ScState} (hs : s.Running base) :
    ∃ ats : AtsState, servicePending s = some { s with ats := ats } ∧
      ScState.Running base { s with ats := ats } ∧ s.ats.Keeps ats ∧
      if s.ats.switchPendFlag = true ∧ compareAbsTime s.ats.nextCmdTime s.currentTime = true then
        ats.switchPendFlag = false
      else ats = s.ats := by
  rw [servicePending]
  split
  case isTrue hpending =>
    obtain ⟨ats, hservice, hkeeps, hcases⟩ := serviceSwitchPend_usable hs.ats s.currentTime
    refine ⟨ats, by rw [hservice]; rfl, ⟨hkeeps.usable, hs.rts, hs.room, hs.sent⟩, hkeeps, ?_⟩
    simpa only [hpending, true_and] using hcases
  case isFalse hsettled =>
    refine ⟨s.ats, rfl, hs, hs.ats.refl, ?_⟩
    rw [if_neg fun h => hsettled h.1]

theorem toNat_count {count : BitVec 16} (h : count.toNat < SC_MAX_CMDS_PER_SEC) :
    (count + 1).toNat = count.toNat + 1 := by
  have hsmall : count.toNat < 8 := h
  rw [BitVec.toNat_add, show (1 : BitVec 16).toNat = 1 from rfl]
  omega

/-- What an uncounted call leaves of the ATP, by the processor that is next. -/
def ScState.Uncounted (s : ScState) (ats : AtsState) : Prop :=
  match s.nextProcNumber with
  | .atp =>
    if compareAbsTime s.ats.nextCmdTime s.currentTime = false ∧ s.ats.atpState = .executing then
      s.ats.Passed ats
    else ats = s.ats
  | .rtp => ats = s.ats ∧ ¬ s.rts.Due s.currentTime
  | .none => ats = s.ats

theorem processNext_running {base : Nat} {s : ScState} (hs : s.Running base)
    (bus : Nat → Bool) : ∃ s', processNext bus s = some s' ∧ s'.Processed base ∧
      s.ats.Keeps s'.ats ∧ s'.currentTime = s.currentTime ∧
      (s'.numCmdsSec.toNat = s.numCmdsSec.toNat + 1 ∨
        s'.numCmdsSec = s.numCmdsSec ∧ s.Uncounted s'.ats) := by
  have hroom := hs.room
  have hsent := hs.sent
  have hcount := toNat_count hroom
  rw [processNext]
  cases hnext : s.nextProcNumber with
  | atp =>
    obtain ⟨outcome, hprocess, hkeeps, hkind⟩ :=
      processAtpCmd_usable hs.ats (bus s.sent.length) s.currentTime
    simp only [hprocess, Option.bind_eq_bind, Option.bind_some]
    obtain hcounted | ⟨hcounted, hnone, hcases⟩ := hkind
    · refine ⟨_, rfl, ⟨hkeeps.usable, hs.rts, ?_, ?_⟩, hkeeps, rfl, .inl ?_⟩
      · simp only [hcounted, if_true, hcount]
        omega
      · simp only [hcounted, if_true, hcount, List.length_append]
        have hone : (outcome.sent.map fun entry =>
            (⟨.ats entry, s.currentTime⟩ : SentAt)).toList.length ≤ 1 := by
          cases outcome.sent <;> simp
        omega
      · simp only [hcounted, if_true, hcount]
    · refine ⟨_, rfl, ⟨hkeeps.usable, hs.rts, ?_, ?_⟩, hkeeps, rfl, .inr ⟨?_, ?_⟩⟩
      · simpa only [hcounted, Bool.false_eq_true, if_false] using hroom.le
      · simpa [hcounted, hnone] using hsent
      · simp only [hcounted, Bool.false_eq_true, if_false]
      · rw [ScState.Uncounted, hnext]
        exact hcases
  | rtp =>
    obtain ⟨rts, sent, hprocess, husable, hdue⟩ :=
      processRtpCommand_usable hs.rts (bus s.sent.length) s.currentTime
    simp only [hprocess, Option.bind_eq_bind, Option.bind_some]
    cases sent with
    | some entry =>
      refine ⟨_, rfl, ⟨hs.ats, husable, ?_, ?_⟩, hs.ats.refl, rfl, .inl ?_⟩
      · simp only [Option.isSome_some, if_true, hcount]
        omega
      · simp only [Option.isSome_some, if_true, hcount, Option.map_some, Option.toList_some,
          List.length_append, List.length_singleton]
        omega
      · simp only [Option.isSome_some, if_true, hcount]
    | none =>
      refine ⟨_, rfl, ⟨hs.ats, husable, hroom.le, hsent⟩, hs.ats.refl, rfl, .inr ⟨rfl, ?_⟩⟩
      rw [ScState.Uncounted, hnext]
      exact ⟨rfl, fun h => by cases hdue h⟩
  | none =>
    refine ⟨s, rfl, ⟨hs.ats, hs.rts, hroom.le, hsent⟩, hs.ats.refl, rfl, .inr ⟨rfl, ?_⟩⟩
    rw [ScState.Uncounted, hnext]

/-- A round ends the processing or starts another one. -/
theorem endRound_cases {base : Nat} {s : ScState} (hs : s.Processed base) :
    ∃ s' another, endRound (updateNextTime s) = (s', another) ∧
      if another then s'.Round base ∧ s'.ats = s.ats ∧ s'.numCmdsSec = s.numCmdsSec
      else s'.Finished base := by
  have hrts := getNextRtsTime_usable hs.rts
  have hend : ScState.Finished base { updateNextTime s with numCmdsSec := 0 } :=
    ⟨hs.ats, hrts, rfl, hs.sent.trans (Nat.add_le_add_left hs.room base)⟩
  rw [endRound]
  split
  case isTrue => exact ⟨_, false, rfl, hend⟩
  case isFalse hnext =>
    obtain ⟨hbusy, hdue⟩ := not_or.mp hnext
    split
    case isTrue => exact ⟨_, false, rfl, hend⟩
    case isFalse hroom =>
      refine ⟨_, true, rfl, ⟨⟨hs.ats, hrts, Nat.not_le.mp hroom, hs.sent⟩, ?_, rfl, hbusy, ?_⟩,
        rfl, rfl⟩
      · exact getNextRtsTime_idem s.rts
      · exact BitVec.not_lt.mp hdue

theorem wakeupBody_running {base : Nat} {s : ScState} (hs : s.Running base) (bus : Nat → Bool) :
    ∃ s' another, wakeupBody bus s = some (s', another) ∧ s.ats.Keeps s'.ats ∧
      if another then s'.Round base else s'.Finished base := by
  obtain ⟨ats, hservice, hserviced, hpend, -⟩ := servicePending_running hs
  obtain ⟨processed, hprocess, hprocessed, hkeeps, -⟩ := processNext_running hserviced bus
  obtain ⟨s', another, hend, hcases⟩ := endRound_cases hprocessed
  have hats : s'.ats = processed.ats := by
    have hsame := (endRound_ats (updateNextTime processed)).1
    rwa [hend] at hsame
  refine ⟨s', another, ?_, ?_, ?_⟩
  · simp only [wakeupBody, hservice, hprocess, Option.bind_eq_bind, Option.bind_some, hend]
  · rw [hats]
    exact hpend.trans hkeeps
  · cases another with
    | true => exact hcases.1
    | false => exact hcases

/-! ## What the rounds use up -/

/-- What is left of the executing ATS; a pointer behind every list comes first. -/
def AtsState.left (s : AtsState) : Nat :=
  if s.atpState = .executing then
    if s.timeIndexPtr < SC_MAX_ATS_CMDS then SC_MAX_ATS_CMDS - s.timeIndexPtr + 1
    else SC_MAX_ATS_CMDS + 2
  else 0

theorem AtsState.left_le (s : AtsState) : s.left ≤ SC_MAX_ATS_CMDS + 2 := by
  rw [AtsState.left]
  split
  · split <;> omega
  · omega

theorem AtsState.Passed.left_lt {s s' : AtsState} (h : s.Passed s')
    (hexecuting : s.atpState = .executing) :
    s'.left < s.left ∧ (s'.switchPendFlag = true → s.switchPendFlag = true) := by
  obtain ⟨hstopped, hsettled⟩ | ⟨hgoesOn, hflag, hptr, hinside⟩ := h
  · refine ⟨?_, fun h => absurd (hsettled.symm.trans h) nofun⟩
    rw [AtsState.left, if_neg hstopped, AtsState.left, if_pos hexecuting]
    split <;> omega
  · refine ⟨?_, fun h => hflag.symm.trans h⟩
    rw [AtsState.left, if_pos hgoesOn, if_pos hinside, AtsState.left, if_pos hexecuting]
    have hmax : SC_MAX_ATS_CMDS = 1000 := rfl
    split <;> omega

/-- A command, a pending switch and the commands of an ATS, in this order. -/
def ScState.remaining (s : ScState) : Nat :=
  (SC_MAX_CMDS_PER_SEC - s.numCmdsSec.toNat) * 4000 +
    (if s.ats.switchPendFlag then 2000 else 0) + s.ats.left

theorem nextProcessor_atp {ats : AtsState} {rts : RtsState} (h : nextProcessor ats rts = .atp) :
    ats.atpState = .executing := by
  rw [nextProcessor] at h
  split at h
  · cases h
  · split at h
    case isTrue hexecuting => exact hexecuting
    case isFalse => cases h

theorem ScState.Round.rts_due {base : Nat} {s : ScState} (hs : s.Round base)
    (hnext : s.nextProcNumber = .rtp) : s.rts.Due s.currentTime := by
  have hnumber : (getNextRtsTime s.rts).rtsNumber > 0 := by
    have h := hs.next.symm.trans hnext
    rw [nextProcessor] at h
    rw [hs.scanned]
    split at h
    case isTrue hrts => exact hrts.1
    case isFalse => split at h <;> cases h
  obtain ⟨i, hi, hexecuting⟩ := getNextRtsTime_number hnumber
  rw [hs.scanned] at hi hexecuting
  have hdue := hs.due
  rw [ScState.nextCmdTime, hnext] at hdue
  exact ⟨i, hi, hdue, hexecuting⟩

/-- A round after another one, that is not stalled, uses something up. -/
theorem remaining_lt {base : Nat} {s processed : ScState} {ats : AtsState} (hs : s.Round base)
    (hstalled : ¬ s.Stalled)
    (hservice : if s.ats.switchPendFlag = true ∧
        compareAbsTime s.ats.nextCmdTime s.currentTime = true then ats.switchPendFlag = false
      else ats = s.ats)
    (hprocess : processed.numCmdsSec.toNat = s.numCmdsSec.toNat + 1 ∨
      processed.numCmdsSec = s.numCmdsSec ∧
        ScState.Uncounted { s with ats := ats } processed.ats) :
    processed.remaining < s.remaining := by
  have hroom : s.numCmdsSec.toNat < 8 := hs.room
  have hlimit : SC_MAX_CMDS_PER_SEC = 8 := rfl
  have hleft : processed.ats.left ≤ 1002 := processed.ats.left_le
  obtain hcounted | ⟨hcount, huncounted⟩ := hprocess
  · simp only [ScState.remaining, hcounted]
    split <;> split <;> omega
  · rw [ScState.Uncounted] at huncounted
    cases hnext : s.nextProcNumber with
    | none => exact absurd hnext hs.busy
    | rtp =>
      simp only [hnext] at huncounted
      exact absurd (hs.rts_due hnext) huncounted.2
    | atp =>
      simp only [hnext] at huncounted
      by_cases hswitch : s.ats.switchPendFlag = true ∧
          compareAbsTime s.ats.nextCmdTime s.currentTime = true
      · -- the service of the switch cleared the flag, and nothing sets it again
        rw [if_pos hswitch] at hservice
        have hsettled : processed.ats.switchPendFlag = false := by
          split at huncounted
          case isTrue hready =>
            have hflag := (huncounted.left_lt hready.2).2
            rw [hservice] at hflag
            exact Bool.eq_false_iff.mpr fun h => nomatch hflag h
          case isFalse => rw [huncounted, hservice]
        simp only [ScState.remaining, hcount, hsettled, hswitch.1, if_true, Bool.false_eq_true,
          if_false]
        omega
      · rw [if_neg hswitch] at hservice
        subst hservice
        have hexecuting := nextProcessor_atp (hs.next.symm.trans hnext)
        have hdue : compareAbsTime s.ats.nextCmdTime s.currentTime = false := by
          refine Bool.eq_false_iff.mpr fun hahead => hstalled ⟨hnext, ?_, hahead⟩
          exact Bool.eq_false_iff.mpr fun hflag => hswitch ⟨hflag, hahead⟩
        rw [if_pos ⟨hdue, hexecuting⟩] at huncounted
        obtain ⟨hless, hflag⟩ := huncounted.left_lt hexecuting
        simp only [ScState.remaining, hcount]
        split
        case isTrue hpending =>
          rw [if_pos (hflag hpending)]
          omega
        case isFalse => omega

theorem wakeupBody_round {base : Nat} {s : ScState} (hs : s.Round base) (hstalled : ¬ s.Stalled)
    (bus : Nat → Bool) : ∃ s' another, wakeupBody bus s = some (s', another) ∧
      if another then s'.Round base ∧ s'.remaining < s.remaining else s'.Finished base := by
  obtain ⟨ats, hservice, hserviced, -, hswitch⟩ := servicePending_running hs.toRunning
  obtain ⟨processed, hprocess, hprocessed, -, -, hkind⟩ := processNext_running hserviced bus
  obtain ⟨s', another, hend, hcases⟩ := endRound_cases hprocessed
  refine ⟨s', another, ?_, ?_⟩
  · simp only [wakeupBody, hservice, hprocess, Option.bind_eq_bind, Option.bind_some, hend]
  · cases another with
    | false => exact hcases
    | true =>
      obtain ⟨hround, hats, hcount⟩ := hcases
      refine ⟨hround, ?_⟩
      rw [ScState.remaining, hats, hcount]
      exact remaining_lt hs hstalled hswitch hkind

/-- A stalled round leaves everything as it is. -/
theorem wakeupBody_stalled {base : Nat} {s : ScState} (hs : s.Round base) (hstalled : s.Stalled)
    (bus : Nat → Bool) : wakeupBody bus s = some (s, true) := by
  have hservice : servicePending s = some s := by
    rw [servicePending, if_neg (Bool.eq_false_iff.mp hstalled.settled)]
  have hprocess : processNext bus s = some s := by
    rw [processNext, hstalled.next]
    have hnothing : processAtpCmd (bus s.sent.length) s.currentTime s.ats =
        some { state := s.ats } := by
      rw [processAtpCmd, if_neg fun h => absurd (h.1.symm.trans hstalled.ahead) (by decide)]
    simp only [hnothing, Option.bind_eq_bind, Option.bind_some]
    rw [← hstalled.next]
    rfl
  have hupdate : updateNextTime s = s := by
    simp only [updateNextTime, hs.scanned, ← hs.next]
  have hend : endRound s = (s, true) := by
    rw [endRound, if_neg (not_or.mpr ⟨hs.busy, BitVec.not_lt.mpr hs.due⟩),
      if_neg (Nat.not_le.mpr hs.room)]
  simp only [wakeupBody, hservice, hprocess, Option.bind_eq_bind, Option.bind_some, hupdate, hend]

theorem wakeupLoop_eq (bus : Nat → Bool) (fuel : Nat) (s : ScState) :
    wakeupLoop bus fuel s = loop (wakeupBody bus) fuel s := by
  induction fuel generalizing s with
  | zero => rfl
  | succ fuel ih =>
    rw [wakeupLoop, loop]
    simp only [ih]

/-- The whole loop ends finished, and has loaded nothing. -/
theorem wakeupLoop_keeps {base fuel : Nat} {s s' : ScState} {bus : Nat → Bool}
    (hs : s.Running base) (h : wakeupLoop bus fuel s = some s') :
    s'.Finished base ∧ s.ats.Keeps s'.ats := by
  rw [wakeupLoop_eq] at h
  have hround : ∀ t : ScState, t.Running base ∧ s.ats.Keeps t.ats → ∃ t' another,
      wakeupBody bus t = some (t', another) ∧
      if another then t'.Running base ∧ s.ats.Keeps t'.ats
      else t'.Finished base ∧ s.ats.Keeps t'.ats := by
    rintro t ⟨ht, hkept⟩
    obtain ⟨t', another, hbody, hkeeps, hcases⟩ := wakeupBody_running ht bus
    refine ⟨t', another, hbody, ?_⟩
    cases another with
    | true => exact ⟨hcases.toRunning, hkept.trans hkeeps⟩
    | false => exact ⟨hcases, hkept.trans hkeeps⟩
  exact loop_result hround ⟨hs, hs.ats.refl⟩ h

/-! ## Every reachable state -/

/-- What holds of the state between two requests. -/
structure ScState.Usable (s : ScState) : Prop where
  ats : s.ats.Usable
  rts : s.rts.Usable
  count : s.numCmdsSec = 0

theorem ScState.Usable.running_at {s : ScState} (hs : s.Usable) (time : BitVec 32) :
    ScState.Running s.sent.length { s with currentTime := time } where
  ats := hs.ats
  rts := hs.rts
  room := by
    rw [hs.count]
    decide
  sent := Nat.le_add_right _ _

theorem ScState.Usable.onAts {s s' : ScState} {ats : Option AtsState} (hs : s.Usable)
    (hats : ∀ next, ats = some next → next.Usable) (h : s.onAts ats = some s') : s'.Usable := by
  obtain ⟨next, hnext, rfl⟩ := Option.map_eq_some_iff.mp h
  exact ⟨hats next hnext, hs.rts, hs.count⟩

theorem ScState.Usable.onRts {s s' : ScState} {rts : Option RtsState} (hs : s.Usable)
    (hrts : ∀ next, rts = some next → next.Usable) (h : s.onRts rts = some s') : s'.Usable := by
  obtain ⟨next, hnext, rfl⟩ := Option.map_eq_some_iff.mp h
  exact ⟨hs.ats, hrts next hnext, hs.count⟩

theorem processRequest_usable {s s' : ScState} {request : Request} (hs : s.Usable)
    (h : processRequest request s = some s') : s'.Usable := by
  have hpure : ∀ {rts : RtsState}, rts.Usable → ∀ next, some rts = some next → next.Usable :=
    fun hrts next hnext => Option.some.inj hnext ▸ hrts
  cases request with
  | startAts atsId => exact hs.onAts (fun _ hnext => (startAtsCmd_usable hs.ats hnext).usable) h
  | stopAts => exact hs.onAts (fun _ hnext => (stopAtsCmd_usable hs.ats hnext).usable) h
  | switchAts => exact hs.onAts (fun _ hnext => (groundSwitchCmd_usable hs.ats hnext).usable) h
  | jumpAts newTime => exact hs.onAts (fun _ hnext => (jumpAtsCmd_usable hs.ats hnext).usable) h
  | appendAts atsId => exact hs.onAts (fun _ => appendAtsCmd_usable hs.ats) h
  | startRts rtsId => exact hs.onRts (fun _ => startRtsCmd_usable hs.rts) h
  | stopRts rtsId => exact hs.onRts (hpure (stopRtsCmd_usable hs.rts rtsId)) h
  | disableRts rtsId => exact hs.onRts (fun _ => disableRtsCmd_usable hs.rts) h
  | enableRts rtsId => exact hs.onRts (hpure (enableRtsCmd_usable hs.rts rtsId)) h
  | startRtsGrp => exact hs.onRts (fun _ => foldlM_keeps startRtsOfGroup_usable hs.rts) h
  | stopRtsGrp => exact hs.onRts (hpure (foldl_keeps stopRtsOfGroup_usable hs.rts)) h
  | disableRtsGrp => exact hs.onRts (hpure (foldl_keeps setDisabled_usable hs.rts)) h
  | enableRtsGrp => exact hs.onRts (hpure (foldl_keeps setDisabled_usable hs.rts)) h
  | autoEnable i => exact hs.onRts (hpure (autoEnableRts_usable hs.rts i)) h
  | manageRts i table =>
    rw [processRequest] at h
    split at h
    · exact hs.onRts (hpure (manageRtsTable_usable hs.rts i table)) h
    · cases h
  | manageAts a table =>
    rw [processRequest] at h
    split at h
    · exact hs.onAts (fun _ => manageAtsTable_usable hs.ats) h
    · cases h
  | manageAppend table =>
    rw [processRequest] at h
    split at h
    case isTrue haccepted =>
      exact hs.onAts (fun _ => manageAppendTable_usable hs.ats haccepted) h
    case isFalse => cases h
  | wakeup bus fuel =>
    rw [processRequest] at h
    obtain ⟨hfinished, -⟩ := wakeupLoop_keeps (hs.running_at s.currentTime) h
    exact ⟨hfinished.ats, hfinished.rts, hfinished.count⟩

theorem usable_reachable {s : ScState} (h : machine.Reachable s) : s.Usable := by
  refine h.invariant (fun s hstart => ?_) fun s label s' hs hnext => ?_
  · rw [show s = {} from hstart]
    exact ⟨⟨fun _ => .inl ⟨rfl, fun _ => rfl⟩, fun hbusy => absurd rfl hbusy,
      fun hcount => absurd rfl hcount⟩, nofun, rfl⟩
  · have hnow : ({ s with currentTime := label.time } : ScState).Usable :=
      ⟨hs.ats, hs.rts, hs.count⟩
    exact processRequest_usable hnow hnext

/-- A later round that starts stalled is the start of all that follow. -/
theorem wakeupLoop_of_stalled {base n : Nat} {s t : ScState} (hs : s.Running base)
    (bus : Nat → Bool) (ht : roundStart (wakeupBody bus) (n + 1) s = some t) (hstalled : t.Stalled)
    (fuel : Nat) : wakeupLoop bus fuel s = none := by
  obtain ⟨s', another, hbody, -, hnext⟩ := wakeupBody_running hs bus
  rw [roundStart_succ hbody] at ht
  cases another with
  | false => cases ht
  | true =>
    rw [wakeupLoop_eq]
    cases fuel with
    | zero => rfl
    | succ fuel =>
      rw [loop_succ hbody]
      exact loop_of_roundStart_stuck (fun t ht hstuck => wakeupBody_round ht hstuck bus)
        (fun t ht hstuck => wakeupBody_stalled ht hstuck bus) hnext ht hstalled fuel

instance (s : ScState) : Decidable s.Stalled :=
  decidable_of_iff (s.nextProcNumber = .atp ∧ s.ats.switchPendFlag = false ∧
      compareAbsTime s.ats.nextCmdTime s.currentTime = true)
    ⟨fun ⟨hnext, hsettled, hahead⟩ => ⟨hnext, hsettled, hahead⟩,
      fun ⟨hnext, hsettled, hahead⟩ => ⟨hnext, hsettled, hahead⟩⟩

end Nos3.Sc
