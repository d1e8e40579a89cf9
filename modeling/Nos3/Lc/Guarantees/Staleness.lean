import Nos3.Lc.Source.Process

/-!
# Staleness of watchpoint results

A watchpoint with a result age has a definite result while its countdown runs,
and the countdown is the age less the age updates since the last definite result.
-/
namespace Nos3.Lc
open Function (update update_self update_of_ne)
open Base.Transition

def WatchResult.isDefinite : WatchResult → Bool
  | .isTrue | .isFalse => true
  | .stale | .error => false

/-- The age updates since the last evaluation to TRUE or FALSE; none without one. -/
def updatesSince (wp : WpIndex) : List Event → Option Nat
  | [] => none
  | .evaluated other result :: rest =>
    if other = wp ∧ result.isDefinite then some 0 else updatesSince wp rest
  | .aged :: rest => (updatesSince wp rest).map (· + 1)
  | _ :: rest => updatesSince wp rest

/-- What the claim says of one watchpoint, and that nothing else has a countdown. -/
structure Fresh (age : BitVec 32) (updates : Option Nat) (wrt : WRTEntry) : Prop where
  definite : age ≠ 0 → (wrt.watchResult.isDefinite ↔ wrt.countdownToStale ≠ 0)
  countdown : wrt.countdownToStale ≠ 0 →
    ∃ n, updates = some n ∧ wrt.countdownToStale.toNat + n = age.toNat

theorem fresh_off {age : BitVec 32} {updates : Option Nat} {wrt : WRTEntry}
    (hresult : wrt.watchResult.isDefinite = false) (hcountdown : wrt.countdownToStale = 0) :
    Fresh age updates wrt where
  definite _ := by simp [hresult, hcountdown]
  countdown h := absurd hcountdown h

theorem Fresh.setError {age : BitVec 32} {updates : Option Nat} (wrt : WRTEntry) :
    Fresh age updates wrt.setError := fresh_off rfl rfl

theorem Fresh.resetWP {age : BitVec 32} {updates : Option Nat} {wrt : WRTEntry}
    (h : Fresh age updates wrt) : Fresh age updates (resetWP true wrt) := ⟨h.definite, h.countdown⟩

/-- One age update: a countdown that ends takes the result with it. -/
theorem Fresh.updateAge {age : BitVec 32} {updates : Option Nat} {wrt : WRTEntry}
    (h : Fresh age updates wrt) : Fresh age (updates.map (· + 1)) (updateAge wrt) := by
  rw [Lc.updateAge]
  split
  case isTrue hrunning =>
    obtain ⟨n, hn, hsum⟩ := h.countdown hrunning
    have hpositive : wrt.countdownToStale.toNat ≠ 0 := fun hz =>
      hrunning (BitVec.eq_of_toNat_eq hz)
    have hless : (wrt.countdownToStale - 1).toNat + 1 = wrt.countdownToStale.toNat := by
      have hone : (1 : BitVec 32).toNat = 1 := rfl
      rw [BitVec.toNat_sub, hone]
      omega
    dsimp only
    split
    case isTrue hzero => exact fresh_off rfl hzero
    case isFalse hmore =>
      refine ⟨fun hage => ?_, fun _ => ⟨n + 1, by rw [hn]; rfl, ?_⟩⟩
      · have hdefinite := (h.definite hage).mpr hrunning
        exact ⟨fun _ => hmore, fun _ => hdefinite⟩
      · simp only
        omega
  case isFalse hstopped =>
    refine ⟨h.definite, fun hrunning => absurd hrunning ?_⟩
    simpa using hstopped

/-- The countdown starts anew with a definite result and ends with any other. -/
theorem fresh_updateWP {entry : WDTEntry} {timestamp : SysTime} {masked : BitVec 32}
    {evalResult : WatchResult} {updates : Option Nat} (wrt : WRTEntry)
    (hupdates : evalResult.isDefinite → updates = some 0) :
    Fresh entry.resultAgeWhenStale updates (updateWP entry timestamp masked evalResult wrt) := by
  have hrestart : ∀ result : WRTEntry, result.watchResult.isDefinite = true →
      result.countdownToStale = entry.resultAgeWhenStale → updates = some 0 →
      Fresh entry.resultAgeWhenStale updates result := fun result hdefinite hcountdown hnew =>
    ⟨fun hage => ⟨fun _ => hcountdown ▸ hage, fun _ => hdefinite⟩,
      fun _ => ⟨0, hnew, by rw [hcountdown, Nat.add_zero]⟩⟩
  cases evalResult with
  | isTrue =>
    rw [updateWP]
    dsimp only
    split <;> exact hrestart _ rfl rfl (hupdates rfl)
  | isFalse =>
    rw [updateWP]
    dsimp only
    split <;> exact hrestart _ rfl rfl (hupdates rfl)
  | stale => exact fresh_off rfl rfl
  | error => exact fresh_off rfl rfl

/-- In a state every watchpoint is fresh or has no countdown. -/
def LcState.AllFresh (s : LcState) : Prop :=
  ∀ wp, Fresh (s.wdt wp).resultAgeWhenStale (updatesSince wp s.history) (s.wrt wp)

theorem allFresh_processWatchIndex {floats : FloatOrder} {message : Message} {timestamp : SysTime}
    {s s' : LcState} {wp : WpIndex} (hs : s.AllFresh)
    (h : processWatchIndex floats message timestamp s wp = some s') : s'.AllFresh := by
  obtain ⟨⟨wrt, evaluated⟩, hprocess, h⟩ := Option.bind_eq_some_iff.mp h
  cases h
  have hother : ∀ other ≠ wp, updatesSince other
      ((evaluated.map (Event.evaluated wp)).toList ++ s.history) = updatesSince other s.history := by
    intro other hne
    cases evaluated with
    | none => rfl
    | some result => exact if_neg fun heq => hne heq.1.symm
  have hmine : Fresh (s.wdt wp).resultAgeWhenStale (updatesSince wp
      ((evaluated.map (Event.evaluated wp)).toList ++ s.history)) wrt := by
    rw [processWP] at hprocess
    split at hprocess
    · obtain ⟨sized, -, hprocess⟩ := Option.bind_eq_some_iff.mp hprocess
      cases sized with
      | none =>
        cases hprocess
        exact Fresh.setError _
      | some sizedWPData =>
        cases hprocess
        exact fresh_updateWP _ fun hdefinite => if_pos ⟨rfl, hdefinite⟩
    · cases hprocess
      exact Fresh.setError _
  intro other
  by_cases hne : other = wp
  · subst hne
    simpa using hmine
  · simp only [update_of_ne hne]
    rw [hother other hne]
    exact hs other

theorem allFresh_foldlM {α : Type} {step : LcState → α → Option LcState}
    (hstep : ∀ s a s', s.AllFresh → step s a = some s' → s'.AllFresh) (list : List α)
    {s s' : LcState} (hs : s.AllFresh) (h : list.foldlM step s = some s') : s'.AllFresh := by
  induction list generalizing s with
  | nil => exact Option.some.inj h ▸ hs
  | cons a rest ih =>
    obtain ⟨next, hnext, h⟩ := Option.bind_eq_some_iff.mp h
    exact ih (hstep s a next hs hnext) h

/-- A part of the processing that touches no watchpoint. -/
structure SameWatch (s s' : LcState) : Prop where
  wdt : s'.wdt = s.wdt
  wrt : s'.wrt = s.wrt
  hash : s'.hash = s.hash
  updates : ∀ wp, updatesSince wp s'.history = updatesSince wp s.history

theorem SameWatch.refl (s : LcState) : SameWatch s s := ⟨rfl, rfl, rfl, fun _ => rfl⟩

theorem SameWatch.trans {s s' s'' : LcState} (h : SameWatch s s') (h' : SameWatch s' s'') :
    SameWatch s s'' :=
  ⟨h'.wdt.trans h.wdt, h'.wrt.trans h.wrt, h'.hash.trans h.hash, fun wp => (h'.updates wp).trans (h.updates wp)⟩

theorem SameWatch.allFresh {s s' : LcState} (h : SameWatch s s') (hs : s.AllFresh) :
    s'.AllFresh := by
  intro wp
  rw [h.wdt, h.wrt, h.updates]
  exact hs wp

theorem sameWatch_foldl {α : Type} {step : LcState → α → LcState}
    (hstep : ∀ s a, SameWatch s (step s a)) (list : List α) (s : LcState) :
    SameWatch s (list.foldl step s) := by
  induction list generalizing s with
  | nil => exact .refl s
  | cons a rest ih => exact (hstep s a).trans (ih _)

theorem sameWatch_actionFail (ap : ApIndex) (previousResult : ActionResult) (s : LcState) :
    SameWatch s (actionFail ap previousResult s) := by
  rw [actionFail]
  split
  · split
    · rw [failActive]
      split <;> exact ⟨rfl, rfl, rfl, fun _ => rfl⟩
    · exact ⟨rfl, rfl, rfl, fun _ => rfl⟩
  · exact ⟨rfl, rfl, rfl, fun _ => rfl⟩

theorem sameWatch_sampleSingleAP {s s' : LcState} {ap : ApIndex}
    (h : sampleSingleAP s ap = some s') : SameWatch s s' := by
  rw [sampleSingleAP] at h
  dsimp only at h
  split at h
  · obtain ⟨currentResult, -, h⟩ := Option.bind_eq_some_iff.mp h
    obtain rfl := Option.some.inj h
    cases currentResult with
    | fail =>
      rw [actionOn]
      refine SameWatch.trans ?_ (sameWatch_actionFail ap _ _)
      exact ⟨rfl, rfl, rfl, fun _ => rfl⟩
    | pass | stale | error => exact ⟨rfl, rfl, rfl, fun _ => rfl⟩
  · exact Option.some.inj h ▸ .refl s

theorem sameWatch_resetAP (resetStatsCmd : Bool) (s : LcState) (ap : ApIndex) :
    SameWatch s (resetAP resetStatsCmd s ap) := by
  rw [resetAP]
  split <;> split <;> exact ⟨rfl, rfl, rfl, fun _ => rfl⟩

theorem sameWatch_setCurrentState (newAPState : APState) (s : LcState) (ap : ApIndex) :
    SameWatch s (setCurrentState newAPState s ap) := by
  rw [setCurrentState]
  dsimp only
  split
  · split <;> exact ⟨rfl, rfl, rfl, fun _ => rfl⟩
  · exact .refl s

theorem sameWatch_setPermOff (s : LcState) (ap : ApIndex) : SameWatch s (setPermOff s ap) := by
  rw [setPermOff]
  split <;> exact ⟨rfl, rfl, rfl, fun _ => rfl⟩

theorem allFresh_ageWatchpoints {s : LcState} (hs : s.AllFresh) : (ageWatchpoints s).AllFresh :=
  fun wp => (hs wp).updateAge

theorem allFresh_sampleAPReq {startIndex endIndex age : BitVec 16} {s s' : LcState}
    (hs : s.AllFresh) (h : sampleAPReq startIndex endIndex age s = some s') : s'.AllFresh := by
  rw [sampleAPReq] at h
  split at h
  · split at h
    · obtain ⟨sampled, hsampled, h⟩ := Option.bind_eq_some_iff.mp h
      have hfresh := allFresh_foldlM
        (fun s ap s' hs hstep => (sameWatch_sampleSingleAP hstep).allFresh hs) _ hs hsampled
      obtain rfl := Option.some.inj h
      split
      · exact allFresh_ageWatchpoints hfresh
      · exact hfresh
    · exact Option.some.inj h ▸ hs
  · exact Option.some.inj h ▸ hs

theorem allFresh_resetWPStats {s : LcState} (hs : s.AllFresh) (wp : WpIndex) :
    (resetWPStats s wp).AllFresh := by
  intro other
  by_cases hne : other = wp
  · subst hne
    simpa [resetWPStats] using (hs other).resetWP
  · simpa [resetWPStats, update_of_ne hne] using hs other

theorem allFresh_resetWPStatsCmd {s : LcState} (hs : s.AllFresh) (wpNumber : BitVec 16) :
    (resetWPStatsCmd wpNumber s).AllFresh := by
  rw [resetWPStatsCmd]
  generalize argumentRange wpNumber = list
  induction list generalizing s with
  | nil => exact hs
  | cons wp rest ih => exact ih (allFresh_resetWPStats hs wp)

theorem allFresh_loadWDT {wdt : WpIndex → WDTEntry} {s s' : LcState}
    (h : loadWDT wdt s = some s') : s'.AllFresh := by
  obtain ⟨hash, -, h⟩ := Option.bind_eq_some_iff.mp h
  cases h
  exact fun wp => fresh_off rfl rfl

theorem sameWatch_loadADT (adt : ApIndex → ADTEntry) (s : LcState) :
    SameWatch s (loadADT adt s) := by
  have hadt : SameWatch s { s with adt := adt } := ⟨rfl, rfl, rfl, fun _ => rfl⟩
  rw [loadADT]
  exact hadt.trans (sameWatch_foldl (sameWatch_resetAP false) _ _)

theorem allFresh_processRequest {floats : FloatOrder} {s s' : LcState} {request : Request}
    (hs : s.AllFresh) (h : processRequest floats s request = some s') : s'.AllFresh := by
  cases request with
  | message message now =>
    rw [processRequest, checkMsgForWPs] at h
    split at h
    · obtain ⟨watchIndices, -, h⟩ := Option.bind_eq_some_iff.mp h
      obtain ⟨processed, hprocessed, h⟩ := Option.bind_eq_some_iff.mp h
      have hfresh := allFresh_foldlM (fun _ _ _ => allFresh_processWatchIndex) _ hs hprocessed
      cases h
      exact hfresh
    · exact Option.some.inj h ▸ hs
  | sampleAP startIndex endIndex age => exact allFresh_sampleAPReq hs h
  | setLCState newLCState => exact Option.some.inj h ▸ hs
  | resetCounters => exact Option.some.inj h ▸ hs
  | setAPState apNumber newAPState =>
    obtain rfl := Option.some.inj h
    have hset := fun list => (sameWatch_foldl (sameWatch_setCurrentState newAPState) list s).allFresh
    cases newAPState with
    | active | passive | disabled => exact hset _ hs
    | permOff | notUsed => exact hs
  | setAPPermOff apNumber =>
    exact Option.some.inj h ▸ (sameWatch_foldl sameWatch_setPermOff _ s).allFresh hs
  | resetAPStats apNumber =>
    exact Option.some.inj h ▸ (sameWatch_foldl (sameWatch_resetAP true) _ s).allFresh hs
  | resetWPStats wpNumber =>
    exact Option.some.inj h ▸ allFresh_resetWPStatsCmd hs wpNumber
  | loadWDT wdt => exact allFresh_loadWDT h
  | loadADT adt => exact Option.some.inj h ▸ (sameWatch_loadADT adt s).allFresh hs

/-- In every reachable state a watchpoint with a result age is TRUE or FALSE
exactly while its countdown runs, and a running countdown is the age less the
age updates since the last evaluation to TRUE or FALSE. -/
theorem staleness (floats : FloatOrder) {s : LcState} (h : (machine floats).Reachable s)
    (wp : WpIndex) (hage : (s.wdt wp).resultAgeWhenStale ≠ 0) :
    ((s.wrt wp).watchResult.isDefinite ↔ (s.wrt wp).countdownToStale ≠ 0) ∧
    ((s.wrt wp).countdownToStale ≠ 0 → ∃ n, updatesSince wp s.history = some n ∧
      (s.wrt wp).countdownToStale.toNat + n = (s.wdt wp).resultAgeWhenStale.toNat) := by
  have hfresh : s.AllFresh := by
    refine h.invariant ?_ fun s request s' hs hnext =>
      allFresh_processRequest hs (hnext : processRequest floats s request = some s')
    intro s hstart
    obtain ⟨wdt, adt, loaded, hload, hs⟩ := hstart
    rw [hs]
    exact (sameWatch_loadADT adt loaded).allFresh (allFresh_loadWDT hload)
  exact ⟨(hfresh wp).definite hage, (hfresh wp).countdown⟩

/-- The tables of a start, where the watchpoints get their links. -/
def startState (wdt : WpIndex → WDTEntry) (adt : ApIndex → ADTEntry)
    (h : (loadWDT wdt {}).isSome) : LcState := loadADT adt ((loadWDT wdt {}).get h)

theorem startState_start {floats : FloatOrder} {wdt : WpIndex → WDTEntry}
    {adt : ApIndex → ADTEntry} (h : (loadWDT wdt {}).isSome) :
    (machine floats).start (startState wdt adt h) :=
  ⟨wdt, adt, _, (Option.some_get h).symm, rfl⟩

def firstWp : WpIndex := ⟨0, LC_MAX_WATCHPOINTS_pos⟩

/-- One watchpoint: the first byte of message 0x0801 is seven, for two updates. -/
def sevenWDT : WpIndex → WDTEntry := update (fun _ => {}) firstWp
  { dataType := .ubyte
    operatorID := .eq
    messageID := 0x0801
    bitMask := 0xFF
    comparisonValue := 7
    resultAgeWhenStale := 2 }

theorem sevenWDT_loads : (loadWDT sevenWDT {}).isSome := by decide +kernel

theorem staleness_seven : ∃ s, (machine fun _ _ _ => false).Reachable s ∧
    (s.wrt firstWp).countdownToStale = 1 ∧ (s.wrt firstWp).watchResult.isDefinite := by
  obtain ⟨s, hs, hcheck⟩ := (machine fun _ _ _ => false).exists_reaches (fun _ _ => True)
    (fun s => (s.wdt firstWp).resultAgeWhenStale = 2 ∧ (s.wrt firstWp).countdownToStale = 1)
    (@startState_start _ _ (fun _ => {}) sevenWDT_loads)
    [.setLCState .active, .message ⟨0x0801, [7], {}⟩ {}, .sampleAP 0 0 1] (by decide +kernel)
  obtain ⟨hage, hcountdown⟩ := of_decide_eq_true hcheck
  have hfresh := staleness _ hs firstWp (by rw [hage]; decide)
  exact ⟨s, hs, hcountdown, hfresh.1.mpr (by rw [hcountdown]; decide)⟩

end Nos3.Lc
