import Mathlib.Data.List.TakeWhile
import Nos3.Lc.Guarantees.Staleness

/-!
# Requests follow consecutive failures

The fail counter of an actionpoint never exceeds the failures at the end of its
samples, as long as no sample of it errs while it counts; and an active
actionpoint has not requested its sequence since it was set active.
-/
namespace Nos3.Lc
open Function (update update_self update_of_ne update_idem)
open Base.Transition

/-- The results an actionpoint was sampled with, newest first. -/
def samplesOf (ap : ApIndex) : List Event → List ActionResult
  | [] => []
  | .sampled other result :: rest =>
    if other = ap then result :: samplesOf ap rest else samplesOf ap rest
  | _ :: rest => samplesOf ap rest

/-- The requests of an actionpoint since it was last set active. -/
def requestsSince (ap : ApIndex) : List Event → Nat
  | [] => 0
  | .requested other _ _ _ :: rest =>
    if other = ap then requestsSince ap rest + 1 else requestsSince ap rest
  | .activated other :: rest => if other = ap then 0 else requestsSince ap rest
  | _ :: rest => requestsSince ap rest

/-- A request is made while both states are active and after as many failed
samples in a row as the definition asks for. -/
def RequestsJustified (history : List Event) : Prop :=
  ∀ ap lcState apState maxFails earlier,
    Event.requested ap lcState apState maxFails :: earlier <:+ history →
    lcState = .active ∧ apState = .active ∧
      (samplesOf ap earlier).take maxFails.toNat = List.replicate maxFails.toNat .fail

/-- The failures at the end of the samples of an actionpoint. -/
def failRun (ap : ApIndex) (history : List Event) : Nat :=
  ((samplesOf ap history).takeWhile (· = .fail)).length

theorem take_of_le_failRun {ap : ApIndex} {history : List Event} {n : Nat}
    (h : n ≤ failRun ap history) :
    (samplesOf ap history).take n = List.replicate n .fail := by
  have hfront : (samplesOf ap history).take n =
      ((samplesOf ap history).takeWhile (· = .fail)).take n := by
    conv_lhs => rw [← List.takeWhile_append_dropWhile (p := (· = ActionResult.fail))
      (l := samplesOf ap history)]
    exact List.take_append_of_le_length h
  rw [hfront]
  refine List.eq_replicate_iff.mpr ⟨List.length_take_of_le h, fun result hmem => ?_⟩
  have hrun := List.mem_of_mem_take hmem
  simpa using List.mem_takeWhile_imp hrun

/-- What holds of one actionpoint in every state. -/
structure Disciplined (ap : ApIndex) (art : ARTEntry) (history : List Event) : Prop where
  counted : art.consecutiveFailCount.toNat ≤ failRun ap history
  armed : art.currentState = .active → requestsSince ap history = 0
  once : requestsSince ap history ≤ 1

structure LcState.Disciplined (s : LcState) : Prop where
  each : ∀ ap, Lc.Disciplined ap (s.art ap) s.history
  justified : RequestsJustified s.history

/-- The actionpoint an event is about. -/
def Event.about : Event → Option ApIndex
  | .evaluated _ _ | .aged => none
  | .sampled ap _ | .requested ap _ _ _ | .activated ap => some ap

theorem samplesOf_other {ap : ApIndex} {event : Event} (history : List Event)
    (h : event.about ≠ some ap) : samplesOf ap (event :: history) = samplesOf ap history := by
  cases event with
  | sampled other result => exact if_neg fun heq => h (congrArg some heq)
  | evaluated | aged | requested | activated => rfl

theorem requestsSince_other {ap : ApIndex} {event : Event} (history : List Event)
    (h : event.about ≠ some ap) :
    requestsSince ap (event :: history) = requestsSince ap history := by
  cases event with
  | requested other => exact if_neg fun heq => h (congrArg some heq)
  | activated other => exact if_neg fun heq => h (congrArg some heq)
  | evaluated | aged | sampled => rfl

/-- An event about another actionpoint changes nothing. -/
theorem Disciplined.other {ap : ApIndex} {art : ARTEntry} {history : List Event} {event : Event}
    (h : Disciplined ap art history) (hother : event.about ≠ some ap) :
    Disciplined ap art (event :: history) where
  counted := by
    rw [failRun, samplesOf_other history hother]
    exact h.counted
  armed := by
    rw [requestsSince_other history hother]
    exact h.armed
  once := by
    rw [requestsSince_other history hother]
    exact h.once

/-- An event that is no request needs no reason. -/
theorem RequestsJustified.cons {history : List Event} {event : Event}
    (h : RequestsJustified history)
    (hevent : ∀ ap lcState apState maxFails, event = .requested ap lcState apState maxFails →
      lcState = .active ∧ apState = .active ∧
        (samplesOf ap history).take maxFails.toNat = List.replicate maxFails.toNat .fail) :
    RequestsJustified (event :: history) := by
  intro ap lcState apState maxFails earlier hsuffix
  obtain heq | hsuffix := List.suffix_cons_iff.mp hsuffix
  · obtain ⟨hrequest, rfl⟩ := List.cons.inj heq
    exact hevent ap lcState apState maxFails hrequest.symm
  · exact h ap lcState apState maxFails earlier hsuffix

/-- A step for one actionpoint: its entry changes, and events about it come. -/
theorem LcState.Disciplined.step {s s' : LcState} {ap : ApIndex} {art : ARTEntry} {event : Event}
    (hs : s.Disciplined) (habout : event.about = some ap) (hart : s'.art = update s.art ap art)
    (hhistory : s'.history = event :: s.history)
    (hmine : Lc.Disciplined ap art (event :: s.history))
    (hjustified : RequestsJustified (event :: s.history)) : s'.Disciplined := by
  refine ⟨fun other => ?_, hhistory ▸ hjustified⟩
  rw [hart, hhistory]
  by_cases hne : other = ap
  · subst hne
    rw [update_self]
    exact hmine
  · rw [update_of_ne hne]
    refine (hs.each other).other fun heq => hne ?_
    exact Option.some.inj (heq.symm.trans habout)

/-- The entry of an actionpoint changes without an event. -/
theorem LcState.Disciplined.setArt {s : LcState} {ap : ApIndex} {art : ARTEntry}
    (hs : s.Disciplined) (hmine : Lc.Disciplined ap art s.history) :
    (s.setArt ap art).Disciplined := by
  refine ⟨fun other => ?_, hs.justified⟩
  by_cases hne : other = ap
  · subst hne
    simpa [LcState.setArt] using hmine
  · simpa [LcState.setArt, update_of_ne hne] using hs.each other

/-- A part of the processing that touches no actionpoint. -/
theorem LcState.Disciplined.same {s s' : LcState} (hs : s.Disciplined) (hart : s'.art = s.art)
    (hhistory : s'.history = s.history) : s'.Disciplined := by
  refine ⟨fun ap => ?_, hhistory ▸ hs.justified⟩
  rw [hart, hhistory]
  exact hs.each ap

theorem LcState.Disciplined.watched {s s' : LcState} {event : Event} (hs : s.Disciplined)
    (habout : event.about = none) (hart : s'.art = s.art)
    (hhistory : s'.history = event :: s.history) : s'.Disciplined := by
  refine ⟨fun ap => ?_, ?_⟩
  · rw [hart, hhistory]
    exact (hs.each ap).other (by rw [habout]; nofun)
  · rw [hhistory]
    refine hs.justified.cons fun ap lcState apState maxFails heq => ?_
    rw [heq] at habout
    cases habout

/-- A sample that fails a counted actionpoint is followed by an error. -/
def LcState.errorAfterFail (s : LcState) (ap : ApIndex) : Prop :=
  ((s.art ap).currentState = .active ∨ (s.art ap).currentState = .passive) ∧
    (s.art ap).consecutiveFailCount ≠ 0 ∧ s.evaluateAP ap = some .error

/-- After the sample is noted, before its result is acted on. -/
def sampledState (ap : ApIndex) (currentResult : ActionResult) (s : LcState) : LcState :=
  ({ s with apSampleCount := s.apSampleCount + 1 }.setArt ap
    { s.art ap with actionResult := currentResult }).log (.sampled ap currentResult)

theorem failRun_fail (ap : ApIndex) (history : List Event) :
    failRun ap (.sampled ap .fail :: history) = failRun ap history + 1 := by
  rw [failRun, samplesOf, if_pos rfl]
  rfl

theorem toNat_succ_le (count : BitVec 32) : (count + 1).toNat ≤ count.toNat + 1 := by
  have hone : (1 : BitVec 32).toNat = 1 := rfl
  rw [BitVec.toNat_add, hone]
  exact Nat.mod_le _ _

theorem sendLimited_cases (art : ARTEntry) (count : BitVec 32) (limit : BitVec 8) :
    (art.sendLimited count limit).currentState = art.currentState ∧
      (art.sendLimited count limit).consecutiveFailCount = art.consecutiveFailCount := by
  rw [ARTEntry.sendLimited]
  split <;> exact ⟨rfl, rfl⟩

theorem countFail_cases (adt : ADTEntry) (previousResult : ActionResult) (art : ARTEntry) :
    (countFail adt previousResult art).currentState = art.currentState ∧
      (countFail adt previousResult art).consecutiveFailCount = art.consecutiveFailCount + 1 := by
  rw [countFail]
  dsimp only
  split
  · exact sendLimited_cases _ _ _
  · exact ⟨rfl, rfl⟩

theorem actionPass_cases (ap : ApIndex) (previousResult : ActionResult) (s : LcState) :
    ∃ art, actionPass ap previousResult s = s.setArt ap art ∧ art.consecutiveFailCount = 0 ∧
      art.currentState = (s.art ap).currentState := by
  refine ⟨_, rfl, rfl, ?_⟩
  split
  · exact (sendLimited_cases _ _ _).1
  · rfl

section Fail
variable {ap : ApIndex} {s : LcState}

/-- The sample of a failed actionpoint, with the counters it gets. -/
theorem disciplined_fail {art : ARTEntry} (hs : s.Disciplined)
    (hstate : art.currentState = .active → (s.art ap).currentState = .active)
    (hcount : art.consecutiveFailCount.toNat ≤ (s.art ap).consecutiveFailCount.toNat + 1) :
    Disciplined ap art (.sampled ap .fail :: s.history) where
  counted := by
    rw [failRun_fail]
    exact Nat.le_trans hcount (Nat.succ_le_succ (hs.each ap).counted)
  armed h := (hs.each ap).armed (hstate h)
  once := (hs.each ap).once

theorem justified_sampled (hs : s.Disciplined) (result : ActionResult) :
    RequestsJustified (.sampled ap result :: s.history) := hs.justified.cons nofun

theorem disciplined_failActive {art : ARTEntry} (hs : s.Disciplined)
    (hactive : art.currentState = .active) (hstate : (s.art ap).currentState = .active)
    (hcount : art.consecutiveFailCount.toNat ≤ failRun ap s.history)
    (hlimit : (s.adt ap).maxFailsBeforeRTS.toNat ≤ art.consecutiveFailCount.toNat) :
    (failActive ap art s).Disciplined := by
  rw [failActive]
  split
  case isTrue hlc =>
    have hnone := (hs.each ap).armed hstate
    have habout : (Event.requested ap s.currentLCState art.currentState
        (s.adt ap).maxFailsBeforeRTS).about = some ap := rfl
    refine hs.step habout rfl rfl ⟨hcount, (fun h => by cases h), ?_⟩ ?_
    · rw [requestsSince, if_pos rfl, hnone]
    · refine hs.justified.cons fun ap' lcState apState maxFails heq => ?_
      cases heq
      exact ⟨hlc, hactive, take_of_le_failRun (Nat.le_trans hlimit hcount)⟩
  case isFalse =>
    have hpassive : Disciplined ap { art with currentState := .passive } s.history :=
      ⟨hcount, (fun h => by cases h), (hs.each ap).once⟩
    exact (hs.setArt hpassive).same rfl rfl

theorem disciplined_actionFail (previousResult : ActionResult) (hs : s.Disciplined) :
    (actionFail ap previousResult (sampledState ap .fail s)).Disciplined := by
  have hart : (sampledState ap .fail s).art ap = { s.art ap with actionResult := .fail } :=
    update_self ..
  have hsampled : (sampledState ap .fail s).Disciplined :=
    hs.step rfl rfl rfl (disciplined_fail hs id (Nat.le_succ _)) (justified_sampled hs _)
  obtain ⟨hstate, hcount⟩ := countFail_cases ((sampledState ap .fail s).adt ap) previousResult
    ((sampledState ap .fail s).art ap)
  rw [actionFail]
  generalize countFail _ previousResult ((sampledState ap .fail s).art ap) = art at hstate hcount ⊢
  have hcount' : art.consecutiveFailCount.toNat ≤ failRun ap (sampledState ap .fail s).history := by
    rw [hcount, hart]
    refine Nat.le_trans (toNat_succ_le _) ?_
    exact Nat.le_trans (Nat.succ_le_succ (hs.each ap).counted) (failRun_fail ap s.history).ge
  have hquiet : ∀ {entry : ARTEntry}, entry.currentState = art.currentState →
      entry.consecutiveFailCount = art.consecutiveFailCount →
      ((sampledState ap .fail s).setArt ap entry).Disciplined := by
    intro entry hstate' hcountEq
    refine hsampled.setArt ⟨hcountEq ▸ hcount', fun h => ?_, (hsampled.each ap).once⟩
    exact (hsampled.each ap).armed (hstate.symm.trans (hstate'.symm.trans h))
  split
  case isTrue hlimit =>
    split
    case isTrue hactive =>
      exact disciplined_failActive hsampled (hstate.trans hactive) hactive hcount' hlimit
    case isFalse =>
      rw [failPassive]
      obtain ⟨hstate', hcountEq⟩ := sendLimited_cases
        { art with passiveAPCount := art.passiveAPCount + 1 } (art.passiveAPCount + 1)
        ((sampledState ap .fail s).adt ap).maxPassiveEvents
      exact (hquiet hstate' hcountEq).same rfl rfl
  case isFalse => exact hquiet rfl rfl

/-- A sample that is no failure clears the counter, or errs while it is clear. -/
theorem disciplined_unfailed {art : ARTEntry} {result : ActionResult} {s' : LcState}
    (hs : s.Disciplined) (hzero : art.consecutiveFailCount = 0)
    (hstate : art.currentState = (s.art ap).currentState) (hart : s'.art = update s.art ap art)
    (hhistory : s'.history = .sampled ap result :: s.history) : s'.Disciplined := by
  refine hs.step rfl hart hhistory ⟨?_, fun h => ?_, (hs.each ap).once⟩ (justified_sampled hs _)
  · rw [hzero]
    exact Nat.zero_le _
  · exact (hs.each ap).armed (hstate.symm.trans h)

theorem disciplined_sampleSingleAP {s' : LcState} (hs : s.Disciplined)
    (hno : ¬ s.errorAfterFail ap) (h : sampleSingleAP s ap = some s') : s'.Disciplined := by
  rw [sampleSingleAP] at h
  split at h
  case isTrue hoperating =>
    obtain ⟨currentResult, heval, h⟩ := Option.bind_eq_some_iff.mp h
    obtain rfl := Option.some.inj h
    have htwice : ∀ art, ((sampledState ap currentResult s).setArt ap art).art =
        update s.art ap art := fun art => update_idem _ _ _
    have hart : (sampledState ap currentResult s).art ap =
        { s.art ap with actionResult := currentResult } := update_self ..
    cases currentResult with
    | fail => exact disciplined_actionFail _ hs
    | pass =>
      obtain ⟨art, hpass, hzero, hstate⟩ := actionPass_cases ap (s.art ap).actionResult
        (sampledState ap .pass s)
      rw [hart] at hstate
      have hdisciplined := disciplined_unfailed hs hzero hstate (htwice art) rfl
      rw [← hpass] at hdisciplined
      exact hdisciplined
    | stale =>
      let cleared : ARTEntry := { (sampledState ap .stale s).art ap with consecutiveFailCount := 0 }
      have hstate : cleared.currentState = (s.art ap).currentState := by
        simp only [cleared, hart]
      have hart' := htwice cleared
      have hhistory : (sampledState ap .stale s).history = .sampled ap .stale :: s.history := rfl
      exact disciplined_unfailed hs rfl hstate hart' hhistory
    | error =>
      have hzero : ({ s.art ap with actionResult := .error } : ARTEntry).consecutiveFailCount = 0 := by
        by_contra hne
        exact hno ⟨hoperating, hne, heval⟩
      exact disciplined_unfailed hs hzero rfl rfl rfl
  case isFalse => exact Option.some.inj h ▸ hs

end Fail

/-- Sampling one actionpoint leaves the others as they are. -/
theorem sampleSingleAP_other {s s' : LcState} {ap other : ApIndex} (hne : other ≠ ap)
    (h : sampleSingleAP s ap = some s') :
    s'.art other = s.art other ∧ s'.evaluateAP other = s.evaluateAP other := by
  rw [sampleSingleAP] at h
  split at h
  · obtain ⟨currentResult, -, h⟩ := Option.bind_eq_some_iff.mp h
    obtain rfl := Option.some.inj h
    have hsampled : (sampledState ap currentResult s).art other = s.art other := update_of_ne hne ..
    have htwice : ∀ art, ((sampledState ap currentResult s).setArt ap art).art other =
        s.art other := fun art => (update_of_ne hne ..).trans hsampled
    cases currentResult with
    | fail =>
      rw [actionOn, actionFail]
      split
      · split
        · rw [failActive]
          split <;> exact ⟨htwice _, rfl⟩
        · exact ⟨htwice _, rfl⟩
      · exact ⟨htwice _, rfl⟩
    | pass => exact ⟨htwice _, rfl⟩
    | stale => exact ⟨htwice _, rfl⟩
    | error => exact ⟨hsampled, rfl⟩
  · exact Option.some.inj h ▸ ⟨rfl, rfl⟩

theorem errorAfterFail_other {s s' : LcState} {ap other : ApIndex} (hne : other ≠ ap)
    (h : sampleSingleAP s ap = some s') : s'.errorAfterFail other ↔ s.errorAfterFail other := by
  obtain ⟨hart, heval⟩ := sampleSingleAP_other hne h
  rw [LcState.errorAfterFail, LcState.errorAfterFail, hart, heval]

/-- The loop samples every actionpoint once. -/
theorem disciplined_sampleLoop {list : List ApIndex} (hnodup : list.Nodup) {s s' : LcState}
    (hs : s.Disciplined) (hno : ∀ ap ∈ list, ¬ s.errorAfterFail ap)
    (h : list.foldlM sampleSingleAP s = some s') : s'.Disciplined := by
  induction list generalizing s with
  | nil => exact Option.some.inj h ▸ hs
  | cons ap rest ih =>
    obtain ⟨next, hnext, h⟩ := Option.bind_eq_some_iff.mp h
    obtain ⟨hfresh, hnodup⟩ := List.nodup_cons.mp hnodup
    obtain ⟨hhead, hrest⟩ := List.forall_mem_cons.mp hno
    refine ih hnodup (disciplined_sampleSingleAP hs hhead hnext) (fun other hmem => ?_) h
    have hne : other ≠ ap := fun heq => hfresh (heq ▸ hmem)
    rw [errorAfterFail_other hne hnext]
    exact hrest other hmem

theorem disciplined_foldl {step : LcState → ApIndex → LcState}
    (hstep : ∀ s ap, s.Disciplined → (step s ap).Disciplined) (list : List ApIndex) {s : LcState}
    (hs : s.Disciplined) : (list.foldl step s).Disciplined := by
  induction list generalizing s with
  | nil => exact hs
  | cons ap rest ih => exact ih (hstep s ap hs)

/-- A command or a load sets an actionpoint active. -/
theorem disciplined_activated {s : LcState} {ap : ApIndex} {art : ARTEntry} (hs : s.Disciplined)
    (hcount : art.consecutiveFailCount.toNat ≤ failRun ap s.history) :
    ((s.setArt ap art).log (.activated ap)).Disciplined := by
  have hnone : requestsSince ap (.activated ap :: s.history) = 0 := if_pos rfl
  refine hs.step rfl rfl rfl ⟨hcount, fun _ => hnone, ?_⟩ (hs.justified.cons nofun)
  rw [hnone]
  exact Nat.zero_le 1

theorem disciplined_setCurrentState {newAPState : APState} {s : LcState} {ap : ApIndex}
    (hs : s.Disciplined) : (setCurrentState newAPState s ap).Disciplined := by
  rw [setCurrentState]
  split
  · split
    case isTrue => exact disciplined_activated hs (hs.each ap).counted
    case isFalse hinactive =>
      exact hs.setArt ⟨(hs.each ap).counted, fun h => absurd h hinactive, (hs.each ap).once⟩
  · exact hs

theorem disciplined_setPermOff {s : LcState} {ap : ApIndex} (hs : s.Disciplined) :
    (setPermOff s ap).Disciplined := by
  rw [setPermOff]
  split
  · exact hs.setArt ⟨(hs.each ap).counted, (fun h => by cases h), (hs.each ap).once⟩
  · exact hs

theorem disciplined_resetAP {resetStatsCmd : Bool} {s : LcState} {ap : ApIndex}
    (hs : s.Disciplined) : (resetAP resetStatsCmd s ap).Disciplined := by
  cases resetStatsCmd with
  | true => exact hs.setArt ⟨Nat.zero_le _, (hs.each ap).armed, (hs.each ap).once⟩
  | false =>
    simp only [resetAP, Bool.false_eq_true, if_false, Bool.not_false, true_and]
    split
    case isTrue => exact disciplined_activated hs (Nat.zero_le _)
    case isFalse hinactive =>
      exact hs.setArt ⟨Nat.zero_le _, fun h => absurd h hinactive, (hs.each ap).once⟩

theorem disciplined_processWatch {floats : FloatOrder} {message : Message} {timestamp : SysTime}
    {list : List WpIndex} {s s' : LcState} (hs : s.Disciplined)
    (h : list.foldlM (processWatchIndex floats message timestamp) s = some s') :
    s'.Disciplined := by
  induction list generalizing s with
  | nil => exact Option.some.inj h ▸ hs
  | cons wp rest ih =>
    obtain ⟨next, hnext, h⟩ := Option.bind_eq_some_iff.mp h
    refine ih ?_ h
    obtain ⟨⟨wrt, evaluated⟩, -, hnext⟩ := Option.bind_eq_some_iff.mp hnext
    obtain rfl := Option.some.inj hnext
    cases evaluated with
    | none => exact hs.same rfl rfl
    | some result => exact hs.watched rfl rfl rfl

/-- The actionpoints a request samples. -/
def Request.sampledAPs : Request → List ApIndex
  | .sampleAP startIndex endIndex _ =>
    match sampleRange startIndex endIndex with
    | some (first, last) => indexRange first last
    | none => []
  | _ => []

/-- No sample errs between failures that are still counted. -/
def noErrorAfterFail (s : LcState) (request : Request) : Prop :=
  s.currentLCState ≠ .disabled → ∀ ap ∈ request.sampledAPs, ¬ s.errorAfterFail ap

instance (s : LcState) (ap : ApIndex) : Decidable (s.errorAfterFail ap) :=
  inferInstanceAs (Decidable (_ ∧ _))

instance (s : LcState) (request : Request) : Decidable (noErrorAfterFail s request) :=
  inferInstanceAs (Decidable (_ → _))

theorem disciplined_sampleAPReq {startIndex endIndex age : BitVec 16} {s s' : LcState}
    (hs : s.Disciplined) (hno : noErrorAfterFail s (.sampleAP startIndex endIndex age))
    (h : sampleAPReq startIndex endIndex age s = some s') : s'.Disciplined := by
  rw [sampleAPReq] at h
  split at h
  case isTrue henabled =>
    have hno := hno henabled
    rw [Request.sampledAPs] at hno
    split at h
    case h_1 first last hrange =>
      rw [hrange] at hno
      obtain ⟨sampled, hsampled, h⟩ := Option.bind_eq_some_iff.mp h
      have hnodup : (indexRange first last : List ApIndex).Nodup := (List.nodup_finRange _).filter _
      have hloop := disciplined_sampleLoop hnodup hs hno hsampled
      obtain rfl := Option.some.inj h
      split
      · exact hloop.watched rfl rfl rfl
      · exact hloop
    case h_2 => exact Option.some.inj h ▸ hs
  case isFalse => exact Option.some.inj h ▸ hs

theorem disciplined_loadADT {adt : ApIndex → ADTEntry} {s : LcState} (hs : s.Disciplined) :
    (loadADT adt s).Disciplined := by
  have hadt : ({ s with adt := adt } : LcState).Disciplined := hs.same rfl rfl
  rw [loadADT]
  exact disciplined_foldl (fun _ _ => disciplined_resetAP) _ hadt

theorem disciplined_loadWDT {wdt : WpIndex → WDTEntry} {s s' : LcState} (hs : s.Disciplined)
    (h : loadWDT wdt s = some s') : s'.Disciplined := by
  obtain ⟨hash, -, h⟩ := Option.bind_eq_some_iff.mp h
  obtain rfl := Option.some.inj h
  exact hs.same rfl rfl

theorem disciplined_resetWPStatsCmd {s : LcState} (hs : s.Disciplined) (wpNumber : BitVec 16) :
    (resetWPStatsCmd wpNumber s).Disciplined := by
  rw [resetWPStatsCmd]
  generalize argumentRange wpNumber = list
  induction list generalizing s with
  | nil => exact hs
  | cons wp rest ih => exact ih (hs.same rfl rfl)

theorem disciplined_processRequest {floats : FloatOrder} {s s' : LcState} {request : Request}
    (hs : s.Disciplined) (hno : noErrorAfterFail s request)
    (h : processRequest floats s request = some s') : s'.Disciplined := by
  cases request with
  | message message now =>
    rw [processRequest, checkMsgForWPs] at h
    split at h
    · obtain ⟨watchIndices, -, h⟩ := Option.bind_eq_some_iff.mp h
      obtain ⟨processed, hprocessed, h⟩ := Option.bind_eq_some_iff.mp h
      obtain rfl := Option.some.inj h
      exact (disciplined_processWatch hs hprocessed).same rfl rfl
    · exact Option.some.inj h ▸ hs
  | sampleAP startIndex endIndex age => exact disciplined_sampleAPReq hs hno h
  | setLCState newLCState => exact Option.some.inj h ▸ hs.same rfl rfl
  | resetCounters => exact Option.some.inj h ▸ hs.same rfl rfl
  | setAPState apNumber newAPState =>
    obtain rfl := Option.some.inj h
    have hset : ∀ s ap, s.Disciplined → (setCurrentState newAPState s ap).Disciplined :=
      fun _ _ => disciplined_setCurrentState
    cases newAPState with
    | active | passive | disabled => exact disciplined_foldl hset _ hs
    | permOff | notUsed => exact hs
  | setAPPermOff apNumber =>
    exact Option.some.inj h ▸ disciplined_foldl (fun _ _ => disciplined_setPermOff) _ hs
  | resetAPStats apNumber =>
    exact Option.some.inj h ▸ disciplined_foldl (fun _ _ => disciplined_resetAP) _ hs
  | resetWPStats wpNumber => exact Option.some.inj h ▸ disciplined_resetWPStatsCmd hs wpNumber
  | loadWDT wdt => exact disciplined_loadWDT hs h
  | loadADT adt => exact Option.some.inj h ▸ disciplined_loadADT hs

theorem disciplined_start {floats : FloatOrder} {s : LcState} (h : (machine floats).start s) :
    s.Disciplined := by
  have hempty : ({} : LcState).Disciplined := by
    refine ⟨fun ap => ⟨Nat.zero_le _, nofun, Nat.zero_le _⟩, ?_⟩
    intro ap lcState apState maxFails earlier hsuffix
    cases List.suffix_nil.mp hsuffix
  obtain ⟨wdt, adt, loaded, hload, hs⟩ := h
  rw [hs]
  exact disciplined_loadADT (disciplined_loadWDT hempty hload)

/-- In every run where no sample of an actionpoint errs while its failures are
counted, every request of a sequence was made while both states were active and
after as many failed samples in a row as its definition asks for, and at most
one since the actionpoint was last set active. -/
theorem requests_follow_fails {floats : FloatOrder} {s : LcState}
    (h : (machine floats).Reaches noErrorAfterFail s) :
    RequestsJustified s.history ∧ ∀ ap, requestsSince ap s.history ≤ 1 := by
  have hdisciplined : s.Disciplined := by
    refine h.invariant (fun _ => disciplined_start) fun s request s' hs hno hnext => ?_
    exact disciplined_processRequest hs hno (hnext : processRequest floats s request = some s')
  exact ⟨hdisciplined.justified, fun ap => (hdisciplined.each ap).once⟩

def firstAp : ApIndex := ⟨0, by decide⟩

/-- One active actionpoint, which fails with the first watchpoint; two failures
request its sequence. -/
def twoFailsADT : ApIndex → ADTEntry := update (fun _ => {}) firstAp
  { defaultState := .active
    rtsId := 1
    maxFailsBeforeRTS := 2
    rpnEquation := ⟨[0, LC_RPN_EQUAL] ++ List.replicate 18 0, by decide⟩ }

def watchedStart : LcState := startState sevenWDT twoFailsADT sevenWDT_loads

theorem watchedStart_start {floats : FloatOrder} : (machine floats).start watchedStart :=
  startState_start sevenWDT_loads

/-- The watchpoint gets a message and the actionpoint is sampled. -/
def messageAndSample (bytes : List (BitVec 8)) : List Request :=
  [.message ⟨0x0801, bytes, {}⟩ {}, .sampleAP 0 0 0]

theorem requests_follow_two_fails : ∃ s,
    (machine fun _ _ _ => false).Reaches noErrorAfterFail s ∧
    requestsSince firstAp s.history = 1 ∧ RequestsJustified s.history := by
  obtain ⟨s, hs, hrequested⟩ := (machine fun _ _ _ => false).exists_reaches noErrorAfterFail
    (fun s => requestsSince firstAp s.history = 1) watchedStart_start
    ([.setLCState .active] ++ messageAndSample [7] ++ messageAndSample [7]) (by decide +kernel)
  exact ⟨s, hs, of_decide_eq_true hrequested, (requests_follow_fails hs).1⟩

/-- A message too short for the watchpoint makes the sample between two failures
err. -/
theorem request_after_error : ∃ s, (machine fun _ _ _ => false).Reachable s ∧
    ¬ RequestsJustified s.history := by
  obtain ⟨s, hs, hhistory⟩ := (machine fun _ _ _ => false).exists_reaches (fun _ _ => True)
    (fun s => s.history = [.requested firstAp .active .active 2, .sampled firstAp .fail,
      .evaluated firstWp .isTrue, .sampled firstAp .error, .sampled firstAp .fail,
      .evaluated firstWp .isTrue, .activated firstAp]) watchedStart_start
    ([.setLCState .active] ++ messageAndSample [7] ++ messageAndSample [] ++ messageAndSample [7])
    (by decide +kernel)
  refine ⟨s, hs, fun hjustified => ?_⟩
  rw [of_decide_eq_true hhistory] at hjustified
  exact absurd (hjustified firstAp _ _ _ _ (List.suffix_refl _)).2.2 (by decide)

end Nos3.Lc
