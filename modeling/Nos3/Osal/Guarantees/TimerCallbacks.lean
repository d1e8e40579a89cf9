import Nos3.Osal.Source.TimeBase
import Mathlib.Tactic.Ring
import Mathlib.Algebra.Order.Ring.Int

/-!
# Timers neither drift nor miss a callback

A tick passes every timer of the time base once. While no tick is longer than two intervals,
a timer has been called as often as its times have passed since it was set.
-/
namespace Nos3.Osal
open Nos3.Base.CircularList
open Nos3.Base.Transition (Machine)
open Function (update update_self update_of_ne)

/-! ## One timer -/

section OneTimer
variable {saved wait interval : Int} {resets : BitVec 32} {t : Timecb}

theorem expire_waiting (h : 0 < wait) :
    expire saved ⟨wait, interval, resets⟩ = (0, ⟨wait, interval, resets⟩) := by
  rw [expire, if_neg (by dsimp only; omega)]

/-- A round of the loop for a timer that repeats. -/
theorem expire_again (hsaved : 0 < saved) (hinterval : 0 < interval) (h : wait ≤ 0)
    (hlow : -2 * interval ≤ wait) :
    expire saved ⟨wait, interval, resets⟩ =
      (1 + (expire saved ⟨wait + interval, interval, resets⟩).1,
        (expire saved ⟨wait + interval, interval, resets⟩).2) := by
  rw [expire, if_pos h]
  dsimp only
  rw [if_neg (show ¬(wait + interval < -interval) by omega), if_pos hsaved, if_neg (by omega)]

/-- The wait time is cut off at one interval. -/
theorem expire_reset (hsaved : 0 < saved) (hinterval : 0 < interval)
    (hlow : wait < -2 * interval) :
    expire saved ⟨wait, interval, resets⟩ =
      (1 + (expire saved ⟨-interval, interval, resets + 1⟩).1,
        (expire saved ⟨-interval, interval, resets + 1⟩).2) := by
  rw [expire, if_pos (show wait ≤ 0 by omega)]
  dsimp only
  rw [if_pos (show wait + interval < -interval by omega), if_pos hsaved, if_neg (by omega)]

/-- What the loop leaves of a timer that repeats. -/
structure Expired (before : Int) (t : Timecb) (result : Nat × Timecb) : Prop where
  interval : result.2.intervalTime = t.intervalTime
  called_le : result.1 ≤ 3
  early : 0 < t.waitTime → result.1 = 0
  waiting : 0 < result.2.waitTime
  passed : t.waitTime ≤ 0 → 1 ≤ result.1 ∧ result.2.waitTime ≤ t.intervalTime
  lost : ∃ lost, 0 ≤ lost ∧ (lost = 0 ∨ before < -2 * t.intervalTime) ∧
    result.2.waitTime = t.waitTime + result.1 * t.intervalTime + lost

/-- Up to three rounds, one for each interval that has passed. -/
theorem expire_periodic (hsaved : 0 < saved) (hinterval : 0 < t.intervalTime) :
    Expired t.waitTime t (expire saved t) := by
  obtain ⟨wait, interval, resets⟩ := t
  have hpos : 0 < interval := hinterval
  by_cases hwait : 0 < wait
  · rw [expire_waiting hwait]
    exact ⟨rfl, by omega, fun _ => rfl, hwait, fun h => by dsimp only at h; omega, 0, le_refl 0,
      .inl rfl, by simp⟩
  by_cases hlow : wait < -2 * interval
  · rw [expire_reset hsaved hpos hlow, expire_again hsaved hpos (by omega) (by omega),
      expire_again hsaved hpos (by omega) (by omega), expire_waiting (by omega)]
    exact ⟨rfl, by omega, fun h => absurd h hwait, by dsimp only; omega, fun _ => ⟨by omega, by dsimp only; omega⟩,
      -2 * interval - wait, by omega, .inr hlow, by dsimp only; omega⟩
  rw [expire_again hsaved hpos (by omega) (by omega)]
  by_cases hone : 0 < wait + interval
  · rw [expire_waiting hone]
    exact ⟨rfl, by omega, fun h => absurd h hwait, hone,
      fun _ => ⟨by omega, by dsimp only; omega⟩, 0, le_refl 0, .inl rfl, by dsimp only; omega⟩
  rw [expire_again hsaved hpos (by omega) (by omega)]
  by_cases htwo : 0 < wait + interval + interval
  · rw [expire_waiting htwo]
    exact ⟨rfl, by omega, fun h => absurd h hwait, htwo,
      fun _ => ⟨by omega, by dsimp only; omega⟩, 0, le_refl 0, .inl rfl, by dsimp only; omega⟩
  rw [expire_again hsaved hpos (by omega) (by omega), expire_waiting (by omega)]
  exact ⟨rfl, by omega, fun h => absurd h hwait, by dsimp only; omega,
    fun _ => ⟨by omega, by dsimp only; omega⟩, 0, le_refl 0, .inl rfl, by dsimp only; omega⟩

/-- A timer that does not repeat is left at zero. -/
theorem expire_once (saved : Int) (resets : BitVec 32) (h : wait ≤ 0) :
    (expire saved ⟨wait, 0, resets⟩).1 = (if saved > 0 then 1 else 0) ∧
      (expire saved ⟨wait, 0, resets⟩).2.waitTime = 0 ∧
      (expire saved ⟨wait, 0, resets⟩).2.intervalTime = 0 := by
  rw [expire, if_pos h]
  dsimp only
  rw [if_pos (le_refl 0)]
  by_cases hlow : wait + 0 < -0
  · rw [if_pos hlow]
    exact ⟨rfl, rfl, rfl⟩
  · rw [if_neg hlow]
    exact ⟨rfl, by dsimp only; omega, rfl⟩

theorem asInt32_of_range {x : Int} (hlow : -(2 ^ 31) ≤ x) (hhigh : x < 2 ^ 31) :
    asInt32 x = x := by
  unfold asInt32
  exact Int.bmod_eq_of_le (by omega) (by omega)

end OneTimer

/-- How often a timer is due by the time `elapsed`. -/
def due (startTime intervalTime elapsed : Int) : Int :=
  if elapsed < startTime then 0 else (elapsed - startTime) / intervalTime + 1

/-- The account of a timer that was set to start later. Time is lost only to a tick of more
than two intervals. -/
structure Accounted (h : TimerHistory) (t : Timecb) : Prop where
  interval : t.intervalTime = h.intervalTime
  start_lt : h.startTime < INT32_MAX
  interval_nonneg : 0 ≤ h.intervalTime
  interval_lt : h.intervalTime < INT32_MAX
  elapsed : 0 ≤ h.elapsed
  wait_nonneg : 0 ≤ t.waitTime
  wait_lt : t.waitTime < INT32_MAX
  periodic : 0 < h.intervalTime → 0 < t.waitTime ∧
    (0 < h.called → t.waitTime ≤ h.intervalTime) ∧
    ∃ lost, 0 ≤ lost ∧ (lost = 0 ∨ 2 * h.intervalTime < h.longest) ∧
      t.waitTime = h.startTime - h.elapsed + h.called * h.intervalTime + lost
  once : h.intervalTime = 0 →
    h.called = 0 ∧ t.waitTime = h.startTime - h.elapsed ∧ 0 < t.waitTime ∨
    h.called = 1 ∧ t.waitTime = 0 ∧ h.startTime ≤ h.elapsed

section Accounts
variable {h : TimerHistory} {t : Timecb} {tickTime : Int}

theorem accounted_tick (ht : Accounted h t) (htick : 0 ≤ tickTime) (hmax : tickTime < 2 ^ 31) :
    Accounted (h.tick tickTime (t.tick tickTime).1) (t.tick tickTime).2 := by
  obtain ⟨wait, interval, resets⟩ := t
  obtain rfl : interval = h.intervalTime := ht.interval
  have hnonneg : 0 ≤ wait := ht.wait_nonneg
  have hlt : wait < 2147483647 := ht.wait_lt
  have helapsed := ht.elapsed
  have hsub : asInt32 (wait - tickTime) = wait - tickTime :=
    asInt32_of_range (by omega) (by omega)
  have hlongest : h.longest ≤ max h.longest tickTime := le_max_left _ _
  have hlongest' : tickTime ≤ max h.longest tickTime := le_max_right _ _
  unfold Timecb.tick
  dsimp only
  rw [hsub]
  rcases Int.lt_or_eq_of_le ht.interval_nonneg with hpos | hzero
  · obtain ⟨hwait, hcalled, lost, hlost, hcause, hsum⟩ := ht.periodic hpos
    have hwait : 0 < wait := hwait
    have hexpired := expire_periodic (t := ⟨wait - tickTime, h.intervalTime, resets⟩) hwait hpos
    generalize expire wait ⟨wait - tickTime, h.intervalTime, resets⟩ = result at hexpired ⊢
    obtain ⟨hinterval, -, hearly, hwaiting, hpassed, more, hmore, hmorecause, hmoresum⟩ := hexpired
    dsimp only at hinterval hearly hpassed hmorecause hmoresum hcalled hsum
    have hle : result.2.waitTime < 2147483647 := by
      by_cases hw : 0 < wait - tickTime
      · rw [hearly hw] at hmoresum
        omega
      · have hbound := (hpassed (by omega)).2
        have hinterval := ht.interval_lt
        simp only [INT32_MAX] at hinterval
        omega
    refine
      { interval := hinterval
        start_lt := ht.start_lt
        interval_nonneg := ht.interval_nonneg
        interval_lt := ht.interval_lt
        elapsed := by show 0 ≤ h.elapsed + tickTime; omega
        wait_nonneg := le_of_lt hwaiting
        wait_lt := hle
        periodic := fun _ => ⟨hwaiting, fun hsome => ?_, lost + more, by omega, ?_, ?_⟩
        once := fun hnone => absurd hnone (ne_of_gt hpos) }
    · have hsome : 0 < h.called + result.1 := hsome
      show result.2.waitTime ≤ h.intervalTime
      by_cases hw : 0 < wait - tickTime
      · rw [hearly hw] at hsome hmoresum
        have hbefore := hcalled hsome
        omega
      · exact (hpassed (by omega)).2
    · show lost + more = 0 ∨ 2 * h.intervalTime < max h.longest tickTime
      omega
    · show result.2.waitTime = h.startTime - (h.elapsed + tickTime) +
        ((h.called + result.1 : Nat) : Int) * h.intervalTime + (lost + more)
      rw [hmoresum, hsum]
      push_cast
      ring
  · rw [← hzero]
    have hkept : ∀ {n : Nat} {t : Timecb}, t.intervalTime = 0 → 0 ≤ t.waitTime →
        t.waitTime < INT32_MAX →
        (h.called + n = 0 ∧ t.waitTime = h.startTime - (h.elapsed + tickTime) ∧ 0 < t.waitTime ∨
          h.called + n = 1 ∧ t.waitTime = 0 ∧ h.startTime ≤ h.elapsed + tickTime) →
        Accounted (h.tick tickTime n) t := fun hinterval hwait hmax honce =>
      { interval := by rw [hinterval]; exact hzero
        start_lt := ht.start_lt
        interval_nonneg := ht.interval_nonneg
        interval_lt := ht.interval_lt
        elapsed := by show 0 ≤ h.elapsed + tickTime; omega
        wait_nonneg := hwait
        wait_lt := hmax
        periodic := fun hpos => absurd hzero (ne_of_lt hpos)
        once := fun _ => honce }
    by_cases hw : 0 < wait - tickTime
    · rw [expire_waiting hw]
      refine hkept rfl (le_of_lt hw) (show wait - tickTime < 2147483647 by omega) (.inl ?_)
      rcases ht.once hzero.symm with ⟨hnone, hwait, -⟩ | ⟨-, hwait, -⟩
      · exact ⟨hnone, by dsimp only at hwait ⊢; omega, hw⟩
      · dsimp only at hwait
        omega
    · obtain ⟨hcalled, hwaited, hinterval⟩ :=
        expire_once wait resets (show wait - tickTime ≤ 0 by omega)
      refine hkept hinterval (by rw [hwaited]) (by rw [hwaited]; decide) (.inr ⟨?_, hwaited, ?_⟩)
      · rw [hcalled]
        rcases ht.once hzero.symm with ⟨hnone, -, hpos⟩ | ⟨hsome, hwait, -⟩
        · rw [hnone, if_pos hpos]
        · rw [hsome, if_neg (by dsimp only at hwait; omega)]
      · rcases ht.once hzero.symm with ⟨-, hwait, -⟩ | ⟨-, -, hpast⟩
        · dsimp only at hwait
          omega
        · omega

/-- While no tick is longer than two intervals, the callbacks are those that are due. -/
theorem Accounted.called_periodic (ht : Accounted h t) (hinterval : 0 < h.intervalTime) :
    ∃ lost, 0 ≤ lost ∧ (lost = 0 ∨ 2 * h.intervalTime < h.longest) ∧
      (h.called : Int) = due h.startTime h.intervalTime (h.elapsed - lost) := by
  obtain ⟨hwait, hcalled, lost, hlost, hcause, hsum⟩ := ht.periodic hinterval
  refine ⟨lost, hlost, hcause, ?_⟩
  unfold due
  rcases Nat.eq_zero_or_pos h.called with hnone | hsome
  · rw [hnone] at hsum ⊢
    rw [if_pos (by omega)]
    rfl
  · have hle := hcalled hsome
    have hmany : 1 * h.intervalTime ≤ h.called * h.intervalTime :=
      Int.mul_le_mul_of_nonneg_right (by omega) (le_of_lt hinterval)
    have hparts : h.intervalTime - t.waitTime + h.intervalTime * (h.called - 1) =
        h.elapsed - lost - h.startTime := by
      rw [hsum]
      ring
    have hfloor := ((Int.ediv_emod_unique hinterval).mpr
      ⟨hparts, show 0 ≤ h.intervalTime - t.waitTime by omega, by omega⟩).1
    rw [if_neg (by omega), hfloor]
    omega

theorem Accounted.called_once (ht : Accounted h t) (hinterval : h.intervalTime = 0) :
    h.called = if h.elapsed < h.startTime then 0 else 1 := by
  rcases ht.once hinterval with ⟨hnone, hwait, hpos⟩ | ⟨hsome, -, hpast⟩
  · rw [hnone, if_pos (by omega)]
  · rw [hsome, if_neg (by omega)]

end Accounts

/-! ## The ring of a time base -/

section Rings
variable {ι : Type} [DecidableEq ι] {b b' : TimeBase ι} {l : List ι}

/-- The timers of the ring, from the first one on. -/
structure RingOf (b : TimeBase ι) (l : List ι) : Prop where
  ring : Ring b.links l
  first : b.firstCb = l.head?
  live : ∀ timecb, b.live timecb = true ↔ timecb ∈ l

theorem ringOf_add {n : ι} (h : RingOf b l) (hn : b.live n = false) :
    RingOf (timerAdd b n) (n :: l) := by
  have hfresh : n ∉ l := by
    rw [← h.live]
    simp [hn]
  refine ⟨?_, rfl, fun timecb => ?_⟩
  · unfold timerAdd
    cases l with
    | nil =>
      rw [h.first]
      exact Ring.singleton ⟨update_self .., update_self ..⟩
    | cons first rest =>
      rw [h.first]
      dsimp only [List.head?_cons]
      obtain ⟨w, a, hw⟩ : ∃ w a, first :: rest = w ++ [a] :=
        ⟨_, _, (List.dropLast_append_getLast (List.cons_ne_nil first rest)).symm⟩
      have hne : first ≠ n := fun heq => hfresh (by simp [heq])
      obtain ⟨hnext, hprev⟩ := h.ring.next_of_last (z := a) (by rw [hw]; simp)
      have hring := h.ring
      rw [hw] at hring hfresh ⊢
      have hpush := hring.push hfresh
      rw [hnext] at hpush
      have hback : Ring (b.links.insert a n first) ([n] ++ (w ++ [a])) :=
        Ring.rotate (u := w ++ [a]) (by simpa using hpush)
      refine hback.congr (fun x _ => ?_) (fun x _ => ?_)
      · rw [Links.insert_next]
        simp only [update_of_ne hne, update_self, hprev, Function.update_idem]
      · rw [Links.insert_prev]
        simp only [update_of_ne hne, Function.update_idem, hprev]
        rw [Function.update_comm hne]
  · show update b.live n true timecb = true ↔ timecb ∈ n :: l
    by_cases heq : timecb = n
    · subst heq
      simp
    · rw [update_of_ne heq, h.live]
      simp [heq]

theorem ringOf_delete {u v : List ι} {n : ι} (h : RingOf b (u ++ n :: v)) :
    RingOf (timerDelete b n) (u ++ v) := by
  have hnodup := h.ring.nodup
  rw [List.nodup_middle, List.nodup_cons] at hnodup
  refine ⟨?_, ?_, fun timecb => ?_⟩
  · refine h.ring.unlink.congr (fun x _ => rfl) (fun x _ => ?_)
    rw [Links.unlink_prev]
    unfold timerDelete
    dsimp only
    by_cases hself : n = b.links.prev n
    · rw [← hself, update_self]
    · rw [update_of_ne hself]
  · unfold timerDelete
    dsimp only
    cases u with
    | cons first rest =>
      have hfirst : b.firstCb = some first := h.first
      have hne : first ≠ n := fun heq => hnodup.1 (by simp [heq])
      rw [if_neg (by rw [hfirst]; simpa using hne), hfirst]
      rfl
    | nil =>
      have hfirst : b.firstCb = some n := h.first
      rw [if_pos hfirst]
      rcases h.ring.neighbours with ⟨hhead, -⟩ | ⟨-, hnone, hjoined, -⟩
      · rw [List.append_nil] at hhead
        have hne : n ≠ b.links.next n := by
          intro heq
          rw [← heq] at hhead
          exact hnodup.1 (List.mem_of_mem_head? hhead)
        rw [if_neg hne, List.nil_append, hhead]
      · subst hnone
        rw [if_pos hjoined.symm]
        rfl
  · show update b.live n false timecb = true ↔ timecb ∈ u ++ v
    by_cases heq : timecb = n
    · subst heq
      rw [update_self]
      exact iff_of_false (by decide) hnodup.1
    · rw [update_of_ne heq, h.live]
      simp [heq]

/-- The loop passes the timers from one of the ring on to the last. -/
theorem tickLoop_eq {links : Links ι} {first : ι} (tickTime : Int) (rest : List ι) :
    ∀ (timecb : ι) (s : (ι → Timecb) × List ι) (fuel : Nat),
      (timecb :: rest).IsChain links.Joined →
      links.next ((timecb :: rest).getLast (List.cons_ne_nil _ _)) = first → first ∉ rest →
      (tickLoop links tickTime first fuel timecb s).isSome = decide (rest.length < fuel) ∧
      ∀ r, tickLoop links tickTime first fuel timecb s = some r →
        r = (timecb :: rest).foldl (fun s i => tickOne tickTime i s) s := by
  induction rest with
  | nil =>
    intro timecb s fuel _ hlast _
    have hlast : links.next timecb = first := hlast
    cases fuel with
    | zero => exact ⟨rfl, fun r hr => by cases hr⟩
    | succ fuel =>
      rw [tickLoop, if_pos hlast]
      exact ⟨by simp, fun r hr => by cases hr; rfl⟩
  | cons next rest ih =>
    intro timecb s fuel hchain hlast hfirst
    obtain ⟨hjoined, hchain⟩ := List.isChain_cons_cons.mp hchain
    have hne : links.next timecb ≠ first := by
      rw [hjoined.1]
      exact fun heq => hfirst (by simp [heq])
    cases fuel with
    | zero => exact ⟨rfl, fun r hr => by cases hr⟩
    | succ fuel =>
      rw [tickLoop, if_neg hne, hjoined.1]
      obtain ⟨hsome, hresult⟩ := ih next (tickOne tickTime timecb s) fuel hchain
        (by simpa using hlast) (fun hmem => hfirst (List.mem_cons_of_mem _ hmem))
      refine ⟨?_, fun r hr => hresult r hr⟩
      rw [hsome]
      simp

/-- Each timer of the list is ticked once. -/
theorem foldl_tickOne (tickTime : Int) (hl : l.Nodup) (timers : ι → Timecb) (called : List ι)
    (timecb : ι) :
    ((l.foldl (fun s i => tickOne tickTime i s) (timers, called)).1 timecb =
      if timecb ∈ l then ((timers timecb).tick tickTime).2 else timers timecb) ∧
    (l.foldl (fun s i => tickOne tickTime i s) (timers, called)).2.count timecb =
      called.count timecb + if timecb ∈ l then ((timers timecb).tick tickTime).1 else 0 := by
  induction l generalizing timers called with
  | nil => simp
  | cons i rest ih =>
    obtain ⟨hi, hrest⟩ := List.nodup_cons.mp hl
    obtain ⟨htimer, hcount⟩ := ih hrest (tickOne tickTime i (timers, called)).1
      (tickOne tickTime i (timers, called)).2
    rw [List.foldl_cons, htimer, hcount]
    unfold tickOne
    dsimp only
    by_cases heq : timecb = i
    · subst heq
      simp [hi, List.count_append, List.count_replicate_self]
    · rw [update_of_ne heq, List.count_append, List.count_replicate]
      simp [heq, Ne.symm heq]

theorem callbacks_eq (h : RingOf b l) (tickTime : Int) (fuel : Nat) :
    (l.length ≤ fuel → (callbacks fuel tickTime b).isSome) ∧
    ∀ r, callbacks fuel tickTime b = some r → ∀ timecb,
      (r.1 timecb = if b.live timecb then ((b.timers timecb).tick tickTime).2
        else b.timers timecb) ∧
      r.2.count timecb = if b.live timecb then ((b.timers timecb).tick tickTime).1 else 0 := by
  unfold callbacks
  have hlive := h.live
  cases l with
  | nil =>
    rw [h.first]
    refine ⟨fun _ => rfl, fun r hr timecb => ?_⟩
    cases hr
    have hdead : b.live timecb = false := by
      rw [Bool.eq_false_iff, Ne, hlive]
      exact List.not_mem_nil
    simp [hdead]
  | cons first rest =>
    rw [h.first]
    dsimp only [List.head?_cons]
    have hclosed := (h.ring.next_of_last
      (List.getLast?_eq_some_getLast (List.cons_ne_nil first rest))).1
    obtain ⟨hsome, hresult⟩ := tickLoop_eq tickTime rest first (b.timers, []) fuel
      h.ring.chain hclosed (List.nodup_cons.mp h.ring.nodup).1
    refine ⟨fun hfuel => by rw [hsome]; exact decide_eq_true hfuel, fun r hr timecb => ?_⟩
    obtain ⟨htimer, hcount⟩ := foldl_tickOne tickTime h.ring.nodup b.timers [] timecb
    rw [hresult r hr, htimer, hcount]
    simp only [← hlive, List.count_nil, Nat.zero_add, and_self]

end Rings

/-! ## Runs of a time base -/

/-- The ticks that an `int32` holds. -/
def TickFits {ι : Type} : TimeBase ι → TimerCall ι → Prop
  | _, .tick _ tickTime => 0 ≤ tickTime ∧ tickTime ≤ INT32_MAX
  | _, _ => True

structure TimersOk {ι : Type} [DecidableEq ι] (b : TimeBase ι) : Prop where
  ring : ∃ l, RingOf b l
  accounted : ∀ timecb, b.live timecb = true → 0 < (b.history timecb).startTime →
    Accounted (b.history timecb) (b.timers timecb)

section Runs
variable {ι : Type} [DecidableEq ι] {b b' : TimeBase ι}

theorem accounted_set {start interval : Int} (haccepts : SetAccepts start interval)
    (hstart : 0 < start) (resets : BitVec 32) :
    Accounted ⟨start, interval, 0, 0, 0⟩ ⟨start, interval, resets⟩ where
  interval := rfl
  start_lt := haccepts.2.1
  interval_nonneg := haccepts.2.2.1
  interval_lt := haccepts.2.2.2.1
  elapsed := le_refl 0
  wait_nonneg := haccepts.1
  wait_lt := haccepts.2.1
  periodic _ := ⟨hstart, fun h => absurd h (Nat.lt_irrefl 0), 0, le_refl 0, .inl rfl, by simp⟩
  once _ := .inl ⟨rfl, (Int.sub_zero start).symm, hstart⟩

theorem timersOk_step {call : TimerCall ι} (h : TimersOk b) (hok : TickFits b call)
    (hnext : (timeBaseMachine ι).next b call = some b') : TimersOk b' := by
  obtain ⟨l, hl⟩ := h.ring
  cases call with
  | add n =>
    simp only [timeBaseMachine] at hnext
    split at hnext
    case isTrue => cases hnext
    case isFalse hn =>
      cases hnext
      refine ⟨⟨_, ringOf_add hl (by simpa using hn)⟩, fun timecb hlive hstart => ?_⟩
      simp only [timerAdd] at hlive hstart ⊢
      by_cases heq : timecb = n
      · subst heq
        rw [update_self] at hstart
        exact absurd hstart (lt_irrefl 0)
      · rw [update_of_ne heq] at hlive hstart
        rw [update_of_ne heq, update_of_ne heq]
        exact h.accounted timecb hlive hstart
  | delete n =>
    simp only [timeBaseMachine] at hnext
    split at hnext
    case isTrue hn =>
      cases hnext
      obtain ⟨u, v, rfl⟩ := List.append_of_mem ((hl.live n).mp hn)
      refine ⟨⟨_, ringOf_delete hl⟩, fun timecb hlive hstart => ?_⟩
      simp only [timerDelete] at hlive hstart ⊢
      by_cases heq : timecb = n
      · subst heq
        rw [update_self] at hlive
        cases hlive
      · rw [update_of_ne heq] at hlive
        exact h.accounted timecb hlive hstart
    case isFalse => cases hnext
  | set n start interval =>
    simp only [timeBaseMachine] at hnext
    split at hnext
    case isTrue hn =>
      cases hnext
      refine ⟨⟨l, hl.ring, hl.first, hl.live⟩, fun timecb hlive hstart => ?_⟩
      simp only [timerSet] at hlive hstart ⊢
      by_cases heq : timecb = n
      · subst heq
        rw [update_self] at hstart
        rw [update_self, update_self]
        exact accounted_set hn.2 hstart _
      · rw [update_of_ne heq] at hstart
        rw [update_of_ne heq, update_of_ne heq]
        exact h.accounted timecb hlive hstart
    case isFalse => cases hnext
  | tick fuel tickTime =>
    simp only [timeBaseMachine] at hnext
    split at hnext
    case h_1 => cases hnext
    case h_2 timers called hcallbacks =>
      cases hnext
      refine ⟨⟨l, hl.ring, hl.first, hl.live⟩, fun timecb hlive hstart => ?_⟩
      have hlive : b.live timecb = true := hlive
      obtain ⟨htimer, hcount⟩ := (callbacks_eq hl tickTime fuel).2 _ hcallbacks timecb
      rw [if_pos hlive] at htimer hcount
      have hmax : tickTime ≤ 2147483647 := hok.2
      have hafter := accounted_tick (h.accounted timecb hlive hstart) hok.1
        (show tickTime < 2 ^ 31 by omega)
      dsimp only at htimer hcount ⊢
      rw [htimer, hcount]
      exact hafter

theorem reachable_timersOk (h : (timeBaseMachine ι).Reaches TickFits b) : TimersOk b := by
  refine Machine.Reaches.invariant ?_ (fun _ _ _ hinv hok hnext => timersOk_step hinv hok hnext) h
  rintro b rfl
  exact ⟨⟨[], ring_nil _, rfl, fun timecb => by simp [TimeBase.initial]⟩,
    fun timecb hlive => by cases hlive⟩

end Runs

end Nos3.Osal
