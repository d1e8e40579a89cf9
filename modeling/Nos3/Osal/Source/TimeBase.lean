import Nos3.Base.CircularList
import Nos3.Base.Transition
import Mathlib.Algebra.Group.Nat.Defs
import Mathlib.Algebra.Group.Int.Defs

/-!
# Time bases

The ring of timer callbacks of one time base, as `osapi-time.c` links and unlinks them, and
the tick of `OS_TimeBase_CallbackThread`. An `int32` is an integer; only the subtraction of a
tick can leave its range. What the id map has to say is in `live`.
-/
namespace Nos3.Osal
open Nos3.Base.CircularList (Links)
open Nos3.Base.Transition (Machine)
open Function (update)

/-- The times of `OS_timecb_internal_record_t`. -/
structure Timecb where
  waitTime : Int
  intervalTime : Int
  backlogResets : BitVec 32

def asInt32 (x : Int) : Int := Int.bmod x (2 ^ 32)

/-- The loop for a timer whose wait time has run out, with the number of callbacks. -/
def expire (savedWaitTime : Int) (t : Timecb) : Nat × Timecb :=
  if t.waitTime ≤ 0 then
    let waitTime := t.waitTime + t.intervalTime
    let t' :=
      if waitTime < -t.intervalTime then
        { t with waitTime := -t.intervalTime, backlogResets := t.backlogResets + 1 }
      else { t with waitTime := waitTime }
    let called := if savedWaitTime > 0 then 1 else 0
    if t.intervalTime ≤ 0 then (called, t')
    else
      let later := expire savedWaitTime t'
      (called + later.1, later.2)
  else (0, t)
termination_by (1 - t.waitTime).toNat
decreasing_by
  split <;> dsimp only <;> omega

/-- What a tick does to one timer. -/
def Timecb.tick (tickTime : Int) (t : Timecb) : Nat × Timecb :=
  expire t.waitTime { t with waitTime := asInt32 (t.waitTime - tickTime) }

/-- What was asked of a timer when it was set, the ticks since then, the longest of them and
the callbacks; the code does not know these. -/
structure TimerHistory where
  startTime : Int
  intervalTime : Int
  elapsed : Int
  longest : Int
  called : Nat

structure TimeBase (ι : Type) where
  firstCb : Option ι
  links : Links ι
  timers : ι → Timecb
  live : ι → Bool
  history : ι → TimerHistory

section Operations
variable {ι : Type} [DecidableEq ι]

def TimeBase.initial (ι : Type) : TimeBase ι where
  firstCb := none
  links := ⟨id, id⟩
  timers _ := ⟨0, 0, 0⟩
  live _ := false
  history _ := ⟨0, 0, 0, 0, 0⟩

/-- `OS_DoTimerAdd` with the id that the id map gives it. -/
def timerAdd (b : TimeBase ι) (timecb : ι) : TimeBase ι :=
  let links : Links ι :=
    ⟨update b.links.next timecb timecb, update b.links.prev timecb timecb⟩
  let links :=
    match b.firstCb with
    | none => links
    | some list =>
      let next := update links.next timecb list
      let prev := update links.prev timecb (links.prev list)
      let last := prev timecb
      ⟨update next last timecb, update prev list timecb⟩
  { b with
    firstCb := some timecb
    links := links
    timers := update b.timers timecb ⟨0, 0, 0⟩
    live := update b.live timecb true
    history := update b.history timecb ⟨0, 0, 0, 0, 0⟩ }

/-- `OS_TimerDelete` -/
def timerDelete (b : TimeBase ι) (timecb : ι) : TimeBase ι :=
  let firstCb :=
    if b.firstCb = some timecb then
      if timecb = b.links.next timecb then none else some (b.links.next timecb)
    else b.firstCb
  let next := update b.links.next (b.links.prev timecb) (b.links.next timecb)
  let prev := update b.links.prev (next timecb) (b.links.prev timecb)
  { b with
    firstCb := firstCb
    links := ⟨update next timecb timecb, update prev timecb timecb⟩
    live := update b.live timecb false }

/-- `OS_TimerSet` with arguments that pass its checks. -/
def timerSet (b : TimeBase ι) (timecb : ι) (startTime intervalTime : Int) : TimeBase ι :=
  { b with
    timers := update b.timers timecb
      { b.timers timecb with waitTime := startTime, intervalTime := intervalTime }
    history := update b.history timecb ⟨startTime, intervalTime, 0, 0, 0⟩ }

/-- One timer of the ring, with its callbacks behind those of the timers before it. -/
def tickOne (tickTime : Int) (timecb : ι) (s : (ι → Timecb) × List ι) : (ι → Timecb) × List ι :=
  let result := (s.1 timecb).tick tickTime
  (update s.1 timecb result.2, s.2 ++ List.replicate result.1 timecb)

/-- The loop over the ring from a timer on. Each round takes one unit of fuel; the result is
missing where it runs out. -/
def tickLoop (links : Links ι) (tickTime : Int) (first : ι) :
    Nat → ι → (ι → Timecb) × List ι → Option ((ι → Timecb) × List ι)
  | 0, _, _ => none
  | fuel + 1, timecb, s =>
    let s := tickOne tickTime timecb s
    if links.next timecb = first then some s
    else tickLoop links tickTime first fuel (links.next timecb) s

/-- The part of `OS_TimeBase_CallbackThread` that holds the lock of the time base, with the
timers whose callbacks it calls. -/
def callbacks (fuel : Nat) (tickTime : Int) (b : TimeBase ι) : Option ((ι → Timecb) × List ι) :=
  match b.firstCb with
  | none => some (b.timers, [])
  | some first => tickLoop b.links tickTime first fuel first (b.timers, [])

/-- A timer's history over a tick. -/
def TimerHistory.tick (tickTime : Int) (called : Nat) (h : TimerHistory) : TimerHistory :=
  { h with
    elapsed := h.elapsed + tickTime
    longest := max h.longest tickTime
    called := h.called + called }

inductive TimerCall (ι : Type)
  | add (timecb : ι)
  | delete (timecb : ι)
  | set (timecb : ι) (startTime intervalTime : Int)
  | tick (fuel : Nat) (tickTime : Int)

def INT32_MAX : Int := 2147483647

/-- The times that `OS_TimerSet` accepts. -/
def SetAccepts (startTime intervalTime : Int) : Prop :=
  0 ≤ startTime ∧ startTime < INT32_MAX ∧ 0 ≤ intervalTime ∧ intervalTime < INT32_MAX ∧
    (startTime ≠ 0 ∨ intervalTime ≠ 0)

instance (startTime intervalTime : Int) : Decidable (SetAccepts startTime intervalTime) :=
  inferInstanceAs (Decidable (_ ∧ _))

def timeBaseMachine (ι : Type) [DecidableEq ι] : Machine (TimeBase ι) (TimerCall ι) where
  start b := b = TimeBase.initial ι
  next b call :=
    match call with
    | .add timecb => if b.live timecb then none else some (timerAdd b timecb)
    | .delete timecb => if b.live timecb then some (timerDelete b timecb) else none
    | .set timecb startTime intervalTime =>
      if b.live timecb ∧ SetAccepts startTime intervalTime then
        some (timerSet b timecb startTime intervalTime)
      else none
    | .tick fuel tickTime =>
      match callbacks fuel tickTime b with
      | none => none
      | some (timers, called) =>
        some
          { b with
            timers := timers
            history := fun timecb => (b.history timecb).tick tickTime (called.count timecb) }

end Operations

end Nos3.Osal
