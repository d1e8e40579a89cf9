import Nos3.Evs.Source.EventServices
import Nos3.Base.TokenBucket
import Nos3.Base.Transition

/-!
# The events that get through

An application's events pay with tokens of a bucket, so that what it sends in any window is
bounded; the event log is a bounded queue of what was sent.
-/
namespace Nos3.Evs
open Nos3.Base.TokenBucket (Bucket Level Ordered)
open Nos3.Base.Transition (Machine)

/-! ## The tokens as a bucket -/

def squelchBucket (eventBurstMax : Nat) : Bucket where
  cost := 1000
  capacity := (eventBurstMax : Int) * 1000
  floor := -(eventBurstMax : Int) * 1000
  gain := creditCount

def AppData.level (app : AppData) : Level := ⟨app.squelchTokens, app.lastSquelchCreditableTime⟩

variable {eventBurstMax : Nat} {app : AppData} {now stop : Int}

theorem creditCount_of_nonneg {t : Int} (ht : 0 ≤ t) : creditCount t = t / 10000 * 8 := by
  rw [creditCount, Int.tdiv_eq_ediv_of_nonneg ht]
  rfl

theorem squelchBucket_proper (hburst : 0 < eventBurstMax) :
    (squelchBucket eventBurstMax).Proper CFE_PLATFORM_EVS_APP_EVENTS_PER_SEC where
  cost_pos := show (0 : Int) < 1000 by decide
  floor_le := by
    show -(eventBurstMax : Int) * 1000 ≤ -1000
    omega
  capacity_pos := by
    show 0 < (eventBurstMax : Int) * 1000
    omega
  gain_nonneg t ht := by
    show 0 ≤ creditCount t
    rw [creditCount_of_nonneg ht]
    omega
  gain_parts t u ht hu := by
    show creditCount t + creditCount u ≤ creditCount (t + u)
    rw [creditCount_of_nonneg ht, creditCount_of_nonneg hu, creditCount_of_nonneg (by omega)]
    omega
  gain_whole t u ht hu := by
    show creditCount (t + u) ≤ creditCount t + creditCount u + (8 : Nat)
    rw [creditCount_of_nonneg ht, creditCount_of_nonneg hu, creditCount_of_nonneg (by omega)]
    omega

/-- The credit as `EVS_CheckAndIncrementSquelchTokens` pays it out. -/
theorem fill_level (now : Int) (app : AppData) :
    (squelchBucket eventBurstMax).fill now app.level =
      if creditCount (now - app.lastSquelchCreditableTime) ≥ 1000 then
        ⟨if app.squelchTokens + creditCount (now - app.lastSquelchCreditableTime) >
            (eventBurstMax : Int) * 1000 then (eventBurstMax : Int) * 1000
          else app.squelchTokens + creditCount (now - app.lastSquelchCreditableTime), now⟩
      else app.level := by
  unfold Bucket.fill
  refine if_congr Iff.rfl ?_ rfl
  refine congrArg (Level.mk · now) ?_
  rw [min_def]
  show (if app.squelchTokens + creditCount (now - app.lastSquelchCreditableTime) ≤
    (eventBurstMax : Int) * 1000 then _ else (eventBurstMax : Int) * 1000) = _
  split_ifs <;> first | rfl | omega

@[simp] theorem countSquelched_tokens (app : AppData) (squelched : Bool) :
    (app.countSquelched squelched).squelchTokens = app.squelchTokens := by
  unfold AppData.countSquelched
  split <;> rfl

@[simp] theorem countSquelched_since (app : AppData) (squelched : Bool) :
    (app.countSquelched squelched).lastSquelchCreditableTime = app.lastSquelchCreditableTime := by
  unfold AppData.countSquelched
  split <;> rfl

theorem squelch_level (hburst : 0 < eventBurstMax) (now : Int) (app : AppData) :
    (checkAndIncrementSquelchTokens eventBurstMax now app).app.level =
      (squelchBucket eventBurstMax).offer now app.level ∧
    (checkAndIncrementSquelchTokens eventBurstMax now app).notSquelched =
      (squelchBucket eventBurstMax).passes now app.level := by
  have hne : eventBurstMax ≠ 0 := Nat.ne_of_gt hburst
  have hdraw : ∀ s : Level, (squelchBucket eventBurstMax).draw s =
      ⟨if s.tokens - 1000 < -(eventBurstMax : Int) * 1000 then -(eventBurstMax : Int) * 1000
        else s.tokens - 1000, s.since⟩ := by
    intro s
    refine congrArg (Level.mk · s.since) ?_
    rw [max_def]
    show (if s.tokens - 1000 ≤ -(eventBurstMax : Int) * 1000 then _ else _) = _
    split_ifs <;> first | rfl | (simp only [squelchBucket] at *; omega)
  rw [Bucket.offer, Bucket.passes, fill_level, hdraw]
  unfold checkAndIncrementSquelchTokens
  rw [if_pos hne]
  by_cases hcredit : creditCount (now - app.lastSquelchCreditableTime) ≥ 1000
  · simp only [if_pos hcredit, AppData.level, countSquelched_tokens, countSquelched_since]
    refine ⟨trivial, ?_⟩
    rw [← decide_not]
    exact decide_eq_decide.mpr Int.not_le
  · simp only [if_neg hcredit, AppData.level, countSquelched_tokens, countSquelched_since]
    refine ⟨trivial, ?_⟩
    rw [← decide_not]
    exact decide_eq_decide.mpr Int.not_le

/-! ## Runs of an application -/

inductive AppCall
  | sendEvent (eventId eventType : BitVec 16)
  | command (command : AppCommand)

structure TimedCall where
  call : AppCall
  time : Int

def callApp (app : AppData) (c : TimedCall) : Option SendOutcome × AppData :=
  match c.call with
  | .sendEvent eventId eventType =>
    let (outcome, app) :=
      sendEvent CFE_PLATFORM_EVS_MAX_APP_EVENT_BURST eventId eventType c.time app
    (some outcome, app)
  | .command command => (none, command.run app)

/-- An application and the time of its last call. -/
def application : Machine (AppData × Int) TimedCall where
  start s := ∃ filters, s = (register filters, 0)
  next s c := if s.2 ≤ c.time then some ((callApp s.1 c).2, c.time) else none

/-- How many of the events are sent. -/
def sentCount : List TimedCall → AppData → Int
  | [], _ => 0
  | c :: calls, app =>
    (if (callApp app c).1 = some .sent then 1 else 0) + sentCount calls (callApp app c).2

abbrev eventBucket : Bucket := squelchBucket CFE_PLATFORM_EVS_MAX_APP_EVENT_BURST

theorem eventBucket_proper : eventBucket.Proper CFE_PLATFORM_EVS_APP_EVENTS_PER_SEC :=
  squelchBucket_proper (by decide)

@[simp] theorem level_setFilter (app : AppData) (i : FilterIndex) (f : BinFilter) :
    (app.setFilter i f).level = app.level := rfl

@[simp] theorem level_changeFilter (app : AppData) (eventId : BitVec 16)
    (change : BinFilter → BinFilter) : (app.changeFilter eventId change).level = app.level := by
  unfold AppData.changeFilter
  split <;> rfl

@[simp] theorem level_isFiltered (app : AppData) (eventId eventType : BitVec 16) :
    (isFiltered app eventId eventType).2.level = app.level := by
  unfold isFiltered
  split
  · split
    · rfl
    · dsimp only
      split <;> rfl
  · rfl

theorem level_command (app : AppData) (command : AppCommand) :
    (command.run app).level = app.level := by
  cases command with
  | enableEvents => rfl
  | disableEvents => rfl
  | enableTypes bitMask =>
    simp only [AppCommand.run]
    split <;> rfl
  | disableTypes bitMask =>
    simp only [AppCommand.run]
    split <;> rfl
  | resetCounter => rfl
  | setFilter eventId mask => exact level_changeFilter ..
  | resetFilter eventId => exact level_changeFilter ..
  | resetAllFilters => rfl
  | addFilter eventId mask =>
    simp only [AppCommand.run]
    split
    · rfl
    · exact level_changeFilter ..
  | deleteFilter eventId => exact level_changeFilter ..

/-- A call leaves the tokens alone, or it is one offer to the bucket. -/
theorem callApp_level (app : AppData) (c : TimedCall) :
    (callApp app c).2.level = app.level ∧ (callApp app c).1 ≠ some .sent ∧
      (callApp app c).1 ≠ some .squelched ∨
    (callApp app c).2.level = eventBucket.offer c.time app.level ∧
      ((callApp app c).1 = some .sent ↔ eventBucket.passes c.time app.level = true) := by
  obtain ⟨call, time⟩ := c
  cases call with
  | command command => exact .inl ⟨level_command app command, by simp [callApp], by simp [callApp]⟩
  | sendEvent eventId eventType =>
    have hlevel := level_isFiltered app eventId eventType
    simp only [callApp, sendEvent]
    generalize isFiltered app eventId eventType = filtered at hlevel ⊢
    obtain ⟨filtered, app'⟩ := filtered
    cases filtered with
    | true => exact .inl ⟨hlevel, by simp, by simp⟩
    | false =>
      obtain ⟨hoffer, hpasses⟩ := squelch_level
        (show 0 < CFE_PLATFORM_EVS_MAX_APP_EVENT_BURST by decide) time app'
      have hsame : app'.level = app.level := hlevel
      rw [hsame] at hoffer hpasses
      refine .inr ?_
      rw [← hpasses, ← hoffer]
      generalize checkAndIncrementSquelchTokens _ time app' = result
      simp only [Bool.false_eq_true, if_false]
      cases hsent : result.notSquelched with
      | true =>
        refine ⟨?_, by simp⟩
        simp only [if_true]
        split <;> rfl
      | false => exact ⟨rfl, by simp⟩

theorem reachable_holds {s : AppData × Int} (h : application.Reachable s) :
    eventBucket.Holds s.2 s.1.level := by
  refine @Machine.Reachable.invariant _ _ _ (fun s => eventBucket.Holds s.2 s.1.level) ?_ ?_ _ h
  · rintro s ⟨filters, rfl⟩
    have hlow : eventBucket.floor ≤ (32 : Nat) * 1000 := by decide
    have hcap : ((32 : Nat) * 1000 : Int) ≤ eventBucket.capacity := by decide
    exact ⟨hlow, hcap, le_refl 0⟩
  · rintro ⟨app, last⟩ c s' hinv hnext
    simp only [application] at hnext
    split at hnext
    case isTrue hlater =>
      cases hnext
      have hinv := Bucket.Holds.later hinv hlater
      rcases callApp_level app c with ⟨hsame, -⟩ | ⟨hoffer, -⟩
      · simpa only [hsame] using hinv
      · simpa only [hoffer] using Bucket.holds_offer eventBucket_proper hinv
    case isFalse => cases hnext

/-- The calls of a run that are offers, which are as many as are sent. -/
theorem sentCount_eq_passed {calls : List TimedCall} (app : AppData)
    (hcalls : Ordered now (calls.map TimedCall.time) stop) :
    ∃ times, Ordered now times stop ∧
      sentCount calls app = eventBucket.passed times app.level := by
  induction calls generalizing app now with
  | nil => exact ⟨[], hcalls, rfl⟩
  | cons c calls ih =>
    obtain ⟨hnow, hlater⟩ := hcalls
    obtain ⟨times, htimes, hcount⟩ := ih (callApp app c).2 hlater
    rcases callApp_level app c with ⟨hsame, hnot, -⟩ | ⟨hoffer, hsent⟩
    · refine ⟨times, ?_, ?_⟩
      · cases times with
        | nil => exact hnow.trans htimes
        | cons next rest => exact ⟨hnow.trans htimes.1, htimes.2⟩
      · rw [sentCount, if_neg hnot, hcount, hsame, zero_add]
    · refine ⟨c.time :: times, ⟨hnow, htimes⟩, ?_⟩
      rw [sentCount, hcount, hoffer, Bucket.passed]
      simp only [hsent]

section Log
open Nos3.Base.RingBuffer
open Nos3.Base.FixedArray (patch)
open Nos3.Base.FileImage (window)

variable {α : Type}

/-- What the log holds, oldest entry first, and how many entries found it full. -/
structure Journal (α : Type) where
  entries : List α
  mode : LogMode
  overflows : BitVec 16

def Journal.add (e : α) (j : Journal α) : Journal α :=
  if j.entries.length < CFE_PLATFORM_EVS_LOG_MAX then { j with entries := j.entries ++ [e] }
  else
    { j with
      entries := if j.mode = .discard then j.entries else j.entries.tail ++ [e]
      overflows := j.overflows + 1 }

inductive LogCall (α : Type)
  | add (entry : α)
  | clear
  | setMode (mode : LogMode)

def LogCall.run [Inhabited α] (log : EventLog α) : LogCall α → EventLog α
  | .add entry => addLog entry log
  | .clear => clearLog log
  | .setMode mode => setLogMode mode log

def LogCall.record (j : Journal α) : LogCall α → Journal α
  | .add entry => j.add entry
  | .clear => ⟨[], j.mode, 0⟩
  | .setMode mode => { j with mode := mode }

variable {log : EventLog α}

theorem wrapIndex_next (hnext : log.next < CFE_PLATFORM_EVS_LOG_MAX) :
    (if log.next + 1 ≥ CFE_PLATFORM_EVS_LOG_MAX then 0 else log.next + 1) =
      wrapIndex CFE_PLATFORM_EVS_LOG_MAX log.next 1 := by
  unfold wrapIndex
  split <;> split <;> omega

/-- A log with room takes the entry. -/
theorem addLog_room (e : α) (hroom : log.logCount < CFE_PLATFORM_EVS_LOG_MAX)
    (hflag : log.logFullFlag = false) :
    addLog e log =
      { log with
        logEntry := patch log.logEntry log.next [e]
        next := if log.next + 1 ≥ CFE_PLATFORM_EVS_LOG_MAX then 0 else log.next + 1
        logCount := log.logCount + 1
        logFullFlag := decide (log.logCount + 1 = CFE_PLATFORM_EVS_LOG_MAX) } := by
  unfold addLog
  rw [if_neg (by simp [hflag])]
  simp only [hflag, Bool.false_eq_true, if_false]
  by_cases hlast : log.next + 1 ≥ CFE_PLATFORM_EVS_LOG_MAX
  · by_cases hfill : log.logCount + 1 = CFE_PLATFORM_EVS_LOG_MAX <;> simp [hlast, hroom, hfill]
  · by_cases hfill : log.logCount + 1 = CFE_PLATFORM_EVS_LOG_MAX <;> simp [hlast, hroom, hfill]

theorem addLog_full (e : α) (hfull : ¬log.logCount < CFE_PLATFORM_EVS_LOG_MAX)
    (hflag : log.logFullFlag = true) :
    addLog e log =
      if log.logMode = .discard then { log with logOverflowCounter := log.logOverflowCounter + 1 }
      else
        { log with
          logEntry := patch log.logEntry log.next [e]
          next := if log.next + 1 ≥ CFE_PLATFORM_EVS_LOG_MAX then 0 else log.next + 1
          logOverflowCounter := log.logOverflowCounter + 1 } := by
  unfold addLog
  by_cases hmode : log.logMode = .discard
  · rw [if_pos ⟨hflag, hmode⟩, if_pos hmode]
  · rw [if_neg (fun h => hmode h.2), if_neg hmode]
    simp only [hflag, if_true]
    by_cases hlast : log.next + 1 ≥ CFE_PLATFORM_EVS_LOG_MAX <;> simp [hlast, hfull]

variable [Inhabited α] {j : Journal α}

/-- The oldest entry is the first one of the array, or the next one to be written. -/
structure Represents (log : EventLog α) (j : Journal α) : Prop where
  size : log.logEntry.length = CFE_PLATFORM_EVS_LOG_MAX
  next_lt : log.next < CFE_PLATFORM_EVS_LOG_MAX
  count : log.logCount = j.entries.length
  count_le : log.logCount ≤ CFE_PLATFORM_EVS_LOG_MAX
  full : log.logFullFlag = true ↔ log.logCount = CFE_PLATFORM_EVS_LOG_MAX
  mode : log.logMode = j.mode
  overflows : log.logOverflowCounter = j.overflows
  filling : log.logCount < CFE_PLATFORM_EVS_LOG_MAX →
    log.next = log.logCount ∧ contents log.logEntry 0 log.logCount = j.entries
  wrapped : log.logCount = CFE_PLATFORM_EVS_LOG_MAX →
    contents log.logEntry log.next CFE_PLATFORM_EVS_LOG_MAX = j.entries

theorem represents_initial (mode : LogMode) :
    Represents (EventLog.initial mode : EventLog α) ⟨[], mode, 0⟩ where
  size := List.length_replicate
  next_lt := show (0 : Nat) < 20 by decide
  count := rfl
  count_le := Nat.zero_le _
  full := show false = true ↔ (0 : Nat) = 20 by decide
  mode := rfl
  overflows := rfl
  filling _ := ⟨rfl, rfl⟩
  wrapped h := by cases h

theorem represents_add (h : Represents log j) (e : α) :
    Represents (addLog e log) (j.add e) := by
  have hsize := h.size
  have hnext := h.next_lt
  have hpatch : (patch log.logEntry log.next [e]).length = CFE_PLATFORM_EVS_LOG_MAX := by
    rw [Base.FixedArray.patch_length (by rw [hsize]; exact hnext), hsize]
  have hwrap := wrapIndex_lt hnext (show 1 ≤ CFE_PLATFORM_EVS_LOG_MAX by decide)
  rw [← wrapIndex_next hnext] at hwrap
  rcases Nat.lt_or_eq_of_le h.count_le with hroom | hfull
  · have hflag : log.logFullFlag = false := by
      rw [Bool.eq_false_iff, Ne, h.full]
      omega
    obtain ⟨hat, hentries⟩ := h.filling hroom
    have hshort : j.entries.length < CFE_PLATFORM_EVS_LOG_MAX := by
      rw [← h.count]
      exact hroom
    have hpush := contents_push (show 0 < log.logEntry.length by rw [hsize]; decide)
      (show log.logCount < log.logEntry.length by rw [hsize]; exact hroom) e
    have hend : wrapIndex log.logEntry.length 0 log.logCount = log.next := by
      rw [hsize, hat]
      unfold wrapIndex
      rw [if_pos (by omega), Nat.zero_add]
    rw [hend, hentries] at hpush
    rw [addLog_room e hroom hflag, Journal.add, if_pos hshort]
    refine
      { size := hpatch
        next_lt := hwrap
        count := by simp [h.count]
        count_le := hroom
        full := decide_eq_true_iff
        mode := h.mode
        overflows := h.overflows
        filling := fun hmore => ⟨?_, hpush⟩
        wrapped := fun hlast => ?_ }
    · have hmore : log.logCount + 1 < CFE_PLATFORM_EVS_LOG_MAX := hmore
      show (if _ then _ else _) = log.logCount + 1
      rw [if_neg (by omega), hat]
    · have hlast : log.logCount + 1 = CFE_PLATFORM_EVS_LOG_MAX := hlast
      show contents _ (if _ then _ else _) _ = _
      rw [if_pos (by omega), ← hlast]
      exact hpush
  · have hflag : log.logFullFlag = true := h.full.mpr hfull
    have hlong : ¬j.entries.length < CFE_PLATFORM_EVS_LOG_MAX := by
      rw [← h.count]
      omega
    rw [addLog_full e (by omega) hflag, Journal.add, if_neg hlong, ← h.mode]
    by_cases hmode : log.logMode = .discard
    · rw [if_pos hmode, if_pos hmode]
      exact { h with mode := rfl, overflows := congrArg (· + 1) h.overflows }
    · rw [if_neg hmode, if_neg hmode]
      have hover := contents_overwrite (show log.next < log.logEntry.length by omega) e
      rw [hsize, h.wrapped hfull, ← wrapIndex_next hnext] at hover
      have hpos : 0 < j.entries.length := by
        have hmax : (0 : Nat) < CFE_PLATFORM_EVS_LOG_MAX := by decide
        omega
      exact
        { size := hpatch
          next_lt := hwrap
          count := by
            rw [List.length_append, List.length_tail, List.length_singleton,
              Nat.sub_add_cancel hpos]
            exact h.count
          count_le := h.count_le
          full := h.full
          mode := rfl
          overflows := congrArg (· + 1) h.overflows
          filling := fun hmore => absurd hmore (by simp only [hfull]; omega)
          wrapped := fun _ => hover }

theorem represents_run (h : Represents log j) (call : LogCall α) :
    Represents (call.run log) (call.record j) := by
  cases call with
  | add e => exact represents_add h e
  | clear =>
    have hclear := represents_initial (α := α) log.logMode
    rw [LogCall.record, ← h.mode]
    exact hclear
  | setMode mode => exact { h with mode := rfl }

theorem represents_foldl (h : Represents log j) (calls : List (LogCall α)) :
    Represents (calls.foldl LogCall.run log) (calls.foldl LogCall.record j) := by
  induction calls generalizing log j with
  | nil => exact h
  | cons call calls ih => exact ih (represents_run h call)

theorem writeEntries_eq (hsize : log.logEntry.length = CFE_PLATFORM_EVS_LOG_MAX) {n i : Nat}
    (hi : i < CFE_PLATFORM_EVS_LOG_MAX) (hn : n ≤ CFE_PLATFORM_EVS_LOG_MAX) (room : Nat) :
    writeEntries log n room i = (contents log.logEntry i n).take room := by
  induction n generalizing i room with
  | zero => simp [writeEntries, contents]
  | succ n ih =>
    cases room with
    | zero => simp [writeEntries]
    | succ room =>
      have hstep : (if i + 1 ≥ CFE_PLATFORM_EVS_LOG_MAX then 0 else i + 1) =
          wrapIndex log.logEntry.length i 1 := by
        rw [hsize]
        unfold wrapIndex
        split <;> split <;> omega
      have hhead : window log.logEntry i 1 = contents log.logEntry i 1 := by
        rw [← readWrapped_eq (by omega) (by omega)]
        exact (readWrapped_single (by omega)).symm
      have hsplit := contents_split (show i < log.logEntry.length by omega)
        (show 1 + n ≤ log.logEntry.length by omega)
      have hwhole : (contents log.logEntry i 1).take (room + 1) = contents log.logEntry i 1 :=
        List.take_of_length_le (by simp)
      rw [writeEntries, hstep, ih (by rw [hsize]; exact wrapIndex_lt hi (by omega)) (by omega),
        Nat.add_comm n 1, hsplit, hhead, List.take_append, hwhole, contents_length,
        Nat.add_sub_cancel]

/-- The log file is the journal, oldest entry first, whatever was added, cleared and switched
before; a file that is too small holds the oldest entries. -/
theorem log_file_is_journal (mode : LogMode) (calls : List (LogCall α)) (room : Nat) :
    writeLogData room (calls.foldl LogCall.run (EventLog.initial mode)) =
      ⟨(calls.foldl LogCall.record ⟨[], mode, 0⟩).entries.take room,
        decide ((calls.foldl LogCall.record ⟨[], mode, 0⟩).entries.length ≤ room)⟩ := by
  have h := represents_foldl (represents_initial (α := α) mode) calls
  generalize calls.foldl LogCall.run (EventLog.initial mode) = log at h ⊢
  generalize calls.foldl LogCall.record ⟨[], mode, 0⟩ = j at h ⊢
  have hentries : writeEntries log log.logCount room
      (if log.logCount = CFE_PLATFORM_EVS_LOG_MAX then log.next else 0) = j.entries.take room := by
    by_cases hfull : log.logCount = CFE_PLATFORM_EVS_LOG_MAX
    · rw [if_pos hfull, writeEntries_eq h.size h.next_lt h.count_le, hfull, h.wrapped hfull]
    · have hroom := Nat.lt_of_le_of_ne h.count_le hfull
      rw [if_neg hfull, writeEntries_eq h.size (by decide) h.count_le, (h.filling hroom).2]
  unfold writeLogData
  rw [hentries]
  refine congrArg (LogFile.mk _) (decide_eq_decide.mpr ?_)
  rw [List.length_take, h.count]
  omega

end Log

end Nos3.Evs
