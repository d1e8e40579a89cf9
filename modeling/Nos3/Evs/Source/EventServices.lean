import Nos3.Base.RingBuffer
import Mathlib.Data.List.FinRange
import Mathlib.Logic.Function.Basic

/-!
# Event services

What `cfe_evs.c`, `cfe_evs_utils.c` and `cfe_evs_log.c` keep of an application and of the
event log. A time is the count of OSAL ticks. The events EVS sends about itself are
results of the calls; telemetry counters that no call reads again are left out.
-/
namespace Nos3.Evs
open Nos3.Base.FixedArray (patch)
open Nos3.Base.FileImage (window)

def CFE_PLATFORM_EVS_MAX_EVENT_FILTERS : Nat := 8
def CFE_EVS_MAX_FILTER_COUNT : BitVec 16 := 65535
def CFE_EVS_MAX_SQUELCH_COUNT : BitVec 8 := 255
def CFE_EVS_MAX_EVENT_SEND_COUNT : BitVec 16 := 65535
def CFE_PLATFORM_EVS_MAX_APP_EVENT_BURST : Nat := 32
def CFE_PLATFORM_EVS_APP_EVENTS_PER_SEC : Nat := 8
def CFE_PLATFORM_EVS_LOG_MAX : Nat := 20
def CFE_PLATFORM_EVS_DEFAULT_TYPE_FLAG : BitVec 8 := 0xE
def OS_TIME_TICKS_PER_MSEC : Nat := 10000

def CFE_EVS_DEBUG_BIT : BitVec 8 := 0x01
def CFE_EVS_INFORMATION_BIT : BitVec 8 := 0x02
def CFE_EVS_ERROR_BIT : BitVec 8 := 0x04
def CFE_EVS_CRITICAL_BIT : BitVec 8 := 0x08

def CFE_EVS_FREE_SLOT : BitVec 16 := 0xFFFF
def CFE_EVS_NO_MASK : BitVec 16 := 0

/-! ## Applications -/

structure BinFilter where
  eventId : BitVec 16
  mask : BitVec 16
  count : BitVec 16
  deriving DecidableEq

abbrev FilterIndex := Fin CFE_PLATFORM_EVS_MAX_EVENT_FILTERS

/-- `EVS_AppData_t` -/
structure AppData where
  binFilters : FilterIndex → BinFilter
  activeFlag : Bool
  eventTypesActiveFlag : BitVec 8
  eventCount : BitVec 16
  lastSquelchCreditableTime : Int
  squelchTokens : Int
  squelchedCount : BitVec 8

def freeFilter : BinFilter := ⟨CFE_EVS_FREE_SLOT, 0, 0⟩

/-- `CFE_EVS_Register`, with the identifiers and masks of the application's filters. -/
def register (filters : List (BitVec 16 × BitVec 16)) : AppData where
  binFilters i :=
    match filters[i.val]? with
    | some f => ⟨f.1, f.2, 0⟩
    | none => freeFilter
  activeFlag := true
  eventTypesActiveFlag := CFE_PLATFORM_EVS_DEFAULT_TYPE_FLAG
  eventCount := 0
  lastSquelchCreditableTime := 0
  squelchTokens := (CFE_PLATFORM_EVS_MAX_APP_EVENT_BURST : Int) * 1000
  squelchedCount := 0

def findEventID (eventId : BitVec 16) (app : AppData) : Option FilterIndex :=
  (List.finRange CFE_PLATFORM_EVS_MAX_EVENT_FILTERS).find? fun i =>
    (app.binFilters i).eventId = eventId

def AppData.setFilter (app : AppData) (i : FilterIndex) (f : BinFilter) : AppData :=
  { app with binFilters := Function.update app.binFilters i f }

/-- The bit of `EventTypesActiveFlag`, for the types debug to critical. -/
def typeBit (eventType : BitVec 16) : Option (BitVec 8) :=
  if eventType = 1 then some CFE_EVS_DEBUG_BIT
  else if eventType = 2 then some CFE_EVS_INFORMATION_BIT
  else if eventType = 3 then some CFE_EVS_ERROR_BIT
  else if eventType = 4 then some CFE_EVS_CRITICAL_BIT
  else none

/-- An event of the application's is enabled by its type, before the filters. -/
def AppData.enabled (app : AppData) (eventType : BitVec 16) : Bool :=
  app.activeFlag &&
    match typeBit eventType with
    | some bit => app.eventTypesActiveFlag &&& bit ≠ 0
    | none => false

/-- Whether the event is filtered; the filter counts it either way. -/
def isFiltered (app : AppData) (eventId eventType : BitVec 16) : Bool × AppData :=
  if app.enabled eventType then
    match findEventID eventId app with
    | none => (false, app)
    | some i =>
      let f := app.binFilters i
      (f.mask &&& f.count ≠ 0,
        if f.count < CFE_EVS_MAX_FILTER_COUNT then app.setFilter i { f with count := f.count + 1 }
        else app)
  else (true, app)

/-- The credit of an elapsed time, in thousandths of an event. -/
def creditCount (elapsed : Int) : Int :=
  elapsed.tdiv OS_TIME_TICKS_PER_MSEC * CFE_PLATFORM_EVS_APP_EVENTS_PER_SEC

def AppData.countSquelched (app : AppData) (squelched : Bool) : AppData :=
  if squelched ∧ app.squelchedCount < CFE_EVS_MAX_SQUELCH_COUNT then
    { app with squelchedCount := app.squelchedCount + 1 }
  else app

structure SquelchResult where
  notSquelched : Bool
  sendSquelchEvent : Bool
  app : AppData

/-- `EVS_CheckAndIncrementSquelchTokens` -/
def checkAndIncrementSquelchTokens (eventBurstMax : Nat) (currentTime : Int) (app : AppData) :
    SquelchResult :=
  let upperThreshold : Int := (eventBurstMax : Int) * 1000
  let lowerThreshold : Int := -(eventBurstMax : Int) * 1000
  let eventCost : Int := 1000
  if eventBurstMax ≠ 0 then
    let credit := creditCount (currentTime - app.lastSquelchCreditableTime)
    let app :=
      if credit ≥ eventCost then
        { app with
          lastSquelchCreditableTime := currentTime
          squelchTokens :=
            if app.squelchTokens + credit > upperThreshold then upperThreshold
            else app.squelchTokens + credit }
      else app
    let squelched : Bool := app.squelchTokens ≤ 0
    let sendSquelchEvent : Bool :=
      squelched && (app.squelchTokens > -eventCost && credit < eventCost)
    let app := app.countSquelched squelched
    let app :=
      { app with
        squelchTokens :=
          if app.squelchTokens - eventCost < lowerThreshold then lowerThreshold
          else app.squelchTokens - eventCost }
    ⟨!squelched, sendSquelchEvent, app⟩
  else ⟨true, false, app⟩

inductive SendOutcome
  | sent
  | filtered
  | squelched
  deriving DecidableEq

/-- `CFE_EVS_SendEvent` of a registered application, and what it leaves of the counters in
`EVS_GenerateEventTelemetry`. -/
def sendEvent (eventBurstMax : Nat) (eventId eventType : BitVec 16) (currentTime : Int)
    (app : AppData) : SendOutcome × AppData :=
  let (isFiltered, app) := isFiltered app eventId eventType
  if isFiltered then (.filtered, app)
  else
    let result := checkAndIncrementSquelchTokens eventBurstMax currentTime app
    if result.notSquelched then
      (.sent,
        if result.app.eventCount < CFE_EVS_MAX_EVENT_SEND_COUNT then
          { result.app with eventCount := result.app.eventCount + 1 }
        else result.app)
    else (.squelched, result.app)

/-! ## Commands on an application -/

inductive AppCommand
  | enableEvents
  | disableEvents
  | enableTypes (bitMask : BitVec 8)
  | disableTypes (bitMask : BitVec 8)
  | resetCounter
  | setFilter (eventId mask : BitVec 16)
  | resetFilter (eventId : BitVec 16)
  | resetAllFilters
  | addFilter (eventId mask : BitVec 16)
  | deleteFilter (eventId : BitVec 16)

def eventTypeBits : BitVec 8 :=
  CFE_EVS_DEBUG_BIT ||| CFE_EVS_INFORMATION_BIT ||| CFE_EVS_ERROR_BIT ||| CFE_EVS_CRITICAL_BIT

def AppData.changeFilter (app : AppData) (eventId : BitVec 16) (change : BinFilter → BinFilter) :
    AppData :=
  match findEventID eventId app with
  | none => app
  | some i => app.setFilter i (change (app.binFilters i))

/-- A command that is rejected leaves the application alone. -/
def AppCommand.run (app : AppData) : AppCommand → AppData
  | .enableEvents => { app with activeFlag := true }
  | .disableEvents => { app with activeFlag := false }
  | .enableTypes bitMask =>
    if bitMask = 0 ∨ bitMask > 0x0F then app
    else { app with
      eventTypesActiveFlag := app.eventTypesActiveFlag ||| (bitMask &&& eventTypeBits) }
  | .disableTypes bitMask =>
    if bitMask = 0 ∨ bitMask > 0x0F then app
    else { app with
      eventTypesActiveFlag := app.eventTypesActiveFlag &&& ~~~(bitMask &&& eventTypeBits) }
  | .resetCounter => { app with eventCount := 0, squelchedCount := 0 }
  | .setFilter eventId mask => app.changeFilter eventId fun f => { f with mask := mask }
  | .resetFilter eventId => app.changeFilter eventId fun f => { f with count := 0 }
  | .resetAllFilters =>
    { app with binFilters := fun i => { app.binFilters i with count := 0 } }
  | .addFilter eventId mask =>
    match findEventID eventId app with
    | some _ => app
    | none => app.changeFilter CFE_EVS_FREE_SLOT fun _ => ⟨eventId, mask, 0⟩
  | .deleteFilter eventId =>
    app.changeFilter eventId fun _ => ⟨CFE_EVS_FREE_SLOT, CFE_EVS_NO_MASK, 0⟩

/-! ## The event log -/

inductive LogMode
  | overwrite
  | discard
  deriving DecidableEq

/-- `CFE_EVS_Log_t` with entries of any kind. -/
structure EventLog (α : Type) where
  next : Nat
  logCount : Nat
  logFullFlag : Bool
  logMode : LogMode
  logOverflowCounter : BitVec 16
  logEntry : List α

variable {α : Type}

/-- Only a cleared entry is read before it is written. -/
def EventLog.initial [Inhabited α] (logMode : LogMode) : EventLog α :=
  ⟨0, 0, false, logMode, 0, List.replicate CFE_PLATFORM_EVS_LOG_MAX default⟩

def addLog (entry : α) (log : EventLog α) : EventLog α :=
  if log.logFullFlag = true ∧ log.logMode = .discard then
    { log with logOverflowCounter := log.logOverflowCounter + 1 }
  else
    let log :=
      if log.logFullFlag then { log with logOverflowCounter := log.logOverflowCounter + 1 }
      else log
    let log := { log with logEntry := patch log.logEntry log.next [entry], next := log.next + 1 }
    let log := if log.next ≥ CFE_PLATFORM_EVS_LOG_MAX then { log with next := 0 } else log
    if log.logCount < CFE_PLATFORM_EVS_LOG_MAX then
      let log := { log with logCount := log.logCount + 1 }
      if log.logCount = CFE_PLATFORM_EVS_LOG_MAX then { log with logFullFlag := true } else log
    else log

def clearLog [Inhabited α] (log : EventLog α) : EventLog α :=
  { EventLog.initial log.logMode with }

def setLogMode (logMode : LogMode) (log : EventLog α) : EventLog α := { log with logMode := logMode }

/-- The loop of `CFE_EVS_WriteLogDataFileCmd` over a file that has room for so many entries. -/
def writeEntries (log : EventLog α) : Nat → Nat → Nat → List α
  | 0, _, _ => []
  | _ + 1, 0, _ => []
  | n + 1, room + 1, logIndex =>
    window log.logEntry logIndex 1 ++
      writeEntries log n room (if logIndex + 1 ≥ CFE_PLATFORM_EVS_LOG_MAX then 0 else logIndex + 1)

structure LogFile (α : Type) where
  entries : List α
  success : Bool

/-- What `CFE_EVS_WriteLogDataFileCmd` writes behind the header of the file. -/
def writeLogData (room : Nat) (log : EventLog α) : LogFile α :=
  let entries := writeEntries log log.logCount room
    (if log.logCount = CFE_PLATFORM_EVS_LOG_MAX then log.next else 0)
  ⟨entries, entries.length = log.logCount⟩

end Nos3.Evs
