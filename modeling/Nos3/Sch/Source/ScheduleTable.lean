import Nos3.Base.Transition
import Mathlib.Data.List.Range
import Mathlib.Algebra.Group.Nat.Defs

/-!
# Scheduler: the schedule table

A wakeup works out how many slots are behind, processes some of them and takes
ground commands in the last slot of the table. Routines give the status and the
application data after them. `executed` and `sent` record the slots processed and
the messages handed to the software bus; the commands that wait each time the
command pipe is emptied are the batches of the wakeup.
-/
namespace Nos3.Sch
open Nos3.Base.Transition

def SCH_TOTAL_SLOTS : Nat := 100
def SCH_ENTRIES_PER_SLOT : Nat := 5
def SCH_MAX_LAG_COUNT : Nat := SCH_TOTAL_SLOTS / 2
def SCH_MAX_SLOTS_PER_WAKEUP : Nat := 5
def SCH_TIME_SYNC_SLOT : Nat := SCH_TOTAL_SLOTS - 1
def SCH_MAX_MESSAGES : Nat := 128

def CFE_SUCCESS : Int := 0
def CFE_SB_NO_MESSAGE : Int := -905969662

/-- `++` on a `uint32` counter. -/
def incr32 (n : Nat) : Nat := (n + 1) % 2 ^ 32

/-- `++` on a `uint16` counter. -/
def incr16 (n : Nat) : Nat := (n + 1) % 2 ^ 16

inductive EnableState
  | unused | enabled | disabled
  deriving DecidableEq, Repr, Inhabited

/-- `SCH_ScheduleEntry_t`; `sendMsg` is whether the type is `SCH_ACTIVITY_SEND_MSG`. -/
structure ScheduleEntry where
  enableState : EnableState := .unused
  sendMsg : Bool := false
  frequency : Nat := 0
  remainder : Nat := 0
  messageIndex : Nat := 0
  groupData : BitVec 32 := 0
  deriving DecidableEq, Repr, Inhabited

abbrev ScheduleTable := Nat → ScheduleEntry

/-- A message on the command pipe. A command of the wrong length does what an
unknown one does: it is counted. A housekeeping request lets the table services
put another table in place. -/
inductive Command
  | reset
  | enable (slotNumber entryNumber : Nat)
  | disable (slotNumber entryNumber : Nat)
  | enableGroup (groupData : BitVec 32)
  | disableGroup (groupData : BitVec 32)
  | housekeeping (table : ScheduleTable) (tableResult : Int)
  | other

/-- What the command pipe holds when it is emptied, and the status of the receive
that ends it. -/
structure Batch where
  commands : List Command
  status : Int

structure AppData where
  nextSlotNumber : Nat := 0
  tablePassCount : Nat := 0
  lastProcessCount : Nat := 0
  slotsProcessedCount : Nat := 0
  skippedSlotsCount : Nat := 0
  multipleSlotsCount : Nat := 0
  sameSlotCount : Nat := 0
  badTableDataCount : Nat := 0
  activitySuccessCount : Nat := 0
  activityFailureCount : Nat := 0
  scheduleTable : ScheduleTable
  batches : List Batch := []
  executed : List Nat := []
  sent : List Nat := []

/-- The status `CFE_SB_TransmitMsg` gives for a message of the message table. -/
abbrev Transmit := Nat → Int

/-! ## Ground commands -/

/-- `SCH_ResetCmd`. -/
def resetCmd (app : AppData) : AppData :=
  { app with
    activitySuccessCount := 0
    activityFailureCount := 0
    slotsProcessedCount := 0
    skippedSlotsCount := 0
    multipleSlotsCount := 0
    sameSlotCount := 0
    badTableDataCount := 0 }

/-- `SCH_EnableCmd` and `SCH_DisableCmd`. -/
def setEntryCmd (state : EnableState) (slotNumber entryNumber : Nat) (app : AppData) : AppData :=
  let tableIndex := slotNumber * SCH_ENTRIES_PER_SLOT + entryNumber
  if slotNumber ≥ SCH_TOTAL_SLOTS ∨ entryNumber ≥ SCH_ENTRIES_PER_SLOT then app
  else if (app.scheduleTable tableIndex).enableState = .unused then app
  else
    { app with
      scheduleTable := fun i =>
        if i = tableIndex then { app.scheduleTable i with enableState := state }
        else app.scheduleTable i }

def SCH_GROUP_NUMBER_BIT_MASK : BitVec 32 := 0xFF000000
def SCH_MULTI_GROUP_BIT_MASK : BitVec 32 := 0x00FFFFFF

def inGroup (cmdGroupData tblGroupData : BitVec 32) : Bool :=
  (cmdGroupData &&& SCH_GROUP_NUMBER_BIT_MASK != 0 &&
    cmdGroupData &&& SCH_GROUP_NUMBER_BIT_MASK == tblGroupData &&& SCH_GROUP_NUMBER_BIT_MASK) ||
  cmdGroupData &&& SCH_MULTI_GROUP_BIT_MASK &&& tblGroupData != 0

/-- `SCH_EnableGroupCmd` and `SCH_DisableGroupCmd`. -/
def setGroupCmd (state : EnableState) (groupData : BitVec 32) (app : AppData) : AppData :=
  { app with
    scheduleTable := fun i =>
      let entry := app.scheduleTable i
      if entry.groupData ≠ 0 ∧ inGroup groupData entry.groupData then
        { entry with enableState := state }
      else entry }

/-- `SCH_AppPipe`. -/
def appPipe (app : AppData) : Command → Int × AppData
  | .reset => (CFE_SUCCESS, resetCmd app)
  | .enable slotNumber entryNumber =>
    (CFE_SUCCESS, setEntryCmd .enabled slotNumber entryNumber app)
  | .disable slotNumber entryNumber =>
    (CFE_SUCCESS, setEntryCmd .disabled slotNumber entryNumber app)
  | .enableGroup groupData => (CFE_SUCCESS, setGroupCmd .enabled groupData app)
  | .disableGroup groupData => (CFE_SUCCESS, setGroupCmd .disabled groupData app)
  | .housekeeping table tableResult => (tableResult, { app with scheduleTable := table })
  | .other => (CFE_SUCCESS, app)

/-- The loop of `SCH_ProcessCommands`; `status` ends it where the pipe is empty. -/
def commandLoop (status : Int) : List Command → AppData → Int × AppData
  | [], app => (status, app)
  | cmd :: commands, app =>
    let (result, app) := appPipe app cmd
    if result = CFE_SUCCESS then commandLoop status commands app else (result, app)

def processCommands (app : AppData) : Int × AppData :=
  let batch := app.batches.headD ⟨[], CFE_SB_NO_MESSAGE⟩
  let (status, app) := commandLoop batch.status batch.commands
    { app with batches := app.batches.tail }
  (if status = CFE_SB_NO_MESSAGE then CFE_SUCCESS else status, app)

/-! ## Slots -/

/-- `SCH_ProcessNextEntry` for the entry at `index`. -/
def processNextEntry (transmit : Transmit) (index : Nat) (app : AppData) : AppData :=
  let entry := app.scheduleTable index
  if entry.messageIndex ≥ SCH_MAX_MESSAGES ∨ entry.frequency = 0 ∨ entry.sendMsg = false ∨
      entry.remainder ≥ entry.frequency then
    { app with
      badTableDataCount := incr16 app.badTableDataCount
      scheduleTable := fun i =>
        if i = index then { app.scheduleTable i with enableState := .disabled }
        else app.scheduleTable i }
  else if app.tablePassCount % entry.frequency = entry.remainder then
    let app := { app with sent := app.sent ++ [entry.messageIndex] }
    if transmit entry.messageIndex = CFE_SUCCESS then
      { app with activitySuccessCount := incr32 app.activitySuccessCount }
    else { app with activityFailureCount := incr32 app.activityFailureCount }
  else app

/-- The loop over the entries of a slot. -/
def processEntries (transmit : Transmit) (app : AppData) : AppData :=
  (List.range SCH_ENTRIES_PER_SLOT).foldl
    (fun app entryNumber =>
      let index := app.nextSlotNumber * SCH_ENTRIES_PER_SLOT + entryNumber
      if (app.scheduleTable index).enableState = .enabled then processNextEntry transmit index app
      else app)
    app

/-- The end of `SCH_ProcessNextSlot`. -/
def finishSlot (app : AppData) : AppData :=
  let app := { app with nextSlotNumber := app.nextSlotNumber + 1 }
  let app :=
    if app.nextSlotNumber = SCH_TOTAL_SLOTS then
      { app with nextSlotNumber := 0, tablePassCount := incr32 app.tablePassCount }
    else app
  { app with slotsProcessedCount := incr32 app.slotsProcessedCount }

def processNextSlot (transmit : Transmit) (app : AppData) : Int × AppData :=
  let app := processEntries transmit { app with executed := app.executed ++ [app.nextSlotNumber] }
  let (result, app) :=
    if app.nextSlotNumber = SCH_TIME_SYNC_SLOT then processCommands app else (CFE_SUCCESS, app)
  (result, finishSlot app)

/-- The loop at the end of `SCH_ProcessScheduleTable`. -/
def processSlots (transmit : Transmit) : Nat → Int → AppData → Int × AppData
  | 0, result, app => (result, app)
  | processCount + 1, result, app =>
    if result = CFE_SUCCESS then
      let (result, app) := processNextSlot transmit app
      processSlots transmit processCount result app
    else (result, app)

/-! ## A wakeup -/

/-- How many slots are to be processed to get past the current one. -/
def slotsBehind (currentSlot nextSlotNumber : Nat) : Nat :=
  if currentSlot < nextSlotNumber then SCH_TOTAL_SLOTS - nextSlotNumber + (currentSlot + 1)
  else currentSlot - nextSlotNumber + 1

/-- A wakeup one slot late or one slot early is given the benefit of the doubt,
once. -/
def correctForClock (processCount : Nat) (app : AppData) : Nat × AppData :=
  if processCount = 2 then
    (if app.lastProcessCount = 1 then 1 else processCount, { app with lastProcessCount := 2 })
  else if processCount = SCH_TOTAL_SLOTS then
    (if app.lastProcessCount ≠ SCH_TOTAL_SLOTS then 1 else processCount,
      { app with lastProcessCount := SCH_TOTAL_SLOTS })
  else (processCount, { app with lastProcessCount := processCount })

/-- The current slot did not increment. -/
def correctForSameSlot (processCount : Nat) (app : AppData) : Nat × AppData :=
  if processCount = SCH_TOTAL_SLOTS then
    (0, { app with sameSlotCount := incr16 app.sameSlotCount })
  else (processCount, app)

/-- Too far behind: the current slot is the only one processed. -/
def jumpForward (currentSlot processCount : Nat) (app : AppData) : Int × AppData :=
  let app := { app with skippedSlotsCount := incr16 app.skippedSlotsCount }
  let app :=
    if currentSlot < app.nextSlotNumber then
      { app with tablePassCount := incr32 app.tablePassCount }
    else app
  let (result, app) :=
    if app.nextSlotNumber + processCount > SCH_TIME_SYNC_SLOT then processCommands app
    else (CFE_SUCCESS, app)
  (result, { app with nextSlotNumber := currentSlot })

def limitCount (processCount : Nat) : Nat :=
  if processCount > SCH_MAX_SLOTS_PER_WAKEUP then SCH_MAX_SLOTS_PER_WAKEUP else processCount

def countMultiple (processCount : Nat) (app : AppData) : AppData :=
  if processCount > 1 then { app with multipleSlotsCount := incr16 app.multipleSlotsCount } else app

def processScheduleTable (transmit : Transmit) (currentSlot : Nat) (app : AppData) :
    Int × AppData :=
  let (processCount, app) := correctForClock (slotsBehind currentSlot app.nextSlotNumber) app
  let (processCount, app) := correctForSameSlot processCount app
  if processCount > SCH_MAX_LAG_COUNT then
    let (result, app) := jumpForward currentSlot processCount app
    processSlots transmit (limitCount 1) result (countMultiple (limitCount 1) app)
  else
    processSlots transmit (limitCount processCount) CFE_SUCCESS
      (countMultiple (limitCount processCount) app)

/-! ## Runs -/

/-- What `SCH_CustomGetCurrentSlotNumber` looks at. -/
structure Clock where
  syncToMet : Bool
  metSlotNumber : Nat
  lastSyncMetSlot : Nat
  minorFramesSinceTone : Nat
  deriving DecidableEq, Repr

def customGetCurrentSlotNumber (clock : Clock) : Nat :=
  if clock.syncToMet then
    if clock.metSlotNumber < clock.lastSyncMetSlot then
      clock.metSlotNumber + SCH_TOTAL_SLOTS - clock.lastSyncMetSlot
    else clock.metSlotNumber - clock.lastSyncMetSlot
  else clock.minorFramesSinceTone

structure Wakeup where
  clock : Clock
  batches : List Batch

def Wakeup.currentSlot (wakeup : Wakeup) : Nat := customGetCurrentSlotNumber wakeup.clock

/-- The application runs until a wakeup fails. -/
def scheduler (transmit : Transmit) : Machine AppData Wakeup where
  start app := app = { scheduleTable := app.scheduleTable }
  next app wakeup :=
    match processScheduleTable transmit wakeup.currentSlot { app with batches := wakeup.batches } with
    | (result, app) => if result = CFE_SUCCESS then some app else none

/-! ## Verification at load -/

def SCH_TABLE_ENTRIES : Nat := SCH_TOTAL_SLOTS * SCH_ENTRIES_PER_SLOT

def SCH_UNUSED : BitVec 8 := 0
def SCH_ENABLED : BitVec 8 := 1
def SCH_DISABLED : BitVec 8 := 2
def SCH_ACTIVITY_SEND_MSG : BitVec 8 := 1

def SCH_SDT_GARBAGE_ENTRY : Int := -1
def SCH_SDT_NO_FREQUENCY : Int := -2
def SCH_SDT_BAD_REMAINDER : Int := -3
def SCH_SDT_BAD_ACTIVITY : Int := -4
def SCH_SDT_BAD_MSG_INDEX : Int := -5
def SCH_SDT_BAD_ENABLE_STATE : Int := -6

/-- `SCH_ScheduleEntry_t` as it is loaded. -/
structure TableEntry where
  enableState : BitVec 8
  type : BitVec 8
  frequency : BitVec 16
  remainder : BitVec 16
  messageIndex : BitVec 16
  groupData : BitVec 32
  deriving DecidableEq, Repr

/-- The entry at run time, where only `SCH_ENABLED` counts as enabled. -/
def TableEntry.entry (e : TableEntry) : ScheduleEntry where
  enableState :=
    if e.enableState = SCH_UNUSED then .unused
    else if e.enableState = SCH_ENABLED then .enabled
    else .disabled
  sendMsg := e.type = SCH_ACTIVITY_SEND_MSG
  frequency := e.frequency.toNat
  remainder := e.remainder.toNat
  messageIndex := e.messageIndex.toNat
  groupData := e.groupData

/-- The checks of one entry. -/
def validateEntry (e : TableEntry) : Int :=
  if e.enableState = SCH_UNUSED then
    if e.frequency ≠ 0 ∨ e.remainder ≠ 0 ∨ e.groupData ≠ 0 ∨ e.type ≠ 0 ∨ e.messageIndex ≠ 0 then
      SCH_SDT_GARBAGE_ENTRY
    else CFE_SUCCESS
  else if e.enableState = SCH_ENABLED ∨ e.enableState = SCH_DISABLED then
    if e.frequency = 0 then SCH_SDT_NO_FREQUENCY
    else if e.remainder.toNat ≥ e.frequency.toNat then SCH_SDT_BAD_REMAINDER
    else if e.type ≠ SCH_ACTIVITY_SEND_MSG then SCH_SDT_BAD_ACTIVITY
    else if e.messageIndex = 0 then SCH_SDT_BAD_MSG_INDEX
    else if e.messageIndex.toNat ≥ SCH_MAX_MESSAGES then SCH_SDT_BAD_MSG_INDEX
    else CFE_SUCCESS
  else SCH_SDT_BAD_ENABLE_STATE

/-- The counts are those of the event at the end. -/
structure Validation where
  tableResult : Int := CFE_SUCCESS
  goodCount : Nat := 0
  badCount : Nat := 0
  unusedCount : Nat := 0

/-- The result is that of the first entry with an error. -/
def validateRound (v : Validation) (e : TableEntry) : Validation :=
  let entryResult := validateEntry e
  let v :=
    if entryResult ≠ CFE_SUCCESS then { v with badCount := v.badCount + 1 }
    else if e.enableState = SCH_UNUSED then { v with unusedCount := v.unusedCount + 1 }
    else { v with goodCount := v.goodCount + 1 }
  if entryResult ≠ CFE_SUCCESS ∧ v.tableResult = CFE_SUCCESS then
    { v with tableResult := entryResult }
  else v

def validateScheduleData (tableArray : Nat → TableEntry) : Validation :=
  (List.range SCH_TABLE_ENTRIES).foldl (fun v i => validateRound v (tableArray i)) {}

end Nos3.Sch
