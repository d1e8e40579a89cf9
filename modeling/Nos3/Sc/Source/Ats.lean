import Nos3.Sc.Source.Tables

/-!
# Absolute time processor

The ATP control block, the commands on it and the execution of one ATS command.
`nextCmdTime` is `SC_AppData.NextCmdTime[SC_ATP]`.
-/
namespace Nos3.Sc
open Function (update)

abbrev AtsIndex := Fin SC_NUMBER_OF_ATS

structure AtsState where
  ats : AtsIndex → AtsData := fun _ => {}
  atpState : Status := .idle
  atsNumber : Nat := 0
  cmdNumber : Nat := SC_INVALID_CMD_NUMBER
  timeIndexPtr : Nat := 0
  switchPendFlag : Bool := false
  nextCmdTime : BitVec 32 := SC_MAX_TIME
  appendTbl : Option AppendTable := none
  appendEntryCount : Nat := 0
  appendWordCount : Nat := 0

def AtsState.setAts (s : AtsState) (a : AtsIndex) (d : AtsData) : AtsState :=
  { s with ats := update s.ats a d }

/-- `SC_ATS_NUM_TO_INDEX`, where the index is inside the arrays. -/
def atsNumToIndex (number : Nat) : Option AtsIndex :=
  if h : 0 < number ∧ number ≤ SC_NUMBER_OF_ATS then some ⟨number - 1, by omega⟩ else none

def toggleAtsIndex (s : AtsState) : Option AtsIndex := do
  let currAtsIndex ← atsNumToIndex s.atsNumber
  some (if currAtsIndex.val = 0 then ⟨1, by decide⟩ else ⟨0, SC_NUMBER_OF_ATS_pos⟩)

def killAts (s : AtsState) : Option AtsState :=
  if s.atpState ≠ .idle then do
    let a ← atsNumToIndex s.atsNumber
    let s := s.setAts a { s.ats a with atsUseCtr := (s.ats a).atsUseCtr + 1 }
    some { s with atpState := .idle, nextCmdTime := SC_MAX_TIME }
  else some { s with atpState := .idle, nextCmdTime := SC_MAX_TIME }

/-- The list entry a loop over the time index stops at. -/
structure TimeEntry where
  timeIndex : Nat
  cmdNumber : Nat
  time : BitVec 32

/-- The loops of `SC_BeginAts` and `SC_JumpAtsCmd` over what is left of the time
index: entries before the start time are marked. -/
def skipLoop (mark : Status → Status) (startTime : BitVec 32) :
    Nat → Nat → AtsData → Option (AtsData × Option TimeEntry)
  | 0, _, d => some (d, none)
  | left + 1, timeIndex, d => do
    let cmdNumber ← d.timeIndex[timeIndex]?
    let i ← atsCmdNumToIndex cmdNumber
    let listCmdTime ← d.entryTime i
    if compareAbsTime startTime listCmdTime then
      skipLoop mark startTime left (timeIndex + 1)
        { d with cmdStatus := update d.cmdStatus i (mark (d.cmdStatus i)) }
    else some (d, some ⟨timeIndex, cmdNumber, listCmdTime⟩)

def beginAts (currentTime : BitVec 32) (a : AtsIndex) (timeOffset : BitVec 32) (s : AtsState) :
    Option (AtsState × Bool) := do
  let d := s.ats a
  let timeToStartAts := computeAbsTime currentTime timeOffset
  let (d, found) ← skipLoop (fun _ => .skipped) timeToStartAts d.numberOfCommands 0 d
  let s := s.setAts a d
  match found with
  | none =>
    let s ← killAts s
    some (s, false)
  | some entry =>
    some ({ s with
      atsNumber := a + 1
      cmdNumber := entry.cmdNumber
      timeIndexPtr := entry.timeIndex
      nextCmdTime := entry.time }, true)

/-- A successful begin makes its caller set the state of the ATP. -/
def beginAtsAs (status : Status) (currentTime : BitVec 32) (a : AtsIndex)
    (timeOffset : BitVec 32) (s : AtsState) : Option (AtsState × Bool) := do
  let (s, begun) ← beginAts currentTime a timeOffset s
  if begun then some ({ s with atpState := status }, true) else some (s, false)

def startAtsCmd (currentTime : BitVec 32) (atsId : Nat) (s : AtsState) : Option AtsState :=
  match atsNumToIndex atsId with
  | none => some s
  | some a =>
    if s.atpState = .idle then
      if (s.ats a).numberOfCommands > 0 then do
        let (s, _) ← beginAtsAs .executing currentTime a 0 s
        some s
      else some s
    else some s

def stopAtsCmd (s : AtsState) : Option AtsState := do
  let s ← killAts s
  some { s with switchPendFlag := false }

def groundSwitchCmd (s : AtsState) : Option AtsState :=
  if s.atpState = .executing then do
    let newAtsIndex ← toggleAtsIndex s
    some { s with switchPendFlag := (s.ats newAtsIndex).numberOfCommands > 0 }
  else some { s with switchPendFlag := false }

def serviceSwitchPend (currentTime : BitVec 32) (s : AtsState) : Option AtsState :=
  if compareAbsTime s.nextCmdTime currentTime then
    if s.atpState = .executing then do
      let newAtsIndex ← toggleAtsIndex s
      if (s.ats newAtsIndex).numberOfCommands > 0 then
        let s ← killAts s
        let (s, _) ← beginAtsAs .executing currentTime newAtsIndex 1 s
        some { s with switchPendFlag := false }
      else some { s with switchPendFlag := false }
    else some { s with switchPendFlag := false }
  else some s

def inlineSwitch (currentTime : BitVec 32) (s : AtsState) : Option (AtsState × Bool) := do
  let newAtsIndex ← toggleAtsIndex s
  if (s.ats newAtsIndex).numberOfCommands > 0 then
    let s ← killAts s
    let (s, begun) ← beginAtsAs .starting currentTime newAtsIndex 0 s
    some ({ s with switchPendFlag := false }, begun)
  else some ({ s with switchPendFlag := false }, false)

/-- A jump only marks commands that are ready to run. -/
def jumpMark (status : Status) : Status := if status = .loaded then .skipped else status

def jumpAtsCmd (jumpTime : BitVec 32) (s : AtsState) : Option AtsState :=
  if s.atpState = .executing then do
    let a ← atsNumToIndex s.atsNumber
    let d := s.ats a
    let (d, found) ← skipLoop jumpMark jumpTime d.numberOfCommands 0 d
    let s := s.setAts a d
    match found with
    | none => killAts s
    | some entry =>
      some { s with
        cmdNumber := entry.cmdNumber
        timeIndexPtr := entry.timeIndex
        nextCmdTime := entry.time }
  else some s

def processAppend (currentTime : BitVec 32) (a : AtsIndex) (s : AtsState) : Option AtsState := do
  let append ← s.appendTbl
  let d ← appendEntries append s.appendEntryCount s.appendWordCount (s.ats a)
  let s := s.setAts a d
  if s.atpState = .executing ∧ s.atsNumber = a + 1 then
    let (s, _) ← beginAtsAs .executing currentTime a 0 s
    some s
  else some s

def appendAtsCmd (currentTime : BitVec 32) (atsId : Nat) (s : AtsState) : Option AtsState :=
  match atsNumToIndex atsId with
  | none => some s
  | some a =>
    if (s.ats a).numberOfCommands = 0 then some s
    else if s.appendEntryCount = 0 then some s
    else if (s.ats a).atsSize + s.appendWordCount > SC_ATS_BUFF_SIZE32 then some s
    else processAppend currentTime a s

/-- `SC_ManageTable` for an ATS whose table services report new contents. -/
def manageAtsTable (a : AtsIndex) (table : AtsTable) (s : AtsState) : Option AtsState := do
  let d ← loadAts { s.ats a with tbl := some table }
  some (s.setAts a d)

/-- `SC_ManageTable` for new contents of the append table. -/
def manageAppendTable (table : AppendTable) (s : AtsState) : Option AtsState := do
  let (entryCount, wordCount) ← updateAppend table
  some { s with
    appendTbl := some table
    appendEntryCount := entryCount
    appendWordCount := wordCount }

def getNextAtsCommand (s : AtsState) : Option AtsState :=
  if s.atpState = .executing then do
    let a ← atsNumToIndex s.atsNumber
    let timeIndex := (s.timeIndexPtr + 1) % 0x10000
    if timeIndex < (s.ats a).numberOfCommands then
      let cmdNumber ← (s.ats a).timeIndex[timeIndex]?
      let time ← (s.ats a).cmdNumTime cmdNumber
      some { s with timeIndexPtr := timeIndex, cmdNumber := cmdNumber, nextCmdTime := time }
    else
      let s ← killAts s
      some { s with switchPendFlag := false }
  else if s.atpState = .starting then some { s with atpState := .executing }
  else some s

/-- The entry of an ATS whose command went to the software bus, with its time
tag. -/
structure AtsSent where
  ats : AtsIndex
  cmd : CmdIndex
  timeTag : BitVec 32
  deriving DecidableEq

def AtsState.setCmdStatus (s : AtsState) (a : AtsIndex) (i : CmdIndex) (status : Status) :
    AtsState :=
  s.setAts a { s.ats a with cmdStatus := update (s.ats a).cmdStatus i status }

/-- How the attempt at one command ended. -/
structure AtpOutcome where
  state : AtsState
  sent : Option AtsSent := none
  counted : Bool := false
  abort : Bool := false

/-- A loaded command whose number matches: a switch runs here, anything else
goes to the software bus. -/
def executeAtsCmd (accepted : Bool) (currentTime : BitVec 32) (a : AtsIndex) (i : CmdIndex)
    (words : List Word) (entryIndex : Nat) (s : AtsState) : Option AtpOutcome := do
  let messageId ← atsMsgId words entryIndex
  let commandCode ← atsFcnCode words entryIndex
  let timeTag ← getAtsEntryTime words entryIndex
  if messageId = SC_CMD_MID ∧ commandCode = SC_SWITCH_ATS_CC then
    let (s, switched) ← inlineSwitch currentTime s
    let status := if switched then Status.executed else Status.failedDistrib
    some ⟨s.setCmdStatus a i status, none, true, false⟩
  else if accepted then
    some ⟨s.setCmdStatus a i .executed, some ⟨a, i, timeTag⟩, true, false⟩
  else
    some ⟨s.setCmdStatus a i .failedDistrib, some ⟨a, i, timeTag⟩, true, true⟩

def attemptAtsCmd (accepted : Bool) (currentTime : BitVec 32) (s : AtsState) :
    Option AtpOutcome := do
  let a ← atsNumToIndex s.atsNumber
  let i ← atsCmdNumToIndex s.cmdNumber
  if (s.ats a).cmdStatus i = .loaded then
    let table ← (s.ats a).tbl
    let entryIndex ← (s.ats a).cmdIndex i
    let cmdNumber ← atsCmdNumber table.cells entryIndex
    if cmdNumber = i + 1 then
      executeAtsCmd accepted currentTime a i table.cells entryIndex s
    else some ⟨s.setCmdStatus a i .skipped, none, false, true⟩
  else some ⟨s, none, false, false⟩

/-- `SC_ProcessAtpCmd` for `SC_AppData.NextProcNumber = SC_ATP`. -/
def processAtpCmd (accepted : Bool) (currentTime : BitVec 32) (s : AtsState) :
    Option AtpOutcome :=
  if compareAbsTime s.nextCmdTime currentTime = false ∧ s.atpState = .executing then do
    let outcome ← attemptAtsCmd accepted currentTime s
    if outcome.abort then
      let s ← killAts outcome.state
      some { outcome with state := { s with switchPendFlag := false } }
    else
      let s ← getNextAtsCommand outcome.state
      some { outcome with state := s }
  else some { state := s }

end Nos3.Sc
