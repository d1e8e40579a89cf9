import Nos3.Base.FixedArray
import Mathlib.Logic.Function.Basic

/-!
# Stored command tables

A table is a buffer of 32-bit words whose bytes stand in the order of their
addresses. Header fields of an entry are in the order of a little-endian host,
those of the command packet behind it in network order. A read outside the
buffer gives nothing.
-/
namespace Nos3.Sc
open Base.FixedArray

def SC_NUMBER_OF_RTS : Nat := 64
theorem SC_NUMBER_OF_RTS_pos : 0 < SC_NUMBER_OF_RTS := by decide
def SC_NUMBER_OF_ATS : Nat := 2
theorem SC_NUMBER_OF_ATS_pos : 0 < SC_NUMBER_OF_ATS := by decide
def SC_MAX_ATS_CMDS : Nat := 1000
def SC_MAX_CMDS_PER_SEC : Nat := 8
def SC_PACKET_MIN_SIZE : Nat := 8
def SC_PACKET_MAX_SIZE : Nat := 256
def SC_BYTES_IN_WORD : Nat := 4
def SC_ROUND_UP_BYTES : Nat := 3
def SC_ATS_BUFF_SIZE : Nat := 8000
def SC_APPEND_BUFF_SIZE : Nat := SC_ATS_BUFF_SIZE / 2
def SC_RTS_BUFF_SIZE : Nat := 150
def SC_ATS_BUFF_SIZE32 : Nat := SC_ATS_BUFF_SIZE / 2
def SC_APPEND_BUFF_SIZE32 : Nat := SC_APPEND_BUFF_SIZE / 2
def SC_RTS_BUFF_SIZE32 : Nat := SC_RTS_BUFF_SIZE / 2
def SC_ATS_HEADER_SIZE : Nat := 8
def SC_RTS_HEADER_SIZE : Nat := 4
def SC_ATS_HDR_WORDS : Nat := (SC_ATS_HEADER_SIZE + SC_PACKET_MIN_SIZE) / SC_BYTES_IN_WORD
def SC_ATS_HDR_NOPKT_WORDS : Nat := SC_ATS_HEADER_SIZE / SC_BYTES_IN_WORD
def SC_RTS_HDR_WORDS : Nat := (SC_RTS_HEADER_SIZE + SC_PACKET_MIN_SIZE) / SC_BYTES_IN_WORD
def SC_MAX_TIME : BitVec 32 := 0xFFFFFFFF
def SC_INVALID_CMD_NUMBER : Nat := 0xFFFF
def SC_CMD_MID : Nat := 0x18A9
def SC_SWITCH_ATS_CC : Nat := 8
def CFE_MSG_SIZE_OFFSET : Nat := 7
def CFE_PLATFORM_SB_HIGHEST_VALID_MSGID : Nat := 0x1FFF

structure Word where
  byte0 : BitVec 8
  byte1 : BitVec 8
  byte2 : BitVec 8
  byte3 : BitVec 8
  deriving DecidableEq

def Word.zero : Word := ⟨0, 0, 0, 0⟩

/-- The first two bytes as a `uint16` of the host. -/
def Word.low (w : Word) : BitVec 16 := w.byte1 ++ w.byte0

/-- The last two bytes as a `uint16` of the host. -/
def Word.high (w : Word) : BitVec 16 := w.byte3 ++ w.byte2

/-- The word as a `uint32` of the host. -/
def Word.value (w : Word) : BitVec 32 := w.high ++ w.low

abbrev Table (words : Nat) := Buffer Word words

abbrev RtsTable := Table SC_RTS_BUFF_SIZE32
abbrev AtsTable := Table SC_ATS_BUFF_SIZE32
abbrev AppendTable := Table SC_APPEND_BUFF_SIZE32

/-- `CFE_MSG_GetSize` of the packet that starts at word `msg`. -/
def msgGetSize (words : List Word) (msg : Nat) : Option Nat :=
  words[msg + 1]?.map fun w => w.byte0.toNat * 256 + w.byte1.toNat + CFE_MSG_SIZE_OFFSET

def msgGetMsgId (words : List Word) (msg : Nat) : Option Nat :=
  words[msg]?.map fun w => w.byte0.toNat * 256 + w.byte1.toNat

def msgGetFcnCode (words : List Word) (msg : Nat) : Option Nat :=
  words[msg + 1]?.map fun w => w.byte2.toNat % 128

def sbIsValidMsgId (msgId : Nat) : Bool :=
  msgId != 0 && msgId ≤ CFE_PLATFORM_SB_HIGHEST_VALID_MSGID

/-- Bytes rounded up to words. -/
def wordsOf (bytes : Nat) : Nat := (bytes + SC_ROUND_UP_BYTES) / SC_BYTES_IN_WORD

/-- An RTS entry is its time tag and the packet. -/
def rtsTimeTag (words : List Word) (entry : Nat) : Option (BitVec 32) :=
  words[entry]?.map Word.value

def rtsMsgSize (words : List Word) (entry : Nat) : Option Nat := msgGetSize words (entry + 1)

def rtsMsgId (words : List Word) (entry : Nat) : Option Nat := msgGetMsgId words (entry + 1)

/-- An ATS entry is padding, command number, the halves of the time tag and the
packet. -/
def atsCmdNumber (words : List Word) (entry : Nat) : Option Nat :=
  words[entry]?.map fun w => w.high.toNat

/-- `SC_GetAtsEntryTime` -/
def getAtsEntryTime (words : List Word) (entry : Nat) : Option (BitVec 32) :=
  words[entry + 1]?.map fun w => w.low ++ w.high

def atsMsgSize (words : List Word) (entry : Nat) : Option Nat :=
  msgGetSize words (entry + SC_ATS_HDR_NOPKT_WORDS)

def atsMsgId (words : List Word) (entry : Nat) : Option Nat :=
  msgGetMsgId words (entry + SC_ATS_HDR_NOPKT_WORDS)

def atsFcnCode (words : List Word) (entry : Nat) : Option Nat :=
  msgGetFcnCode words (entry + SC_ATS_HDR_NOPKT_WORDS)

/-- The numbers both sequence kinds give their states. -/
inductive Status
  | empty
  | loaded
  | idle
  | executed
  | skipped
  | executing
  | failedChecksum
  | failedDistrib
  | starting
  deriving DecidableEq

def CFE_TIME_NEGATIVE : BitVec 32 := 0x80000000

/-- `SC_CompareAbsTime`: `CFE_TIME_Compare` of whole seconds says A_GT_B. -/
def compareAbsTime (absTime1 absTime2 : BitVec 32) : Bool :=
  if absTime1 > absTime2 then !(absTime1 - absTime2 > CFE_TIME_NEGATIVE)
  else if absTime1 < absTime2 then absTime2 - absTime1 > CFE_TIME_NEGATIVE
  else false

/-- `SC_ComputeAbsTime` -/
def computeAbsTime (currentTime relTime : BitVec 32) : BitVec 32 := currentTime + relTime

end Nos3.Sc

/-!
## Absolute time sequence tables

What is kept of one ATS: its table and the four structures built from it. The
time index is the part of `AtsTimeIndexBuffer` in use; behind it stands
`SC_INVALID_CMD_NUMBER`. An unused element of `AtsCmdIndexBuffer` is `none`.
-/
namespace Nos3.Sc
open Function (update)
open Base.FixedArray

abbrev CmdIndex := Fin SC_MAX_ATS_CMDS

structure AtsData where
  tbl : Option AtsTable := none
  atsUseCtr : BitVec 16 := 0
  numberOfCommands : Nat := 0
  atsSize : Nat := 0
  cmdStatus : CmdIndex → Status := fun _ => .empty
  cmdIndex : CmdIndex → Option Nat := fun _ => some 0
  timeIndex : List Nat := []

/-- `SC_ATS_CMD_NUM_TO_INDEX`, where the index is inside the arrays. -/
def atsCmdNumToIndex (cmdNum : Nat) : Option CmdIndex :=
  if h : 0 < cmdNum ∧ cmdNum ≤ SC_MAX_ATS_CMDS then some ⟨cmdNum - 1, by omega⟩ else none

def initAtsTables (d : AtsData) : AtsData :=
  { d with
    cmdIndex := fun _ => none
    cmdStatus := fun _ => .empty
    timeIndex := []
    atsSize := 0
    numberOfCommands := 0 }

/-- The time tag of the entry the command index points at. -/
def AtsData.entryTime (d : AtsData) (i : CmdIndex) : Option (BitVec 32) := do
  let table ← d.tbl
  let entryIndex ← d.cmdIndex i
  getAtsEntryTime table.cells entryIndex

def AtsData.cmdNumTime (d : AtsData) (cmdNum : Nat) : Option (BitVec 32) :=
  (atsCmdNumToIndex cmdNum).bind d.entryTime

/-- The loop of `SC_Insert`, over the sorted list from its last element. -/
def insertLoop (d : AtsData) (newCmdTime : BitVec 32) (newCmdNum : Nat) :
    List Nat → Option (List Nat)
  | [] => some [newCmdNum]
  | last :: before => do
    let listCmdTime ← d.cmdNumTime last
    if compareAbsTime listCmdTime newCmdTime then
      (insertLoop d newCmdTime newCmdNum before).map (last :: ·)
    else some (newCmdNum :: last :: before)

/-- The time is read only where there is something to compare it with. -/
def newCmdTime (d : AtsData) (list : List Nat) (newCmdIndex : CmdIndex) : Option (BitVec 32) :=
  if list = [] then some 0 else d.entryTime newCmdIndex

def insert (d : AtsData) (list : List Nat) (newCmdIndex : CmdIndex) : Option (List Nat) := do
  let newCmdTime ← newCmdTime d list newCmdIndex
  (insertLoop d newCmdTime (newCmdIndex + 1) list.reverse).map List.reverse

def buildTimeIndexTable (d : AtsData) : Option AtsData := do
  let timeIndex ← (List.finRange SC_MAX_ATS_CMDS).foldlM
    (fun list i => if (d.cmdIndex i).isSome then insert d list i else some list) []
  some { d with timeIndex := timeIndex }

/-- One entry of the load. -/
def AtsData.addEntry (d : AtsData) (i : CmdIndex) (entryIndex : Nat) : AtsData :=
  { d with
    cmdIndex := update d.cmdIndex i (some entryIndex)
    cmdStatus := update d.cmdStatus i .loaded
    numberOfCommands := d.numberOfCommands + 1 }

/-- The loop of `SC_LoadAts`; the first component says `CFE_SUCCESS`. -/
def loadAtsLoop (words : List Word) : Nat → Nat → AtsData → Option (Bool × Nat × AtsData)
  | 0, _, _ => none
  | fuel + 1, entryIndex, d =>
    if entryIndex < SC_ATS_BUFF_SIZE32 then do
      let cmdNum ← atsCmdNumber words entryIndex
      if cmdNum = 0 then some (true, entryIndex, d)
      else if entryIndex > SC_ATS_BUFF_SIZE32 - SC_ATS_HDR_WORDS then some (false, entryIndex, d)
      else
        match atsCmdNumToIndex cmdNum with
        | none => some (false, entryIndex, d)
        | some i =>
          if d.cmdStatus i = .empty then
            let messageSize ← atsMsgSize words entryIndex
            if messageSize ≥ SC_PACKET_MIN_SIZE ∧ messageSize ≤ SC_PACKET_MAX_SIZE then
              let entryWords := wordsOf messageSize + SC_ATS_HDR_NOPKT_WORDS
              if entryIndex + entryWords ≤ SC_ATS_BUFF_SIZE32 then
                loadAtsLoop words fuel (entryIndex + entryWords) (d.addEntry i entryIndex)
              else some (false, entryIndex, d)
            else some (false, entryIndex, d)
          else some (false, entryIndex, d)
    else some (true, entryIndex, d)

def loadAts (d : AtsData) : Option AtsData := do
  let table ← d.tbl
  let (success, size, d) ← loadAtsLoop table.cells (SC_ATS_BUFF_SIZE32 + 1) 0 (initAtsTables d)
  if success ∧ d.numberOfCommands > 0 then buildTimeIndexTable { d with atsSize := size }
  else some (initAtsTables d)

/-- What `SC_VerifyAtsEntry` returns: `SC_ERROR`, `CFE_SUCCESS` or the size of
the entry in words. -/
inductive EntryCheck
  | error
  | endOfTable
  | entry (i : CmdIndex) (words : Nat)
  deriving DecidableEq

/-- `dup` is `AtsDupTestArray`. -/
def verifyAtsEntry (words : List Word) (bufferWords : Nat) (dup : CmdIndex → Option Nat)
    (entryIndex : Nat) : Option EntryCheck :=
  if entryIndex ≥ bufferWords then some .endOfTable
  else do
    let cmdNum ← atsCmdNumber words entryIndex
    if cmdNum = 0 then some .endOfTable
    else
      match atsCmdNumToIndex cmdNum with
      | none => some .error
      | some i =>
        if entryIndex + SC_ATS_HDR_WORDS > bufferWords then some .error
        else
          let commandBytes ← atsMsgSize words entryIndex
          let commandWords := wordsOf commandBytes
          if commandBytes < SC_PACKET_MIN_SIZE ∨ commandBytes > SC_PACKET_MAX_SIZE then some .error
          else if entryIndex + SC_ATS_HDR_NOPKT_WORDS + commandWords > bufferWords then some .error
          else if (dup i).isSome then some .error
          else some (.entry i (SC_ATS_HDR_NOPKT_WORDS + commandWords))

/-- The loop of `SC_VerifyAtsTable`; the result carries what it counts, where it
stopped and the duplicate test array. -/
def verifyLoop (words : List Word) (bufferWords : Nat) :
    Nat → Nat → Nat → (CmdIndex → Option Nat) → Option (Bool × Nat × Nat × (CmdIndex → Option Nat))
  | 0, _, _, _ => none
  | fuel + 1, bufferIndex, commandCount, dup => do
    match ← verifyAtsEntry words bufferWords dup bufferIndex with
    | .error => some (false, commandCount, bufferIndex, dup)
    | .endOfTable => some (true, commandCount, bufferIndex, dup)
    | .entry i size =>
      verifyLoop words bufferWords fuel (bufferIndex + size) (commandCount + 1)
        (update dup i (some bufferIndex))

/-- What a verified table holds. -/
structure VerifiedTable where
  commandCount : Nat
  words : Nat
  offsets : CmdIndex → Option Nat

/-- `none` is a read outside the buffer, `some none` is `SC_ERROR`. -/
def verifyAtsTable (words : List Word) (bufferWords : Nat) : Option (Option VerifiedTable) := do
  let (success, commandCount, size, dup) ←
    verifyLoop words bufferWords (bufferWords + 1) 0 0 fun _ => none
  if success ∧ commandCount ≠ 0 then some (some ⟨commandCount, size, dup⟩) else some none

def validateAts (table : AtsTable) : Option (Option VerifiedTable) :=
  verifyAtsTable table.cells SC_ATS_BUFF_SIZE32

def validateAppend (table : AppendTable) : Option (Option VerifiedTable) :=
  verifyAtsTable table.cells SC_APPEND_BUFF_SIZE32

/-- The loop of `SC_UpdateAppend`: the entries and words counted. -/
def updateAppendLoop (words : List Word) : Nat → Nat → Nat → Option (Nat × Nat)
  | 0, _, _ => none
  | fuel + 1, entryIndex, entryCount =>
    if entryIndex ≥ SC_APPEND_BUFF_SIZE32 then some (entryCount, entryIndex)
    else do
      let cmdNum ← atsCmdNumber words entryIndex
      if cmdNum = 0 ∨ cmdNum > SC_MAX_ATS_CMDS then some (entryCount, entryIndex)
      else
        let commandBytes ← atsMsgSize words entryIndex
        let commandWords := wordsOf commandBytes
        if commandBytes < SC_PACKET_MIN_SIZE ∨ commandBytes > SC_PACKET_MAX_SIZE then
          some (entryCount, entryIndex)
        else if entryIndex + SC_ATS_HDR_NOPKT_WORDS + commandWords > SC_APPEND_BUFF_SIZE32 then
          some (entryCount, entryIndex)
        else
          updateAppendLoop words fuel (entryIndex + (SC_ATS_HDR_NOPKT_WORDS + commandWords))
            (entryCount + 1)

/-- `SC_UpdateAppend`: the new `AppendEntryCount` and `AppendWordCount`. -/
def updateAppend (table : AppendTable) : Option (Nat × Nat) :=
  updateAppendLoop table.cells (SC_APPEND_BUFF_SIZE32 + 1) 0 0

/-- The loop of `SC_ProcessAppend` over the entries copied to the table. -/
def appendLoop (words : List Word) : Nat → Nat → AtsData → Option AtsData
  | 0, _, d => some d
  | count + 1, entryIndex, d => do
    let cmdNum ← atsCmdNumber words entryIndex
    let i ← atsCmdNumToIndex cmdNum
    let commandBytes ← atsMsgSize words entryIndex
    appendLoop words count (entryIndex + (SC_ATS_HDR_NOPKT_WORDS + wordsOf commandBytes))
      { d with
        numberOfCommands :=
          if d.cmdStatus i = .empty then d.numberOfCommands + 1 else d.numberOfCommands
        cmdIndex := update d.cmdIndex i (some entryIndex)
        cmdStatus := update d.cmdStatus i .loaded }

/-- `SC_ProcessAppend` up to the rebuilt time index. -/
def appendEntries (append : AppendTable) (entryCount wordCount : Nat) (d : AtsData) :
    Option AtsData := do
  let table ← d.tbl
  let table ← table.write d.atsSize (append.cells.take wordCount)
  let d ← appendLoop table.cells entryCount d.atsSize
    { d with tbl := some table, atsSize := d.atsSize + wordCount }
  buildTimeIndexTable d

end Nos3.Sc
