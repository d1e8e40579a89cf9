import Mathlib.Logic.Function.Basic
import Nos3.Sc.Source.Tables

/-!
# Relative time sequences

The RTS half of the stored command state: the tables, the information table and
the RTP control block. Commands that touch a missing table or write outside the
information table give no state.
-/
namespace Nos3.Sc
open Function (update)

structure RtsInfoEntry where
  rtsStatus : Status := .empty
  disabledFlag : Bool := true
  cmdCtr : BitVec 8 := 0
  cmdErrCtr : BitVec 8 := 0
  nextCommandTime : BitVec 32 := SC_MAX_TIME
  nextCommandPtr : Nat := 0
  useCtr : BitVec 16 := 0

abbrev RtsIndex := Fin SC_NUMBER_OF_RTS

/-- `nextCmdTime` is `SC_AppData.NextCmdTime[SC_RTP]`. -/
structure RtsState where
  rtsTbl : RtsIndex → Option RtsTable := fun _ => none
  rtsInfo : RtsIndex → RtsInfoEntry := fun _ => {}
  numRtsActive : BitVec 16 := 0
  rtsNumber : Nat := 0
  nextCmdTime : BitVec 32 := SC_MAX_TIME
  rtsCmdErrCtr : BitVec 16 := 0

def RtsState.setInfo (s : RtsState) (i : RtsIndex) (entry : RtsInfoEntry) : RtsState :=
  { s with rtsInfo := update s.rtsInfo i entry }

@[simp] theorem RtsState.rtsInfo_setInfo (s : RtsState) (i : RtsIndex) (entry : RtsInfoEntry) :
    (s.setInfo i entry).rtsInfo i = entry := by
  simp only [RtsState.setInfo, Function.update_self]

theorem RtsState.rtsInfo_setInfo_of_ne (s : RtsState) {i j : RtsIndex} (h : j ≠ i)
    (entry : RtsInfoEntry) : (s.setInfo i entry).rtsInfo j = s.rtsInfo j := by
  simp only [RtsState.setInfo, Function.update_of_ne h]

@[simp] theorem RtsState.numRtsActive_setInfo (s : RtsState) (i : RtsIndex)
    (entry : RtsInfoEntry) : (s.setInfo i entry).numRtsActive = s.numRtsActive := rfl

def killRts (rtsIndex : Nat) (s : RtsState) : RtsState :=
  if h : rtsIndex < SC_NUMBER_OF_RTS then
    let i : RtsIndex := ⟨rtsIndex, h⟩
    if (s.rtsInfo i).rtsStatus = .executing then
      let s := s.setInfo i
        { s.rtsInfo i with rtsStatus := .loaded, nextCommandTime := SC_MAX_TIME }
      if s.numRtsActive > 0 then { s with numRtsActive := s.numRtsActive - 1 } else s
    else s
  else s

/-- The part of a start that both start commands share. -/
def initRtsInfo (currentTime : BitVec 32) (i : RtsIndex) (s : RtsState) : Option RtsState := do
  let table ← s.rtsTbl i
  let timeTag ← rtsTimeTag table.cells 0
  let s := s.setInfo i
    { s.rtsInfo i with
      rtsStatus := .executing
      cmdCtr := 0
      cmdErrCtr := 0
      nextCommandPtr := 0
      useCtr := (s.rtsInfo i).useCtr + 1
      nextCommandTime := computeAbsTime currentTime timeTag }
  some { s with numRtsActive := s.numRtsActive + 1 }

def startRtsCmd (currentTime : BitVec 32) (rtsId : BitVec 16) (s : RtsState) :
    Option RtsState :=
  if h : 0 < rtsId.toNat ∧ rtsId.toNat ≤ SC_NUMBER_OF_RTS then
    let i : RtsIndex := ⟨rtsId.toNat - 1, by omega⟩
    if (s.rtsInfo i).disabledFlag = false then
      if (s.rtsInfo i).rtsStatus = .loaded then do
        let table ← s.rtsTbl i
        let cmdLength ← rtsMsgSize table.cells 0
        if cmdLength ≥ SC_PACKET_MIN_SIZE ∧ cmdLength ≤ SC_PACKET_MAX_SIZE then
          initRtsInfo currentTime i s
        else some s
      else some s
    else some s
  else some s

/-- The indices a group command's loop visits; none when the group is invalid. -/
def rtsGroup (firstId lastId : BitVec 16) : List RtsIndex :=
  if 0 < firstId.toNat ∧ 0 < lastId.toNat ∧ firstId.toNat ≤ SC_NUMBER_OF_RTS ∧
      lastId.toNat ≤ SC_NUMBER_OF_RTS ∧ firstId.toNat ≤ lastId.toNat then
    (List.finRange SC_NUMBER_OF_RTS).filter fun i =>
      firstId.toNat - 1 ≤ i.val ∧ i.val ≤ lastId.toNat - 1
  else []

def startRtsOfGroup (currentTime : BitVec 32) (s : RtsState) (i : RtsIndex) : Option RtsState :=
  if (s.rtsInfo i).disabledFlag = false ∧ (s.rtsInfo i).rtsStatus = .loaded then
    initRtsInfo currentTime i s
  else some s

def startRtsGrpCmd (currentTime : BitVec 32) (firstId lastId : BitVec 16) (s : RtsState) :
    Option RtsState :=
  (rtsGroup firstId lastId).foldlM (startRtsOfGroup currentTime) s

/-- The identifier 0 passes the test and becomes the index 0xFFFF. -/
def stopRtsCmd (rtsId : BitVec 16) (s : RtsState) : RtsState :=
  if rtsId.toNat ≤ SC_NUMBER_OF_RTS then killRts (rtsId - 1).toNat s else s

def stopRtsOfGroup (s : RtsState) (i : RtsIndex) : RtsState :=
  if (s.rtsInfo i).rtsStatus = .executing then killRts i s else s

def stopRtsGrpCmd (firstId lastId : BitVec 16) (s : RtsState) : RtsState :=
  (rtsGroup firstId lastId).foldl stopRtsOfGroup s

def RtsState.setDisabled (flag : Bool) (s : RtsState) (i : RtsIndex) : RtsState :=
  s.setInfo i { s.rtsInfo i with disabledFlag := flag }

/-- For the identifier 0 the flag is written outside the information table. -/
def disableRtsCmd (rtsId : BitVec 16) (s : RtsState) : Option RtsState :=
  if rtsId.toNat ≤ SC_NUMBER_OF_RTS then
    if h : (rtsId - 1).toNat < SC_NUMBER_OF_RTS then
      some (s.setDisabled true ⟨(rtsId - 1).toNat, h⟩)
    else none
  else some s

def disableRtsGrpCmd (firstId lastId : BitVec 16) (s : RtsState) : RtsState :=
  (rtsGroup firstId lastId).foldl (RtsState.setDisabled true) s

def enableRtsCmd (rtsId : BitVec 16) (s : RtsState) : RtsState :=
  if h : 0 < rtsId.toNat ∧ rtsId.toNat ≤ SC_NUMBER_OF_RTS then
    s.setDisabled false ⟨rtsId.toNat - 1, by omega⟩
  else s

def enableRtsGrpCmd (firstId lastId : BitVec 16) (s : RtsState) : RtsState :=
  (rtsGroup firstId lastId).foldl (RtsState.setDisabled false) s

/-- The automatic start enables a loaded sequence; its start command comes back
over the software bus. -/
def autoEnableRts (i : RtsIndex) (s : RtsState) : RtsState :=
  if (s.rtsInfo i).rtsStatus = .loaded then s.setDisabled false i else s

def loadRts (i : RtsIndex) (s : RtsState) : RtsState :=
  s.setInfo i
    { s.rtsInfo i with
      rtsStatus := .loaded
      useCtr := 0
      cmdCtr := 0
      cmdErrCtr := 0
      nextCommandTime := 0
      nextCommandPtr := 0
      disabledFlag := true }

/-- The loop of `SC_ParseRts` with the entries walked over, oldest first; an
error is `some none`. -/
def parseRtsLoop (words : List Word) : Nat → Nat → Option (Option (List Nat))
  | 0, _ => none
  | fuel + 1, i =>
    if i ≤ SC_RTS_BUFF_SIZE32 - SC_RTS_HDR_WORDS then do
      let cmdSize ← rtsMsgSize words i
      let indexDelta := wordsOf (cmdSize + SC_RTS_HEADER_SIZE)
      let messageId ← rtsMsgId words i
      if sbIsValidMsgId messageId then
        if cmdSize < SC_PACKET_MIN_SIZE ∨ cmdSize > SC_PACKET_MAX_SIZE then some none
        else if i + indexDelta > SC_RTS_BUFF_SIZE32 then some none
        else if i + indexDelta = SC_RTS_BUFF_SIZE32 then some (some [i])
        else (parseRtsLoop words fuel (i + indexDelta)).map (Option.map (i :: ·))
      else
        let timeTag ← rtsTimeTag words i
        if timeTag = 0 then some (some []) else some none
    else do
      let word ← words[i]?
      if word = Word.zero then some (some []) else some none

/-- `SC_ParseRts`: the entries of an accepted table. -/
def parseRts (table : RtsTable) : Option (Option (List Nat)) :=
  parseRtsLoop table.cells (SC_RTS_BUFF_SIZE32 + 1) 0

/-- `SC_ManageTable` for an RTS whose table services report new contents. -/
def manageRtsTable (i : RtsIndex) (table : RtsTable) (s : RtsState) : RtsState :=
  loadRts i { s with rtsTbl := update s.rtsTbl i (some table) }

/-- The body of the loop of `SC_GetNextRtsTime`. -/
def scanNextRts (info : RtsIndex → RtsInfoEntry) (next : Option RtsIndex × BitVec 32)
    (i : RtsIndex) : Option RtsIndex × BitVec 32 :=
  if (info i).rtsStatus = .executing ∧ (info i).nextCommandTime ≤ next.2 then
    (some i, (info i).nextCommandTime)
  else next

def getNextRtsTime (s : RtsState) : RtsState :=
  match (List.finRange SC_NUMBER_OF_RTS).reverse.foldl (scanNextRts s.rtsInfo)
      (none, SC_MAX_TIME) with
  | (none, _) => { s with rtsNumber := 0, nextCmdTime := SC_MAX_TIME }
  | (some i, nextTime) => { s with rtsNumber := i + 1, nextCmdTime := nextTime }

/-- An error of a command stops its sequence and is counted twice. -/
def rtsCmdError (i : RtsIndex) (s : RtsState) : RtsState :=
  let s := { s with rtsCmdErrCtr := s.rtsCmdErrCtr + 1 }
  killRts i (s.setInfo i { s.rtsInfo i with cmdErrCtr := (s.rtsInfo i).cmdErrCtr + 1 })

def getNextRtsCommand (currentTime : BitVec 32) (s : RtsState) : Option RtsState :=
  if h : 0 < s.rtsNumber ∧ s.rtsNumber ≤ SC_NUMBER_OF_RTS then
    let i : RtsIndex := ⟨s.rtsNumber - 1, by omega⟩
    if (s.rtsInfo i).rtsStatus = .executing then do
      let cmdOffset := (s.rtsInfo i).nextCommandPtr
      let table ← s.rtsTbl i
      let cmdLength ← rtsMsgSize table.cells cmdOffset
      let cmdOffset := (cmdOffset + wordsOf (cmdLength + SC_RTS_HEADER_SIZE)) % 0x10000
      if cmdOffset ≤ SC_RTS_BUFF_SIZE32 - SC_RTS_HDR_WORDS then
        let cmdLength ← rtsMsgSize table.cells cmdOffset
        if cmdLength ≥ SC_PACKET_MIN_SIZE then
          if cmdLength ≤ SC_PACKET_MAX_SIZE then
            if cmdOffset + wordsOf (cmdLength + SC_RTS_HEADER_SIZE) ≤ SC_RTS_BUFF_SIZE32 then
              let timeTag ← rtsTimeTag table.cells cmdOffset
              some (s.setInfo i
                { s.rtsInfo i with
                  nextCommandTime := computeAbsTime currentTime timeTag
                  nextCommandPtr := cmdOffset })
            else some (rtsCmdError i s)
          else some (rtsCmdError i s)
        else some (killRts i s)
      else some (killRts i s)
    else some s
  else some s

/-- The entry of an RTS whose command went to the software bus. -/
structure RtsSent where
  rts : RtsIndex
  cmdOffset : Nat
  deriving DecidableEq

/-- `SC_ProcessRtpCommand` for `SC_AppData.NextProcNumber = SC_RTP`; the bus
accepts the command or not. -/
def processRtpCommand (accepted : Bool) (currentTime : BitVec 32) (s : RtsState) :
    Option (RtsState × Option RtsSent) :=
  if h : 0 < s.rtsNumber ∧ s.rtsNumber ≤ SC_NUMBER_OF_RTS then
    let i : RtsIndex := ⟨s.rtsNumber - 1, by omega⟩
    if s.nextCmdTime ≤ currentTime ∧ (s.rtsInfo i).rtsStatus = .executing then do
      let cmdOffset := (s.rtsInfo i).nextCommandPtr
      let _ ← s.rtsTbl i
      if accepted then
        let s ← getNextRtsCommand currentTime
          (s.setInfo i { s.rtsInfo i with cmdCtr := (s.rtsInfo i).cmdCtr + 1 })
        some (s, some ⟨i, cmdOffset⟩)
      else some (rtsCmdError i s, some ⟨i, cmdOffset⟩)
    else some (s, none)
  else some (s, none)

end Nos3.Sc
