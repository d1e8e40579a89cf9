import Nos3.Base.Transition
import Nos3.Sc.Source.Ats
import Nos3.Sc.Source.Rts

/-!
# Stored command processing

The whole state, the 1 Hz loop and the requests. `sent` is the history of the
commands handed to the software bus, newest first, with the time of each.
-/
namespace Nos3.Sc
open Base.Transition

/-- `SC_AppData.NextProcNumber`. -/
inductive Processor
  | atp
  | rtp
  | none
  deriving DecidableEq

inductive Sent
  | ats (entry : AtsSent)
  | rts (entry : RtsSent)
  deriving DecidableEq

structure SentAt where
  command : Sent
  time : BitVec 32
  deriving DecidableEq

structure ScState where
  ats : AtsState := {}
  rts : RtsState := {}
  nextProcNumber : Processor := .none
  numCmdsSec : BitVec 16 := 0
  currentTime : BitVec 32 := 0
  sent : List SentAt := []

/-- What `SC_UpdateNextTime` decides once the next RTS is known. -/
def nextProcessor (ats : AtsState) (rts : RtsState) : Processor :=
  if rts.rtsNumber > 0 ∧ rts.nextCmdTime < ats.nextCmdTime then .rtp
  else if ats.atpState = .executing then .atp
  else .none

def updateNextTime (s : ScState) : ScState :=
  let rts := getNextRtsTime s.rts
  { s with rts := rts, nextProcNumber := nextProcessor s.ats rts }

def ScState.nextCmdTime (s : ScState) : BitVec 32 :=
  match s.nextProcNumber with
  | .atp => s.ats.nextCmdTime
  | .rtp => s.rts.nextCmdTime
  | .none => SC_MAX_TIME

/-- One command of the processor that is next. The bus accepts the commands of
a wakeup as `bus` says, by the number of commands sent before. -/
def processNext (bus : Nat → Bool) (s : ScState) : Option ScState :=
  match s.nextProcNumber with
  | .atp => do
    let outcome ← processAtpCmd (bus s.sent.length) s.currentTime s.ats
    some { s with
      ats := outcome.state
      numCmdsSec := if outcome.counted then s.numCmdsSec + 1 else s.numCmdsSec
      sent := (outcome.sent.map fun entry => ⟨.ats entry, s.currentTime⟩).toList ++ s.sent }
  | .rtp => do
    let (rts, sent) ← processRtpCommand (bus s.sent.length) s.currentTime s.rts
    some { s with
      rts := rts
      numCmdsSec := if sent.isSome then s.numCmdsSec + 1 else s.numCmdsSec
      sent := (sent.map fun entry => ⟨.rts entry, s.currentTime⟩).toList ++ s.sent }
  | .none => some s

/-- A pending switch is serviced first. -/
def servicePending (s : ScState) : Option ScState :=
  if s.ats.switchPendFlag then
    (serviceSwitchPend s.currentTime s.ats).map fun ats => { s with ats := ats }
  else some s

/-- The end of a round, with `IsThereAnotherCommandToExecute`. -/
def endRound (s : ScState) : ScState × Bool :=
  if s.nextProcNumber = .none ∨ s.nextCmdTime > s.currentTime then
    ({ s with numCmdsSec := 0 }, false)
  else if s.numCmdsSec.toNat ≥ SC_MAX_CMDS_PER_SEC then ({ s with numCmdsSec := 0 }, false)
  else (s, true)

/-- The body of the loop of the 1 Hz wakeup. -/
def wakeupBody (bus : Nat → Bool) (s : ScState) : Option (ScState × Bool) := do
  let s ← servicePending s
  let s ← processNext bus s
  some (endRound (updateNextTime s))

/-- The loop, when it ends within `fuel` rounds. -/
def wakeupLoop (bus : Nat → Bool) : Nat → ScState → Option ScState
  | 0, _ => none
  | fuel + 1, s => do
    let (s, another) ← wakeupBody bus s
    if another then wakeupLoop bus fuel s else some s

/-- The requests that reach the modelled state. Table services activate a table
only after its validation. -/
inductive Request
  | startAts (atsId : Nat)
  | stopAts
  | startRts (rtsId : BitVec 16)
  | stopRts (rtsId : BitVec 16)
  | disableRts (rtsId : BitVec 16)
  | enableRts (rtsId : BitVec 16)
  | switchAts
  | jumpAts (newTime : BitVec 32)
  | appendAts (atsId : Nat)
  | startRtsGrp (firstId lastId : BitVec 16)
  | stopRtsGrp (firstId lastId : BitVec 16)
  | disableRtsGrp (firstId lastId : BitVec 16)
  | enableRtsGrp (firstId lastId : BitVec 16)
  | manageAts (a : AtsIndex) (table : AtsTable)
  | manageAppend (table : AppendTable)
  | manageRts (i : RtsIndex) (table : RtsTable)
  | autoEnable (i : RtsIndex)
  | wakeup (bus : Nat → Bool) (fuel : Nat)

/-- The validation passed; a read outside the buffer is no validation. -/
def tableAccepted {α : Type} (result : Option (Option α)) : Bool :=
  match result with
  | some (some _) => true
  | _ => false

def ScState.onAts (s : ScState) (ats : Option AtsState) : Option ScState :=
  ats.map fun ats => { s with ats := ats }

def ScState.onRts (s : ScState) (rts : Option RtsState) : Option ScState :=
  rts.map fun rts => { s with rts := rts }

/-- `SC_ProcessRequest` at the current time it reads first. -/
def processRequest (request : Request) (s : ScState) : Option ScState :=
  match request with
  | .startAts atsId => s.onAts (startAtsCmd s.currentTime atsId s.ats)
  | .stopAts => s.onAts (stopAtsCmd s.ats)
  | .startRts rtsId => s.onRts (startRtsCmd s.currentTime rtsId s.rts)
  | .stopRts rtsId => s.onRts (some (stopRtsCmd rtsId s.rts))
  | .disableRts rtsId => s.onRts (disableRtsCmd rtsId s.rts)
  | .enableRts rtsId => s.onRts (some (enableRtsCmd rtsId s.rts))
  | .switchAts => s.onAts (groundSwitchCmd s.ats)
  | .jumpAts newTime => s.onAts (jumpAtsCmd newTime s.ats)
  | .appendAts atsId => s.onAts (appendAtsCmd s.currentTime atsId s.ats)
  | .startRtsGrp firstId lastId =>
    s.onRts (startRtsGrpCmd s.currentTime firstId lastId s.rts)
  | .stopRtsGrp firstId lastId => s.onRts (some (stopRtsGrpCmd firstId lastId s.rts))
  | .disableRtsGrp firstId lastId => s.onRts (some (disableRtsGrpCmd firstId lastId s.rts))
  | .enableRtsGrp firstId lastId => s.onRts (some (enableRtsGrpCmd firstId lastId s.rts))
  | .manageAts a table =>
    if tableAccepted (validateAts table) then s.onAts (manageAtsTable a table s.ats) else none
  | .manageAppend table =>
    if tableAccepted (validateAppend table) then s.onAts (manageAppendTable table s.ats) else none
  | .manageRts i table =>
    if tableAccepted (parseRts table) then s.onRts (some (manageRtsTable i table s.rts)) else none
  | .autoEnable i => s.onRts (some (autoEnableRts i s.rts))
  | .wakeup bus fuel => wakeupLoop bus fuel s

structure TimedRequest where
  request : Request
  time : BitVec 32

def machine : Machine ScState TimedRequest where
  start s := s = {}
  next s label := processRequest label.request { s with currentTime := label.time }

end Nos3.Sc
