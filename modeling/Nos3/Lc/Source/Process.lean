import Nos3.Lc.Source.Watch
import Nos3.Base.Transition

/-!
# Evaluation and validation of actionpoint equations

An equation is a buffer of `LC_MAX_RPN_EQU_SIZE` words. The evaluator keeps its
operands on a stack of the same size, here with the top first; a push beyond
that size gives no state at all. The validator only counts the stack's depth.
-/
namespace Nos3.Lc

structure RPNEquation where
  data : List (BitVec 16)
  length_data : data.length = LC_MAX_RPN_EQU_SIZE

/-- The branches of the switch on a word of the equation. -/
inductive RPNItem
  | and
  | or
  | xor
  | not
  | equal
  | watchpoint (number : Fin LC_MAX_WATCHPOINTS)
  | unknown

def RPNItem.ofData (data : BitVec 16) : RPNItem :=
  if data = LC_RPN_AND then .and
  else if data = LC_RPN_OR then .or
  else if data = LC_RPN_XOR then .xor
  else if data = LC_RPN_NOT then .not
  else if data = LC_RPN_EQUAL then .equal
  else if h : data.toNat < LC_MAX_WATCHPOINTS then .watchpoint ⟨data.toNat, h⟩
  else .unknown

def RPNEquation.items (equation : RPNEquation) : List RPNItem := equation.data.map RPNItem.ofData

structure RPNState where
  rpnStack : List WatchResult := []
  rpnEquationPtr : Nat := 0
  evalResult : WatchResult := .error
  done : Bool := false
  illegalRPN : Bool := false
  illegalOperand : Bool := false

/-- `POP_RPN_DATA`: an empty stack gives the value of the assignment to
`IllegalRPN`, which is that of `LC_WATCH_TRUE`. -/
def popRPNData (s : RPNState) : WatchResult × RPNState :=
  match s.rpnStack with
  | [] => (.isTrue, { s with illegalRPN := true })
  | value :: stack => (value, { s with rpnStack := stack })

def pushRPNData (value : WatchResult) (s : RPNState) : Option RPNState :=
  if s.rpnStack.length < LC_MAX_RPN_EQU_SIZE then
    some { s with rpnStack := value :: s.rpnStack }
  else none

def rpnAnd (operand1 operand2 : WatchResult) : WatchResult :=
  if operand1 = .isFalse ∨ operand2 = .isFalse then .isFalse
  else if operand1 = .error ∨ operand2 = .error then .error
  else if operand1 = .stale ∨ operand2 = .stale then .stale
  else .isTrue

def rpnOr (operand1 operand2 : WatchResult) : WatchResult :=
  if operand1 = .isTrue ∨ operand2 = .isTrue then .isTrue
  else if operand1 = .error ∨ operand2 = .error then .error
  else if operand1 = .stale ∨ operand2 = .stale then .stale
  else .isFalse

def rpnXor (operand1 operand2 : WatchResult) : WatchResult :=
  if operand1 = .error ∨ operand2 = .error then .error
  else if operand1 = .stale ∨ operand2 = .stale then .stale
  else .ofBool (operand1 ≠ operand2)

def rpnNot (operand1 : WatchResult) : WatchResult :=
  if operand1 = .error then .error
  else if operand1 = .stale then .stale
  else .ofBool (operand1 = .isFalse)

/-- `Operand2` is popped before `Operand1`. -/
def rpnBinary (op : WatchResult → WatchResult → WatchResult) (s : RPNState) : Option RPNState :=
  let (operand2, s) := popRPNData s
  let (operand1, s) := popRPNData s
  pushRPNData (op operand1 operand2) s

def rpnUnary (op : WatchResult → WatchResult) (s : RPNState) : Option RPNState :=
  let (operand1, s) := popRPNData s
  pushRPNData (op operand1) s

def rpnEqual (s : RPNState) : RPNState :=
  let (result, s) := popRPNData s
  if result = .error ∨ result = .stale then
    { s with evalResult := result, illegalOperand := true }
  else if s.rpnStack = [] then { s with evalResult := result, done := true }
  else { s with evalResult := result, illegalRPN := true }

def rpnItem (watch : Fin LC_MAX_WATCHPOINTS → WatchResult) (item : RPNItem) (s : RPNState) :
    Option RPNState :=
  match item with
  | .and => rpnBinary rpnAnd s
  | .or => rpnBinary rpnOr s
  | .xor => rpnBinary rpnXor s
  | .not => rpnUnary rpnNot s
  | .equal => some (rpnEqual s)
  | .watchpoint number => pushRPNData (watch number) s
  | .unknown => some { s with illegalRPN := true }

/-- The condition of the loop. -/
def RPNState.live (s : RPNState) : Bool := !s.done && !s.illegalRPN && !s.illegalOperand

/-- The loop over what is left of the buffer; behind its end is no equation. -/
def rpnLoop (watch : Fin LC_MAX_WATCHPOINTS → WatchResult) :
    List RPNItem → RPNState → Option RPNState
  | [], s => some s
  | item :: rest, s => do
    let s ← rpnItem watch item { s with rpnEquationPtr := s.rpnEquationPtr + 1 }
    if s.live then
      if rest = [] then some { s with illegalRPN := true } else rpnLoop watch rest s
    else some s

/-- The event an illegal expression is reported with. -/
structure RPNReport where
  lastOperand : Nat
  stackPtr : Nat
  deriving DecidableEq

structure RPNEvaluation where
  evalResult : ActionResult
  report : Option RPNReport
  deriving DecidableEq

def ActionResult.ofWatch : WatchResult → ActionResult
  | .error => .error
  | .stale => .stale
  | .isFalse => .pass
  | .isTrue => .fail

def rpnOutcome (s : RPNState) : RPNEvaluation :=
  if s.illegalRPN then ⟨.error, some ⟨s.rpnEquationPtr - 1, s.rpnStack.length⟩⟩
  else ⟨.ofWatch s.evalResult, none⟩

def evaluateRPN (equation : RPNEquation) (watch : Fin LC_MAX_WATCHPOINTS → WatchResult) :
    Option RPNEvaluation :=
  (rpnLoop watch equation.items {}).map rpnOutcome

/-- What the validator's loop leaves behind. -/
structure RPNScan where
  bufferIndex : Nat
  stackDepth : Int
  bufferItem : Option RPNItem

def RPNItem.depthChange : RPNItem → Int
  | .and | .or | .xor => -1
  | .not => 0
  | .watchpoint _ => 1
  | .equal | .unknown => 0

def validateLoop : List RPNItem → RPNScan → RPNScan
  | [], scan => scan
  | .equal :: _, scan => { scan with bufferItem := some .equal }
  | .unknown :: _, scan => { scan with bufferItem := some .unknown }
  | item :: rest, scan =>
    let stackDepth := scan.stackDepth + item.depthChange
    if stackDepth ≤ 0 then ⟨scan.bufferIndex, stackDepth, some item⟩
    else validateLoop rest ⟨scan.bufferIndex + 1, stackDepth, some item⟩

def RPNScan.accepted : RPNScan → Bool
  | ⟨_, stackDepth, some .equal⟩ => stackDepth = 1
  | _ => false

/-- `LC_ADTVAL_ERR_RPN` with the additional error information. -/
structure RPNError where
  indexValue : Nat
  stackDepthValue : Int
  deriving DecidableEq

def validateRPN (equation : RPNEquation) : Except RPNError Unit :=
  let scan := validateLoop equation.items ⟨0, 0, none⟩
  if scan.accepted then .ok () else .error ⟨scan.bufferIndex, scan.stackDepth⟩

end Nos3.Lc

/-!
## Limit checker processing

The state of the application, the sampling of actionpoints and the commands.
`history` records, newest first, what the results and requests were.
-/
namespace Nos3.Lc
open Function (update)
open Base.Transition

abbrev ApIndex := Fin LC_MAX_ACTIONPOINTS

def LC_ALL_ACTIONPOINTS : BitVec 16 := 0xFFFF
def LC_ALL_WATCHPOINTS : BitVec 16 := 0xFFFF

/-- `LC_STATE_*` -/
inductive LCState
  | active
  | passive
  | disabled
  deriving DecidableEq

/-- `LC_APSTATE_*` and `LC_ACTION_NOT_USED` -/
inductive APState
  | active
  | passive
  | disabled
  | permOff
  | notUsed
  deriving DecidableEq

theorem clearedEquation_length :
    (List.replicate LC_MAX_RPN_EQU_SIZE (0 : BitVec 16)).length = LC_MAX_RPN_EQU_SIZE := by decide

structure ADTEntry where
  defaultState : APState := .notUsed
  maxPassiveEvents : BitVec 8 := 0
  maxPassFailEvents : BitVec 8 := 0
  maxFailPassEvents : BitVec 8 := 0
  rtsId : BitVec 16 := 0
  maxFailsBeforeRTS : BitVec 16 := 0
  rpnEquation : RPNEquation := ⟨List.replicate LC_MAX_RPN_EQU_SIZE 0, clearedEquation_length⟩

structure ARTEntry where
  actionResult : ActionResult := .stale
  currentState : APState := .notUsed
  passiveAPCount : BitVec 32 := 0
  failToPassCount : BitVec 32 := 0
  passToFailCount : BitVec 32 := 0
  consecutiveFailCount : BitVec 32 := 0
  cumulativeFailCount : BitVec 32 := 0
  cumulativeRTSExecCount : BitVec 32 := 0
  cumulativeEventMsgsSent : BitVec 32 := 0

/-- A request names the states and the limit it was made under. -/
inductive Event
  | evaluated (wp : WpIndex) (result : WatchResult)
  | aged
  | sampled (ap : ApIndex) (result : ActionResult)
  | requested (ap : ApIndex) (lcState : LCState) (apState : APState) (maxFails : BitVec 16)
  | activated (ap : ApIndex)
  deriving DecidableEq

structure LcState where
  wdt : WpIndex → WDTEntry := fun _ => {}
  wrt : WpIndex → WRTEntry := fun _ => {}
  adt : ApIndex → ADTEntry := fun _ => {}
  art : ApIndex → ARTEntry := fun _ => {}
  hash : HashData := {}
  currentLCState : LCState := .disabled
  apSampleCount : BitVec 32 := 0
  monitoredMsgCount : BitVec 32 := 0
  rtsExecCount : BitVec 32 := 0
  passiveRTSExecCount : BitVec 16 := 0
  history : List Event := []

def LcState.setArt (s : LcState) (ap : ApIndex) (entry : ARTEntry) : LcState :=
  { s with art := update s.art ap entry }

def LcState.log (s : LcState) (event : Event) : LcState :=
  { s with history := event :: s.history }

/-- A transition event goes out while its counter is within the limit. -/
def ARTEntry.sendLimited (art : ARTEntry) (count : BitVec 32) (limit : BitVec 8) : ARTEntry :=
  if count.toNat ≤ limit.toNat then
    { art with cumulativeEventMsgsSent := art.cumulativeEventMsgsSent + 1 }
  else art

/-- The first part of the branch for `LC_ACTION_FAIL`: the counters. -/
def countFail (adt : ADTEntry) (previousResult : ActionResult) (art : ARTEntry) : ARTEntry :=
  let art := { art with
    consecutiveFailCount := art.consecutiveFailCount + 1
    cumulativeFailCount := art.cumulativeFailCount + 1 }
  if previousResult = .pass then
    let art := { art with passToFailCount := art.passToFailCount + 1 }
    art.sendLimited art.passToFailCount adt.maxPassFailEvents
  else art

/-- An active actionpoint failed often enough. -/
def failActive (ap : ApIndex) (art : ARTEntry) (s : LcState) : LcState :=
  let request := Event.requested ap s.currentLCState art.currentState
    (s.adt ap).maxFailsBeforeRTS
  let art := { art with currentState := .passive }
  if s.currentLCState = .active then
    { s.setArt ap { art with
      cumulativeRTSExecCount := art.cumulativeRTSExecCount + 1
      cumulativeEventMsgsSent := art.cumulativeEventMsgsSent + 1 } with
      rtsExecCount := s.rtsExecCount + 1
      history := request :: s.history }
  else
    { s.setArt ap art with passiveRTSExecCount := s.passiveRTSExecCount + 1 }

/-- A passive actionpoint failed often enough. -/
def failPassive (ap : ApIndex) (art : ARTEntry) (s : LcState) : LcState :=
  let art := { art with passiveAPCount := art.passiveAPCount + 1 }
  { s.setArt ap (art.sendLimited art.passiveAPCount (s.adt ap).maxPassiveEvents) with
    passiveRTSExecCount := s.passiveRTSExecCount + 1 }

def actionFail (ap : ApIndex) (previousResult : ActionResult) (s : LcState) : LcState :=
  let currentAPState := (s.art ap).currentState
  let art := countFail (s.adt ap) previousResult (s.art ap)
  if art.consecutiveFailCount.toNat ≥ (s.adt ap).maxFailsBeforeRTS.toNat then
    if currentAPState = .active then failActive ap art s else failPassive ap art s
  else s.setArt ap art

def actionPass (ap : ApIndex) (previousResult : ActionResult) (s : LcState) : LcState :=
  let art := s.art ap
  let art :=
    if previousResult = .fail then
      let art := { art with failToPassCount := art.failToPassCount + 1 }
      art.sendLimited art.failToPassCount (s.adt ap).maxFailPassEvents
    else art
  s.setArt ap { art with consecutiveFailCount := 0 }

/-- `LC_EvaluateRPN` over the results the watchpoints have. -/
def LcState.evaluateAP (s : LcState) (ap : ApIndex) : Option ActionResult :=
  (evaluateRPN (s.adt ap).rpnEquation fun wp => (s.wrt wp).watchResult).map
    RPNEvaluation.evalResult

/-- The results of an actionpoint that `LC_SampleSingleAP` tells apart. -/
def actionOn (ap : ApIndex) (previousResult currentResult : ActionResult) (s : LcState) : LcState :=
  match currentResult with
  | .fail => actionFail ap previousResult s
  | .pass => actionPass ap previousResult s
  | .stale => s.setArt ap { s.art ap with consecutiveFailCount := 0 }
  | .error => s

def sampleSingleAP (s : LcState) (ap : ApIndex) : Option LcState :=
  let currentAPState := (s.art ap).currentState
  if currentAPState = .active ∨ currentAPState = .passive then do
    let previousResult := (s.art ap).actionResult
    let currentResult ← s.evaluateAP ap
    let s := { s with apSampleCount := s.apSampleCount + 1 }
    let s := (s.setArt ap { s.art ap with actionResult := currentResult }).log
      (.sampled ap currentResult)
    some (actionOn ap previousResult currentResult s)
  else some s

/-- The indices from one to another, both included. -/
def indexRange {n : Nat} (startIndex endIndex : Nat) : List (Fin n) :=
  (List.finRange n).filter fun i => startIndex ≤ i.val ∧ i.val ≤ endIndex

/-- The loop over selected actionpoints skips those that are neither active nor
passive, and so does the test in front of a single one. -/
def sampleAPs (startIndex endIndex : Nat) (s : LcState) : Option LcState :=
  (indexRange startIndex endIndex).foldlM sampleSingleAP s

def ageWatchpoints (s : LcState) : LcState :=
  { s with wrt := fun wp => updateAge (s.wrt wp) }.log .aged

/-- The range a sample request is for. -/
def sampleRange (startIndex endIndex : BitVec 16) : Option (Nat × Nat) :=
  if startIndex = LC_ALL_ACTIONPOINTS ∧ endIndex = LC_ALL_ACTIONPOINTS then
    some (0, LC_MAX_ACTIONPOINTS - 1)
  else if startIndex ≤ endIndex ∧ endIndex.toNat < LC_MAX_ACTIONPOINTS then
    some (startIndex.toNat, endIndex.toNat)
  else none

def sampleAPReq (startIndex endIndex age : BitVec 16) (s : LcState) : Option LcState :=
  if s.currentLCState ≠ .disabled then
    match sampleRange startIndex endIndex with
    | some (first, last) => do
      let s ← sampleAPs first last s
      some (if age ≠ 0 then ageWatchpoints s else s)
    | none => some s
  else some s

/-- One watchpoint of the list for a message. -/
def processWatchIndex (floats : FloatOrder) (message : Message) (timestamp : SysTime)
    (s : LcState) (wp : WpIndex) : Option LcState := do
  let (wrt, evaluated) ← processWP floats (s.wdt wp) message timestamp (s.wrt wp)
  some { s with
    wrt := update s.wrt wp wrt
    history := (evaluated.map (Event.evaluated wp)).toList ++ s.history }

/-- The time of the message, or the current time where it has none. -/
def messageTime (message : Message) (now : SysTime) : SysTime :=
  if message.time = {} then now else message.time

def checkMsgForWPs (floats : FloatOrder) (message : Message) (now : SysTime) (s : LcState) :
    Option LcState :=
  if s.currentLCState ≠ .disabled then do
    let watchIndices ← watchPointsFor s.hash message.messageID
    let s ← watchIndices.foldlM (processWatchIndex floats message (messageTime message now)) s
    some { s with monitoredMsgCount :=
      if watchIndices ≠ [] then s.monitoredMsgCount + 1 else s.monitoredMsgCount }
  else some s

def setCurrentState (newAPState : APState) (s : LcState) (ap : ApIndex) : LcState :=
  let currentAPState := (s.art ap).currentState
  if currentAPState ≠ .notUsed ∧ currentAPState ≠ .permOff then
    let s := s.setArt ap { s.art ap with currentState := newAPState }
    if newAPState = .active then s.log (.activated ap) else s
  else s

/-- The entries an argument stands for. -/
def argumentRange {n : Nat} (number : BitVec 16) : List (Fin n) :=
  if number = LC_ALL_ACTIONPOINTS then List.finRange n
  else indexRange number.toNat number.toNat

def setAPStateCmd (apNumber : BitVec 16) (newAPState : APState) (s : LcState) : LcState :=
  match newAPState with
  | .active | .passive | .disabled =>
    (argumentRange apNumber).foldl (setCurrentState newAPState) s
  | .permOff | .notUsed => s

def setPermOff (s : LcState) (ap : ApIndex) : LcState :=
  if (s.art ap).currentState = .disabled then
    s.setArt ap { s.art ap with currentState := .permOff }
  else s

def setAPPermOffCmd (apNumber : BitVec 16) (s : LcState) : LcState :=
  (indexRange apNumber.toNat apNumber.toNat).foldl setPermOff s

/-- The body of `LC_ResetResultsAP`. -/
def resetAP (resetStatsCmd : Bool) (s : LcState) (ap : ApIndex) : LcState :=
  let art := s.art ap
  let art := if resetStatsCmd then art
    else { art with actionResult := .stale, currentState := (s.adt ap).defaultState }
  let s := s.setArt ap { art with
    passiveAPCount := 0
    failToPassCount := 0
    passToFailCount := 0
    consecutiveFailCount := 0
    cumulativeFailCount := 0
    cumulativeRTSExecCount := 0
    cumulativeEventMsgsSent := 0 }
  if !resetStatsCmd ∧ (s.adt ap).defaultState = .active then s.log (.activated ap) else s

def resetAPStatsCmd (apNumber : BitVec 16) (s : LcState) : LcState :=
  (argumentRange apNumber).foldl (resetAP true) s

def resetWPStats (s : LcState) (wp : WpIndex) : LcState :=
  { s with wrt := update s.wrt wp (resetWP true (s.wrt wp)) }

def resetWPStatsCmd (wpNumber : BitVec 16) (s : LcState) : LcState :=
  (argumentRange wpNumber).foldl resetWPStats s

def resetCounters (s : LcState) : LcState :=
  { s with apSampleCount := 0, monitoredMsgCount := 0, rtsExecCount := 0, passiveRTSExecCount := 0 }

/-- `LC_ManageTables` where table services report new watchpoint definitions. -/
def loadWDT (wdt : WpIndex → WDTEntry) (s : LcState) : Option LcState := do
  let hash ← createHashTable wdt s.hash
  some { s with wdt := wdt, wrt := fun wp => resetWP false (s.wrt wp), hash := hash }

/-- `LC_ManageTables` where table services report new actionpoint definitions. -/
def loadADT (adt : ApIndex → ADTEntry) (s : LcState) : LcState :=
  (List.finRange LC_MAX_ACTIONPOINTS).foldl (resetAP false) { s with adt := adt }

inductive Request
  | message (message : Message) (now : SysTime)
  | sampleAP (startIndex endIndex age : BitVec 16)
  | setLCState (newLCState : LCState)
  | setAPState (apNumber : BitVec 16) (newAPState : APState)
  | setAPPermOff (apNumber : BitVec 16)
  | resetAPStats (apNumber : BitVec 16)
  | resetWPStats (wpNumber : BitVec 16)
  | resetCounters
  | loadWDT (wdt : WpIndex → WDTEntry)
  | loadADT (adt : ApIndex → ADTEntry)

def processRequest (floats : FloatOrder) (s : LcState) : Request → Option LcState
  | .message message now => checkMsgForWPs floats message now s
  | .sampleAP startIndex endIndex age => sampleAPReq startIndex endIndex age s
  | .setLCState newLCState => some { s with currentLCState := newLCState }
  | .setAPState apNumber newAPState => some (setAPStateCmd apNumber newAPState s)
  | .setAPPermOff apNumber => some (setAPPermOffCmd apNumber s)
  | .resetAPStats apNumber => some (resetAPStatsCmd apNumber s)
  | .resetWPStats wpNumber => some (resetWPStatsCmd wpNumber s)
  | .resetCounters => some (resetCounters s)
  | .loadWDT wdt => loadWDT wdt s
  | .loadADT adt => some (loadADT adt s)

/-- It starts with the default tables loaded into cleared results. -/
def machine (floats : FloatOrder) : Machine LcState Request where
  start s := ∃ wdt adt loaded, loadWDT wdt {} = some loaded ∧ s = loadADT adt loaded
  next := processRequest floats

end Nos3.Lc
