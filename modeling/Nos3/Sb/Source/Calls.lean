import Nos3.Es.Source.CriticalData
import Nos3.Base.Transition
import Mathlib.Data.Finset.Basic
import Mathlib.Logic.Function.Basic

/-!
# The Software Bus data

Pipes, routes with their destinations, buffer descriptors and the OS queues behind the pipes.
Buffers are named by their address; the pool is known by the addresses it has given out.
-/
namespace Nos3.Sb
open Function (update)

abbrev MsgId := BitVec 32
abbrev AppId := Nat
abbrev PipeId := Nat
abbrev QueueId := Nat
abbrev Ptr := Nat

def CFE_PLATFORM_SB_MAX_PIPES : Nat := 64
def CFE_PLATFORM_SB_MAX_MSG_IDS : Nat := 256
def CFE_PLATFORM_SB_MAX_DEST_PER_PKT : Nat := 16
def CFE_PLATFORM_SB_HIGHEST_VALID_MSGID : MsgId := 0x1FFF
def OS_QUEUE_MAX_DEPTH : Nat := 50
def OS_MAX_QUEUES : Nat := 128
def CFE_SB_INVALID_PIPE : PipeId := 0
def CFE_RESOURCEID_RESERVED : PipeId := 0xffffffff
def CFE_SB_PIPEID_BASE : PipeId := 0x160000
def CFE_ES_APPID_UNDEFINED : AppId := 0

instance : NeZero CFE_PLATFORM_SB_MAX_PIPES := ⟨by decide⟩
instance : NeZero OS_MAX_QUEUES := ⟨by decide⟩

def isValidMsgId (msgId : MsgId) : Bool :=
  msgId ≠ 0 && msgId ≤ CFE_PLATFORM_SB_HIGHEST_VALID_MSGID

/-- `CFE_SB_PipeId_ToIndex`. A smaller id wraps around to a serial number that is too big. -/
def pipeIdToIndex (pipeId : PipeId) : Option (Fin CFE_PLATFORM_SB_MAX_PIPES) :=
  if pipeId < CFE_SB_PIPEID_BASE ∨ CFE_SB_PIPEID_BASE + Es.RESOURCEID_MAX < pipeId then none
  else some (Fin.ofNat CFE_PLATFORM_SB_MAX_PIPES (pipeId - CFE_SB_PIPEID_BASE))

/-- `CFE_SB_PipeD_t`, with `ignoreMine` for its one option. -/
structure PipeD where
  pipeId : PipeId := CFE_SB_INVALID_PIPE
  ignoreMine : Bool := false
  appId : AppId := CFE_ES_APPID_UNDEFINED
  sysQueueId : QueueId := 0
  sendErrors : BitVec 16 := 0
  maxQueueDepth : Nat := 0
  currentQueueDepth : Nat := 0
  peakQueueDepth : Nat := 0
  lastBuffer : Option Ptr := none
  deriving DecidableEq

/-- `CFE_SB_PipeDescIsUsed` -/
def PipeD.isUsed (pipe : PipeD) : Bool := pipe.pipeId ≠ CFE_SB_INVALID_PIPE

/-- The pipe exists: its id is one that was given to its creator. -/
def PipeD.exists (pipe : PipeD) : Bool :=
  pipe.pipeId ≠ CFE_SB_INVALID_PIPE && pipe.pipeId ≠ CFE_RESOURCEID_RESERVED

/-- `CFE_SB_DestinationD_t` -/
structure Dest where
  pipeId : PipeId
  active : Bool
  msgId2PipeLim : Nat
  buffCount : Nat
  destCnt : BitVec 16
  scope : Nat
  deriving DecidableEq

/-- An entry of the routing table. A MsgID keeps its route once it has one. -/
structure Route where
  seqCnt : BitVec 14 := 0
  dests : List Dest := []

/-- `CFE_SB_BufferD_t`, with the sequence count in the header of its content. -/
structure BufferD where
  msgId : MsgId := 0
  appId : AppId := CFE_ES_APPID_UNDEFINED
  needsUpdate : Bool := false
  useCount : Nat := 0
  seqCount : BitVec 14 := 0
  deriving DecidableEq

structure OsQueue where
  id : QueueId := 0
  depth : Nat := 0
  items : List Ptr := []

def queueIndex (queueId : QueueId) : Fin OS_MAX_QUEUES := Fin.ofNat OS_MAX_QUEUES queueId

/-- The data behind the lock, the pool and the OS queues. -/
structure Bus where
  pipes : Fin CFE_PLATFORM_SB_MAX_PIPES → PipeD := fun _ => {}
  lastPipeId : PipeId := CFE_SB_PIPEID_BASE
  routes : MsgId → Option Route := fun _ => none
  routeIdxTop : Nat := 0
  desc : Ptr → BufferD := fun _ => {}
  zeroCopyList : List Ptr := []
  inTransitList : List Ptr := []
  sbBuffersInUse : Nat := 0
  allocated : Finset Ptr := ∅
  queues : Fin OS_MAX_QUEUES → OsQueue := fun _ => {}

namespace Bus

def setPipe (slot : Fin CFE_PLATFORM_SB_MAX_PIPES) (pipe : PipeD) (b : Bus) : Bus :=
  { b with pipes := update b.pipes slot pipe }

def setRoute (msgId : MsgId) (route : Route) (b : Bus) : Bus :=
  { b with routes := update b.routes msgId (some route) }

def setDesc (p : Ptr) (bd : BufferD) (b : Bus) : Bus := { b with desc := update b.desc p bd }

/-! ## OS queues -/

inductive PutStatus
  | success
  | full
  | error
  deriving DecidableEq, Repr

/-- `OS_QueuePut`. It may fail for a reason of its own, `fault`. -/
def queuePut (fault : Bool) (queueId : QueueId) (p : Ptr) (b : Bus) : PutStatus × Bus :=
  let queue := b.queues (queueIndex queueId)
  if fault ∨ queueId = 0 ∨ queue.id ≠ queueId then (.error, b)
  else if queue.items.length ≥ queue.depth then (.full, b)
  else
    (.success, { b with
      queues := update b.queues (queueIndex queueId) { queue with items := queue.items ++ [p] } })

/-- `OS_QueueGet`: what is first in the queue. -/
def queueGet (queueId : QueueId) (b : Bus) : Option Ptr × Bus :=
  let queue := b.queues (queueIndex queueId)
  if queueId = 0 ∨ queue.id ≠ queueId then (none, b)
  else
    match queue.items with
    | [] => (none, b)
    | p :: items =>
      (some p, { b with
        queues := update b.queues (queueIndex queueId) { queue with items := items } })

/-- `OS_QueueCreate`, which takes a free entry of the queue table under a new id. -/
def queueCreate (queueId : QueueId) (depth : Nat) (b : Bus) : Option Bus :=
  if queueId = 0 ∨ (b.queues (queueIndex queueId)).id ≠ 0 then none
  else some { b with queues := update b.queues (queueIndex queueId) ⟨queueId, depth, []⟩ }

/-- `OS_QueueDelete` -/
def queueDelete (queueId : QueueId) (b : Bus) : Bus :=
  if queueId = 0 ∨ (b.queues (queueIndex queueId)).id ≠ queueId then b
  else { b with queues := update b.queues (queueIndex queueId) {} }

/-! ## Buffers -/

/-- `CFE_SB_GetBufferFromPool`, given the address the pool returns. -/
def getBufferFromPool (addr : Ptr) (b : Bus) : Bus :=
  { b with
    sbBuffersInUse := b.sbBuffersInUse + 1
    allocated := insert addr b.allocated
    desc := update b.desc addr { useCount := 1 } }

/-- `CFE_SB_TrackingListRemove`, which has no effect on a singleton. -/
def trackingListRemove (p : Ptr) (b : Bus) : Bus :=
  { b with zeroCopyList := b.zeroCopyList.erase p, inTransitList := b.inTransitList.erase p }

/-- `CFE_SB_ReturnBufferToPool`. The octets of the buffer stay as they are. -/
def returnBufferToPool (p : Ptr) (b : Bus) : Bus :=
  { b.trackingListRemove p with
    sbBuffersInUse := b.sbBuffersInUse - 1
    allocated := b.allocated.erase p }

/-- `CFE_SB_IncrBufUseCnt` -/
def incrBufUseCnt (p : Ptr) (b : Bus) : Bus :=
  if (b.desc p).useCount < 0x7FFF then
    b.setDesc p { b.desc p with useCount := (b.desc p).useCount + 1 }
  else b

/-- `CFE_SB_DecrBufUseCnt` -/
def decrBufUseCnt (p : Ptr) (b : Bus) : Bus :=
  if (b.desc p).useCount > 0 then
    let b' := b.setDesc p { b.desc p with useCount := (b.desc p).useCount - 1 }
    if (b.desc p).useCount - 1 = 0 then b'.returnBufferToPool p else b'
  else b

end Bus
end Nos3.Sb

/-!
## The calls on the Software Bus

What each call does in each of its critical sections, and what a broadcast does for each
destination of a route. Status codes, error counters and the texts of events are left out.
-/
namespace Nos3.Sb
open Function (update)

abbrev Slot := Fin CFE_PLATFORM_SB_MAX_PIPES

namespace Bus

/-- `CFE_SB_LocatePipeDescByID` and `CFE_SB_PipeDescIsMatch` -/
def matchedPipe (pipeId : PipeId) (b : Bus) : Option Slot :=
  (pipeIdToIndex pipeId).filter fun slot => (b.pipes slot).pipeId = pipeId

/-! ## Pipes -/

/-- `CFE_SB_CheckPipeDescSlotUsed` -/
def checkPipeDescSlotUsed (b : Bus) (checkId : PipeId) : Bool :=
  match pipeIdToIndex checkId with
  | none => true
  | some slot => (b.pipes slot).isUsed

/-- `CFE_SB_CreatePipe` up to the creation of the queue: a free entry is reserved. -/
def reservePipe (b : Bus) : Option (Slot × PipeId × Bus) :=
  let pipeId := Es.resourceIdFindNext b.lastPipeId CFE_PLATFORM_SB_MAX_PIPES
    b.checkPipeDescSlotUsed
  (pipeIdToIndex pipeId).map fun slot =>
    (slot, pipeId, { b.setPipe slot { pipeId := CFE_RESOURCEID_RESERVED } with
      lastPipeId := pipeId })

/-- The last section of `CFE_SB_CreatePipe`, with or without a queue. -/
def completePipe (slot : Slot) (pipeId : PipeId) (app : AppId) (depth : Nat)
    (queueId : Option QueueId) (b : Bus) : Bus :=
  match queueId with
  | some queueId =>
    b.setPipe slot { b.pipes slot with
      sysQueueId := queueId, maxQueueDepth := depth, appId := app, pipeId := pipeId }
  | none => b.setPipe slot { b.pipes slot with pipeId := CFE_SB_INVALID_PIPE }

/-- `CFE_SB_SetPipeOpts` -/
def setPipeOpts (app : AppId) (pipeId : PipeId) (ignoreMine : Bool) (b : Bus) : Bus :=
  match b.matchedPipe pipeId with
  | none => b
  | some slot =>
    if (b.pipes slot).appId = app then
      b.setPipe slot { b.pipes slot with ignoreMine := ignoreMine }
    else b

/-- `CFE_SB_RemovePipeFromRoute` -/
def removePipeFromRoute (pipeId : PipeId) (route : Route) : Route :=
  { route with dests := route.dests.eraseP fun dest => dest.pipeId = pipeId }

/-- The first section of `CFE_SB_DeletePipeFull`. What it leaves is still to be emptied. -/
def invalidatePipe (pipeId : PipeId) (app : AppId) (b : Bus) :
    Option (Slot × QueueId × Option Ptr × Bus) :=
  match b.matchedPipe pipeId with
  | none => none
  | some slot =>
    if (b.pipes slot).appId = app then
      some (slot, (b.pipes slot).sysQueueId, (b.pipes slot).lastBuffer,
        { b.setPipe slot { b.pipes slot with pipeId := CFE_RESOURCEID_RESERVED } with
          routes := fun msgId => (b.routes msgId).map (removePipeFromRoute pipeId) })
    else none

/-- `CFE_SB_PipeDescSetFree` -/
def freePipe (slot : Slot) (b : Bus) : Bus :=
  b.setPipe slot { b.pipes slot with pipeId := CFE_SB_INVALID_PIPE }

/-! ## Subscriptions -/

/-- The duplicate and limit checks of `CFE_SB_SubscribeFull`: whether the list ends first. -/
def scanDests (pipeId : PipeId) : Nat → List Dest → Bool
  | _, [] => true
  | destCount, dest :: dests =>
    if dest.pipeId = pipeId then false
    else if destCount + 1 ≥ CFE_PLATFORM_SB_MAX_DEST_PER_PKT then false
    else scanDests pipeId (destCount + 1) dests

/-- The route of a MsgID, added if there is none and room for one. -/
def getRoute (msgId : MsgId) (b : Bus) : Option (Route × Bus) :=
  match b.routes msgId with
  | some route => some (route, b)
  | none =>
    if b.routeIdxTop < CFE_PLATFORM_SB_MAX_MSG_IDS then
      some ({}, { b.setRoute msgId {} with routeIdxTop := b.routeIdxTop + 1 })
    else none

structure Subscription where
  msgId : MsgId
  pipeId : PipeId
  msgLim : Nat
  scope : Nat

def Subscription.dest (sub : Subscription) : Dest :=
  ⟨sub.pipeId, true, sub.msgLim, 0, 0, sub.scope⟩

/-- `CFE_SB_SubscribeFull`. Whether the pool has a destination block is `block`. -/
def subscribeFull (app : AppId) (sub : Subscription) (block : Bool) (b : Bus) : Bus :=
  match b.matchedPipe sub.pipeId with
  | none => b
  | some slot =>
    if (b.pipes slot).appId ≠ app then b
    else if ¬isValidMsgId sub.msgId ∨ sub.scope > 1 then b
    else
      match b.getRoute sub.msgId with
      | none => b
      | some (route, b) =>
        if scanDests sub.pipeId 0 route.dests ∧ block then
          b.setRoute sub.msgId { route with dests := sub.dest :: route.dests }
        else b

/-- `CFE_SB_UnsubscribeFull` -/
def unsubscribeFull (app : AppId) (msgId : MsgId) (pipeId : PipeId) (scope : Nat) (b : Bus) :
    Bus :=
  match b.matchedPipe pipeId with
  | none => b
  | some slot =>
    if (b.pipes slot).appId ≠ app then b
    else if ¬isValidMsgId msgId ∨ scope > 1 then b
    else
      match b.routes msgId with
      | none => b
      | some route => b.setRoute msgId (removePipeFromRoute pipeId route)

/-- The destination that `CFE_SB_GetDestPtr` finds is changed. -/
def modifyDest (f : Dest → Dest) (pipeId : PipeId) : List Dest → List Dest
  | [] => []
  | dest :: dests =>
    if dest.pipeId = pipeId then f dest :: dests else dest :: modifyDest f pipeId dests

def modifyRoute (f : Dest → Dest) (msgId : MsgId) (pipeId : PipeId) (b : Bus) : Bus :=
  match b.routes msgId with
  | none => b
  | some route => b.setRoute msgId { route with dests := modifyDest f pipeId route.dests }

/-- `CFE_SB_EnableRouteCmd` and `CFE_SB_DisableRouteCmd` -/
def setRouteActive (msgId : MsgId) (pipeId : PipeId) (active : Bool) (b : Bus) : Bus :=
  if isValidMsgId msgId ∧ (b.matchedPipe pipeId).isSome then
    b.modifyRoute (fun dest => { dest with active := active }) msgId pipeId
  else b

/-! ## Sending -/

inductive SendErrKind
  | msgidLim
  | qFull
  | qWr
  deriving DecidableEq, Repr

/-- An entry of `EvtBuf`. -/
structure SendErr where
  pipeId : PipeId
  kind : SendErrKind
  deriving DecidableEq, Repr

def PutStatus.sendErrKind : PutStatus → SendErrKind
  | .full => .qFull
  | _ => .qWr

def PipeD.countSendError (pipe : PipeD) : PipeD := { pipe with sendErrors := pipe.sendErrors + 1 }

def PipeD.countMessage (pipe : PipeD) : PipeD :=
  { pipe with
    currentQueueDepth := pipe.currentQueueDepth + 1
    peakQueueDepth := max pipe.peakQueueDepth (pipe.currentQueueDepth + 1) }

def Dest.countMessage (dest : Dest) : Dest :=
  { dest with buffCount := dest.buffCount + 1, destCnt := dest.destCnt + 1 }

/-- The pipe of a destination that a message of `app` is meant for. -/
def target (app : AppId) (dest : Dest) (b : Bus) : Option Slot :=
  if dest.active then
    (b.matchedPipe dest.pipeId).filter fun slot =>
      ¬((b.pipes slot).ignoreMine ∧ (b.pipes slot).appId = app)
  else none

/-- A pass of the loop over the destinations. -/
def sendToDest (app : AppId) (fault : PipeId → Bool) (p : Ptr) (dest : Dest) (b : Bus) :
    Dest × List SendErr × Bus :=
  match b.target app dest with
  | none => (dest, [], b)
  | some slot =>
    if dest.buffCount ≥ dest.msgId2PipeLim then
      (dest, [⟨dest.pipeId, .msgidLim⟩], b.setPipe slot (PipeD.countSendError (b.pipes slot)))
    else
      match b.queuePut (fault dest.pipeId) (b.pipes slot).sysQueueId p with
      | (.success, b) =>
        (Dest.countMessage dest, [],
          (b.incrBufUseCnt p).setPipe slot (PipeD.countMessage (b.pipes slot)))
      | (status, b) =>
        (dest, [⟨dest.pipeId, status.sendErrKind⟩],
          b.setPipe slot (PipeD.countSendError (b.pipes slot)))

/-- The loop over the destinations. -/
def sendToDests (app : AppId) (fault : PipeId → Bool) (p : Ptr) :
    List Dest → Bus → List Dest × List SendErr × Bus
  | [], b => ([], [], b)
  | dest :: dests, b =>
    let (dest, errs, b) := b.sendToDest app fault p dest
    let (dests, errs', b) := b.sendToDests app fault p dests
    (dest :: dests, errs ++ errs', b)

/-- The sequence count is set if that is wanted. -/
def updateHeader (msgId : MsgId) (route : Route) (p : Ptr) (b : Bus) : Route × Bus :=
  if (b.desc p).needsUpdate then
    let route := { route with seqCnt := route.seqCnt + 1 }
    (route, (b.setRoute msgId route).setDesc p
      { b.desc p with seqCount := route.seqCnt, needsUpdate := false })
  else (route, b)

/-- The locked section of `CFE_SB_BroadcastBufferToRoute`. -/
def broadcastBufferToRoute (app : AppId) (fault : PipeId → Bool) (p : Ptr)
    (routeId : Option MsgId) (b : Bus) : List SendErr × Bus :=
  let (errs, b) :=
    match routeId.bind fun msgId => (b.routes msgId).map (Prod.mk msgId) with
    | none => ([], b)
    | some (msgId, route) =>
      let (route, b) := b.updateHeader msgId route p
      let (dests, errs, b) := b.sendToDests app fault p route.dests
      (errs, b.setRoute msgId { route with dests := dests })
  let b := b.trackingListRemove p
  let b := b.setDesc p { b.desc p with appId := CFE_ES_APPID_UNDEFINED }
  let b := { b with inTransitList := b.inTransitList ++ [p] }
  (errs, b.decrBufUseCnt p)

/-- `CFE_SB_AllocateMessageBuffer` -/
def allocateMessageBuffer (app : AppId) (addr : Ptr) (b : Bus) : Bus :=
  let b := b.getBufferFromPool addr
  let b := b.setDesc addr { b.desc addr with appId := app }
  { b with zeroCopyList := b.zeroCopyList ++ [addr] }

/-- The locked section of `CFE_SB_ReleaseMessageBuffer`. -/
def releaseMessageBuffer (p : Ptr) (b : Bus) : Bus :=
  (b.setDesc p { b.desc p with appId := CFE_ES_APPID_UNDEFINED }).decrBufUseCnt p

/-- The loop of `CFE_SB_ZeroCopyReleaseAppId` over the list it starts with. -/
def zeroCopyRelease (app : AppId) : List Ptr → Bus → Bus
  | [], b => b
  | p :: ps, b =>
    zeroCopyRelease app ps (if (b.desc p).appId = app then b.decrBufUseCnt p else b)

/-- `CFE_SB_ZeroCopyReleaseAppId` -/
def zeroCopyReleaseAppId (app : AppId) (b : Bus) : Bus :=
  if app ≠ CFE_ES_APPID_UNDEFINED then zeroCopyRelease app b.zeroCopyList b else b

/-! ## Receiving -/

/-- The first section of `CFE_SB_ReceiveBuffer`: the previous buffer is given back. -/
def beginReceive (slot : Slot) (b : Bus) : Bus :=
  match (b.pipes slot).lastBuffer with
  | none => b
  | some p =>
    let b := b.decrBufUseCnt p
    b.setPipe slot { b.pipes slot with lastBuffer := none }

/-- The message of a route that was read is no longer counted against its limit. -/
def uncountDest (pipeId : PipeId) (msgId : MsgId) (b : Bus) : Bus :=
  b.modifyRoute (fun dest => { dest with buffCount := dest.buffCount - 1 }) msgId pipeId

/-- The second section of `CFE_SB_ReceiveBuffer`, with `p` read from the queue. -/
def endReceive (slot : Slot) (pipeId : PipeId) (p : Ptr) (b : Bus) : Bus :=
  let b :=
    if (b.pipes slot).pipeId = pipeId then
      let b := b.incrBufUseCnt p
      let b := b.setPipe slot { b.pipes slot with lastBuffer := some p }
      let b := b.uncountDest pipeId (b.desc p).msgId
      b.setPipe slot { b.pipes slot with
        currentQueueDepth := (b.pipes slot).currentQueueDepth - 1 }
    else b
  b.decrBufUseCnt p

end Bus
end Nos3.Sb

/-!
## Tasks on the Software Bus

The calls of any number of tasks, interleaved at their critical sections and their operations on
OS queues. What a task keeps between two sections is the state of its call. `CFE_SB_CleanUpApp`
deletes the pipes of the application one by one and then releases its zero copy buffers.
-/
namespace Nos3.Sb
open Base.Transition
open Function (update)

inductive Call
  | idle
  | transmitting (msgId : MsgId) (seqCount : BitVec 14) (updateHeader : Bool)
  | filling (p : Ptr) (msgId : MsgId) (seqCount : BitVec 14) (updateHeader : Bool)
  | broadcasting (p : Ptr) (msgId : MsgId) (routeId : Option MsgId)
  | reporting (p : Ptr) (msgId : MsgId) (errs : List Bus.SendErr)
  | releasing (p : Ptr)
  | receiving (slot : Slot) (pipeId : PipeId) (queueId : QueueId)
  | received (slot : Slot) (pipeId : PipeId) (p : Ptr)
  | creating (slot : Slot) (pipeId : PipeId) (app : AppId) (depth : Nat)
  | draining (slot : Slot) (queueId : QueueId) (held : Option Ptr)
  | drained (slot : Slot) (queueId : QueueId)
  | closing (slot : Slot)
  deriving DecidableEq

/-- The MsgId in the event for a failed delivery, and the one of the message that was sent. -/
structure Printed where
  err : Bus.SendErr
  printed : MsgId
  sent : MsgId
  deriving DecidableEq

structure Sb (Task : Type) where
  bus : Bus := {}
  calls : Task → Call := fun _ => .idle
  printed : List Printed := []

inductive Event (Task : Type)
  | createPipe (t : Task) (app : AppId) (depth : Nat)
  | createQueue (t : Task) (queueId : Option QueueId)
  | setPipeOpts (app : AppId) (pipeId : PipeId) (ignoreMine : Bool)
  | deletePipe (t : Task) (app : AppId) (pipeId : PipeId)
  | dropHeld (t : Task)
  | drainQueue (t : Task)
  | deleteQueue (t : Task)
  | freePipe (t : Task)
  | subscribe (app : AppId) (sub : Bus.Subscription) (block : Bool)
  | unsubscribe (app : AppId) (msgId : MsgId) (pipeId : PipeId) (scope : Nat)
  | setRouteActive (msgId : MsgId) (pipeId : PipeId) (active : Bool)
  | transmitMsg (t : Task) (msgId : MsgId) (seqCount : BitVec 14) (updateHeader : Bool)
  | getBuffer (t : Task) (addr : Option Ptr)
  | allocateMessageBuffer (app : AppId) (addr : Ptr)
  | transmitBuffer (t : Task) (p : Ptr) (msgId : MsgId) (seqCount : BitVec 14)
      (updateHeader : Bool)
  | broadcast (t : Task) (app : AppId) (fault : PipeId → Bool)
      (denied : Bus.SendErrKind → Bool)
  | report (t : Task)
  | releaseMessageBuffer (t : Task) (p : Ptr)
  | release (t : Task)
  | zeroCopyReleaseAppId (app : AppId)
  | receiveBuffer (t : Task) (pipeId : PipeId)
  | getMessage (t : Task)
  | endReceive (t : Task)

variable {Task : Type} [DecidableEq Task]

namespace Sb

def setCall (t : Task) (call : Call) (s : Sb Task) : Sb Task :=
  { s with calls := update s.calls t call }

def withBus (bus : Bus) (s : Sb Task) : Sb Task := { s with bus := bus }

/-- The copy of the message into its new buffer. -/
def fillBuffer (p : Ptr) (msgId : MsgId) (seqCount : BitVec 14) (updateHeader : Bool)
    (b : Bus) : Bus :=
  b.setDesc p { b.desc p with
    msgId := msgId, seqCount := seqCount, needsUpdate := updateHeader }

/-- The broadcast of a task, and the events it has to send afterwards. -/
def broadcast (t : Task) (app : AppId) (fault : PipeId → Bool) (denied : Bus.SendErrKind → Bool)
    (p : Ptr) (msgId : MsgId) (routeId : Option MsgId) (b : Bus) (s : Sb Task) : Sb Task :=
  let (errs, b) := b.broadcastBufferToRoute app fault p routeId
  (s.withBus b).setCall t (.reporting p msgId (errs.filter fun err => ¬denied err.kind))

def next (s : Sb Task) : Event Task → Option (Sb Task)
  | .createPipe t app depth =>
    if s.calls t = .idle ∧ 0 < depth ∧ depth ≤ OS_QUEUE_MAX_DEPTH then
      s.bus.reservePipe.map fun (slot, pipeId, b) =>
        (s.withBus b).setCall t (.creating slot pipeId app depth)
    else none
  | .createQueue t queueId =>
    match s.calls t, queueId with
    | .creating slot pipeId app depth, some queueId =>
      (s.bus.queueCreate queueId depth).map fun b =>
        (s.withBus (b.completePipe slot pipeId app depth (some queueId))).setCall t .idle
    | .creating slot pipeId app depth, none =>
      some ((s.withBus (s.bus.completePipe slot pipeId app depth none)).setCall t .idle)
    | _, _ => none
  | .setPipeOpts app pipeId ignoreMine =>
    some (s.withBus (s.bus.setPipeOpts app pipeId ignoreMine))
  | .deletePipe t app pipeId =>
    if s.calls t = .idle then
      (s.bus.invalidatePipe pipeId app).map fun (slot, queueId, held, b) =>
        (s.withBus b).setCall t (.draining slot queueId held)
    else none
  | .dropHeld t =>
    match s.calls t with
    | .draining slot queueId (some p) =>
      some ((s.withBus (s.bus.decrBufUseCnt p)).setCall t (.draining slot queueId none))
    | _ => none
  | .drainQueue t =>
    match s.calls t with
    | .draining slot queueId none =>
      match s.bus.queueGet queueId with
      | (some p, b) => some ((s.withBus b).setCall t (.draining slot queueId (some p)))
      | (none, b) => some ((s.withBus b).setCall t (.drained slot queueId))
    | _ => none
  | .deleteQueue t =>
    match s.calls t with
    | .drained slot queueId =>
      some ((s.withBus (s.bus.queueDelete queueId)).setCall t (.closing slot))
    | _ => none
  | .freePipe t =>
    match s.calls t with
    | .closing slot => some ((s.withBus (s.bus.freePipe slot)).setCall t .idle)
    | _ => none
  | .subscribe app sub block => some (s.withBus (s.bus.subscribeFull app sub block))
  | .unsubscribe app msgId pipeId scope =>
    some (s.withBus (s.bus.unsubscribeFull app msgId pipeId scope))
  | .setRouteActive msgId pipeId active =>
    some (s.withBus (s.bus.setRouteActive msgId pipeId active))
  | .transmitMsg t msgId seqCount updateHeader =>
    -- with no route there is nothing more to do
    if s.calls t = .idle ∧ (s.bus.routes msgId).isSome then
      some (s.setCall t (.transmitting msgId seqCount updateHeader))
    else none
  | .getBuffer t addr =>
    match s.calls t, addr with
    | .transmitting msgId seqCount updateHeader, some addr =>
      if addr ∈ s.bus.allocated then none
      else some ((s.withBus (s.bus.getBufferFromPool addr)).setCall t
        (.filling addr msgId seqCount updateHeader))
    | .transmitting .., none => some (s.setCall t .idle)
    | _, _ => none
  | .allocateMessageBuffer app addr =>
    if app = CFE_ES_APPID_UNDEFINED ∨ addr ∈ s.bus.allocated then none
    else some (s.withBus (s.bus.allocateMessageBuffer app addr))
  | .transmitBuffer t p msgId seqCount updateHeader =>
    -- the owner is looked at and the route looked up in one step
    if s.calls t = .idle ∧ (s.bus.desc p).appId ≠ CFE_ES_APPID_UNDEFINED then
      some ((s.withBus (fillBuffer p msgId seqCount updateHeader s.bus)).setCall t
        (.broadcasting p msgId ((s.bus.routes msgId).map fun _ => msgId)))
    else none
  | .broadcast t app fault denied =>
    match s.calls t with
    | .filling p msgId seqCount updateHeader =>
      some (s.broadcast t app fault denied p msgId (some msgId)
        (fillBuffer p msgId seqCount updateHeader s.bus))
    | .broadcasting p msgId routeId =>
      some (s.broadcast t app fault denied p msgId routeId s.bus)
    | _ => none
  | .report t =>
    match s.calls t with
    | .reporting p msgId (err :: errs) =>
      some { s.setCall t (.reporting p msgId errs) with
        printed := s.printed ++ [⟨err, (s.bus.desc p).msgId, msgId⟩] }
    | .reporting _ _ [] => some (s.setCall t .idle)
    | _ => none
  | .releaseMessageBuffer t p =>
    if s.calls t = .idle ∧ (s.bus.desc p).appId ≠ CFE_ES_APPID_UNDEFINED then
      some (s.setCall t (.releasing p))
    else none
  | .release t =>
    match s.calls t with
    | .releasing p => some ((s.withBus (s.bus.releaseMessageBuffer p)).setCall t .idle)
    | _ => none
  | .zeroCopyReleaseAppId app => some (s.withBus (s.bus.zeroCopyReleaseAppId app))
  | .receiveBuffer t pipeId =>
    if s.calls t = .idle then
      (s.bus.matchedPipe pipeId).map fun slot =>
        (s.withBus (s.bus.beginReceive slot)).setCall t
          (.receiving slot pipeId (s.bus.pipes slot).sysQueueId)
    else none
  | .getMessage t =>
    match s.calls t with
    | .receiving slot pipeId queueId =>
      match s.bus.queueGet queueId with
      | (some p, b) => some ((s.withBus b).setCall t (.received slot pipeId p))
      | (none, b) => some ((s.withBus b).setCall t .idle)
    | _ => none
  | .endReceive t =>
    match s.calls t with
    | .received slot pipeId p =>
      some ((s.withBus (s.bus.endReceive slot pipeId p)).setCall t .idle)
    | _ => none

end Sb

def softwareBus (Task : Type) [DecidableEq Task] : Machine (Sb Task) (Event Task) where
  start s := s = {}
  next := Sb.next

end Nos3.Sb
