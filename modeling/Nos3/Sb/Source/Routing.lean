import Nos3.Sb.Source.Calls
import Nos3.Base.Transition

/-!
# The routing tables

`cfe_sbr_route_unsorted.c` with either of the two maps from message ids to routes: a
table with an element for every id, or a hash table. A route id is one more than the
index of the route; the hash table holds route ids only, so a search in it reads the
message ids in the routing table.
-/
namespace Nos3.Sb.Sbr
open Function (update)

abbrev RouteId := BitVec 16

def CFE_SBR_INVALID_ROUTE_ID : RouteId := 0
def CFE_SB_INVALID_MSG_ID : MsgId := 0

def isValidRouteId (routeId : RouteId) : Bool :=
  routeId ≠ 0 && routeId.toNat ≤ CFE_PLATFORM_SB_MAX_MSG_IDS

def valueToRouteId (value : Nat) : RouteId := BitVec.ofNat 16 (1 + value)

def routeIdToValue (routeId : RouteId) : RouteId := routeId - 1

instance : NeZero CFE_PLATFORM_SB_MAX_MSG_IDS := ⟨by decide⟩

/-! ## The routing table -/

/-- `CFE_SBR_RouteEntry_t`, with the list of destinations behind `ListHeadPtr`. -/
structure RouteEntry where
  dests : List Dest := []
  msgId : MsgId := CFE_SB_INVALID_MSG_ID
  seqCnt : BitVec 14 := 0

/-- `cfe_sbr_route_data_t` -/
structure RouteData where
  routingTbl : Fin CFE_PLATFORM_SB_MAX_MSG_IDS → RouteEntry := fun _ => {}
  routeIdxTop : Nat := 0

/-- The element of the routing table that a valid route id stands for. -/
def routeIndex (routeId : RouteId) : Fin CFE_PLATFORM_SB_MAX_MSG_IDS :=
  Fin.ofNat CFE_PLATFORM_SB_MAX_MSG_IDS (routeIdToValue routeId).toNat

def RouteData.getMsgId (data : RouteData) (routeId : RouteId) : MsgId :=
  if isValidRouteId routeId = true then (data.routingTbl (routeIndex routeId)).msgId
  else CFE_SB_INVALID_MSG_ID

def RouteData.getDestListHead (data : RouteData) (routeId : RouteId) : List Dest :=
  if isValidRouteId routeId = true then (data.routingTbl (routeIndex routeId)).dests else []

def RouteData.setDestListHead (data : RouteData) (routeId : RouteId) (dests : List Dest) :
    RouteData :=
  if isValidRouteId routeId = true then
    { data with
      routingTbl := update data.routingTbl (routeIndex routeId)
        { data.routingTbl (routeIndex routeId) with dests := dests } }
  else data

/-- The first unused entry is given to an id. -/
def RouteData.enter (data : RouteData) (msgId : MsgId) : RouteData :=
  let top := Fin.ofNat CFE_PLATFORM_SB_MAX_MSG_IDS data.routeIdxTop
  { routingTbl := update data.routingTbl top { data.routingTbl top with msgId := msgId }
    routeIdxTop := data.routeIdxTop + 1 }

/-! ## The maps -/

/-- `CFE_SBR_Init_Map`, `CFE_SBR_SetRouteId` and `CFE_SBR_GetRouteId`, which may read message
ids in the routing table. A call that never returns is `none`. -/
structure MsgMap where
  Map : Type
  initMap : Map
  setRouteId : MsgId → RouteId → Map → Option (Nat × Map)
  getRouteId : (RouteId → MsgId) → MsgId → Map → Option RouteId

/-- `CFE_SBR_MSG_MAP_SIZE` of the map by hash. -/
def HASH_MAP_SIZE : Nat := 4 * CFE_PLATFORM_SB_MAX_MSG_IDS

def CFE_SBR_HASH_MAGIC : BitVec 32 := 0x45d9f3b

instance : NeZero HASH_MAP_SIZE := ⟨by decide⟩

abbrev HashSlot := Fin HASH_MAP_SIZE

/-- An index that was reduced to fit in the map. -/
def reduce (hash : BitVec 32) : HashSlot :=
  Fin.ofNat HASH_MAP_SIZE (hash &&& BitVec.ofNat 32 (HASH_MAP_SIZE - 1)).toNat

def msgIdHash (msgId : MsgId) : HashSlot :=
  let hash := msgId
  let hash := ((hash >>> 16) ^^^ hash) * CFE_SBR_HASH_MAGIC
  let hash := ((hash >>> 16) ^^^ hash) * CFE_SBR_HASH_MAGIC
  let hash := (hash >>> 16) ^^^ hash
  reduce hash

/-- `(hash + 1) & (CFE_SBR_MSG_MAP_SIZE - 1)` -/
def nextHash (hash : HashSlot) : HashSlot := reduce (BitVec.ofNat 32 hash + 1)

/-- The loop of `CFE_SBR_SetRouteId`: the collisions and the slot. One that has been through
all slots goes on for ever. -/
def setRouteLoop (map : HashSlot → RouteId) : Nat → HashSlot → Nat → Option (Nat × HashSlot)
  | 0, _, _ => none
  | fuel + 1, hash, collisions =>
    if isValidRouteId (map hash) = true then setRouteLoop map fuel (nextHash hash) (collisions + 1)
    else some (collisions, hash)

/-- The loop of `CFE_SBR_GetRouteId`. -/
def getRouteLoop (getMsgId : RouteId → MsgId) (msgId : MsgId) (map : HashSlot → RouteId) :
    Nat → HashSlot → Option RouteId
  | 0, _ => none
  | fuel + 1, hash =>
    let routeId := map hash
    if isValidRouteId routeId = true ∧ getMsgId routeId ≠ msgId then
      getRouteLoop getMsgId msgId map fuel (nextHash hash)
    else some routeId

/-- `cfe_sbr_map_hash.c` -/
def hashMap : MsgMap where
  Map := HashSlot → RouteId
  initMap := fun _ => CFE_SBR_INVALID_ROUTE_ID
  setRouteId msgId routeId map :=
    if isValidMsgId msgId = true then
      (setRouteLoop map HASH_MAP_SIZE (msgIdHash msgId) 0).map fun (collisions, hash) =>
        (collisions, update map hash routeId)
    else some (0, map)
  getRouteId getMsgId msgId map :=
    if isValidMsgId msgId = true then
      getRouteLoop getMsgId msgId map HASH_MAP_SIZE (msgIdHash msgId)
    else some CFE_SBR_INVALID_ROUTE_ID

/-- `CFE_SBR_MSG_MAP_SIZE` of the direct map. -/
def DIRECT_MAP_SIZE : Nat := CFE_PLATFORM_SB_HIGHEST_VALID_MSGID.toNat + 1

instance : NeZero DIRECT_MAP_SIZE := ⟨by decide⟩

/-- `cfe_sbr_map_direct.c` -/
def directMap : MsgMap where
  Map := Fin DIRECT_MAP_SIZE → RouteId
  initMap := fun _ => CFE_SBR_INVALID_ROUTE_ID
  setRouteId msgId routeId map :=
    if isValidMsgId msgId = true then
      some (0, update map (Fin.ofNat DIRECT_MAP_SIZE msgId.toNat) routeId)
    else some (0, map)
  getRouteId _ msgId map :=
    if isValidMsgId msgId = true then some (map (Fin.ofNat DIRECT_MAP_SIZE msgId.toNat))
    else some CFE_SBR_INVALID_ROUTE_ID

/-! ## Routes -/

structure Routes (impl : MsgMap) extends RouteData where
  map : impl.Map

variable {impl : MsgMap}

/-- `CFE_SBR_Init` -/
def Routes.init (impl : MsgMap) : Routes impl := { map := impl.initMap }

def Routes.getRouteId (s : Routes impl) (msgId : MsgId) : Option RouteId :=
  impl.getRouteId s.getMsgId msgId s.map

/-- `CFE_SBR_AddRoute`: the route id, the collisions and the tables. -/
def Routes.addRoute (s : Routes impl) (msgId : MsgId) : Option (RouteId × Nat × Routes impl) :=
  if isValidMsgId msgId = true ∧ s.routeIdxTop < CFE_PLATFORM_SB_MAX_MSG_IDS then do
    let routeId := valueToRouteId s.routeIdxTop
    let (collisions, map) ← impl.setRouteId msgId routeId s.map
    some (routeId, collisions, { s.enter msgId with map := map })
  else some (CFE_SBR_INVALID_ROUTE_ID, 0, s)

end Nos3.Sb.Sbr

/-!
## Subscriptions with their status

`CFE_SB_SubscribeFull` on the routing tables, the memory pool and the counters, with the
status it returns and the event it leaves pending. The lock is held from the first check
to the counters.
-/
namespace Nos3.Sb
open Sbr (MsgMap Routes RouteId isValidRouteId)

/-- `sizeof(CFE_SB_DestinationD_t)` -/
def DESTINATION_SIZE : Nat := 32

/-- The members of `StatTlmMsg` that a subscription changes. -/
structure StatTlm where
  msgIdsInUse : BitVec 32 := 0
  peakMsgIdsInUse : BitVec 32 := 0
  memInUse : BitVec 32 := 0
  peakMemInUse : BitVec 32 := 0
  subscriptionsInUse : BitVec 32 := 0
  peakSubscriptionsInUse : BitVec 32 := 0
  deriving DecidableEq

def highWater (peak inUse : BitVec 32) : BitVec 32 := if inUse > peak then inUse else peak

def StatTlm.countMsgId (stat : StatTlm) : StatTlm :=
  { stat with
    msgIdsInUse := stat.msgIdsInUse + 1
    peakMsgIdsInUse := highWater stat.peakMsgIdsInUse (stat.msgIdsInUse + 1) }

def StatTlm.countMemory (stat : StatTlm) (size : BitVec 32) : StatTlm :=
  { stat with
    memInUse := stat.memInUse + size
    peakMemInUse := highWater stat.peakMemInUse (stat.memInUse + size) }

def StatTlm.countSubscription (stat : StatTlm) : StatTlm :=
  { stat with
    subscriptionsInUse := stat.subscriptionsInUse + 1
    peakSubscriptionsInUse := highWater stat.peakSubscriptionsInUse (stat.subscriptionsInUse + 1) }

/-- The members of `HKTlmMsg` that a subscription changes. -/
structure HKTlm where
  subscribeErrorCounter : BitVec 8 := 0
  duplicateSubscriptionsCounter : BitVec 8 := 0
  deriving DecidableEq

/-- The part of `CFE_SB_Global` and `CFE_SBR_RDATA` behind a subscription. `pool` is what the
handle of the memory pool stands for. -/
structure SbGlobal (impl : MsgMap) where
  pipes : Slot → PipeD := fun _ => {}
  routes : Routes impl
  pool : Option Es.Pool := none
  statTlm : StatTlm := {}
  hkTlm : HKTlm := {}

inductive SubscribeStatus
  | success
  | badArgument
  | maxMsgsMet
  | maxDestsMet
  | bufAlocErr
  deriving DecidableEq

/-- `PendingEventID` -/
inductive PendingEvent
  | subInvPipe
  | subInvCaller
  | subArgErr
  | maxMsgsMet
  | dupSubscrip
  | maxDestsMet
  | destBlkErr
  deriving DecidableEq

/-- The switch on the pending event. -/
def HKTlm.count (hk : HKTlm) : Option PendingEvent → HKTlm
  | some .dupSubscrip =>
    { hk with duplicateSubscriptionsCounter := hk.duplicateSubscriptionsCounter + 1 }
  | some _ => { hk with subscribeErrorCounter := hk.subscribeErrorCounter + 1 }
  | none => hk

namespace SbGlobal
variable {impl : MsgMap}

/-- `CFE_SB_LocatePipeDescByID` and `CFE_SB_PipeDescIsMatch` -/
def matchedPipe (pipeId : PipeId) (g : SbGlobal impl) : Option Slot :=
  (pipeIdToIndex pipeId).filter fun slot => (g.pipes slot).pipeId = pipeId

/-- `CFE_ES_GetPoolBuf`; the memory of the pool is mapped. -/
def getPoolBuf (pool : Option Es.Pool) (size : Nat) : Option (Nat × Es.Pool) :=
  pool.bind fun pool => (Es.genPoolGetBlock .direct pool size).toOption

/-- `CFE_SB_GetDestinationBlk` -/
def getDestinationBlk (g : SbGlobal impl) : Option (SbGlobal impl) :=
  (getPoolBuf g.pool DESTINATION_SIZE).map fun (_, pool) =>
    { g with
      pool := some pool
      statTlm := g.statTlm.countMemory (BitVec.ofNat 32 DESTINATION_SIZE) }

/-- `CFE_SB_AddDestNode` -/
def addDestNode (routeId : RouteId) (dest : Dest) (g : SbGlobal impl) : SbGlobal impl :=
  let dests := dest :: g.routes.getDestListHead routeId
  { g with routes := { g.routes with toRouteData := g.routes.setDestListHead routeId dests } }

/-- The route of a message id, added if there is none: a route id that is not valid if the
routing table is full. -/
def findRoute (msgId : MsgId) (g : SbGlobal impl) : Option (RouteId × SbGlobal impl) := do
  let routeId ← g.routes.getRouteId msgId
  if isValidRouteId routeId = true then some (routeId, g)
  else do
    let (routeId, _, routes) ← g.routes.addRoute msgId
    let g := { g with routes := routes }
    if isValidRouteId routeId = true then
      some (routeId, { g with statTlm := g.statTlm.countMsgId })
    else some (routeId, g)

/-- How the loop over the destinations of a route ends. -/
inductive DestScan
  | duplicate
  | limitReached
  | notFound
  deriving DecidableEq

def scanDestinations (pipeId : PipeId) : Nat → List Dest → DestScan
  | _, [] => .notFound
  | destCount, dest :: dests =>
    if dest.pipeId = pipeId then .duplicate
    else if destCount + 1 ≥ CFE_PLATFORM_SB_MAX_DEST_PER_PKT then .limitReached
    else scanDestinations pipeId (destCount + 1) dests

/-- The part of `CFE_SB_SubscribeFull` behind the route. -/
def addDestination (sub : Bus.Subscription) (routeId : RouteId) (g : SbGlobal impl) :
    SubscribeStatus × Option PendingEvent × SbGlobal impl :=
  match scanDestinations sub.pipeId 0 (g.routes.getDestListHead routeId) with
  | .duplicate => (.success, some .dupSubscrip, g)
  | .limitReached => (.maxDestsMet, some .maxDestsMet, g)
  | .notFound =>
    match g.getDestinationBlk with
    | none => (.bufAlocErr, some .destBlkErr, g)
    | some g =>
      let g := g.addDestNode routeId sub.dest
      (.success, none, { g with statTlm := g.statTlm.countSubscription })

/-- `CFE_SB_SubscribeFull` of an application up to the counters. -/
def trySubscribe (app : AppId) (sub : Bus.Subscription) (g : SbGlobal impl) :
    Option (SubscribeStatus × Option PendingEvent × SbGlobal impl) :=
  match g.matchedPipe sub.pipeId with
  | none => some (.badArgument, some .subInvPipe, g)
  | some slot =>
    if (g.pipes slot).appId ≠ app then some (.badArgument, some .subInvCaller, g)
    else if ¬isValidMsgId sub.msgId ∨ sub.scope > 1 then
      some (.badArgument, some .subArgErr, g)
    else do
      let (routeId, g) ← g.findRoute sub.msgId
      if isValidRouteId routeId = true then some (g.addDestination sub routeId)
      else some (.maxMsgsMet, some .maxMsgsMet, g)

/-- `CFE_SB_SubscribeFull` -/
def subscribeFull (app : AppId) (sub : Bus.Subscription) (g : SbGlobal impl) :
    Option (SubscribeStatus × SbGlobal impl) :=
  (g.trySubscribe app sub).map fun (status, event, g) =>
    (status, { g with hkTlm := g.hkTlm.count event })

end SbGlobal

/-! ## The Software Bus between subscriptions -/

/-- What changes the tables: a subscription, and what the other calls do, here without
their conditions. They add no route, and change the destinations and the sequence count of
routes that are there only. -/
inductive SbCall
  | subscribe (app : AppId) (sub : Bus.Subscription)
  | destinations (routeId : RouteId) (dests : List Dest)
  | sequenceCount (routeId : RouteId) (seqCnt : BitVec 14)
  | others (pipes : Slot → PipeD) (pool : Option Es.Pool) (statTlm : StatTlm) (hkTlm : HKTlm)

variable {impl : MsgMap}

/-- A route that was added. -/
def Sbr.RouteData.isAdded (data : Sbr.RouteData) (routeId : RouteId) : Bool :=
  isValidRouteId routeId && (Sbr.routeIdToValue routeId).toNat < data.routeIdxTop

def Sbr.RouteData.setSequenceCount (data : Sbr.RouteData) (routeId : RouteId)
    (seqCnt : BitVec 14) : Sbr.RouteData :=
  { data with
    routingTbl := Function.update data.routingTbl (Sbr.routeIndex routeId)
      { data.routingTbl (Sbr.routeIndex routeId) with seqCnt := seqCnt } }

def SbGlobal.call (g : SbGlobal impl) : SbCall → Option (SbGlobal impl)
  | .subscribe app sub => (g.subscribeFull app sub).map Prod.snd
  | .destinations routeId dests =>
    if g.routes.isAdded routeId = true then
      some { g with
        routes := { g.routes with toRouteData := g.routes.setDestListHead routeId dests } }
    else none
  | .sequenceCount routeId seqCnt =>
    if g.routes.isAdded routeId = true then
      some { g with
        routes := { g.routes with toRouteData := g.routes.setSequenceCount routeId seqCnt } }
    else none
  | .others pipes pool statTlm hkTlm =>
    some { g with pipes := pipes, pool := pool, statTlm := statTlm, hkTlm := hkTlm }

def subscribing (impl : MsgMap) : Base.Transition.Machine (SbGlobal impl) SbCall where
  start g := g.routes = Routes.init impl
  next := SbGlobal.call

end Nos3.Sb
