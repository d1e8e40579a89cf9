import Nos3.Base.ByteMemory
import Nos3.Base.Transition
import Mathlib.Logic.Function.Basic

/-!
# Packed octets

A buffer is packed field by field; a field that does not fit is left out and the next ones are
still tried. Unpacking reads the receiver's whole message buffer, which holds older octets
behind the message.
-/
namespace Nos3.Sbn
open Base.BigEndian (Octet beOctets ofBe)
open Base.ByteMemory (Memory copyOut)

abbrev MsgId := BitVec 32

structure Qos where
  priority : Octet
  reliability : Octet
  deriving DecidableEq, Repr

def Qos.octets (qos : Qos) : List Octet := [qos.priority, qos.reliability]

/-- `Pack_t` while it is written: the size of its buffer and the octets used. -/
structure Pack where
  bufSz : Nat
  buf : List Octet := []

/-- `Pack_Data` -/
def Pack.data (dataBuf : List Octet) (p : Pack) : Pack :=
  if p.buf.length + dataBuf.length > p.bufSz then p else { p with buf := p.buf ++ dataBuf }

/-- `Pack_UInt16` -/
def Pack.uint16 (data : BitVec 16) (p : Pack) : Pack := p.data (beOctets 2 data)

/-- `Pack_MsgID` -/
def Pack.msgId (data : MsgId) (p : Pack) : Pack := p.data (beOctets 4 data)

/-- `Pack_t` while it is read. A variable that no octets are read into keeps what was on the
`stack`. -/
structure Unpack where
  bufSz : Nat
  buf : Memory
  stack : Memory
  bufUsed : Nat := 0

/-- `Unpack_Data` -/
def Unpack.data (sz : Nat) (p : Unpack) : List Octet × Unpack :=
  if p.bufUsed + sz > p.bufSz then (copyOut p.stack p.bufUsed sz, p)
  else (copyOut p.buf p.bufUsed sz, { p with bufUsed := p.bufUsed + sz })

/-- `Unpack_UInt16` -/
def Unpack.uint16 (p : Unpack) : BitVec 16 × Unpack := ((ofBe (p.data 2).1), (p.data 2).2)

/-- `Unpack_MsgID` -/
def Unpack.msgId (p : Unpack) : MsgId × Unpack := ((ofBe (p.data 4).1), (p.data 4).2)

def Unpack.qos (p : Unpack) : Qos × Unpack :=
  (⟨(p.data 2).1.getD 0 0, (p.data 2).1.getD 1 0⟩, (p.data 2).2)

/-- A message buffer after a message was received into it. -/
def received (payload : List Octet) (older : Memory) : Memory := fun i => payload.getD i (older i)

/-! ## What is packed is read back -/

theorem pack_data_extends (dataBuf : List Octet) (p : Pack) : p.buf <+: (p.data dataBuf).buf := by
  unfold Pack.data
  split
  · exact List.prefix_refl _
  · exact List.prefix_append _ _

theorem pack_data_fits {dataBuf : List Octet} {p : Pack}
    (h : p.buf.length + dataBuf.length ≤ p.bufSz) :
    p.data dataBuf = { p with buf := p.buf ++ dataBuf } :=
  if_neg (by omega)

@[simp] theorem pack_data_bufSz (dataBuf : List Octet) (p : Pack) :
    (p.data dataBuf).bufSz = p.bufSz := by
  unfold Pack.data
  split <;> rfl

theorem unpack_data_fits {sz : Nat} {p : Unpack} (h : p.bufUsed + sz ≤ p.bufSz) :
    p.data sz = (copyOut p.buf p.bufUsed sz, { p with bufUsed := p.bufUsed + sz }) :=
  if_neg (by omega)

theorem copyOut_received (before field : List Octet) {payload : List Octet} (older : Memory)
    (h : before ++ field <+: payload) :
    copyOut (received payload older) before.length field.length = field := by
  obtain ⟨after, rfl⟩ := h
  refine List.ext_getElem (by simp [copyOut]) fun k _ hk => ?_
  have hread : (before ++ (field ++ after))[before.length + k]? = some field[k] := by
    rw [List.getElem?_append_right (Nat.le_add_right _ _),
      Nat.add_sub_cancel_left, List.getElem?_append_left hk, List.getElem?_eq_getElem hk]
  simp [copyOut, received, List.getD_eq_getElem?_getD, hread]

end Nos3.Sbn

/-!
## Subscription tables and messages

The table of a node's own subscriptions and the one it keeps for a peer have the same form.
Local reports change the first and are told to the peers; the messages of a peer change the
second and subscribe locally.
-/
namespace Nos3.Sbn
open Base.BigEndian (Octet)
open Base.ByteMemory (Memory)
open Function (update)

def SBN_MAX_SUBS_PER_PEER : Nat := 256
def SBN_IDENT_LEN : Nat := 48
def SBN_PACKED_HDR_SZ : Nat := 2 + 1 + 4 + 4
def SBN_PACKED_SUB_SZ : Nat := SBN_PACKED_HDR_SZ + 2 + (4 + 2) * SBN_MAX_SUBS_PER_PEER
def CFE_MISSION_SB_MAX_SB_MSG_SIZE : Nat := 32768
def CFE_SB_SUB_ENTRIES_PER_PKT : Nat := 20

def CFE_EVS_LONG_EVENT_MSG_MID : MsgId := 0x0808
def SBN_CMD_MID : MsgId := 0x18DA
def SBN_TLM_MID : MsgId := 0x08DC

/-- The MsgIDs whose local subscriptions are not told to peers. -/
def excluded (msgId : MsgId) : Bool :=
  msgId = CFE_EVS_LONG_EVENT_MSG_MID || msgId = SBN_CMD_MID || msgId = SBN_TLM_MID

inductive Status
  | success
  | error
  deriving DecidableEq, Repr

/-- `SBN_Subs_t` -/
structure Sub where
  inUseCtr : BitVec 32 := 0
  msgId : MsgId := 0
  qos : Qos := ⟨0, 0⟩

/-- `Subs` and `SubCnt`, the array with its one extra element. -/
structure Table where
  subs : Nat → Sub := fun _ => {}
  subCnt : Nat := 0

/-- `IsMsgIDSub` and `IsPeerSubMsgID` -/
def Table.find (msgId : MsgId) (t : Table) : Option Nat :=
  (List.range t.subCnt).find? fun i => (t.subs i).msgId = msgId

def Table.append (sub : Sub) (t : Table) : Table :=
  ⟨update t.subs t.subCnt sub, t.subCnt + 1⟩

def Table.setInUseCtr (i : Nat) (ctr : BitVec 32) (t : Table) : Table :=
  { t with subs := update t.subs i { t.subs i with inUseCtr := ctr } }

/-- The loop that fills the gap at `subIdx`, after `n` passes. -/
def closeGap (subs : Nat → Sub) (subIdx : Nat) : Nat → Nat → Sub
  | 0 => subs
  | n + 1 =>
    update (closeGap subs subIdx n) (subIdx + n) (closeGap subs subIdx n (subIdx + n + 1))

def Table.remove (subIdx : Nat) (t : Table) : Table :=
  ⟨closeGap t.subs subIdx (t.subCnt - subIdx), t.subCnt - 1⟩

/-! ## Messages between nodes -/

inductive MsgType
  | subMsg
  | unsubMsg
  | protoMsg
  deriving DecidableEq, Repr

structure NetMsg where
  msgType : MsgType
  payload : List Octet
  deriving DecidableEq, Repr

/-- `SBN_IDENT` and what follows it in memory: `SBN_IDENT_LEN` octets are packed. -/
structure Ident where
  octets : List Octet
  length : octets.length = SBN_IDENT_LEN
  text : [0x24, 0x49, 0x64, 0x24, 0x00] <+: octets

/-- `strncmp` of as many characters finds no difference. -/
def strncmpEqual : List Octet → List Octet → Bool
  | a :: as, b :: bs => a == b && (a == 0 || strncmpEqual as bs)
  | _, _ => true

def packEntry (p : Pack) (sub : Sub) : Pack := (p.msgId sub.msgId).data sub.qos.octets

/-- A subscription message that announces `cnt` entries. -/
def packSubs (ident : Ident) (cnt : BitVec 16) (entries : List Sub) : List Octet :=
  (entries.foldl packEntry
    ((Pack.data ident.octets { bufSz := SBN_PACKED_SUB_SZ }).uint16 cnt)).buf

/-- `SendLocalSubToPeer`: the message it sends. -/
def localSubToPeer (ident : Ident) (subType : MsgType) (msgId : MsgId) (qos : Qos) : NetMsg :=
  ⟨subType, packSubs ident 1 [{ msgId := msgId, qos := qos }]⟩

/-- `SBN_SendLocalSubsToPeer`: the message it sends. -/
def localSubsToPeer (ident : Ident) (t : Table) : NetMsg :=
  ⟨.subMsg, packSubs ident (BitVec.ofNat 16 t.subCnt) ((List.range t.subCnt).map t.subs)⟩

/-! ## At the peer -/

/-- `AddSub`. Whether the local Software Bus takes the subscription is `subscribed`. -/
def addSub (subscribed : MsgId → Bool) (msgId : MsgId) (qos : Qos) (t : Table) : Status × Table :=
  match t.find msgId with
  | some _ => (.success, t)
  | none =>
    if t.subCnt ≥ SBN_MAX_SUBS_PER_PEER then (.error, t)
    else if subscribed msgId then
      -- the use counter of a peer's entry is not written
      (.success, t.append { t.subs t.subCnt with msgId := msgId, qos := qos })
    else (.error, t)

/-- The loop of `SBN_ProcessSubsFromPeer`, with no filter that remaps. -/
def processSubs (subscribed : MsgId → Bool) : Nat → Unpack → Table → Status × Table
  | 0, _, t => (.success, t)
  | n + 1, p, t =>
    let (msgId, p) := p.msgId
    let (qos, p) := p.qos
    match addSub subscribed msgId qos t with
    | (.success, t) => processSubs subscribed n p t
    | (.error, t) => (.error, t)

/-- `SBN_ProcessSubsFromPeer` -/
def processSubsFromPeer (ident : Ident) (subscribed : MsgId → Bool) (p : Unpack) (t : Table) :
    Status × Table :=
  let (versionHash, p) := p.data SBN_IDENT_LEN
  if strncmpEqual versionHash ident.octets then
    let (subCnt, p) := p.uint16
    processSubs subscribed subCnt.toNat p t
  else (.error, t)

/-- `ProcessUnsubFromPeer`. The entry is gone whether or not the local Software Bus agrees. -/
def processUnsubFromPeer (msgId : MsgId) (t : Table) : Table :=
  match t.find msgId with
  | none => t
  | some idx => t.remove idx

/-- The loop of `SBN_ProcessUnsubsFromPeer`. -/
def processUnsubs : Nat → Unpack → Table → Table
  | 0, _, t => t
  | n + 1, p, t =>
    let (msgId, p) := p.msgId
    let (_, p) := p.qos
    processUnsubs n p (processUnsubFromPeer msgId t)

/-- `SBN_ProcessUnsubsFromPeer`. A different version is only reported. -/
def processUnsubsFromPeer (p : Unpack) (t : Table) : Table :=
  let (_, p) := p.data SBN_IDENT_LEN
  let (subCnt, p) := p.uint16
  processUnsubs subCnt.toNat p t

/-- The subscription messages of `SBN_ProcessNetMsg`. -/
def processNetMsg (ident : Ident) (subscribed : MsgId → Bool) (older stack : Memory)
    (msg : NetMsg) (t : Table) : Table :=
  let p : Unpack := ⟨CFE_MISSION_SB_MAX_SB_MSG_SIZE, received msg.payload older, stack, 0⟩
  match msg.msgType with
  | .subMsg => (processSubsFromPeer ident subscribed p t).2
  | .unsubMsg => processUnsubsFromPeer p t
  | .protoMsg => t

end Nos3.Sbn

/-!
## A peer with filters

The filters of a peer may replace the MsgID of an entry, or refuse it. `remapMid` is what
they make of a MsgID one after the other, none where one of them reports an error.
-/
namespace Nos3.Sbn

/-- `ProcessSubFromPeer` -/
def processSubFromPeer (remapMid : MsgId → Option MsgId) (subscribed : MsgId → Bool)
    (msgId : MsgId) (qos : Qos) (t : Table) : Status × Table :=
  match remapMid msgId with
  | none => (.error, t)
  | some msgId => addSub subscribed msgId qos t

/-- The loop of `SBN_ProcessSubsFromPeer`. -/
def processFilteredSubs (remapMid : MsgId → Option MsgId) (subscribed : MsgId → Bool) :
    Nat → Unpack → Table → Status × Table
  | 0, _, t => (.success, t)
  | n + 1, p, t =>
    let (msgId, p) := p.msgId
    let (qos, p) := p.qos
    match processSubFromPeer remapMid subscribed msgId qos t with
    | (.success, t) => processFilteredSubs remapMid subscribed n p t
    | (.error, t) => (.error, t)

/-- `SBN_ProcessSubsFromPeer` -/
def processFilteredSubsFromPeer (ident : Ident) (remapMid : MsgId → Option MsgId)
    (subscribed : MsgId → Bool) (p : Unpack) (t : Table) : Status × Table :=
  let (versionHash, p) := p.data SBN_IDENT_LEN
  if strncmpEqual versionHash ident.octets then
    let (subCnt, p) := p.uint16
    processFilteredSubs remapMid subscribed subCnt.toNat p t
  else (.error, t)

/-- `ProcessUnsubFromPeer` -/
def processFilteredUnsub (remapMid : MsgId → Option MsgId) (msgId : MsgId) (t : Table) : Table :=
  match remapMid msgId with
  | none => t
  | some msgId => processUnsubFromPeer msgId t

/-- The loop of `SBN_ProcessUnsubsFromPeer`. -/
def processFilteredUnsubs (remapMid : MsgId → Option MsgId) : Nat → Unpack → Table → Table
  | 0, _, t => t
  | n + 1, p, t =>
    let (msgId, p) := p.msgId
    let (_, p) := p.qos
    processFilteredUnsubs remapMid n p (processFilteredUnsub remapMid msgId t)

/-- `SBN_ProcessUnsubsFromPeer` -/
def processFilteredUnsubsFromPeer (remapMid : MsgId → Option MsgId) (p : Unpack) (t : Table) :
    Table :=
  let (_, p) := p.data SBN_IDENT_LEN
  let (subCnt, p) := p.uint16
  processFilteredUnsubs remapMid subCnt.toNat p t

end Nos3.Sbn

/-!
## Framing

Every message goes out behind a header: its size, type and the identity of its sender. The
size is a signed number on the wire. `CFE_MISSION_SB_MAX_SB_MSG_SIZE` is a constant of the
mission and a parameter here.
-/
namespace Nos3.Sbn
open Base.BigEndian (Octet beOctets ofBe)
open Base.ByteMemory (Memory copyIn copyOut)

/-- `Pack_UInt8` -/
def Pack.uint8 (data : Octet) (p : Pack) : Pack := p.data (beOctets 1 data)

/-- `Pack_UInt32` -/
def Pack.uint32 (data : BitVec 32) (p : Pack) : Pack := p.data (beOctets 4 data)

/-- `Unpack_UInt8` -/
def Unpack.uint8 (p : Unpack) : Octet × Unpack := ((ofBe (p.data 1).1), (p.data 1).2)

/-- `Unpack_UInt32` -/
def Unpack.uint32 (p : Unpack) : BitVec 32 × Unpack := ((ofBe (p.data 4).1), (p.data 4).2)

/-- `Unpack_Data` into another buffer. -/
def Unpack.into (sz : Nat) (dst : Memory) (p : Unpack) : Memory × Unpack :=
  if p.bufUsed + sz > p.bufSz then (dst, p)
  else (copyIn dst 0 sz fun k => p.buf (p.bufUsed + k), { p with bufUsed := p.bufUsed + sz })

/-- An `SBN_MsgSz_t` as a `size_t`. -/
def sizeT (msgSz : BitVec 16) : BitVec 64 := msgSz.signExtend 64

/-- `SBN_PackMsg`: the octets it writes. `msg` is none for the null pointer. -/
def packMsg (msgSz : BitVec 16) (msgType : Octet) (processorId spacecraftId : BitVec 32)
    (msg : Option Memory) : List Octet :=
  let p : Pack := { bufSz := (sizeT msgSz + BitVec.ofNat 64 SBN_PACKED_HDR_SZ).toNat }
  let p := p.uint16 msgSz
  let p := p.uint8 msgType
  let p := p.uint32 processorId
  let p := p.uint32 spacecraftId
  match msg with
  | none => p.buf
  | some msg => if msgSz = 0 then p.buf else (p.data (copyOut msg 0 (sizeT msgSz).toNat)).buf

/-- What `SBN_UnpackMsg` returns and writes. -/
structure Unpacked where
  ok : Bool
  msgSz : BitVec 16
  msgType : Octet
  processorId : BitVec 32
  spacecraftId : BitVec 32
  msg : Memory

/-- `SBN_UnpackMsg` -/
def unpackMsg (maxMsgSz : Nat) (sbnBuf stack msg : Memory) : Unpacked :=
  let p : Unpack := ⟨SBN_PACKED_HDR_SZ + maxMsgSz, sbnBuf, stack, 0⟩
  let (msgSz, p) := p.uint16
  let (msgType, p) := p.uint8
  let (processorId, p) := p.uint32
  let (spacecraftId, p) := p.uint32
  if msgSz = 0 then ⟨true, msgSz, msgType, processorId, spacecraftId, msg⟩
  else if msgSz.toInt < 0 ∨ msgSz.toInt > maxMsgSz then
    ⟨false, msgSz, msgType, processorId, spacecraftId, msg⟩
  else ⟨true, msgSz, msgType, processorId, spacecraftId, (p.into (sizeT msgSz).toNat msg).1⟩

end Nos3.Sbn

/-!
## A node and its peers

One node with any number of nets and peers: reports of the local Software Bus, connections, the
messages on the way to each peer and the table each peer keeps for this node.
-/
namespace Nos3.Sbn
open Base.Transition
open Base.ByteMemory (Memory)
open Function (update)

/-- A peer by its net and its index there. -/
structure PeerAddr where
  netIdx : Nat
  peerIdx : Nat
  deriving DecidableEq, Repr

/-- The nets of a node. A datagram protocol sends to a peer that is not connected yet, a stream
protocol drops such messages silently. -/
structure Config where
  netCnt : Nat
  peerCnt : Nat → Nat
  datagram : PeerAddr → Bool
  ident : Ident

def Config.netPeers (config : Config) (netIdx : Nat) : List PeerAddr :=
  (List.range (config.peerCnt netIdx)).map fun peerIdx => ⟨netIdx, peerIdx⟩

/-- The order in which the loops over nets and peers visit them. -/
def Config.peers (config : Config) : List PeerAddr :=
  (List.range config.netCnt).flatMap config.netPeers

/-- A report of one subscription. -/
inductive Report
  | sub (msgId : MsgId) (qos : Qos)
  | unsub (msgId : MsgId)

/-- What arrives on the subscription pipe. -/
inductive PipeMsg
  | oneSub (report : Report)
  | allSubs (entries : List (MsgId × Qos))

def PipeMsg.reports : PipeMsg → List Report
  | .oneSub report => [report]
  | .allSubs entries => entries.map fun entry => .sub entry.1 entry.2

/-- `own` is the table of the node; `remote` is the table each peer keeps for the node, and
`link` what is on the way there. `reports` is the history of the subscription pipe. -/
structure Network where
  own : Table := {}
  connected : PeerAddr → Bool := fun _ => false
  link : PeerAddr → List NetMsg := fun _ => []
  remote : PeerAddr → Table := fun _ => {}
  reports : List Report := []

def Network.hasConn (config : Config) (s : Network) (peer : PeerAddr) : Bool :=
  config.datagram peer || s.connected peer

/-- `SBN_SendNetMsg`, where the `Send` of the protocol succeeds if `sent`. -/
def Network.sendNetMsg (sent hasConn : Bool) (msg : NetMsg) (peer : PeerAddr) (s : Network) :
    Status × Network :=
  if sent then
    (.success, if hasConn then { s with link := update s.link peer (s.link peer ++ [msg]) } else s)
  else (.error, s)

/-- The loop that sends every peer a message and stops at the first failure. -/
def Network.sendAll (config : Config) (sent : PeerAddr → Bool) (msg : PeerAddr → NetMsg) :
    List PeerAddr → Network → Status × Network
  | [], s => (.success, s)
  | peer :: peers, s =>
    match s.sendNetMsg (sent peer) (s.hasConn config peer) (msg peer) peer with
    | (.success, s) => s.sendAll config sent msg peers
    | (.error, s) => (.error, s)

/-- `ProcessLocalSub` -/
def Network.processLocalSub (config : Config) (sent : PeerAddr → Bool) (msgId : MsgId) (qos : Qos)
    (s : Network) : Status × Network :=
  if excluded msgId then (.success, s)
  else
    match s.own.find msgId with
    | some idx =>
      (.success, { s with own := s.own.setInUseCtr idx ((s.own.subs idx).inUseCtr + 1) })
    | none =>
      if s.own.subCnt ≥ SBN_MAX_SUBS_PER_PEER then (.error, s)
      else
        { s with own := s.own.append ⟨1, msgId, qos⟩ }.sendAll config sent
          (fun _ => localSubToPeer config.ident .subMsg msgId qos) config.peers

/-- `ProcessLocalUnsub`. The peers are told the entry at their own index, after the gap was
filled. -/
def Network.processLocalUnsub (config : Config) (sent : PeerAddr → Bool) (msgId : MsgId)
    (s : Network) : Status × Network :=
  match s.own.find msgId with
  | none => (.success, s)
  | some idx =>
    let ctr := (s.own.subs idx).inUseCtr - 1
    let own := s.own.setInUseCtr idx ctr
    if ctr > 0 then (.success, { s with own := own })
    else
      let own := own.remove idx
      { s with own := own }.sendAll config sent
        (fun peer => localSubToPeer config.ident .unsubMsg (own.subs peer.peerIdx).msgId
          (own.subs peer.peerIdx).qos) config.peers

/-- The loop of `SBN_ProcessAllSubscriptions`. -/
def Network.processEntries (config : Config) (sent : PeerAddr → Bool) :
    List (MsgId × Qos) → Network → Status × Network
  | [], s => (.success, s)
  | (msgId, qos) :: entries, s =>
    match s.processLocalSub config sent msgId qos with
    | (.success, s) => s.processEntries config sent entries
    | (.error, s) => (.error, s)

/-- `SBN_CheckSubscriptionPipe` and `SBN_ProcessAllSubscriptions`, with a message received. -/
def Network.checkSubscriptionPipe (config : Config) (sent : PeerAddr → Bool) (msg : PipeMsg)
    (s : Network) : Status × Network :=
  match msg with
  | .oneSub (.sub msgId qos) => s.processLocalSub config sent msgId qos
  | .oneSub (.unsub msgId) => s.processLocalUnsub config sent msgId
  | .allSubs entries =>
    if entries.length > CFE_SB_SUB_ENTRIES_PER_PKT then (.error, s)
    else s.processEntries config sent entries

/-- What the environment makes of `SBN_Connected`: whether the pipe is created with its options,
and whether each message is sent. -/
structure ConnectOutcome where
  pipe : Bool
  protoSent : Bool
  subsSent : Bool

def SBN_PROTO_VER : Base.BigEndian.Octet := 11

/-- The protocol version a peer is told first. -/
def protoMsg : NetMsg := ⟨.protoMsg, [SBN_PROTO_VER]⟩

/-- `SBN_Connected`. A protocol calls it once it has its own connection. -/
def Network.connect (config : Config) (outcome : ConnectOutcome) (peer : PeerAddr)
    (s : Network) : Network :=
  if s.connected peer then s
  else if outcome.pipe then
    match s.sendNetMsg outcome.protoSent true protoMsg peer with
    | (.error, s) => s
    | (.success, s) =>
      let (_, s) :=
        s.sendNetMsg outcome.subsSent true (localSubsToPeer config.ident s.own) peer
      { s with connected := update s.connected peer true }
  else s

inductive Event
  | report (msg : PipeMsg) (sent : PeerAddr → Bool)
  | connect (peer : PeerAddr) (outcome : ConnectOutcome)
  | deliver (peer : PeerAddr) (subscribed : MsgId → Bool) (older stack : Memory)

def Network.next (config : Config) (s : Network) : Event → Option Network
  | .report msg sent =>
    some { (s.checkSubscriptionPipe config sent msg).2 with reports := s.reports ++ msg.reports }
  | .connect peer outcome =>
    if peer ∈ config.peers then some (s.connect config outcome peer) else none
  | .deliver peer subscribed older stack =>
    match s.link peer with
    | [] => none
    | msg :: rest =>
      some { s with
        link := update s.link peer rest
        remote := update s.remote peer
          (processNetMsg config.ident subscribed older stack msg (s.remote peer)) }

def network (config : Config) : Machine Network Event where
  start s := s = {}
  next := Network.next config

end Nos3.Sbn
