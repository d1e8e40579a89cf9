import Nos3.Cf.Source.Receiver
import Nos3.Base.Transition

/-!
# State dispatch, new transactions and cancellation (cf_cfdp.c, cf_cfdp_dispatch.c)

`dispatchRecv` hands a PDU to the state of the transaction it belongs to. A
transaction that was just taken for it is idle and becomes a receiving one in
`recvIdle`, which dispatches a file data PDU a second time.
-/
namespace Nos3.Cf

/-- `CF_CFDP_FindUnusedChunks`. -/
def findUnusedChunks (c : Channel) (dir : Direction) : Option ChunkList × Channel :=
  ((c.cs dir).head?, { c with cs := fun d => if d = dir then (c.cs d).tail else c.cs d })

/-- `CF_CFDP_RxStateDispatch` on a transaction that is not idle. -/
def rxStateDispatch (cfg : Config) : RecvHandler := fun w ph =>
  match w.t.state with
  | .r1 => r1Recv w ph
  | .s1 => s1Recv w ph
  | .r2 => r2Recv cfg w ph
  | .s2 => s2Recv cfg w ph
  | .idle | .drop => w

/-- The transaction is bound to the PDU's source and sequence number. -/
def bindTransaction (w : World) (hdr : PduHeader) : World :=
  let (chunks, c) := findUnusedChunks w.chan .rx
  { w with
    chan := c
    t.chunks := chunks
    t.history.seqNum := hdr.sequenceNum
    t.history.peerEid := hdr.sourceEid
    t.history.srcEid := hdr.sourceEid }

def recvIdleFd (cfg : Config) (w : World) (ph : PduBuffer) : World :=
  if ph.pduHeader.txmMode ≠ 0 then { w with t.state := .drop }
  else
    let w := rInit cfg { w with t.state := .r2 }
    armInactTimer cfg (rxStateDispatch cfg w ph)

def recvIdleDirective (cfg : Config) (w : World) (ph : PduBuffer) : World :=
  if ph.fdirective.directiveCode = FileDirective.metadata then
    let (ok, w) := recvMd w ph
    if ok then
      let state := if ph.pduHeader.txmMode ≠ 0 then TxnState.r1 else TxnState.r2
      rInit cfg { w with t.state := state, t.rx.mdRecv := true }
    else w
  else w

def recvIdle (cfg : Config) : RecvHandler := fun w ph =>
  let w := bindTransaction w ph.pduHeader
  let w :=
    if ph.pduHeader.pduType ≠ 0 then recvIdleFd cfg w ph else recvIdleDirective cfg w ph
  if w.t.state = .idle then resetTransaction w false else w

def dispatchRecv (cfg : Config) : RecvHandler := fun w ph =>
  let w := if w.t.state = .idle then recvIdle cfg w ph else rxStateDispatch cfg w ph
  armInactTimer cfg w

def cancelTransaction (w : World) : World :=
  if w.t.com.canceled then w
  else
    let w := setTxnStatus { w with t.com.canceled := true } .cancelRequestReceived
    if isSender w.t then sCancel w else rCancel w

/-! ## Transactions that were just taken -/

/-- What `CF_FindUnusedTransaction` returns: a free transaction with a history
entry whose content is whatever the entry held. -/
def unusedTransaction (history : History) : Transaction :=
  { freedTransaction with history := { history with dir := .num } }

/-- An unused transaction as `CF_CFDP_ReceiveMessage` prepares it for a PDU. -/
def rxTransaction (history : History) : Transaction :=
  { unusedTransaction history with
    history.dir := .rx
    r.r2.dc := FinDeliveryCode.incomplete
    r.r2.fs := FinFileStatus.discarded
    com.qIndex := .rx }

def initTxnTxFile (t : Transaction) (cfdpClass : CfdpClass) (keep : Bool) (priority : Nat) :
    Transaction :=
  { t with
    priority := priority
    keep := keep
    state := if cfdpClass = .class2 then .s2 else .s1 }

/-- `CF_CFDP_TxFile_Initiate` on an unused transaction with its file names set. -/
def txFileInitiate (cfg : Config) (w : World) (cfdpClass : CfdpClass) (keep : Bool)
    (priority : Nat) (destId : EntityId) : World :=
  let w := { w with t := initTxnTxFile w.t cfdpClass keep priority, seqNum := w.seqNum + 1 }
  let w :=
    { w with
      t.history.dir := .tx
      t.history.seqNum := w.seqNum
      t.history.srcEid := cfg.localEid
      t.history.peerEid := destId }
  let w := armInactTimer cfg w
  let (chunks, c) := findUnusedChunks w.chan .tx
  insertSortPrio { w with chan := c, t.chunks := chunks } .pend

end Nos3.Cf

/-!
## The runs of one transaction

One transaction among the others of its channel: before every step the rest of
the system may have changed everything but the transaction itself, and the ground
may have suspended or resumed it. A step is a call the engine makes. The runs end
where the transaction is freed. The receiver's record of PDUs is not read by
any step.
-/
namespace Nos3.Cf
open Nos3.Base.Transition

/-- What the rest of the system decides before a step. -/
structure Surroundings where
  chan : Channel
  txns : Nat → Transaction
  seqNum : TransactionSeq
  outgoingCounter : Nat
  buffers : Answers
  fileOps : Answers
  files : Filename → Option (List Octet)
  suspended : Bool

def World.within (w : World) (e : Surroundings) : World :=
  { w with
    chan := e.chan
    txns := e.txns
    seqNum := e.seqNum
    outgoingCounter := e.outgoingCounter
    buffers := e.buffers
    fileOps := e.fileOps
    files := e.files
    t.com.suspended := e.suspended }

/-- The surroundings that change nothing. -/
def World.surroundings (w : World) : Surroundings :=
  ⟨w.chan, w.txns, w.seqNum, w.outgoingCounter, w.buffers, w.fileOps, w.files, w.t.com.suspended⟩

/-- A message's PDU as it is dispatched: its header is decoded. -/
def receivedPdu (octets : List Octet) : PduBuffer := (recvPh (decodeStart octets 0 octets.length)).2

/-- Whether the engine steps the transaction by itself: it skips suspended
transactions and frozen channels. -/
def Surroundings.active (e : Surroundings) : Bool := !e.suspended && !e.chan.frozen

/-! ## A sending transaction -/

inductive SenderEvent
  | tx
  | tick
  | tickNak
  | recv (ph : PduBuffer)
  | cancel

/-- Whether the engine brings an event about by itself. -/
def SenderEvent.isCycle : SenderEvent → Bool
  | .tx | .tick | .tickNak => true
  | .recv _ | .cancel => false

structure SenderLabel where
  env : Surroundings
  event : SenderEvent

/-- The world of the transaction, and the content of its source file as the open
descriptor sees it, or saw it last. -/
structure SenderState where
  w : World
  source : List Octet

def senderStep (cfg : Config) (w : World) : SenderEvent → World
  | .tx => dispatchTx cfg w
  | .tick => sTick cfg w
  | .tickNak => (sTickNak cfg w).2
  | .recv ph => dispatchRecv cfg w ph
  | .cancel => cancelTransaction w

def contentSeen (t : Transaction) (source : List Octet) : List Octet :=
  match t.fd with
  | some f => f.file.data
  | none => source

def senderNext (cfg : Config) (s : SenderState) (label : SenderLabel) : Option SenderState :=
  if s.w.t.state = .idle ∨ label.event.isCycle = true ∧ label.env.active = false then none
  else
    let w := senderStep cfg (s.w.within label.env) label.event
    some ⟨w, contentSeen w.t s.source⟩

/-- A transaction that was just initiated, in any world with a free chunk list. -/
def sender (cfg : Config) : Machine SenderState SenderLabel where
  start s := ∃ (w₀ : World) (history : History) (cfdpClass : CfdpClass) (keep : Bool)
    (priority : Nat) (destId : EntityId), w₀.t = unusedTransaction history ∧ w₀.sent = [] ∧
      (w₀.chan.cs .tx).head?.isSome ∧ s.w = txFileInitiate cfg w₀ cfdpClass keep priority destId
  next := senderNext cfg

/-! ## A receiving transaction -/

inductive ReceiverEvent
  | recv (ph : PduBuffer)
  | tick
  | cancel

def ReceiverEvent.isCycle : ReceiverEvent → Bool
  | .tick => true
  | .recv _ | .cancel => false

structure ReceiverLabel where
  env : Surroundings
  event : ReceiverEvent

/-- The world of the transaction and the PDUs it was handed, oldest first. -/
structure ReceiverState where
  w : World
  received : List PduBuffer

def receiverStep (cfg : Config) (s : ReceiverState) : ReceiverEvent → ReceiverState
  | .recv ph => ⟨dispatchRecv cfg s.w ph, s.received ++ [ph]⟩
  | .tick => ⟨rTick cfg s.w, s.received⟩
  | .cancel => ⟨cancelTransaction s.w, s.received⟩

def receiverNext (cfg : Config) (s : ReceiverState) (label : ReceiverLabel) :
    Option ReceiverState :=
  if s.w.t.state = .idle ∨ label.event.isCycle = true ∧ label.env.active = false then none
  else some (receiverStep cfg ⟨s.w.within label.env, s.received⟩ label.event)

/-- A transaction that was just taken for a PDU, in any world whose next free
chunk list meets `fresh`. -/
def receiver (cfg : Config) (fresh : ChunkList → Prop) : Machine ReceiverState ReceiverLabel where
  start s := ∃ (w₀ : World) (history : History) (chunks : ChunkList) (ph : PduBuffer),
    w₀.t = rxTransaction history ∧ (w₀.chan.cs .rx).head? = some chunks ∧ fresh chunks ∧
      s = ⟨dispatchRecv cfg w₀ ph, [ph]⟩
  next := receiverNext cfg

end Nos3.Cf
