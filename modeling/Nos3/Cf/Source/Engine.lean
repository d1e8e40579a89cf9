import Nos3.Base.Transition
import Nos3.Cf.Source.Dispatch

/-!
# A channel of the engine (cf_cfdp.c, cf_cfdp_sbintf.c, cf_utils.c, cf_cmd.c)

Between two operations `self` is the stack and `t` the cleared transaction there;
an operation on a transaction takes it from the pool and puts it back. The loops
of `CF_CFDP_ReceiveMessage`, `CF_CFDP_TickTransactions`, `CF_CFDP_CycleTx` and of
the playback directories are taken apart: each round is a step of the machine,
in whatever order. Of a playback only the number of its transactions is kept.
-/
namespace Nos3.Cf
open Nos3.Base.Transition

def maxPollingDirPerChan : Nat := 5
def maxCommandedPlaybackDirectoriesPerChan : Nat := 2
def numTransactionsPerPlayback : Nat := 5
def numHistoriesPerChannel : Nat := 256

/-- The playback slots of a channel, polling directories included. -/
def numPlaybacksPerChannel : Nat := maxPollingDirPerChan + maxCommandedPlaybackDirectoriesPerChan

def numTransactionsPerChannel : Nat :=
  maxCommandedPlaybackFilesPerChan + maxSimultaneousRx +
    numPlaybacksPerChannel * numTransactionsPerPlayback

/-! ## Taking a transaction from the pool -/

def World.focus (w : World) (ref : TxnRef) : World := { w with self := ref, t := w.txnOf ref }

/-- The transaction goes back to where it is. -/
def World.rest (w : World) : World :=
  { w with
    self := .stack
    t := default
    txns := match w.self with
      | .pool i => fun j => if j = i then w.t else w.txns j
      | .stack => w.txns }

/-- The queues of the transactions that are under way, in the order they are searched. -/
def activeQueues : List QueueIdx := [.rx, .pend, .txa, .txw]

def findTransactionBySequenceNumber (w : World) (seqNum : TransactionSeq) (srcEid : EntityId) :
    Option TxnRef :=
  (activeQueues.flatMap w.chan.qs).find? fun ref =>
    (w.txnOf ref).history.srcEid == srcEid && (w.txnOf ref).history.seqNum == seqNum

/-- A free history entry, or the oldest one. -/
def takeHistory (c : Channel) : Option (History × Channel) :=
  match c.histFree, c.hist with
  | h :: rest, _ =>
    some (h, { c.setSize .histFree (c.qSize .histFree + 2 ^ 16 - 1) with histFree := rest })
  | [], h :: rest => some (h, { c.setSize .hist (c.qSize .hist + 2 ^ 16 - 1) with hist := rest })
  | [], [] => none

/-- The result is focused on the transaction. -/
def findUnusedTransaction (w : World) : Option World :=
  match w.chan.qs .free with
  | [] => none
  | ref :: _ =>
    let w := w.focus ref
    let c := listRemoveEx w.chan .free ref
    match takeHistory c with
    | some (h, c) => some { w with chan := c, t.history := { h with dir := .num } }
    | none => some { w with chan := c, fault := true }

/-! ## Received messages -/

/-- The transaction of the local entity is not known any more: the FIN is
acknowledged by a transaction on the stack. -/
def ackUnknownFin (cfg : Config) (w : World) (ph : PduBuffer) : World :=
  let (ok, ph) := recvFin ph
  if ok then
    let w := { w with t := initTxnTxFile default .class2 true 0 }
    let (ret, w) := sendAck cfg w AckTxnStatus.unrecognized FileDirective.fin ph.intHeader.asFin.cc
      ph.pduHeader.destinationEid ph.pduHeader.sequenceNum
    let w := if ret ≠ .noMsg then { w with chan.cur := none } else w
    w.rest
  else w

/-- The transaction joins the receiving ones with the FIN status it has by default. -/
def startRx (w : World) : World :=
  { w with
    t.history.dir := .rx
    t.r.r2.dc := FinDeliveryCode.incomplete
    t.r.r2.fs := FinFileStatus.discarded
    t.com.qIndex := .rx
    chan := listInsertBackEx w.chan .rx w.self }

/-- A PDU that belongs to no transaction. -/
def receiveUnknown (cfg : Config) (w : World) (ph : PduBuffer) : World :=
  if ph.pduHeader.sourceEid = cfg.localEid ∧ ph.fdirective.directiveCode = FileDirective.fin then
    ackUnknownFin cfg w ph
  else if ph.pduHeader.destinationEid = cfg.localEid then
    if w.chan.qSize .rx = maxSimultaneousRx then w
    else
      match findUnusedTransaction w with
      | some w => (dispatchRecv cfg (startRx w) ph).rest
      | none => { w with fault := true }
  else w

/-- A round of the loop of `CF_CFDP_ReceiveMessage`, for a message with this PDU. -/
def receiveMessage (cfg : Config) (w : World) (octets : List Octet) : World :=
  let (ok, ph) := recvPh (decodeStart octets 0 octets.length)
  if ok then
    match findTransactionBySequenceNumber w ph.pduHeader.sequenceNum ph.pduHeader.sourceEid with
    | some ref => (dispatchRecv cfg (w.focus ref) ph).rest
    | none => receiveUnknown cfg w ph
  else w

/-! ## Requests -/

/-- A file request of the ground or of a playback. -/
structure FileRequest where
  fnames : TxnFilenames
  cfdpClass : CfdpClass
  keep : Bool
  priority : Nat
  destId : EntityId

/-- `strncpy` into a name's buffer, or `snprintf`. -/
def cutFilename (fname : Filename) : Filename := fname.take (filenameMaxLen - 1)

def initiate (cfg : Config) (w : World) (request : FileRequest) : World :=
  txFileInitiate cfg
    (w.setFnames ⟨cutFilename request.fnames.srcFilename, cutFilename request.fnames.dstFilename⟩)
    request.cfdpClass request.keep request.priority request.destId

def txFile (cfg : Config) (w : World) (request : FileRequest) : World :=
  if w.chan.numCmdTx = maxCommandedPlaybackFilesPerChan then w
  else
    match findUnusedTransaction w with
    | some w =>
      let w := initiate cfg w request
      { w with chan.numCmdTx := w.chan.numCmdTx + 1, t.tx.cmdTx := true }.rest
    | none => { w with fault := true }

/-- A round of the loop of `CF_CFDP_ProcessPlaybackDirectory` for the `p`-th playback and
a file of its directory. -/
def processPlaybackDirectory (cfg : Config) (w : World) (p : Nat) (request : FileRequest) : World :=
  if p < numPlaybacksPerChannel ∧ w.chan.numTs p < numTransactionsPerPlayback then
    match findUnusedTransaction w with
    | some w =>
      let w := initiate cfg w request
      { w with
        t.p := some p
        chan.numTs := fun p' => if p' = p then w.chan.numTs p + 1 else w.chan.numTs p' }.rest
    | none => { w with fault := true }
  else w

/-! ## Ticks and the transmit cycle -/

/-- `qs` of `CF_CFDP_TickTransactions`. -/
def TickType.queue : TickType → QueueIdx
  | .rx => .rx
  | .txwNorm | .txwNak => .txw

/-- `fns` of `CF_CFDP_TickTransactions`. -/
def TickType.fn (cfg : Config) : TickType → World → World
  | .rx => rTick cfg
  | .txwNorm => sTick cfg
  | .txwNak => fun w => (sTickNak cfg w).2

def doTick (cfg : Config) (w : World) (ref : TxnRef) : World :=
  if w.chan.cur = none ∨ w.chan.cur = some ref then
    let w := { w with chan.cur := none }
    if (w.txnOf ref).com.suspended then w else (w.chan.tickType.fn cfg (w.focus ref)).rest
  else w

/-- A round of the loop of `CF_CFDP_CycleTxFirstActive`. -/
def cycleTxActive (cfg : Config) (w : World) (ref : TxnRef) : World :=
  if (w.txnOf ref).com.suspended = true ∨ w.chan.cur ≠ none then w
  else (dispatchTx cfg (w.focus ref)).rest

/-- `CF_CFDP_CycleTx` activates the first transaction that waits. -/
def activatePending (w : World) : World :=
  match w.chan.qs .pend with
  | [] => w
  | ref :: _ => (moveTransaction (w.focus ref) .txa).rest

/-! ## The machine -/

/-- What is outside of the channel: the other channels with the sequence number and the count
of messages they share with it, the file system and the operating system. -/
structure Outside where
  seqNum : TransactionSeq
  outgoingCounter : Nat
  buffers : Answers
  fileOps : Answers
  files : Filename → Option (List Octet)

def World.facing (w : World) (o : Outside) : World :=
  { w with
    seqNum := o.seqNum
    outgoingCounter := o.outgoingCounter
    buffers := o.buffers
    fileOps := o.fileOps
    files := o.files }

inductive EngineEvent
  | receive (octets : List Octet)
  | txFile (request : FileRequest)
  | playback (p : Nat) (request : FileRequest)
  | tick (ref : TxnRef)
  | nextTickType (tickType : TickType)
  | cycleTx (ref : TxnRef)
  | activate
  | cycleEnd
  | suspend (ref : TxnRef) (action : Bool)
  | cancel (ref : TxnRef)
  | abandon (ref : TxnRef)
  | freeze (frozen : Bool)

structure EngineLabel where
  outside : Outside
  event : EngineEvent

/-- Whether the transaction is under way. -/
def Channel.isActive (c : Channel) (ref : TxnRef) : Bool :=
  activeQueues.any fun q => decide (ref ∈ c.qs q)

/-- Whether the engine or the ground can bring the event about. -/
def EngineEvent.enabled (c : Channel) (dequeueEnabled : Bool) : EngineEvent → Bool
  | .receive _ | .txFile _ | .freeze _ => true
  | .playback _ _ | .nextTickType _ => !c.frozen
  | .tick ref => !c.frozen && decide (ref ∈ c.qs c.tickType.queue)
  | .cycleTx ref => !c.frozen && dequeueEnabled && decide (ref ∈ c.qs .txa)
  | .activate => !c.frozen && dequeueEnabled && c.cur.isNone
  | .cycleEnd => !c.frozen && dequeueEnabled
  | .suspend ref _ | .cancel ref | .abandon ref => c.isActive ref

def engineStep (cfg : Config) (w : World) : EngineEvent → World
  | .receive octets => receiveMessage cfg w octets
  | .txFile request => txFile cfg w request
  | .playback p request => processPlaybackDirectory cfg w p request
  | .tick ref => doTick cfg w ref
  | .nextTickType tickType => { w with chan.tickType := tickType }
  | .cycleTx ref => cycleTxActive cfg w ref
  | .activate => activatePending w
  | .cycleEnd => { w with chan.cur := none }
  | .suspend ref action =>
    let w := w.focus ref
    { w with t.com.suspended := action }.rest
  | .cancel ref => (cancelTransaction (w.focus ref)).rest
  | .abandon ref => (resetTransaction (w.focus ref) false).rest
  | .freeze frozen => { w with chan.frozen := frozen }

/-- `CF_CFDP_InitEngine`, for one channel. -/
def initEngine (maxChunks : Direction → Nat) : World where
  self := .stack
  t := default
  chan :=
    { qs := fun q =>
        if q = .free then (List.range numTransactionsPerChannel).map TxnRef.pool else []
      hist := []
      histFree := (List.range numHistoriesPerChannel).map fun i => { (default : History) with slot := i }
      qSize := fun q =>
        if q = .free then numTransactionsPerChannel
        else if q = .histFree then numHistoriesPerChannel else 0
      cs := fun dir => List.replicate numTransactionsPerChannel (chunkListInit (maxChunks dir))
      numCmdTx := 0
      numTs := fun _ => 0
      cur := none
      tickType := .rx
      frozen := false }
  txns := fun _ => freedTransaction
  seqNum := 0
  outgoingCounter := 0
  buffers := fun _ => true
  fileOps := fun _ => true
  files := fun _ => none
  sent := []
  fault := false

/-- The channel from its start; a fault ends the run. -/
def engine (cfg : Config) (maxChunks : Direction → Nat) : Machine World EngineLabel where
  start w := w = initEngine maxChunks
  next w label :=
    if w.fault = false ∧ label.event.enabled w.chan cfg.chan.dequeueEnabled = true then
      some (engineStep cfg (w.facing label.outside) label.event)
    else none

end Nos3.Cf
