import Nos3.Base.FileImage
import Nos3.Cf.Source.Chunk
import Nos3.Cf.Source.LogicalPdu
import Nos3.Cf.Source.Codec

/-!
# Transactions and the state their handlers run in (cf_cfdp_types.h, cf_tbldefs.h)

A handler gets a transaction by pointer and reaches its channel through it. Here
it runs in a `World`: the transaction by value, the channel, the other
transactions of the pool, and what the operating system and the software bus
will answer. Flags and state data of receiving and sending transactions share
storage in the source; a transaction is only ever one of the two between two
`CF_FreeTransaction` calls, so they are separate fields here. Events and
housekeeping counters other than the queue sizes are not modelled.
-/
namespace Nos3.Cf
open Nos3.Base.FileImage

abbrev Filename := List Octet

def filenameMaxPath : Nat := 44
def filenameMaxLen : Nat := 64
def r2CrcChunkSize : Nat := 1024
def maxSimultaneousRx : Nat := 5
def maxCommandedPlaybackFilesPerChan : Nat := 10

inductive TxnState
  | idle | r1 | s1 | r2 | s2 | drop
  deriving DecidableEq, Repr, Inhabited

inductive TxSubState
  | metadata | fileData | eof | waitForEofAck | waitForFin | sendFinAck
  deriving DecidableEq, Repr, Inhabited

inductive RxSubState
  | fileData | eof | waitForFinAck
  deriving DecidableEq, Repr, Inhabited

/-- `num` is the placeholder value a fresh history entry gets. -/
inductive Direction
  | rx | tx | num
  deriving DecidableEq, Repr, Inhabited

inductive QueueIdx
  | pend | txa | txw | rx | hist | histFree | free
  deriving DecidableEq, Repr, Inhabited

inductive TickType
  | rx | txwNorm | txwNak
  deriving DecidableEq, Repr, Inhabited

inductive CfdpClass
  | class1 | class2
  deriving DecidableEq, Repr, Inhabited

namespace ConditionCode
def noError : Octet := 0
def filestoreRejection : Octet := 4
def fileChecksumFailure : Octet := 5
def fileSizeError : Octet := 6
def nakLimitReached : Octet := 7
def inactivityDetected : Octet := 8
def cancelRequestReceived : Octet := 15

/-- The codes `CF_TxnStatus_To_ConditionCode` passes on unchanged. -/
def named : List Octet := [0, 1, 2, 3, 4, 5, 6, 7, 8, 9, 10, 11, 14, 15]
end ConditionCode

namespace FinDeliveryCode
def complete : Octet := 0
def incomplete : Octet := 1
end FinDeliveryCode

namespace FinFileStatus
def discarded : Octet := 0
def retained : Octet := 2
end FinFileStatus

namespace AckTxnStatus
def active : Octet := 1
def unrecognized : Octet := 3
end AckTxnStatus

/-- `CF_TxnStatus_t`: the values 0 to 15 are condition codes. -/
inductive TxnStatus
  | conditionCode (cc : Octet)
  | undefined
  | protocolError
  | ackLimitNoFin
  | ackLimitNoEof
  | nakResponseError
  | sendEofFailure
  | earlyFin
  deriving DecidableEq, Repr, Inhabited

namespace TxnStatus
def noError : TxnStatus := .conditionCode ConditionCode.noError
def filestoreRejection : TxnStatus := .conditionCode ConditionCode.filestoreRejection
def fileChecksumFailure : TxnStatus := .conditionCode ConditionCode.fileChecksumFailure
def fileSizeError : TxnStatus := .conditionCode ConditionCode.fileSizeError
def nakLimitReached : TxnStatus := .conditionCode ConditionCode.nakLimitReached
def inactivityDetected : TxnStatus := .conditionCode ConditionCode.inactivityDetected
def cancelRequestReceived : TxnStatus := .conditionCode ConditionCode.cancelRequestReceived

/-- `CF_TxnStatus_IsError`: greater than `NO_ERROR`. -/
def isError : TxnStatus → Bool
  | .undefined => false
  | .conditionCode cc => cc != ConditionCode.noError
  | _ => true

def toConditionCode (status : TxnStatus) : Octet :=
  if !status.isError then ConditionCode.noError
  else
    match status with
    | .conditionCode cc =>
      if cc ∈ ConditionCode.named then cc else ConditionCode.cancelRequestReceived
    | .ackLimitNoFin | .ackLimitNoEof => ConditionCode.inactivityDetected
    | _ => ConditionCode.cancelRequestReceived

def fromConditionCode (cc : Octet) : TxnStatus := .conditionCode cc
end TxnStatus

/-! ## Configuration -/

/-- `CF_ChannelConfig_t` of the transaction's channel. -/
structure ChannelConfig where
  maxOutgoingMessagesPerWakeup : Nat
  rxMaxMessagesPerWakeup : Nat
  ackTimerS : Nat
  inactivityTimerS : Nat
  ackLimit : Nat
  nakLimit : Nat
  dequeueEnabled : Bool
  deriving DecidableEq, Repr, Inhabited

/-- `CF_ConfigTable_t`, seen from one channel. -/
structure Config where
  ticksPerSecond : Nat
  rxCrcCalcBytesPerWakeup : Nat
  localEid : EntityId
  chan : ChannelConfig
  outgoingFileChunkSize : Nat
  tmpDir : Filename
  deriving DecidableEq, Repr, Inhabited

/-! ## Timers (cf_timer.c) -/

structure Timer where
  tick : Nat
  deriving DecidableEq, Repr, Inhabited

def timerSec2Ticks (cfg : Config) (sec : Nat) : Nat := toUint32 (sec * cfg.ticksPerSecond)
def timerInitRelSec (cfg : Config) (relSec : Nat) : Timer := ⟨timerSec2Ticks cfg relSec⟩
def timerExpired (t : Timer) : Bool := t.tick == 0
def timerTick (t : Timer) : Timer := ⟨t.tick - 1⟩

/-! ## Transactions -/

structure TxnFilenames where
  srcFilename : Filename
  dstFilename : Filename
  deriving DecidableEq, Repr, Inhabited

/-- `slot` is the entry's place in `engine.histories`, which its list node stands for. -/
structure History where
  slot : Nat
  fnames : TxnFilenames
  dir : Direction
  txnStat : TxnStatus
  srcEid : EntityId
  peerEid : EntityId
  seqNum : TransactionSeq
  deriving DecidableEq, Repr, Inhabited

structure FlagsCommon where
  qIndex : QueueIdx
  ackTimerArmed : Bool
  suspended : Bool
  canceled : Bool
  crcCalc : Bool
  deriving DecidableEq, Repr, Inhabited

structure FlagsRx where
  mdRecv : Bool
  eofRecv : Bool
  sendNak : Bool
  sendFin : Bool
  sendAck : Bool
  inactivityFired : Bool
  complete : Bool
  fdNakSent : Bool
  deriving DecidableEq, Repr, Inhabited

structure FlagsTx where
  mdNeedSend : Bool
  cmdTx : Bool
  deriving DecidableEq, Repr, Inhabited

/-- `++acknak_count`, a `uint8`. -/
def nextAcknakCount (count : Nat) : Nat := (count + 1) % 2 ^ 8

structure RxS2Data where
  eofCrc : BitVec 32
  eofSize : Nat
  rxCrcCalcBytes : Nat
  dc : Octet
  fs : Octet
  eofCc : Octet
  acknakCount : Nat
  deriving DecidableEq, Repr, Inhabited

structure RxStateData where
  subState : RxSubState
  cachedPos : Nat
  r2 : RxS2Data
  deriving DecidableEq, Repr, Inhabited

structure TxS2Data where
  finCc : Octet
  acknakCount : Nat
  deriving DecidableEq, Repr, Inhabited

structure TxStateData where
  subState : TxSubState
  cachedPos : Nat
  s2 : TxS2Data
  deriving DecidableEq, Repr, Inhabited

/-- An open file: its name, its content and the descriptor's position. -/
structure OpenFile where
  name : Filename
  file : ByteFile Octet
  deriving DecidableEq, Repr, Inhabited

/-- `CF_Transaction_t`. `chunks` and `p` are NULL where they are `none`, `fd` is
`OS_OBJECT_ID_UNDEFINED` there; the channel number is that of the `World`. The
default value is the cleared structure. -/
structure Transaction where
  state : TxnState
  history : History
  chunks : Option ChunkList
  inactivityTimer : Timer
  ackTimer : Timer
  fsize : Nat
  foffs : Nat
  fd : Option OpenFile
  crc : Crc
  keep : Bool
  priority : Nat
  p : Option Nat
  r : RxStateData
  s : TxStateData
  com : FlagsCommon
  rx : FlagsRx
  tx : FlagsTx
  deriving DecidableEq, Repr, Inhabited

/-- `t->chunks->chunks`. -/
def Transaction.chunkList (t : Transaction) : ChunkList := t.chunks.getD default

def Transaction.isError (t : Transaction) : Bool := t.history.txnStat.isError

def isSender (t : Transaction) : Bool := t.state == .s1 || t.state == .s2

/-- `CF_CFDP_GetClass(t) == CF_CFDP_CLASS_2`. -/
def isClass2 (t : Transaction) : Bool := t.state == .s2 || t.state == .r2

/-! ## The channel and the world of a handler -/

/-- A transaction pointer: into the pool, or to the temporary transaction on the
stack of `CF_CFDP_ReceiveMessage`. -/
inductive TxnRef
  | pool (i : Nat)
  | stack
  deriving DecidableEq, Repr, Inhabited

/-- `CF_Channel_t` with the channel's part of the housekeeping packet. The
history queues hold history entries, the others transactions. `numTs` are the
transaction counts of the playbacks transactions can belong to. -/
structure Channel where
  qs : QueueIdx → List TxnRef
  hist : List History
  histFree : List History
  qSize : QueueIdx → Nat
  cs : Direction → List ChunkList
  numCmdTx : Nat
  numTs : Nat → Nat
  cur : Option TxnRef
  tickType : TickType
  frozen : Bool

/-- A PDU under construction: `CF_Logical_PduBuffer_t` with its encoder. -/
structure OutPdu where
  penc : EncoderState
  pduHeader : PduHeader
  fdirective : PduFileDirectiveHeader
  intHeader : IntHeader
  deriving DecidableEq, Inhabited

/-- What the environment will answer, call by call. -/
abbrev Answers := Nat → Bool

structure World where
  self : TxnRef
  t : Transaction
  chan : Channel
  txns : Nat → Transaction
  seqNum : TransactionSeq
  outgoingCounter : Nat
  /-- Whether a message buffer can be had (throttling semaphore included), at each attempt. -/
  buffers : Answers
  /-- Whether the operating system carries out a file operation, at each call. -/
  fileOps : Answers
  /-- The files that are not open, by name. -/
  files : Filename → Option (List Octet)
  sent : List OutPdu
  /-- A NULL pointer was dereferenced. -/
  fault : Bool

/-- A transaction alone on its channel, with an environment that never refuses. -/
def quietWorld (t : Transaction) (files : Filename → Option (List Octet)) : World where
  self := .pool 0
  t := t
  chan :=
    { qs := fun q => if q = t.com.qIndex then [.pool 0] else []
      hist := []
      histFree := []
      qSize := fun q => if q = t.com.qIndex then 1 else 0
      cs := fun _ => []
      numCmdTx := 0
      numTs := fun _ => 0
      cur := none
      tickType := .rx
      frozen := false }
  txns := fun _ => default
  seqNum := 0
  outgoingCounter := 0
  buffers := fun _ => true
  fileOps := fun _ => true
  files := files
  sent := []
  fault := false

/-- `CF_CFDP_SetTxnStatus`: the first error stays. -/
def setTxnStatus (w : World) (txnStat : TxnStatus) : World :=
  if w.t.isError then w
  else { w with t := { w.t with history := { w.t.history with txnStat := txnStat } } }

end Nos3.Cf
