import Nos3.Cf.Source.PduOut
import Nos3.Cf.Source.Queues

/-!
# Sending transactions (cf_cfdp_s.c) and their dispatch (cf_cfdp_dispatch.c)

A handler is a function of the world. `sSendFileData` returns the number of bytes
it processed, 0 where there was no buffer and -1 on a file error, like the
source; `sCheckAndRespondNak` returns its three-way result.
-/
namespace Nos3.Cf
open Nos3.Base.FileImage

abbrev RecvHandler := World → PduBuffer → World

def sReset (w : World) : World := resetTransaction w true

def sSendEof (cfg : Config) (w : World) : SendRet × World :=
  let w :=
    if !w.t.com.crcCalc then { w with t.crc := crcFinalize w.t.crc, t.com.crcCalc := true } else w
  sendEof cfg w

def s1SubstateSendEof (cfg : Config) (w : World) : World :=
  match sSendEof cfg w with
  | (.noMsg, w) => w
  | (_, w) => sReset w

/-- The armed ack timer of a finished file has run down already, so the next tick
sends the EOF. -/
def s2SubstateSendEof (w : World) : World :=
  let w := { w with t.s.subState := .waitForEofAck, t.com.ackTimerArmed := true }
  insertSortPrio (dequeueTransaction w) .txw

/-! ## File data -/

/-- The smallest of the size asked for, the configured chunk size and the room
left in the PDU. -/
def actualBytes (cfg : Config) (penc : EncoderState) (bytesToRead : Nat) : Nat :=
  min (min penc.remain bytesToRead) cfg.outgoingFileChunkSize

/-- A file data PDU as it stands when its data header is encoded. -/
def fdPdu (ph : OutPdu) (foffs : Nat) : OutPdu :=
  let fd : PduFileDataHeader := { (default : PduFileDataHeader) with offset := BitVec.ofNat 32 foffs }
  { ph with
    intHeader := .fd fd
    penc := encodeFileDataHeader ph.penc (ph.pduHeader.segmentMetaFlag != 0) fd }

/-- The octets read go to the chunk reserved at `ptr`. -/
def putFileData (ph : OutPdu) (penc : EncoderState) (ptr : Nat) (octets : List Octet) : OutPdu :=
  { ph with
    intHeader := .fd { ph.intHeader.asFd with dataPtr := some octets, dataLen := octets.length }
    penc := penc.store ptr octets }

/-- What `CF_CFDP_S_SendFileData` does once it has a PDU. -/
def sSendFileDataPdu (cfg : Config) (w : World) (ph : OutPdu) (foffs bytesToRead : Nat)
    (calcCrc : Bool) : Int × World :=
  let ph := fdPdu ph foffs
  let n := actualBytes cfg ph.penc bytesToRead
  match doEncodeChunk ph.penc n, seekFrom w w.t.s.cachedPos foffs with
  | (some ptr, penc), (true, w) =>
    match wrappedRead w n with
    | (some octets, w) =>
      if octets.length = n then
        let w := { w with t.s.cachedPos := toUint32 (w.t.s.cachedPos + n) }
        match sendFd w (putFileData ph penc ptr octets) with
        | (.noMsg, w) => (0, w)
        | (.error, w) => (-1, w)
        | (.success, w) =>
          (n, if calcCrc then { w with t.crc := crcDigest w.t.crc octets } else w)
      else (-1, w)
    | (none, w) => (-1, w)
  | _, (_, w) => (-1, w)

def sSendFileData (cfg : Config) (w : World) (foffs bytesToRead : Nat) (calcCrc : Bool) :
    Int × World :=
  match constructPduHeader cfg w 0 cfg.localEid w.t.history.peerEid false w.t.history.seqNum with
  | (none, w) => (0, w)
  | (some ph, w) => sSendFileDataPdu cfg w ph foffs bytesToRead calcCrc

def sSubstateSendFileData (cfg : Config) (w : World) : World :=
  let bytesLeft := toUint32 (w.t.fsize + uint32Modulus - w.t.foffs)
  let (bytesProcessed, w) := sSendFileData cfg w w.t.foffs bytesLeft true
  if bytesProcessed > 0 then
    let w := { w with t.foffs := toUint32 (w.t.foffs + bytesProcessed.toNat) }
    if w.t.foffs = w.t.fsize then { w with t.s.subState := .eof } else w
  else if bytesProcessed < 0 then
    let w := setTxnStatus w .filestoreRejection
    { w with t.s.subState := .eof }
  else w

def World.setChunkList (w : World) (chunks : ChunkList) : World :=
  { w with t.chunks := some chunks }

/-- The result is 1 where a NAK was served, 0 where there is none to serve or no
buffer for its data, and -1 on a file error. -/
def sCheckAndRespondNak (cfg : Config) (w : World) : Int × World :=
  if w.t.tx.mdNeedSend then
    match sendMd cfg w with
    | (.error, w) => (-1, w)
    | (.success, w) => (1, { w with t.tx.mdNeedSend := false })
    | (.noMsg, w) => (1, w)
  else
    match chunkListGetFirstChunk w.t.chunkList with
    | none => (0, w)
    | some c =>
      let (ret, w) := sSendFileData cfg w c.offset c.size false
      if ret > 0 then
        (1, w.setChunkList (chunkListRemoveFromFirst w.t.chunkList ret.toNat))
      else if ret < 0 then (-1, w)
      else (0, w)

def s2SubstateSendFileData (cfg : Config) (w : World) : World :=
  let (ret, w) := sCheckAndRespondNak cfg w
  if ret = 0 then sSubstateSendFileData cfg w
  else if ret < 0 then sReset (setTxnStatus w .nakResponseError)
  else w

/-! ## The other sending sub-states -/

/-- The size of the open source file, which is left at its beginning. -/
def sSourceSize (w : World) : Bool × World :=
  match wrappedLseekEnd w with
  | (none, w) => (false, w)
  | (some size, w) =>
    let (status, w) := wrappedLseek { w with t.fsize := size } 0
    (status == some 0, w)

/-- The first half of `CF_CFDP_S_SubstateSendMetadata`: opens the source file and
takes its size. -/
def sOpenSource (w : World) : Bool × World :=
  if w.t.fd.isNone then
    let (alreadyOpen, w) := fileOpenCheck w
    if alreadyOpen then (false, w)
    else
      match wrappedOpen w w.t.history.fnames.srcFilename with
      | (false, w) => (false, w)
      | (true, w) => sSourceSize w
  else (true, w)

def sSubstateSendMetadata (cfg : Config) (w : World) : World :=
  match sOpenSource w with
  | (true, w) =>
    match sendMd cfg w with
    | (.success, w) => { w with t.s.subState := .fileData }
    | (.noMsg, w) => w
    | (.error, w) => sReset (setTxnStatus w .filestoreRejection)
  | (false, w) => sReset (setTxnStatus w .filestoreRejection)

def sSubstateSendFinAck (cfg : Config) (w : World) : World :=
  match sendAck cfg w AckTxnStatus.active FileDirective.fin w.t.s.s2.finCc w.t.history.peerEid
      w.t.history.seqNum with
  | (.noMsg, w) => w
  | (_, w) => sReset (setTxnStatus w .noError)

/-! ## Received directives -/

def s2EarlyFin : RecvHandler := fun w _ => sReset (setTxnStatus w .earlyFin)

/-- The FIN is not decoded before its condition code is kept. -/
def s2Fin : RecvHandler := fun w ph =>
  { w with t.s.s2.finCc := ph.intHeader.asFin.cc, t.s.subState := .sendFinAck }

/-- One round of the loop of `CF_CFDP_S2_Nak`. -/
def s2NakSegment (w : World) (sr : SegmentRequest) : World :=
  if sr.offsetStart = 0 ∧ sr.offsetEnd = 0 then { w with t.tx.mdNeedSend := true }
  else if sr.offsetEnd < sr.offsetStart then w
  else if sr.offsetEnd.toNat > w.t.fsize then w
  else
    w.setChunkList (chunkListAdd w.t.chunkList sr.offsetStart.toNat
      (sr.offsetEnd.toNat - sr.offsetStart.toNat))

def s2Nak : RecvHandler := fun w ph =>
  let (ok, ph) := recvNak ph
  if ok then ph.intHeader.asNak.segmentList.segments.foldl s2NakSegment w else w

def s2NakArm (cfg : Config) : RecvHandler := fun w ph => s2Nak (armAckTimer cfg w) ph

def s2WaitForEofAck : RecvHandler := fun w ph =>
  if (recvAck ph).1 then
    if w.t.isError then sReset w
    else { w with t.s.subState := .waitForFin, t.com.ackTimerArmed := false }
  else w

/-! ## Dispatch -/

/-- `CF_CFDP_FileDirective_INVALID_MAX`. -/
def fileDirectiveInvalidMax : Nat := 13

/-- `CF_CFDP_S_DispatchRecv`: file data and invalid directives are ignored, as is
a directive without a handler. -/
def sDispatchRecv (w : World) (ph : PduBuffer)
    (dispatch : TxSubState → Octet → Option RecvHandler) : World :=
  if ph.pduHeader.pduType = 0 ∧ ph.fdirective.directiveCode.toNat < fileDirectiveInvalidMax then
    match dispatch w.t.s.subState ph.fdirective.directiveCode with
    | some handler => handler w ph
    | none => w
  else w

def s1Recv : RecvHandler := fun w ph => sDispatchRecv w ph fun _ _ => none

def s2SubstateFns (cfg : Config) (subState : TxSubState) (directiveCode : Octet) :
    Option RecvHandler :=
  match subState with
  | .metadata => if directiveCode = FileDirective.fin then some s2EarlyFin else none
  | .fileData | .eof =>
    if directiveCode = FileDirective.fin then some s2EarlyFin
    else if directiveCode = FileDirective.nak then some s2Nak
    else none
  | .waitForEofAck =>
    if directiveCode = FileDirective.fin then some s2Fin
    else if directiveCode = FileDirective.ack then some s2WaitForEofAck
    else if directiveCode = FileDirective.nak then some (s2NakArm cfg)
    else none
  | .waitForFin =>
    if directiveCode = FileDirective.fin then some s2Fin
    else if directiveCode = FileDirective.nak then some (s2NakArm cfg)
    else none
  | .sendFinAck => if directiveCode = FileDirective.fin then some s2Fin else none

def s2Recv (cfg : Config) : RecvHandler := fun w ph => sDispatchRecv w ph (s2SubstateFns cfg)

def s1Tx (cfg : Config) (w : World) : World :=
  match w.t.s.subState with
  | .metadata => sSubstateSendMetadata cfg w
  | .fileData => sSubstateSendFileData cfg w
  | .eof => s1SubstateSendEof cfg w
  | _ => w

def s2Tx (cfg : Config) (w : World) : World :=
  match w.t.s.subState with
  | .metadata => sSubstateSendMetadata cfg w
  | .fileData => s2SubstateSendFileData cfg w
  | .eof => s2SubstateSendEof w
  | _ => w

/-- `CF_CFDP_DispatchTx` through `CF_CFDP_TxStateDispatch`. -/
def dispatchTx (cfg : Config) (w : World) : World :=
  match w.t.state with
  | .s1 => s1Tx cfg w
  | .s2 => s2Tx cfg w
  | _ => w

/-! ## Cancel and ticks -/

def sCancel (w : World) : World :=
  match w.t.s.subState with
  | .metadata | .fileData => { w with t.s.subState := .eof }
  | _ => w

/-- What `CF_CFDP_S_Tick` does with an armed ack timer; the result is
`early_exit`. -/
def sTickAckTimer (cfg : Config) (w : World) : Bool × World :=
  if !w.t.com.ackTimerArmed then (false, w)
  else if !timerExpired w.t.ackTimer then (false, { w with t.ackTimer := timerTick w.t.ackTimer })
  else if w.t.s.subState = .waitForEofAck then
    let w := { w with t.s.s2.acknakCount := nextAcknakCount w.t.s.s2.acknakCount }
    if w.t.s.s2.acknakCount ≥ cfg.chan.ackLimit then
      (true, sReset (setTxnStatus w .ackLimitNoEof))
    else
      match sSendEof cfg w with
      | (.noMsg, w) => (true, w)
      | (.error, w) => (true, sReset (setTxnStatus w .sendEofFailure))
      | (.success, w) => (false, armAckTimer cfg w)
  else (false, w)

def sTick (cfg : Config) (w : World) : World :=
  if w.t.state ≠ .s2 then w
  else if timerExpired w.t.inactivityTimer then sReset (setTxnStatus w .inactivityDetected)
  else
    let w := { w with t.inactivityTimer := timerTick w.t.inactivityTimer }
    let (earlyExit, w) := sTickAckTimer cfg w
    if !earlyExit && w.t.s.subState == .sendFinAck then sSubstateSendFinAck cfg w else w

/-- The result is whether `cont` is set. -/
def sTickNak (cfg : Config) (w : World) : Bool × World :=
  let (ret, w) := sCheckAndRespondNak cfg w
  (ret == 1, w)

end Nos3.Cf
