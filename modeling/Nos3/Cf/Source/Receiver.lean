import Nos3.Cf.Source.Sender

/-!
# Receiving transactions (cf_cfdp_r.c) and their dispatch (cf_cfdp_dispatch.c)

Results that the source returns as 0 and -1 are `true` and `false` here, in that
order. The loop over the stored file is bounded by what is left of the file,
which every round shortens.
-/
namespace Nos3.Cf
open Nos3.Base.FileImage

def r2SetFinTxnStatus (w : World) (txnStat : TxnStatus) : World :=
  { setTxnStatus w txnStat with t.rx.sendFin := true }

def r1Reset (w : World) : World := resetTransaction w true

def r2Reset (w : World) : World :=
  if w.t.r.subState = .waitForFinAck ∨ w.t.r.r2.eofCc ≠ ConditionCode.noError ∨
      w.t.isError = true ∨ w.t.com.canceled = true then
    r1Reset w
  else { w with t.rx.sendFin := true }

/-- The result is whether the checksum is the expected one. -/
def rCheckCrc (w : World) (expectedCrc : BitVec 32) : Bool × World :=
  let w := { w with t.crc := crcFinalize w.t.crc }
  (w.t.crc.result == expectedCrc, w)

/-! ## Completion -/

/-- Whether the search for a single gap finds one. -/
def r2HasGaps (t : Transaction) : Bool := !(chunkListComputeGaps t.chunkList 1 t.fsize 0).isEmpty

/-- `send_nak` of `CF_CFDP_R2_Complete`. -/
def r2NeedsNak (t : Transaction) : Bool := !t.rx.mdRecv || r2HasGaps t

/-- The NAK that is due counts against the limit; the result is whether the limit
was reached. -/
def r2CountNak (cfg : Config) (w : World) : Bool × World :=
  let w := { w with t.r.r2.acknakCount := nextAcknakCount w.t.r.r2.acknakCount }
  if w.t.r.r2.acknakCount ≥ cfg.chan.nakLimit then
    let w := setTxnStatus w .nakLimitReached
    (true, { w with t.r.r2.acknakCount := 0 })
  else (false, { w with t.rx.sendNak := true })

def r2Complete (cfg : Config) (w : World) (okToSendNak : Bool) : World :=
  if w.t.isError then w
  else
    let sendNak := r2NeedsNak w.t
    let sendFin := !sendNak && w.t.rx.eofRecv
    let (limit, w) := if sendNak && okToSendNak then r2CountNak cfg w else (false, w)
    let w :=
      if sendFin || limit then r2SetFinTxnStatus { w with t.rx.complete := true } .noError else w
    { w with t.r.subState := .fileData }

/-! ## Received PDUs -/

/-- `data_ptr` and `data_len` of a file data PDU. -/
def PduFileDataHeader.octetsOf (fd : PduFileDataHeader) : List Octet :=
  (fd.dataPtr.getD []).take fd.dataLen

def rProcessFd (w : World) (fd : PduFileDataHeader) : Bool × World :=
  match seekFrom w w.t.r.cachedPos fd.offset.toNat with
  | (false, w) => (false, setTxnStatus w .fileSizeError)
  | (true, w) =>
    match wrappedWrite w fd.octetsOf with
    | (some fret, w) =>
      if fret = fd.dataLen then
        (true, { w with t.r.cachedPos := toUint32 (fd.dataLen + fd.offset.toNat) })
      else (false, setTxnStatus w .filestoreRejection)
    | (none, w) => (false, setTxnStatus w .filestoreRejection)

/-- `CF_RxEofRet_t`. -/
inductive RxEofRet
  | success | badEof | fsizeMismatch
  deriving DecidableEq, Repr, Inhabited

def rSubstateRecvEof (t : Transaction) (ph : PduBuffer) : RxEofRet × PduEof :=
  let (ok, ph) := recvEof ph
  let eof := ph.intHeader.asEof
  if ok then
    if t.rx.mdRecv && eof.size.toNat != t.fsize then (.fsizeMismatch, eof) else (.success, eof)
  else (.badEof, eof)

def r1SubstateRecvEof : RecvHandler := fun w ph =>
  let (ret, eof) := rSubstateRecvEof w.t ph
  let w :=
    if ret = .success then
      let (ok, w) := rCheckCrc w eof.crc
      if ok then { w with t.keep := true } else w
    else w
  r1Reset w

def r2SubstateRecvEof (cfg : Config) : RecvHandler := fun w ph =>
  if w.t.rx.eofRecv then w
  else
    match rSubstateRecvEof w.t ph with
    | (.success, eof) =>
      let w :=
        { w with
          t.rx.eofRecv := true
          t.rx.sendAck := true
          t.r.r2.eofCrc := eof.crc
          t.r.r2.eofSize := eof.size.toNat
          t.r.r2.eofCc := eof.cc }
      if eof.cc = ConditionCode.noError then r2Complete cfg w true
      else r2Reset (setTxnStatus w (.fromConditionCode eof.cc))
    | (.fsizeMismatch, _) => r2SetFinTxnStatus w .fileSizeError
    | (.badEof, _) => { w with t.r.subState := .fileData }

/-- What both classes do with a file data PDU first. -/
def rReceiveFd (w : World) (ph : PduBuffer) : Bool × PduFileDataHeader × World :=
  let (ok, ph, w) := recvFd w ph
  let fd := ph.intHeader.asFd
  if ok then
    let (ok, w) := rProcessFd w fd
    (ok, fd, w)
  else (false, fd, w)

def r1SubstateRecvFileData : RecvHandler := fun w ph =>
  match rReceiveFd w ph with
  | (true, fd, w) => { w with t.crc := crcDigest w.t.crc fd.octetsOf }
  | (false, _, w) => r1Reset w

def r2SubstateRecvFileData (cfg : Config) : RecvHandler := fun w ph =>
  match rReceiveFd w ph with
  | (true, fd, w) =>
    let w := w.setChunkList (chunkListAdd w.t.chunkList fd.offset.toNat fd.dataLen)
    let w := if w.t.rx.fdNakSent then r2Complete cfg w false else w
    let w := if !w.t.rx.complete then armAckTimer cfg w else w
    { w with t.r.r2.acknakCount := 0 }
  | (false, _, w) => r2Reset w

def r2RecvFinAck : RecvHandler := fun w ph => if (recvAck ph).1 then r2Reset w else w

/-- The late metadata's last part: the temporary file gets its name. -/
def r2RenameFile (cfg : Config) (w : World) (fname : Filename) : World :=
  let dstFilename := w.t.history.fnames.dstFilename
  match osMv (wrappedClose w) fname dstFilename with
  | (false, w) => r2SetFinTxnStatus { w with t.fd := none } .filestoreRejection
  | (true, w) =>
    match wrappedOpen w dstFilename with
    | (false, w) => r2SetFinTxnStatus { w with t.fd := none } .filestoreRejection
    | (true, w) =>
      let w := { w with t.r.cachedPos := 0, t.rx.mdRecv := true, t.r.r2.acknakCount := 0 }
      r2Complete cfg w true

def r2RecvMd (cfg : Config) : RecvHandler := fun w ph =>
  if w.t.rx.mdRecv then w
  else
    let fname := w.t.history.fnames.dstFilename
    let (ok, w) := recvMd w ph
    if !ok then w
    else if w.t.rx.eofRecv && w.t.r.r2.eofSize != w.t.fsize then
      r2SetFinTxnStatus w .fileSizeError
    else r2RenameFile cfg w fname

/-- `CF_CFDP_R_DispatchRecv`: file data goes to `fdFn` unless the transaction has
failed. -/
def rDispatchRecv (w : World) (ph : PduBuffer)
    (dispatch : RxSubState → Octet → Option RecvHandler) (fdFn : RecvHandler) : World :=
  if ph.pduHeader.pduType = 0 then
    if ph.fdirective.directiveCode.toNat < fileDirectiveInvalidMax then
      match dispatch w.t.r.subState ph.fdirective.directiveCode with
      | some handler => handler w ph
      | none => w
    else w
  else if !w.t.isError then fdFn w ph
  else w

def r1SubstateFns (_ : RxSubState) (directiveCode : Octet) : Option RecvHandler :=
  if directiveCode = FileDirective.eof then some r1SubstateRecvEof else none

def r1Recv : RecvHandler := fun w ph =>
  rDispatchRecv w ph r1SubstateFns r1SubstateRecvFileData

def r2SubstateFns (cfg : Config) (subState : RxSubState) (directiveCode : Octet) :
    Option RecvHandler :=
  match subState with
  | .fileData | .eof =>
    if directiveCode = FileDirective.eof then some (r2SubstateRecvEof cfg)
    else if directiveCode = FileDirective.metadata then some (r2RecvMd cfg)
    else none
  | .waitForFinAck =>
    if directiveCode = FileDirective.eof then some (r2SubstateRecvEof cfg)
    else if directiveCode = FileDirective.ack then some r2RecvFinAck
    else none

def r2Recv (cfg : Config) : RecvHandler := fun w ph =>
  rDispatchRecv w ph (r2SubstateFns cfg) (r2SubstateRecvFileData cfg)

/-! ## The start and the end of a transaction -/

/-- `"%lu"`. -/
def decimal (n : Nat) : List Octet := (Nat.toDigits 10 n).map fun c => BitVec.ofNat 8 c.toNat

/-- `"%.*s/%lu.tmp"`, cut to what the buffer takes. -/
def tempFilename (cfg : Config) (seqNum : TransactionSeq) : Filename :=
  (cfg.tmpDir.take (filenameMaxPath - 1) ++ [47] ++ decimal seqNum.toNat ++ [46, 116, 109, 112]).take
    (filenameMaxLen - 2)

def rInit (cfg : Config) (w : World) : World :=
  let w :=
    if w.t.state = .r2 then
      let w :=
        if !w.t.rx.mdRecv then
          { w with t.history.fnames.dstFilename := tempFilename cfg w.t.history.seqNum }
        else w
      armAckTimer cfg w
    else w
  match wrappedCreate w w.t.history.fnames.dstFilename with
  | (true, w) => { w with t.r.subState := .fileData }
  | (false, w) =>
    let w := { w with t.fd := none }
    if w.t.state = .r2 then r2SetFinTxnStatus w .filestoreRejection else r1Reset w

def rCancel (w : World) : World :=
  if w.t.state = .r2 ∧ w.t.r.subState ≠ .waitForFinAck then { w with t.rx.sendFin := true }
  else r1Reset w

/-! ## What a tick sends -/

/-- The segment requests of a NAK, one for each gap while there is room. -/
def r2GapCompute (nak : PduNak) (c : Chunk) : PduNak :=
  if nak.segmentList.numSegments < pduMaxSegments then
    let offsetStart := BitVec.ofNat 32 c.offset - nak.scopeStart
    let segment : SegmentRequest := ⟨offsetStart, offsetStart + BitVec.ofNat 32 c.size⟩
    { nak with segmentList := ⟨nak.segmentList.segments ++ [segment]⟩ }
  else nak

/-- One gap fewer is asked for where the list is full. -/
def nakMaxGaps (chunks : ChunkList) : Nat :=
  if chunks.count < chunks.maxChunks then chunks.maxChunks else chunks.maxChunks - 1

def nakGaps (t : Transaction) : List Chunk :=
  chunkListComputeGaps t.chunkList (nakMaxGaps t.chunkList) t.fsize 0

/-- The buffer is taken before it is known whether there is something to ask for. -/
def rSubstateSendNak (cfg : Config) (w : World) : Bool × World :=
  match constructPduHeader cfg w FileDirective.nak w.t.history.peerEid cfg.localEid true
      w.t.history.seqNum with
  | (none, w) => (false, w)
  | (some ph, w) =>
    if w.t.rx.mdRecv then
      let gaps := nakGaps w.t
      if gaps.isEmpty then (true, { w with t.rx.complete := true })
      else
        let (sret, w) := sendNak w ph (gaps.foldl r2GapCompute default)
        (sret == .success, { w with t.rx.fdNakSent := true })
    else
      let (sret, w) := sendNak w ph ⟨0, 0, ⟨[⟨0, 0⟩]⟩⟩
      (sret == .success, w)

/-- The loop of `CF_CFDP_R2_CalcCrcChunk`; `countBytes` were read in this call.
The result is `success`. -/
def calcCrcLoop (cfg : Config) : Nat → Nat → World → Bool × World
  | 0, _, w => (true, w)
  | fuel + 1, countBytes, w =>
    let rxCrcCalcBytes := w.t.r.r2.rxCrcCalcBytes
    if countBytes < cfg.rxCrcCalcBytesPerWakeup ∧ rxCrcCalcBytes < w.t.fsize then
      let readSize :=
        if rxCrcCalcBytes + r2CrcChunkSize > w.t.fsize then w.t.fsize - rxCrcCalcBytes
        else r2CrcChunkSize
      match seekFrom w w.t.r.cachedPos rxCrcCalcBytes with
      | (false, w) => (false, setTxnStatus w .fileSizeError)
      | (true, w) =>
        match wrappedRead w readSize with
        | (some octets, w) =>
          if octets.length = readSize then
            calcCrcLoop cfg fuel (countBytes + readSize)
              { w with
                t.crc := crcDigest w.t.crc octets
                t.r.r2.rxCrcCalcBytes := rxCrcCalcBytes + readSize
                t.r.cachedPos := rxCrcCalcBytes + readSize }
          else (false, setTxnStatus w .fileSizeError)
        | (none, w) => (false, setTxnStatus w .fileSizeError)
    else (true, w)

/-- The result is whether the pass over the stored file has ended. -/
def r2CalcCrcChunk (cfg : Config) (w : World) : Bool × World :=
  let w := if w.t.r.r2.rxCrcCalcBytes = 0 then { w with t.crc := crcStart } else w
  let (success, w) := calcCrcLoop cfg (w.t.fsize - w.t.r.r2.rxCrcCalcBytes) 0 w
  if success && w.t.r.r2.rxCrcCalcBytes == w.t.fsize then
    let (ok, w) := rCheckCrc w w.t.r.r2.eofCrc
    let w :=
      if ok then
        { w with
          t.keep := true
          t.r.r2.dc := FinDeliveryCode.complete
          t.r.r2.fs := FinFileStatus.retained }
      else r2SetFinTxnStatus w .fileChecksumFailure
    (true, { w with t.com.crcCalc := true })
  else (false, w)

def r2SubstateSendFin (cfg : Config) (w : World) : Bool × World :=
  let (ended, w) :=
    if !w.t.isError && !w.t.com.crcCalc then r2CalcCrcChunk cfg w else (true, w)
  if ended then
    let (sret, w) := sendFin cfg w w.t.r.r2.dc w.t.r.r2.fs w.t.history.txnStat.toConditionCode
    (sret == .success, { w with t.r.subState := .waitForFinAck })
  else (false, w)

/-! ## Ticks -/

/-- The inactivity timer of a class 2 transaction fires once. -/
def rTickInactivity (w : World) : World :=
  if w.t.rx.inactivityFired then w
  else if timerExpired w.t.inactivityTimer then
    { r2SetFinTxnStatus w .inactivityDetected with t.rx.inactivityFired := true }
  else { w with t.inactivityTimer := timerTick w.t.inactivityTimer }

/-- At most one PDU a tick: an ACK of the EOF, a NAK or a FIN. -/
def rTickSend (cfg : Config) (w : World) : World :=
  if w.t.rx.sendAck then
    let (sret, w) := sendAck cfg w AckTxnStatus.active FileDirective.eof w.t.r.r2.eofCc
      w.t.history.peerEid w.t.history.seqNum
    if sret ≠ .noMsg then { w with t.rx.sendAck := false } else w
  else if w.t.rx.sendNak then
    let (ok, w) := rSubstateSendNak cfg w
    if ok then { w with t.rx.sendNak := false } else w
  else if w.t.rx.sendFin then
    let (ok, w) := r2SubstateSendFin cfg w
    if ok then { w with t.rx.sendFin := false } else w
  else w

def rTickAckTimer (cfg : Config) (w : World) : World :=
  if !w.t.com.ackTimerArmed then w
  else if !timerExpired w.t.ackTimer then { w with t.ackTimer := timerTick w.t.ackTimer }
  else if !w.t.rx.complete then armAckTimer cfg (r2Complete cfg w true)
  else if w.t.r.subState = .waitForFinAck then
    let w := { w with t.r.r2.acknakCount := nextAcknakCount w.t.r.r2.acknakCount }
    if w.t.r.r2.acknakCount ≥ cfg.chan.ackLimit then r2Reset (setTxnStatus w .ackLimitNoFin)
    else armAckTimer cfg { w with t.rx.sendFin := true }
  else armAckTimer cfg w

def rTick (cfg : Config) (w : World) : World :=
  if w.t.state = .r2 then rTickAckTimer cfg (rTickSend cfg (rTickInactivity w))
  else if timerExpired w.t.inactivityTimer then r1Reset w
  else { w with t.inactivityTimer := timerTick w.t.inactivityTimer }

end Nos3.Cf
