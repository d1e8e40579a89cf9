import Nos3.Cf.Source.Transaction

/-!
# Outgoing PDUs (cf_cfdp_sbintf.c, cf_cfdp.c) and PDUs that change a transaction

A PDU is built in a message buffer, closed and sent. Getting the buffer is what
can fail, and where it fails `cur` remembers the transaction for the next wakeup.
`SendFrame` says what a sending function leaves alone: everything but `cur`, the
answers about buffers, the count of outgoing messages and the list of PDUs sent.
-/
namespace Nos3.Cf

/-- `CF_SendRet_t`. -/
inductive SendRet
  | success | noMsg | error
  deriving DecidableEq, Repr, Inhabited

/-- `CF_CFDP_EncodeStart`, from the PDU header on: the telemetry header in front
of it is not modelled. -/
def encodeStart : OutPdu where
  penc := ⟨codecReset maxPduSize, List.replicate maxPduSize 0⟩
  pduHeader := default
  fdirective := default
  intHeader := .unset

def World.setCur (w : World) (ref : TxnRef) : World :=
  { w with chan := { w.chan with cur := some ref } }

/-- Without a buffer the transaction is remembered, except where the channel is
frozen or the transaction suspended. -/
def msgOutGet (cfg : Config) (w : World) : Option OutPdu × World :=
  let limit := cfg.chan.maxOutgoingMessagesPerWakeup
  if limit ≠ 0 ∧ w.outgoingCounter = limit then (none, w.setCur w.self)
  else if !w.chan.frozen && !w.t.com.suspended then
    let available := w.buffers 0
    let w := { w with buffers := fun n => w.buffers (n + 1) }
    if available then
      (some encodeStart, { w with outgoingCounter := toUint32 (w.outgoingCounter + 1) })
    else (none, w.setCur w.self)
  else (none, w)

def octetOfBool (b : Bool) : Octet := if b then 1 else 0

/-- The header fields of a PDU of `t`; a directive code of zero means file data. -/
def outPduHeader (t : Transaction) (directiveCode : Octet) (srcEid dstEid : EntityId)
    (towardsSender : Bool) (tsn : TransactionSeq) : PduHeader :=
  let largerEid := if srcEid > dstEid then srcEid else dstEid
  { (default : PduHeader) with
    version := 1
    pduType := octetOfBool (directiveCode == 0)
    direction := octetOfBool towardsSender
    txmMode := octetOfBool (!isClass2 t)
    eidLength := getValueEncodedSize (largerEid.setWidth 64)
    txnSeqLength := getValueEncodedSize (tsn.setWidth 64)
    sourceEid := srcEid
    destinationEid := dstEid
    sequenceNum := tsn }

def startPdu (ph : OutPdu) (hdr : PduHeader) (directiveCode : Octet) : OutPdu :=
  let (penc, hdr) := encodeHeaderWithoutSize ph.penc hdr
  let ph := { ph with penc := penc, pduHeader := hdr }
  if directiveCode ≠ 0 then
    { ph with
      fdirective := ⟨directiveCode⟩
      penc := encodeFileDirectiveHeader ph.penc ⟨directiveCode⟩ }
  else ph

def constructPduHeader (cfg : Config) (w : World) (directiveCode : Octet)
    (srcEid dstEid : EntityId) (towardsSender : Bool) (tsn : TransactionSeq) :
    Option OutPdu × World :=
  let hdr := outPduHeader w.t directiveCode srcEid dstEid towardsSender tsn
  let (ph, w) := msgOutGet cfg w
  (ph.map fun ph => startPdu ph hdr directiveCode, w)

/-- `CF_CFDP_SetPduLength`. -/
def closePdu (ph : OutPdu) : OutPdu :=
  let (penc, hdr) := setPduLength ph.penc ph.pduHeader
  { ph with penc := penc, pduHeader := hdr }

/-- `CF_CFDP_SetPduLength` and `CF_CFDP_Send`. -/
def closeAndSend (w : World) (ph : OutPdu) : World := { w with sent := w.sent ++ [closePdu ph] }

/-- The octets of a closed PDU. -/
def OutPdu.wire (ph : OutPdu) : List Octet := ph.penc.base.take ph.penc.position

/-- What the senders of directives share: `fill` writes the directive's fields
into the PDU. -/
def sendDirective (out : Option OutPdu × World) (fill : OutPdu → OutPdu) : SendRet × World :=
  match out with
  | (none, w) => (.noMsg, w)
  | (some ph, w) => (.success, closeAndSend w (fill ph))

/-! ## The senders -/

def lvOfString (name : Filename) : Lv :=
  ⟨BitVec.ofNat 8 (min name.length filenameMaxLen), some name⟩

def fillMd (t : Transaction) (ph : OutPdu) : OutPdu :=
  let md : PduMd :=
    { (default : PduMd) with
      size := BitVec.ofNat 32 t.fsize
      sourceFilename := lvOfString t.history.fnames.srcFilename
      destFilename := lvOfString t.history.fnames.dstFilename }
  { ph with intHeader := .md md, penc := encodeMd ph.penc md }

def sendMd (cfg : Config) (w : World) : SendRet × World :=
  sendDirective
    (constructPduHeader cfg w FileDirective.metadata cfg.localEid w.t.history.peerEid false
      w.t.history.seqNum)
    (fillMd w.t)

/-- The caller already has the buffer. -/
def sendFd (w : World) (ph : OutPdu) : SendRet × World := (.success, closeAndSend w ph)

def appendTlv (cfg : Config) (ptlvList : TlvList) (tlvType : Octet) : TlvList :=
  if ptlvList.numTlv < pduMaxTlv then
    let ptlv : Tlv :=
      if tlvType = tlvTypeEntityId then
        ⟨tlvType, getValueEncodedSize (cfg.localEid.setWidth 64), .eid cfg.localEid⟩
      else ⟨tlvType, 0, .dataPtr none⟩
    ⟨ptlvList.tlv ++ [ptlv]⟩
  else ptlvList

/-- A condition code that is an error comes with the local entity id. -/
def faultTlv (cfg : Config) (cc : Octet) : TlvList :=
  if cc ≠ ConditionCode.noError then appendTlv cfg ⟨[]⟩ tlvTypeEntityId else ⟨[]⟩

def fillEof (cfg : Config) (t : Transaction) (ph : OutPdu) : OutPdu :=
  let cc := t.history.txnStat.toConditionCode
  let eof : PduEof := ⟨cc, t.crc.result, BitVec.ofNat 32 t.fsize, faultTlv cfg cc⟩
  { ph with intHeader := .eof eof, penc := encodeEof ph.penc eof }

def sendEof (cfg : Config) (w : World) : SendRet × World :=
  sendDirective
    (constructPduHeader cfg w FileDirective.eof cfg.localEid w.t.history.peerEid false
      w.t.history.seqNum)
    (fillEof cfg w.t)

def fillAck (ts dirCode cc : Octet) (ph : OutPdu) : OutPdu :=
  let ack : PduAck := ⟨dirCode, 1, cc, ts⟩
  { ph with intHeader := .ack ack, penc := encodeAck ph.penc ack }

def sendAck (cfg : Config) (w : World) (ts dirCode cc : Octet) (peerEid : EntityId)
    (tsn : TransactionSeq) : SendRet × World :=
  let srcEid := if isSender w.t then cfg.localEid else peerEid
  let dstEid := if isSender w.t then peerEid else cfg.localEid
  sendDirective
    (constructPduHeader cfg w FileDirective.ack srcEid dstEid (dirCode == FileDirective.eof) tsn)
    (fillAck ts dirCode cc)

def fillFin (cfg : Config) (dc fs cc : Octet) (ph : OutPdu) : OutPdu :=
  let fin : PduFin := ⟨cc, fs, dc, faultTlv cfg cc⟩
  { ph with intHeader := .fin fin, penc := encodeFin ph.penc fin }

def sendFin (cfg : Config) (w : World) (dc fs cc : Octet) : SendRet × World :=
  sendDirective
    (constructPduHeader cfg w FileDirective.fin w.t.history.peerEid cfg.localEid true
      w.t.history.seqNum)
    (fillFin cfg dc fs cc)

def fillNak (nak : PduNak) (ph : OutPdu) : OutPdu :=
  { ph with intHeader := .nak nak, penc := encodeNak ph.penc nak }

/-- The caller already has the buffer and the fields. -/
def sendNak (w : World) (ph : OutPdu) (nak : PduNak) : SendRet × World :=
  (.success, closeAndSend w (fillNak nak ph))

/-! ## What sending leaves alone -/

/-- `cur` may come to point at the transaction itself. -/
structure SendFrame (w w' : World) : Prop where
  self : w'.self = w.self
  t : w'.t = w.t
  chan : w'.chan = { w.chan with cur := w'.chan.cur }
  cur : w'.chan.cur = w.chan.cur ∨ w'.chan.cur = some w.self
  txns : w'.txns = w.txns
  seqNum : w'.seqNum = w.seqNum
  fileOps : w'.fileOps = w.fileOps
  files : w'.files = w.files
  fault : w'.fault = w.fault

theorem SendFrame.refl (w : World) : SendFrame w w :=
  ⟨rfl, rfl, rfl, .inl rfl, rfl, rfl, rfl, rfl, rfl⟩

theorem SendFrame.sent {w w' : World} (h : SendFrame w w') (pdus : List OutPdu) :
    SendFrame w { w' with sent := pdus } :=
  ⟨h.self, h.t, h.chan, h.cur, h.txns, h.seqNum, h.fileOps, h.files, h.fault⟩

theorem msgOutGet_frame (cfg : Config) (w : World) : SendFrame w (msgOutGet cfg w).2 := by
  simp only [msgOutGet]
  split
  · exact ⟨rfl, rfl, rfl, .inr rfl, rfl, rfl, rfl, rfl, rfl⟩
  · split
    · split
      · exact ⟨rfl, rfl, rfl, .inl rfl, rfl, rfl, rfl, rfl, rfl⟩
      · exact ⟨rfl, rfl, rfl, .inr rfl, rfl, rfl, rfl, rfl, rfl⟩
    · exact SendFrame.refl w

theorem msgOutGet_sent (cfg : Config) (w : World) : (msgOutGet cfg w).2.sent = w.sent := by
  simp only [msgOutGet]
  split
  · rfl
  · split
    · split <;> rfl
    · rfl

theorem constructPduHeader_frame (cfg : Config) (w : World) (directiveCode : Octet)
    (srcEid dstEid : EntityId) (towardsSender : Bool) (tsn : TransactionSeq) :
    SendFrame w (constructPduHeader cfg w directiveCode srcEid dstEid towardsSender tsn).2 :=
  msgOutGet_frame cfg w

theorem constructPduHeader_sent (cfg : Config) (w : World) (directiveCode : Octet)
    (srcEid dstEid : EntityId) (towardsSender : Bool) (tsn : TransactionSeq) :
    (constructPduHeader cfg w directiveCode srcEid dstEid towardsSender tsn).2.sent = w.sent :=
  msgOutGet_sent cfg w

theorem sendDirective_frame {w : World} {out : Option OutPdu × World} (h : SendFrame w out.2)
    (fill : OutPdu → OutPdu) : SendFrame w (sendDirective out fill).2 := by
  obtain ⟨ph, w'⟩ := out
  cases ph with
  | none => exact h
  | some ph => exact h.sent _

theorem sendMd_frame (cfg : Config) (w : World) : SendFrame w (sendMd cfg w).2 :=
  sendDirective_frame (constructPduHeader_frame ..) _

theorem sendEof_frame (cfg : Config) (w : World) : SendFrame w (sendEof cfg w).2 :=
  sendDirective_frame (constructPduHeader_frame ..) _

theorem sendAck_frame (cfg : Config) (w : World) (ts dirCode cc : Octet) (peerEid : EntityId)
    (tsn : TransactionSeq) : SendFrame w (sendAck cfg w ts dirCode cc peerEid tsn).2 :=
  sendDirective_frame (constructPduHeader_frame ..) _

theorem sendFin_frame (cfg : Config) (w : World) (dc fs cc : Octet) :
    SendFrame w (sendFin cfg w dc fs cc).2 :=
  sendDirective_frame (constructPduHeader_frame ..) _

/-! ## Timers and the receiving functions that change the transaction -/

def armAckTimer (cfg : Config) (w : World) : World :=
  { w with
    t := { w.t with
      ackTimer := timerInitRelSec cfg cfg.chan.ackTimerS
      com := { w.t.com with ackTimerArmed := true } } }

def armInactTimer (cfg : Config) (w : World) : World :=
  { w with t := { w.t with inactivityTimer := timerInitRelSec cfg cfg.chan.inactivityTimerS } }

namespace IntHeader
/-- Reading a union member other than the one stored gives the cleared value;
the source does so only before anything is stored. -/
def asEof : IntHeader → PduEof
  | .eof value => value
  | _ => default

def asFin : IntHeader → PduFin
  | .fin value => value
  | _ => default

def asMd : IntHeader → PduMd
  | .md value => value
  | _ => default

def asNak : IntHeader → PduNak
  | .nak value => value
  | _ => default

def asFd : IntHeader → PduFileDataHeader
  | .fd value => value
  | _ => default
end IntHeader

/-- The C string that the octets of an LV make in a buffer of `bufMaxsz`. -/
def copyStringFromLv (bufMaxsz : Nat) (srcLv : Lv) : Option Filename :=
  if srcLv.length.toNat < bufMaxsz then
    some (((srcLv.dataPtr.getD []).take srcLv.length.toNat).takeWhile (· ≠ 0))
  else none

def World.setFnames (w : World) (fnames : TxnFilenames) : World :=
  { w with t := { w.t with history := { w.t.history with fnames := fnames } } }

/-- `CF_CFDP_RecvMd`. A name that does not fit is stored empty, and the file size
is already stored then. -/
def recvMd (w : World) (ph : PduBuffer) : Bool × World :=
  let (ok, ph) := recvMdDecode ph
  if !ok then (false, w)
  else
    let md := ph.intHeader.asMd
    let w := { w with t := { w.t with fsize := md.size.toNat } }
    let fnames := w.t.history.fnames
    match copyStringFromLv filenameMaxLen md.sourceFilename with
    | none => (false, w.setFnames { fnames with srcFilename := [] })
    | some srcFilename =>
      match copyStringFromLv filenameMaxLen md.destFilename with
      | none => (false, w.setFnames ⟨srcFilename, []⟩)
      | some dstFilename => (true, w.setFnames ⟨srcFilename, dstFilename⟩)

def recvFd (w : World) (ph : PduBuffer) : Bool × PduBuffer × World :=
  let (ok, ph) := recvFdDecode ph
  (ok, ph, if ok then w else setTxnStatus w .protocolError)

end Nos3.Cf
