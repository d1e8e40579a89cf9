import Nos3.Base.BitField
import Nos3.Cf.Source.LogicalPdu

/-!
# Codec state, integers and bit fields (cf_codec.c, cf_codec.h)

Encoder and decoder share `CodecState`. An encoder owns the buffer it writes, a
decoder the octets it reads; `size_t` is unbounded. The decoder also keeps a
record of what it did: the octet indices it read and every chunk request with
its outcome. No decision of the code depends on the record.
-/
namespace Nos3.Cf
open Nos3.Base.BigEndian Nos3.Base.BitField

/-- `CF_CodecState_t`. -/
structure CodecState where
  isValid : Bool
  nextOffset : Nat
  maxSize : Nat
  deriving DecidableEq, Repr, Inhabited

def codecIsOk (s : CodecState) : Bool := s.isValid
def codecSetDone (s : CodecState) : CodecState := { s with isValid := false }
def codecGetPosition (s : CodecState) : Nat := s.nextOffset
def codecGetSize (s : CodecState) : Nat := s.maxSize
def codecGetRemain (s : CodecState) : Nat := s.maxSize - s.nextOffset
def codecReset (maxSize : Nat) : CodecState := ⟨true, 0, maxSize⟩

def codecCheckSize (s : CodecState) (chunksize : Nat) : Bool × CodecState :=
  let nextOffset := s.nextOffset + chunksize
  let s := if nextOffset > s.maxSize then codecSetDone s else { s with nextOffset := nextOffset }
  (codecIsOk s, s)

/-! ## Encoder -/

/-- `CF_EncoderState_t` with the memory its `base` points at. -/
structure EncoderState where
  codecState : CodecState
  base : List Octet
  deriving DecidableEq, Repr, Inhabited

def EncoderState.isOk (s : EncoderState) : Bool := codecIsOk s.codecState
def EncoderState.setDone (s : EncoderState) : EncoderState :=
  { s with codecState := codecSetDone s.codecState }
def EncoderState.position (s : EncoderState) : Nat := codecGetPosition s.codecState
def EncoderState.remain (s : EncoderState) : Nat := codecGetRemain s.codecState

/-- The result is the chunk's position in the buffer, `none` for NULL. -/
def doEncodeChunk (s : EncoderState) (chunksize : Nat) : Option Nat × EncoderState :=
  let buf := s.position
  let (ok, codecState) := codecCheckSize s.codecState chunksize
  (if ok then some buf else none, { s with codecState := codecState })

/-- Stores through a pointer into the encoder's buffer. -/
def EncoderState.store (s : EncoderState) (ptr : Nat) (octets : List Octet) : EncoderState :=
  { s with base := s.base.take ptr ++ octets ++ s.base.drop (ptr + octets.length) }

/-- Reserves a chunk of the image's size and, where there is room, writes it. -/
def encodeFixedChunk (s : EncoderState) (image : List Octet) : EncoderState :=
  match doEncodeChunk s image.length with
  | (some ptr, s) => s.store ptr image
  | (none, s) => s

def storeUint8 (val : Octet) : List Octet := [val]
def storeUint16 (val : BitVec 16) : List Octet := beOctets 2 val
def storeUint32 (val : BitVec 32) : List Octet := beOctets 4 val

def encodeIntegerInSize (s : EncoderState) (value : BitVec 64) (encodeSize : Octet) :
    EncoderState :=
  encodeFixedChunk s (beOctets encodeSize.toNat value)

/-- The loop of `CF_CFDP_GetValueEncodedSize` from `minSize` on; `Limit` is
`256 ^ minSize`, which a 64-bit value exceeds only while `minSize < 8`. -/
def valueEncodedSizeLoop (value : Nat) : Nat → Nat → Nat
  | 0, minSize => minSize
  | fuel + 1, minSize =>
    if minSize < 8 ∧ value ≥ 256 ^ minSize then valueEncodedSizeLoop value fuel (minSize + 1)
    else minSize

def getValueEncodedSize (value : BitVec 64) : Octet :=
  BitVec.ofNat 8 (valueEncodedSizeLoop value.toNat 7 1)

/-! ## Decoder -/

/-- One call of `CF_CFDP_DoDecodeChunk`: the state before it, the size asked
for, the pointer returned and the position after it. -/
structure ChunkRequest where
  validBefore : Bool
  size : Nat
  granted : Option Nat
  nextOffset : Nat
  deriving DecidableEq, Repr

/-- `CF_DecoderState_t` with the memory its `base` points at. -/
structure DecoderState where
  codecState : CodecState
  base : List Octet
  reads : List Nat := []
  requests : List ChunkRequest := []
  deriving DecidableEq, Repr, Inhabited

def DecoderState.isOk (s : DecoderState) : Bool := codecIsOk s.codecState
def DecoderState.setDone (s : DecoderState) : DecoderState :=
  { s with codecState := codecSetDone s.codecState }
def DecoderState.position (s : DecoderState) : Nat := codecGetPosition s.codecState
def DecoderState.remain (s : DecoderState) : Nat := codecGetRemain s.codecState

/-- A decoding routine: what it returns, and the decoder state it leaves. -/
abbrev DecodeM := StateM DecoderState

namespace DecodeM
def isOk : DecodeM Bool := fun s => (s.isOk, s)
def setDone : DecodeM Unit := fun s => ((), s.setDone)
def position : DecodeM Nat := fun s => (s.position, s)
def remain : DecodeM Nat := fun s => (s.remain, s)
end DecodeM

def doDecodeChunk (chunksize : Nat) : DecodeM (Option Nat) := fun s =>
  let buf := s.position
  let (ok, codecState) := codecCheckSize s.codecState chunksize
  let granted := if ok then some buf else none
  (granted, { s with
    codecState := codecState
    requests := s.requests ++ [⟨s.isOk, chunksize, granted, codecState.nextOffset⟩] })

/-- Reads `len` octets through a decoder pointer. -/
def readOctets (ptr len : Nat) : DecodeM (List Octet) := fun s =>
  ((s.base.drop ptr).take len, { s with reads := s.reads ++ List.range' ptr len })

/-- The octets a decoder pointer gives access to, not read yet. -/
def viewOctets (ptr len : Nat) : DecodeM (List Octet) := fun s => ((s.base.drop ptr).take len, s)

/-- Requests a chunk and reads it whole. -/
def decodeFixedChunk (size : Nat) : DecodeM (Option (List Octet)) := do
  match ← doDecodeChunk size with
  | some ptr => some <$> readOctets ptr size
  | none => pure none

/-- Requests a chunk and keeps the pointer to it. -/
def decodeDataPtr (size : Nat) : DecodeM (Option (List Octet)) := do
  match ← doDecodeChunk size with
  | some ptr => some <$> viewOctets ptr size
  | none => pure none

def octetAt (chunk : List Octet) (i : Nat) : Octet := chunk.getD i 0

def loadUint8 (chunk : List Octet) (i : Nat) : Octet := octetAt chunk i
def loadUint16 (chunk : List Octet) (i : Nat) : BitVec 16 :=
  ofBe [octetAt chunk i, octetAt chunk (i + 1)]
def loadUint32 (chunk : List Octet) (i : Nat) : BitVec 32 :=
  ofBe [octetAt chunk i, octetAt chunk (i + 1), octetAt chunk (i + 2), octetAt chunk (i + 3)]

def decodeIntegerInSize (decodeSize : Octet) : DecodeM (BitVec 64) := do
  match ← decodeFixedChunk decodeSize.toNat with
  | some chunk => pure (ofBe chunk)
  | none => pure 0

/-! ## Bit fields (`CF_INIT_FIELD(NBITS, SHIFT)`) -/

namespace Fields
def headerVersion : Field := ⟨3, 5⟩
def headerType : Field := ⟨1, 4⟩
def headerDir : Field := ⟨1, 3⟩
def headerMode : Field := ⟨1, 2⟩
def headerCrc : Field := ⟨1, 1⟩
def headerLargeFile : Field := ⟨1, 0⟩
def lengthsEntity : Field := ⟨3, 4⟩
def lengthsTransactionSequence : Field := ⟨3, 0⟩
def eofCc : Field := ⟨4, 4⟩
def finCc : Field := ⟨4, 4⟩
def finDeliveryCode : Field := ⟨1, 2⟩
def finFileStatus : Field := ⟨2, 0⟩
def ackDirCode : Field := ⟨4, 4⟩
def ackDirSubtypeCode : Field := ⟨4, 0⟩
def ackCc : Field := ⟨4, 4⟩
def ackTransactionStatus : Field := ⟨2, 0⟩
def mdClosureRequested : Field := ⟨1, 7⟩
def mdChecksumType : Field := ⟨4, 0⟩
def fdRecordContinuationState : Field := ⟨2, 6⟩
def fdSegmentMetadataLength : Field := ⟨6, 0⟩
end Fields

end Nos3.Cf

/-!
## PDU encoders (cf_codec.c)

Every encoder takes the encoder state first, as in the source. A fixed chunk is
one image: the octets the source stores field by field through the chunk
pointer. The two length octets of the header are not stored by
`encodeHeaderWithoutSize`; they keep what the buffer holds until
`encodeHeaderFinalSize`.
-/
namespace Nos3.Cf
open Nos3.Base.BigEndian Nos3.Base.BitField

def headerFlagsImage (plh : PduHeader) : Octet :=
  let flags := Fields.headerVersion.set 0 plh.version
  let flags := Fields.headerDir.set flags plh.direction
  let flags := Fields.headerType.set flags plh.pduType
  Fields.headerMode.set flags plh.txmMode

def headerLengthsImage (plh : PduHeader) : Octet :=
  let lengths := Fields.lengthsEntity.set 0 (plh.eidLength - 1)
  Fields.lengthsTransactionSequence.set lengths (plh.txnSeqLength - 1)

def encodeHeaderWithoutSize (s : EncoderState) (plh : PduHeader) : EncoderState × PduHeader :=
  match doEncodeChunk s Sizeof.pduHeader with
  | (some ptr, s) =>
    let s := s.store ptr [headerFlagsImage plh]
    let s := s.store (ptr + 3) [headerLengthsImage plh]
    let s := encodeIntegerInSize s (plh.sourceEid.setWidth 64) plh.eidLength
    let s := encodeIntegerInSize s (plh.sequenceNum.setWidth 64) plh.txnSeqLength
    let s := encodeIntegerInSize s (plh.destinationEid.setWidth 64) plh.eidLength
    (s, { plh with headerEncodedLength := BitVec.ofNat 16 s.position })
  | (none, s) => (s, plh)

/-- Writes the data length into the header at the start of the buffer and closes
the encoder. -/
def encodeHeaderFinalSize (s : EncoderState) (plh : PduHeader) : EncoderState :=
  let s :=
    if s.isOk ∧ s.position ≥ Sizeof.pduHeader then s.store 1 (storeUint16 plh.dataEncodedLength)
    else s
  s.setDone

def encodeFileDirectiveHeader (s : EncoderState) (pfdir : PduFileDirectiveHeader) : EncoderState :=
  encodeFixedChunk s (storeUint8 pfdir.directiveCode)

/-- The variable part of an LV or a plain TLV: copied from `data_ptr`, an error
where there is no room or no data. -/
def encodeData (s : EncoderState) (length : Octet) (dataPtr : Option (List Octet)) : EncoderState :=
  match doEncodeChunk s length.toNat, dataPtr with
  | (some ptr, s), some data => s.store ptr (data.take length.toNat)
  | (_, s), _ => s.setDone

def encodeLV (s : EncoderState) (pllv : Lv) : EncoderState :=
  match doEncodeChunk s Sizeof.lv with
  | (some ptr, s) =>
    let s := s.store ptr (storeUint8 pllv.length)
    if pllv.length > 0 then encodeData s pllv.length pllv.dataPtr else s
  | (none, s) => s

/-- The union member the source reads for a TLV type other than entity id. -/
def TlvData.asDataPtr : TlvData → Option (List Octet)
  | .dataPtr octets => octets
  | .eid _ => none

def TlvData.asEid : TlvData → EntityId
  | .eid value => value
  | .dataPtr _ => 0

def encodeTLV (s : EncoderState) (pltlv : Tlv) : EncoderState :=
  match doEncodeChunk s Sizeof.tlv with
  | (some ptr, s) =>
    let s := s.store ptr (storeUint8 pltlv.type ++ storeUint8 pltlv.length)
    if pltlv.type = tlvTypeEntityId then
      encodeIntegerInSize s (pltlv.data.asEid.setWidth 64) pltlv.length
    else if pltlv.length > 0 then encodeData s pltlv.length pltlv.data.asDataPtr
    else s
  | (none, s) => s

def encodeSegmentRequest (s : EncoderState) (plseg : SegmentRequest) : EncoderState :=
  encodeFixedChunk s (storeUint32 plseg.offsetStart ++ storeUint32 plseg.offsetEnd)

/-- The loop of the two list encoders: stops at the first failure. -/
def encodeAll {α : Type} (encodeItem : EncoderState → α → EncoderState) :
    EncoderState → List α → EncoderState
  | s, [] => s
  | s, item :: items => if s.isOk then encodeAll encodeItem (encodeItem s item) items else s

def encodeAllTlv (s : EncoderState) (pltlv : TlvList) : EncoderState :=
  encodeAll encodeTLV s pltlv.tlv

def encodeAllSegments (s : EncoderState) (plseg : SegmentList) : EncoderState :=
  encodeAll encodeSegmentRequest s plseg.segments

def mdControlImage (plmd : PduMd) : Octet :=
  let control := Fields.mdClosureRequested.set 0 plmd.closeReq
  Fields.mdChecksumType.set control plmd.checksumType

def encodeMd (s : EncoderState) (plmd : PduMd) : EncoderState :=
  match doEncodeChunk s Sizeof.pduMd with
  | (some ptr, s) =>
    let s := s.store ptr (mdControlImage plmd :: storeUint32 plmd.size)
    let s := encodeLV s plmd.sourceFilename
    encodeLV s plmd.destFilename
  | (none, s) => s

def fdOptionalImage (plfd : PduFileDataHeader) : Octet :=
  let fields := Fields.fdRecordContinuationState.set 0 plfd.continuationState
  Fields.fdSegmentMetadataLength.set fields (BitVec.ofNat 8 plfd.segmentList.numSegments)

def encodeFileDataHeader (s : EncoderState) (withMeta : Bool) (plfd : PduFileDataHeader) :
    EncoderState :=
  let s :=
    if withMeta then
      match doEncodeChunk s Sizeof.uint8 with
      | (some ptr, s) =>
        encodeAllSegments (s.store ptr [fdOptionalImage plfd]) plfd.segmentList
      | (none, s) => s
    else s
  encodeFixedChunk s (storeUint32 plfd.offset)

def encodeEof (s : EncoderState) (pleof : PduEof) : EncoderState :=
  match doEncodeChunk s Sizeof.pduEof with
  | (some ptr, s) =>
    let s := s.store ptr
      (Fields.eofCc.set 0 pleof.cc :: storeUint32 pleof.crc ++ storeUint32 pleof.size)
    encodeAllTlv s pleof.tlvList
  | (none, s) => s

def finFlagsImage (plfin : PduFin) : Octet :=
  let flags := Fields.finCc.set 0 plfin.cc
  let flags := Fields.finDeliveryCode.set flags plfin.deliveryCode
  Fields.finFileStatus.set flags plfin.fileStatus

def encodeFin (s : EncoderState) (plfin : PduFin) : EncoderState :=
  match doEncodeChunk s Sizeof.pduFin with
  | (some ptr, s) => encodeAllTlv (s.store ptr [finFlagsImage plfin]) plfin.tlvList
  | (none, s) => s

def ackDirectiveImage (plack : PduAck) : Octet :=
  let code := Fields.ackDirCode.set 0 plack.ackDirectiveCode
  Fields.ackDirSubtypeCode.set code plack.ackSubtypeCode

def ackStatusImage (plack : PduAck) : Octet :=
  let status := Fields.ackCc.set 0 plack.cc
  Fields.ackTransactionStatus.set status plack.txnStatus

def encodeAck (s : EncoderState) (plack : PduAck) : EncoderState :=
  encodeFixedChunk s [ackDirectiveImage plack, ackStatusImage plack]

def encodeNak (s : EncoderState) (plnak : PduNak) : EncoderState :=
  match doEncodeChunk s Sizeof.pduNak with
  | (some ptr, s) =>
    let s := s.store ptr (storeUint32 plnak.scopeStart ++ storeUint32 plnak.scopeEnd)
    encodeAllSegments s plnak.segmentList
  | (none, s) => s

/-- `CF_CFDP_SetPduLength` (cf_cfdp.c): closes a PDU. -/
def setPduLength (s : EncoderState) (hdr : PduHeader) : EncoderState × PduHeader :=
  let finalPos := BitVec.ofNat 16 s.position
  let hdr :=
    if finalPos ≥ hdr.headerEncodedLength then
      { hdr with dataEncodedLength := finalPos - hdr.headerEncodedLength }
    else hdr
  (encodeHeaderFinalSize s hdr, hdr)

end Nos3.Cf

/-!
## PDU decoders (cf_codec.c)

Every decoder takes the logical structure it fills and returns it, unchanged in
the fields it did not reach.
-/
namespace Nos3.Cf
open Nos3.Base.BigEndian Nos3.Base.BitField

/-- The fields `CF_CFDP_DecodeHeader` takes from the fixed part of the header. -/
def decodeHeaderFixed (plh : PduHeader) (peh : List Octet) : PduHeader :=
  let flags := octetAt peh 0
  let lengths := octetAt peh 3
  { plh with
    version := Fields.headerVersion.get flags
    direction := Fields.headerDir.get flags
    pduType := Fields.headerType.get flags
    txmMode := Fields.headerMode.get flags
    crcFlag := Fields.headerCrc.get flags
    largeFlag := Fields.headerLargeFile.get flags
    eidLength := Fields.lengthsEntity.get lengths + 1
    txnSeqLength := Fields.lengthsTransactionSequence.get lengths + 1
    dataEncodedLength := loadUint16 peh 1 }

/-- The variable-length fields. The result is the status: `false` for -1,
integers wider than the local types. -/
def decodeHeaderVariable (plh : PduHeader) : DecodeM (Bool × PduHeader) :=
  if plh.eidLength.toNat > Sizeof.entityId ∨ plh.txnSeqLength.toNat > Sizeof.transactionSeq then
    pure (false, plh)
  else do
    let sourceEid ← decodeIntegerInSize plh.eidLength
    let sequenceNum ← decodeIntegerInSize plh.txnSeqLength
    let destinationEid ← decodeIntegerInSize plh.eidLength
    let position ← DecodeM.position
    pure (true, { plh with
      sourceEid := sourceEid.setWidth 32
      sequenceNum := sequenceNum.setWidth 32
      destinationEid := destinationEid.setWidth 32
      headerEncodedLength := BitVec.ofNat 16 position })

def decodeHeader (plh : PduHeader) : DecodeM (Bool × PduHeader) := do
  match ← decodeFixedChunk Sizeof.pduHeader with
  | none => pure (true, plh)
  | some peh => decodeHeaderVariable (decodeHeaderFixed plh peh)

def decodeFileDirectiveHeader (pfdir : PduFileDirectiveHeader) :
    DecodeM PduFileDirectiveHeader := do
  match ← decodeFixedChunk Sizeof.pduFileDirectiveHeader with
  | none => pure pfdir
  | some peh => pure ⟨loadUint8 peh 0⟩

def decodeLV (pllv : Lv) : DecodeM Lv := do
  match ← decodeFixedChunk Sizeof.lv with
  | none => pure pllv
  | some lv =>
    let length := loadUint8 lv 0
    let dataPtr ← decodeDataPtr length.toNat
    pure ⟨length, dataPtr⟩

def decodeTLV (pltlv : Tlv) : DecodeM Tlv := do
  match ← decodeFixedChunk Sizeof.tlv with
  | none => pure pltlv
  | some tlv =>
    let type := loadUint8 tlv 0
    let length := loadUint8 tlv 1
    if type = tlvTypeEntityId then
      let eid ← decodeIntegerInSize length
      pure ⟨type, length, .eid (eid.setWidth 32)⟩
    else
      let dataPtr ← decodeDataPtr length.toNat
      pure ⟨type, length, .dataPtr dataPtr⟩

def decodeSegmentRequest (plseg : SegmentRequest) : DecodeM SegmentRequest := do
  match ← decodeFixedChunk Sizeof.segmentRequest with
  | none => pure plseg
  | some sr => pure ⟨loadUint32 sr 0, loadUint32 sr 4⟩

/-- The loop of the two list decoders with `limit` rounds left: `items` are the
entries decoded so far, of which the array has room for `cap`. An entry is
decoded into a cleared slot and kept only if that succeeded. -/
def decodeAllLoop {α : Type} [Inhabited α] (decodeItem : α → DecodeM α) (cap : Nat) :
    Nat → List α → DecodeM (List α)
  | 0, items => pure items
  | limit + 1, items => do
    if (← DecodeM.remain) = 0 then pure items
    else if items.length ≥ cap then
      DecodeM.setDone
      pure items
    else
      let item ← decodeItem default
      if ← DecodeM.isOk then decodeAllLoop decodeItem cap limit (items ++ [item])
      else pure items

def decodeAllTlv (limit : Nat) : DecodeM TlvList :=
  TlvList.mk <$> decodeAllLoop decodeTLV pduMaxTlv limit []

/-- The source compares the number of segments with `CF_PDU_MAX_TLV`. -/
def decodeAllSegments (limit : Nat) : DecodeM SegmentList :=
  SegmentList.mk <$> decodeAllLoop decodeSegmentRequest pduMaxTlv limit []

def decodeMd (plmd : PduMd) : DecodeM PduMd := do
  match ← decodeFixedChunk Sizeof.pduMd with
  | none => pure plmd
  | some md =>
    let control := octetAt md 0
    let sourceFilename ← decodeLV plmd.sourceFilename
    let destFilename ← decodeLV plmd.destFilename
    pure {
      closeReq := Fields.mdClosureRequested.get control
      checksumType := Fields.mdChecksumType.get control
      size := loadUint32 md 1
      sourceFilename := sourceFilename
      destFilename := destFilename }

/-- The segment-metadata loop of `CF_CFDP_DecodeFileDataHeader`, `fieldCount`
entries to go. -/
def decodeMetaSegments : Nat → List SegmentRequest → DecodeM (List SegmentRequest)
  | 0, segments => pure segments
  | fieldCount + 1, segments => do
    let segment ← decodeSegmentRequest default
    if ← DecodeM.isOk then decodeMetaSegments fieldCount (segments ++ [segment])
    else pure segments

/-- The optional fields: continuation state and segment list, cleared to start. -/
def decodeFileDataMeta (withMeta : Bool) : DecodeM (Octet × List SegmentRequest) := do
  if withMeta then
    match ← decodeFixedChunk Sizeof.uint8 with
    | none => pure (0, [])
    | some optionalFields =>
      let fields := octetAt optionalFields 0
      let fieldCount := (Fields.fdSegmentMetadataLength.get fields).toNat
      if fieldCount > pduMaxSegments then
        DecodeM.setDone
        pure (Fields.fdRecordContinuationState.get fields, [])
      else
        let segments ← decodeMetaSegments fieldCount []
        pure (Fields.fdRecordContinuationState.get fields, segments)
  else pure (0, [])

/-- The part that is always there, with the data behind it. -/
def decodeFileDataFixed (plfd : PduFileDataHeader) : DecodeM PduFileDataHeader := do
  match ← decodeFixedChunk Sizeof.pduFileDataHeader with
  | none => pure plfd
  | some fd =>
    let dataLen ← DecodeM.remain
    let dataPtr ← decodeDataPtr dataLen
    pure { plfd with offset := loadUint32 fd 0, dataLen := dataLen, dataPtr := dataPtr }

def decodeFileDataHeader (withMeta : Bool) (plfd : PduFileDataHeader) :
    DecodeM PduFileDataHeader := do
  let (continuationState, segments) ← decodeFileDataMeta withMeta
  decodeFileDataFixed
    { plfd with continuationState := continuationState, segmentList := ⟨segments⟩ }

def decodeEof (pleof : PduEof) : DecodeM PduEof := do
  match ← decodeFixedChunk Sizeof.pduEof with
  | none => pure pleof
  | some eof =>
    let tlvList ← decodeAllTlv pduMaxTlv
    pure {
      cc := Fields.eofCc.get (octetAt eof 0)
      crc := loadUint32 eof 1
      size := loadUint32 eof 5
      tlvList := tlvList }

def decodeFin (plfin : PduFin) : DecodeM PduFin := do
  match ← decodeFixedChunk Sizeof.pduFin with
  | none => pure plfin
  | some fin =>
    let flags := octetAt fin 0
    let tlvList ← decodeAllTlv pduMaxTlv
    pure {
      cc := Fields.finCc.get flags
      fileStatus := Fields.finFileStatus.get flags
      deliveryCode := Fields.finDeliveryCode.get flags
      tlvList := tlvList }

def decodeAck (plack : PduAck) : DecodeM PduAck := do
  match ← decodeFixedChunk Sizeof.pduAck with
  | none => pure plack
  | some ack =>
    let code := octetAt ack 0
    let status := octetAt ack 1
    pure {
      ackDirectiveCode := Fields.ackDirCode.get code
      ackSubtypeCode := Fields.ackDirSubtypeCode.get code
      cc := Fields.ackCc.get status
      txnStatus := Fields.ackTransactionStatus.get status }

def decodeNak (plnak : PduNak) : DecodeM PduNak := do
  match ← decodeFixedChunk Sizeof.pduNak with
  | none => pure plnak
  | some nak =>
    let segmentList ← decodeAllSegments pduMaxSegments
    pure {
      scopeStart := loadUint32 nak 0
      scopeEnd := loadUint32 nak 4
      segmentList := segmentList }

end Nos3.Cf

/-!
## Receiving PDUs (cf_cfdp.c): the part that touches only the PDU buffer

`CF_CFDP_RecvEof`, `RecvAck`, `RecvFin` and `RecvNak` are complete here; of
`CF_CFDP_RecvMd` and `CF_CFDP_RecvFd` this is everything up to their effect on
the transaction. A result of `true` is the return value 0. Events and
housekeeping counters are not modelled.
-/
namespace Nos3.Cf

/-- `CF_Logical_PduBuffer_t` of a received PDU. -/
structure PduBuffer where
  pdec : DecoderState
  pduHeader : PduHeader
  fdirective : PduFileDirectiveHeader
  intHeader : IntHeader
  deriving DecidableEq, Inhabited

def PduBuffer.isOk (ph : PduBuffer) : Bool := ph.pdec.isOk

/-- `CF_CFDP_DecodeStart` on a message of which `totalSize` octets count. -/
def decodeStart (msgbuf : List Octet) (encapHdrSize totalSize : Nat) : PduBuffer :=
  let codecState := codecReset totalSize
  let pdec : DecoderState :=
    if totalSize > encapHdrSize then
      { codecState := { codecState with maxSize := codecState.maxSize - encapHdrSize }
        base := msgbuf.drop encapHdrSize }
    else { codecState := codecSetDone codecState, base := msgbuf }
  { pdec := pdec, pduHeader := default, fdirective := default, intHeader := .unset }

def recvPh (ph : PduBuffer) : Bool × PduBuffer :=
  let ((success, pduHeader), pdec) := decodeHeader ph.pduHeader ph.pdec
  let ph := { ph with pduHeader := pduHeader, pdec := pdec }
  if !success then (false, ph)
  else if ph.isOk && ph.pduHeader.largeFlag != 0 then (false, ph)
  else
    let ph :=
      if ph.isOk && ph.pduHeader.pduType == 0 then
        let (fdirective, pdec) := decodeFileDirectiveHeader ph.fdirective ph.pdec
        { ph with fdirective := fdirective, pdec := pdec }
      else ph
    (ph.isOk, ph)

/-- The decoding step of `CF_CFDP_RecvMd`. -/
def recvMdDecode (ph : PduBuffer) : Bool × PduBuffer :=
  let (md, pdec) := decodeMd default ph.pdec
  (pdec.isOk, { ph with pdec := pdec, intHeader := .md md })

/-- Everything of `CF_CFDP_RecvFd` but the status it sets on failure: the CRC is
deducted from the data, and segment metadata is refused. -/
def recvFdDecode (ph : PduBuffer) : Bool × PduBuffer :=
  let (fd, pdec) := decodeFileDataHeader (ph.pduHeader.segmentMetaFlag != 0) default ph.pdec
  let (fd, pdec) :=
    if pdec.isOk && ph.pduHeader.crcFlag != 0 then
      if fd.dataLen < Sizeof.uint32 then (fd, pdec.setDone)
      else
        let dataLen := fd.dataLen - Sizeof.uint32
        ({ fd with dataLen := dataLen, dataPtr := fd.dataPtr.map (·.take dataLen) }, pdec)
    else (fd, pdec)
  (pdec.isOk && ph.pduHeader.segmentMetaFlag == 0, { ph with pdec := pdec, intHeader := .fd fd })

def recvEof (ph : PduBuffer) : Bool × PduBuffer :=
  let (eof, pdec) := decodeEof default ph.pdec
  (pdec.isOk, { ph with pdec := pdec, intHeader := .eof eof })

def recvAck (ph : PduBuffer) : Bool × PduBuffer :=
  let (ack, pdec) := decodeAck default ph.pdec
  (pdec.isOk, { ph with pdec := pdec, intHeader := .ack ack })

def recvFin (ph : PduBuffer) : Bool × PduBuffer :=
  let (fin, pdec) := decodeFin default ph.pdec
  (pdec.isOk, { ph with pdec := pdec, intHeader := .fin fin })

def recvNak (ph : PduBuffer) : Bool × PduBuffer :=
  let (nak, pdec) := decodeNak default ph.pdec
  (pdec.isOk, { ph with pdec := pdec, intHeader := .nak nak })

end Nos3.Cf
