import Nos3.Base.BigEndian

/-!
# Logical PDU structures (cf_logical_pdu.h, cf_cfdp_pdu.h)

Field widths are those of the C structures. The `sizeof` constants are the sizes
of the octet-array structures of cf_cfdp_pdu.h; entity ids, sequence numbers and
file sizes are 32-bit in this configuration. A `data_ptr` is modelled by the
octets it points at, `none` being NULL. Lists keep their valid entries only, so
`num_segments` and `num_tlv` are lengths.
-/
namespace Nos3.Cf
export Nos3.Base.BigEndian (Octet)

def maxPduSize : Nat := 512
def pduMaxTlv : Nat := 4
def pduMaxSegments : Nat := 58

namespace Sizeof
def pduHeader : Nat := 4
def pduFileDirectiveHeader : Nat := 1
def lv : Nat := 1
def tlv : Nat := 2
def pduEof : Nat := 9
def pduFin : Nat := 1
def pduAck : Nat := 2
def segmentRequest : Nat := 8
def pduNak : Nat := 8
def pduMd : Nat := 5
def pduFileDataHeader : Nat := 4
def uint8 : Nat := 1
def uint32 : Nat := 4
def entityId : Nat := 4
def transactionSeq : Nat := 4
end Sizeof

abbrev EntityId := BitVec 32
abbrev TransactionSeq := BitVec 32
abbrev FileSize := BitVec 32

-- `CF_CFDP_FileDirective_t`
namespace FileDirective
def eof : Octet := 4
def fin : Octet := 5
def ack : Octet := 6
def metadata : Octet := 7
def nak : Octet := 8
end FileDirective

/-- `CF_CFDP_TLV_TYPE_ENTITY_ID`, the one TLV type with a decoded value. -/
def tlvTypeEntityId : Octet := 6

structure PduHeader where
  version : Octet
  pduType : Octet
  direction : Octet
  txmMode : Octet
  crcFlag : Octet
  largeFlag : Octet
  segmentMetaFlag : Octet
  eidLength : Octet
  txnSeqLength : Octet
  headerEncodedLength : BitVec 16
  dataEncodedLength : BitVec 16
  sourceEid : EntityId
  destinationEid : EntityId
  sequenceNum : TransactionSeq
  deriving DecidableEq, Inhabited

structure PduFileDirectiveHeader where
  directiveCode : Octet
  deriving DecidableEq, Inhabited

structure Lv where
  length : Octet
  dataPtr : Option (List Octet)
  deriving DecidableEq, Inhabited

/-- The union `CF_Logical_TlvData_t`; `eid` is the member for entity-id TLVs. -/
inductive TlvData
  | eid (eid : EntityId)
  | dataPtr (data : Option (List Octet))
  deriving DecidableEq, Inhabited

structure Tlv where
  type : Octet
  length : Octet
  data : TlvData
  deriving DecidableEq, Inhabited

structure SegmentRequest where
  offsetStart : FileSize
  offsetEnd : FileSize
  deriving DecidableEq, Inhabited

structure SegmentList where
  segments : List SegmentRequest
  deriving DecidableEq, Inhabited

def SegmentList.numSegments (l : SegmentList) : Nat := l.segments.length

structure TlvList where
  tlv : List Tlv
  deriving DecidableEq, Inhabited

def TlvList.numTlv (l : TlvList) : Nat := l.tlv.length

structure PduEof where
  cc : Octet
  crc : BitVec 32
  size : FileSize
  tlvList : TlvList
  deriving DecidableEq, Inhabited

structure PduFin where
  cc : Octet
  fileStatus : Octet
  deliveryCode : Octet
  tlvList : TlvList
  deriving DecidableEq, Inhabited

structure PduAck where
  ackDirectiveCode : Octet
  ackSubtypeCode : Octet
  cc : Octet
  txnStatus : Octet
  deriving DecidableEq, Inhabited

structure PduMd where
  closeReq : Octet
  checksumType : Octet
  size : FileSize
  sourceFilename : Lv
  destFilename : Lv
  deriving DecidableEq, Inhabited

structure PduNak where
  scopeStart : FileSize
  scopeEnd : FileSize
  segmentList : SegmentList
  deriving DecidableEq, Inhabited

structure PduFileDataHeader where
  continuationState : Octet
  segmentList : SegmentList
  offset : FileSize
  dataPtr : Option (List Octet)
  dataLen : Nat
  deriving DecidableEq, Inhabited

/-- The union `CF_Logical_IntHeader_t`; `unset` is the state after the buffer is
cleared, in which every member reads as zero. -/
inductive IntHeader
  | unset
  | eof (eof : PduEof)
  | fin (fin : PduFin)
  | ack (ack : PduAck)
  | md (md : PduMd)
  | nak (nak : PduNak)
  | fd (fd : PduFileDataHeader)
  deriving DecidableEq, Inhabited

end Nos3.Cf

/-!
## The CFDP checksum (cf_crc.c)
-/
namespace Nos3.Cf

/-- `CF_Crc_t`. -/
structure Crc where
  working : BitVec 32
  result : BitVec 32
  index : Nat
  deriving DecidableEq, Repr, Inhabited

def crcStart : Crc := ⟨0, 0, 0⟩

/-- One round of the loop of `CF_CRC_Digest`. -/
def crcDigestOctet (c : Crc) (octet : Octet) : Crc :=
  let working := (c.working <<< 8) ||| octet.setWidth 32
  let index := c.index + 1
  if index = 4 then ⟨working, c.result + working, 0⟩ else ⟨working, c.result, index⟩

def crcDigest (c : Crc) (data : List Octet) : Crc := data.foldl crcDigestOctet c

def crcFinalize (c : Crc) : Crc :=
  if c.index ≠ 0 then ⟨0, c.result + (c.working <<< (8 * (4 - c.index))), 0⟩ else c

theorem crcDigest_append (c : Crc) (first second : List Octet) :
    crcDigest c (first ++ second) = crcDigest (crcDigest c first) second :=
  List.foldl_append

/-- The checksum of a whole octet string. -/
def checksum (data : List Octet) : BitVec 32 := (crcFinalize (crcDigest crcStart data)).result

example : checksum [1, 2, 3, 4, 0, 0, 0, 5, 6] = 0x07020309 := by decide

end Nos3.Cf
