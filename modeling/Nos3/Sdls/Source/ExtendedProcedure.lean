import Nos3.Sdls.Source.TcProcess

/-!
# Extended procedure PDUs

`Crypto_Process_Extended_Procedure_Pdu` of `crypto.c` up to the call of
`Crypto_PDU`: the three ways a TLV PDU is taken out of the data of a processed
frame. The global `sdls_frame` is the state; what an earlier frame left in it
stays where nothing is written.
-/
namespace Nos3.Sdls
open Nos3.Base.BigEndian (Octet)
open Nos3.Base.FixedArray
open Nos3.Base.Program

def SPI_MIN : Nat := 0
def SPI_MAX : Nat := NUM_SA - 1
def TC_SDLS_EP_VCID : Nat := 4
def TLV_DATA_SIZE : Nat := 494
def CCSDS_HDR_SIZE : Nat := 6
def ECSS_PUS_SIZE : Nat := 4
def SDLS_TLV_HDR_SIZE : Nat := 3

structure SppHeader where
  pvn : BitVec 3
  type : BitVec 1
  shdr : BitVec 1
  appId : BitVec 11
  seq : BitVec 2
  pktid : BitVec 14
  pktLength : BitVec 16
  deriving DecidableEq, Repr

structure PusHeader where
  shf : BitVec 1
  pusv : BitVec 3
  ack : BitVec 4
  st : Octet
  sst : Octet
  sid : BitVec 4
  spare : BitVec 4
  deriving DecidableEq, Repr

/-- `pduLen` counts bits. -/
structure TlvHeader where
  type : BitVec 1
  uf : BitVec 1
  sg : BitVec 2
  pid : BitVec 4
  pduLen : BitVec 16
  deriving DecidableEq, Repr

structure TlvPdu where
  hdr : TlvHeader
  data : Buffer Octet TLV_DATA_SIZE
  deriving DecidableEq

/-- `CCSDS_t`. -/
structure SdlsFrame where
  hdr : SppHeader
  pus : PusHeader
  tlvPdu : TlvPdu
  deriving DecidableEq

abbrev Ep := Routine Error SdlsFrame

/-- What `Crypto_PDU` finds, with the octets of the frame's data that were copied. -/
structure PduCall where
  tlvPdu : TlvPdu
  start : Nat
  copied : List Octet
  deriving DecidableEq

def TcFrame.pduOctet (frame : TcFrame) (i : Nat) : Octet := frame.tcPdu.cells.getD i 0

def TcFrame.pduWord (frame : TcFrame) (i : Nat) : BitVec 16 :=
  (frame.pduOctet i).setWidth 16 <<< 8 ||| (frame.pduOctet (i + 1)).setWidth 16

def sppHeader (frame : TcFrame) : SppHeader where
  pvn := ((frame.pduOctet 0 &&& 0xE0) >>> 5).setWidth 3
  type := ((frame.pduOctet 0 &&& 0x10) >>> 4).setWidth 1
  shdr := ((frame.pduOctet 0 &&& 0x08) >>> 3).setWidth 1
  appId := (frame.pduWord 0 &&& 0x07FF).setWidth 11
  seq := ((frame.pduOctet 2 &&& 0xC0) >>> 6).setWidth 2
  pktid := (frame.pduWord 2 &&& 0x3FFF).setWidth 14
  pktLength := frame.pduWord 4

def pusHeader (frame : TcFrame) : PusHeader where
  shf := ((frame.pduOctet 6 &&& 0x80) >>> 7).setWidth 1
  pusv := ((frame.pduOctet 6 &&& 0x70) >>> 4).setWidth 3
  ack := (frame.pduOctet 6 &&& 0x0F).setWidth 4
  st := frame.pduOctet 7
  sst := frame.pduOctet 8
  sid := ((frame.pduOctet 9 &&& 0xF0) >>> 4).setWidth 4
  spare := (frame.pduOctet 9 &&& 0x0F).setWidth 4

def tlvHeaderAt (frame : TcFrame) (i : Nat) : TlvHeader where
  type := ((frame.pduOctet i &&& 0x80) >>> 7).setWidth 1
  uf := ((frame.pduOctet i &&& 0x40) >>> 6).setWidth 1
  sg := ((frame.pduOctet i &&& 0x30) >>> 4).setWidth 2
  pid := (frame.pduOctet i &&& 0x0F).setWidth 4
  pduLen := frame.pduWord (i + 1)

def copyTlvData (frame : TcFrame) (start count : Nat) : Ep PduCall := do
  let octets ← Routine.lift (octetsAt frame.tcPdu.cells start count)
  let s ← Routine.get
  let data ← Routine.lift (copyInto s.tlvPdu.data 0 octets)
  Routine.modify fun s => { s with tlvPdu := { s.tlvPdu with data := data } }
  return ⟨{ s.tlvPdu with data := data }, start, octets⟩

def setTlvHeader (hdr : TlvHeader) : Ep Unit :=
  Routine.modify fun s => { s with tlvPdu := { s.tlvPdu with hdr := hdr } }

/-- The data length in octets has to be what is left of the frame's data; the count
that is copied is the packet's. -/
def pusPacketPdu (frame : TcFrame) (hdr : SppHeader) : Ep PduCall := do
  Routine.modify fun s => { s with pus := pusHeader frame }
  let tlv := tlvHeaderAt frame (CCSDS_HDR_SIZE + ECSS_PUS_SIZE)
  setTlvHeader tlv
  let derivedTlv := subWord frame.tcPduLen (CCSDS_HDR_SIZE + ECSS_PUS_SIZE + SDLS_TLV_HDR_SIZE)
  Routine.lift (guardWith (tlv.pduLen.toNat = 8 * derivedTlv) .badTlvLength)
  Routine.lift (guardWith (tlv.pduLen.toNat % 8 = 0) .badTlvLength)
  Routine.lift (guardWith (hdr.pktLength.toNat ≤ TLV_DATA_SIZE) .badTlvLength)
  copyTlvData frame (CCSDS_HDR_SIZE + ECSS_PUS_SIZE + SDLS_TLV_HDR_SIZE) hdr.pktLength.toNat

/-- Without a PUS header the bounds are taken from the frame length. -/
def packetPdu (frame : TcFrame) (hdr : SppHeader) : Ep PduCall := do
  let tlv := tlvHeaderAt frame CCSDS_HDR_SIZE
  setTlvHeader tlv
  let maxTlv := subWord frame.header.fl (CCSDS_HDR_SIZE + SDLS_TLV_HDR_SIZE)
  Routine.lift (guardWith (tlv.pduLen.toNat / 8 ≤ maxTlv) .badTlvLength)
  Routine.lift (guardWith (hdr.pktLength.toNat < TLV_DATA_SIZE ∧ hdr.pktLength.toNat < maxTlv)
    .badTlvLength)
  copyTlvData frame (CCSDS_HDR_SIZE + SDLS_TLV_HDR_SIZE) hdr.pktLength.toNat

/-- On the virtual channel the type goes into the packet header's field, and as many
octets are copied as the frame length says. -/
def vcidPdu (frame : TcFrame) : Ep PduCall := do
  let tlv := tlvHeaderAt frame 0
  Routine.modify fun s =>
    { s with hdr := { s.hdr with type := tlv.type }
             tlvPdu := { s.tlvPdu with hdr := { tlv with type := s.tlvPdu.hdr.type } } }
  copyTlvData frame SDLS_TLV_HDR_SIZE frame.header.fl

def hasSdlsApid (frame : TcFrame) : Bool :=
  frame.pduOctet 0 = 0x19 && frame.pduOctet 1 = 0x80

def validEpSa (frame : TcFrame) : Bool := frame.spi = SPI_MIN || frame.spi = SPI_MAX

def sdlsPacketPdu (config : Config) (frame : TcFrame) : Ep PduCall := do
  let hdr := sppHeader frame
  Routine.modify fun s => { s with hdr := hdr }
  if config.hasPusHdr then pusPacketPdu frame hdr else packetPdu frame hdr

/-- `built` is whether the library was compiled with `CRYPTO_EPROC`; `none` where
`Crypto_PDU` is not called. -/
def processExtendedProcedurePdu (built : Bool) (config : Config) (frame : TcFrame) :
    Ep (Option PduCall) := do
  if hasSdlsApid frame then
    if validEpSa frame then
      if built then
        let call ← sdlsPacketPdu config frame
        return some call
      else Routine.fail .sdlsEpNotBuilt
    else if built then Routine.fail .sdlsEpWrongSpi
    else return none
  else if frame.header.vcid = TC_SDLS_EP_VCID then
    if built then
      if validEpSa frame then
        let call ← vcidPdu frame
        return some call
      else return none
    else Routine.fail .sdlsEpNotBuilt
  else return none

end Nos3.Sdls
