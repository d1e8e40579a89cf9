import Nos3.Cf.Source.HeaderRules

/-!
# NAK PDUs: encoding and decoding

The encoder writes up to `CF_PDU_MAX_SEGMENTS` segment requests. The decoder
stops at `CF_PDU_MAX_TLV` of them, because its loop compares the segment count
with the TLV limit, and then rejects the PDU: the round trip works exactly up to
that count.
-/
namespace Nos3.Cf
open Nos3.Base.Wire

/-- A decoder attached to a complete octet string. -/
def decoderOn (octets : List Octet) : DecoderState :=
  { codecState := codecReset octets.length, base := octets }

theorem decoderOn_ok (octets : List Octet) : decoderView.ok (decoderOn octets) :=
  ⟨rfl, rfl, Nat.zero_le _⟩

/-- The octets an encoding step added to the buffer. -/
def octetsAdded (before after : EncoderState) : List Octet :=
  (after.base.take after.position).drop before.position

theorem octetsAdded_eq {s : EncoderState} {f : EncoderState → EncoderState} {octets : List Octet}
    (hs : encoderView.fits s) (hf : Emits encoderView f octets) (hok : (f s).isOk = true) :
    octetsAdded s (f s) = octets := by
  have hout : (f s).base.take (f s).position = s.base.take s.position ++ octets :=
    ((hf s hs).2 hok).2
  have hlen : (s.base.take s.position).length = s.position := by
    rw [List.length_take]
    exact Nat.min_eq_left (hs.1.trans hs.2)
  rw [octetsAdded, hout, List.drop_append_of_le_length hlen.ge, List.drop_of_length_le hlen.le,
    List.nil_append]

/-- Decoding what `encodeNak` wrote gives the same logical NAK back. -/
def NakRoundTrips (s : EncoderState) (nak : PduNak) : Prop :=
  let decoded := decodeNak default (decoderOn (octetsAdded s (encodeNak s nak)))
  decoded.2.isOk = true ∧ decoded.1 = nak

instance (s : EncoderState) (nak : PduNak) : Decidable (NakRoundTrips s nak) :=
  inferInstanceAs (Decidable (_ ∧ _))

/-- A NAK with more segments than the TLV limit leaves the decoder invalid. -/
theorem decodeNak_overfull {nak : PduNak} (h : pduMaxTlv < nak.segmentList.numSegments)
    {d : DecoderState} (hd : decoderView.ok d) (hrest : decoderView.rest d = nak.octets) :
    (decodeNak default d).2.isOk = false := by
  have hfixed : (storeUint32 nak.scopeStart ++ storeUint32 nak.scopeEnd).length =
      Sizeof.pduNak := by simp [Sizeof.pduNak]
  obtain ⟨hv, hok', -, hrest'⟩ := consumes_fixedChunk hfixed d _ hd rfl hrest
  have hloop : (decodeAllLoop decodeSegmentRequest pduMaxTlv pduMaxSegments [] _).2.isOk =
      false := loop_overfull
    nak.segmentList.segments pduMaxSegments [] (by simpa [SegmentList.numSegments] using h)
    (Nat.zero_le _) (by decide) (fun seg _ => segment_octets_ne_nil seg)
    (fun seg _ p => consumes_segmentRequest default seg) _ hok' hrest'
  have hstep : decodeFixedChunk Sizeof.pduNak d = (some _, (decodeFixedChunk Sizeof.pduNak d).2) :=
    Prod.ext hv rfl
  unfold decodeNak
  simp only [bind, StateT.bind]
  rw [hstep]
  exact hloop

/-- The exact condition for the NAK round trip. -/
theorem nak_round_trip_iff (s : EncoderState) (nak : PduNak) (hs : encoderView.fits s)
    (hvalid : (encodeNak s nak).isOk = true) :
    NakRoundTrips s nak ↔ nak.segmentList.numSegments ≤ pduMaxTlv := by
  have hoctets := octetsAdded_eq hs (emits_nak nak) hvalid
  unfold NakRoundTrips
  rw [hoctets]
  constructor
  · rintro ⟨hok, -⟩
    by_contra hmany
    have hbad := decodeNak_overfull (not_le.mp hmany) (decoderOn_ok nak.octets) rfl
    rw [hbad] at hok
    cases hok
  · intro hfew
    obtain ⟨hv, ⟨hok, -⟩, -, -⟩ := consumesAll_nak default hfew _ (decoderOn_ok nak.octets) rfl rfl
    exact ⟨hok, hv⟩

theorem nak_round_trip_two_segments :
    NakRoundTrips ⟨codecReset 24, List.replicate 24 0⟩ ⟨0, 9, ⟨[⟨0, 1⟩, ⟨5, 9⟩]⟩⟩ ↔
      (2 : Nat) ≤ pduMaxTlv :=
  nak_round_trip_iff _ _ ⟨by decide, by decide⟩ (by decide +kernel)

/-- Five segments fit every limit of the encoder and are lost. -/
theorem nak_five_segments :
    ¬∀ (s : EncoderState) (nak : PduNak), encoderView.fits s →
      nak.segmentList.numSegments ≤ pduMaxSegments → (encodeNak s nak).isOk = true →
      NakRoundTrips s nak := by
  intro h
  have hfive := h ⟨codecReset 48, List.replicate 48 0⟩
    ⟨0, 50, ⟨[⟨0, 1⟩, ⟨10, 11⟩, ⟨20, 21⟩, ⟨30, 31⟩, ⟨40, 41⟩]⟩⟩ ⟨by decide, by decide⟩
    (by decide) (by decide +kernel)
  revert hfive
  decide +kernel

end Nos3.Cf

/-!
## Complete PDUs: encoding and decoding

A header, the directive code where there is one, and a Metadata, EOF, FIN, ACK
or File Data part are encoded in the order the senders do, the length field is
filled in, and the produced octets are decoded in the order of the receivers.
Every logical value comes back, with one exception: the segment-metadata flag of
the header has no place in the encoded header, so it comes back as 0.
-/
namespace Nos3.Cf
open Nos3.Base.Wire

inductive PduBody
  | md (md : PduMd)
  | eof (eof : PduEof)
  | fin (fin : PduFin)
  | ack (ack : PduAck)
  | fd (withMeta : Bool) (fd : PduFileDataHeader)
  deriving DecidableEq, Inhabited

/-- A logical PDU; the directive code is 0 for file data. -/
structure Pdu where
  header : PduHeader
  fdirective : PduFileDirectiveHeader
  body : PduBody
  deriving DecidableEq, Inhabited

def PduBody.WellFormed : PduBody → Prop
  | .md part => part.WellFormed
  | .eof part => part.WellFormed
  | .fin part => part.WellFormed
  | .ack part => part.WellFormed
  | .fd withMeta part => part.WellFormed withMeta

def PduBody.isDirective : PduBody → Bool
  | .fd .. => false
  | _ => true

structure Pdu.WellFormed (pdu : Pdu) : Prop where
  header : pdu.header.WellFormed
  body : pdu.body.WellFormed
  noDirective : pdu.body.isDirective = false → pdu.fdirective = ⟨0⟩

/-! ## Encoding a PDU into a buffer -/

def encodeBody (s : EncoderState) (fdirective : PduFileDirectiveHeader) :
    PduBody → EncoderState
  | .md md => encodeMd (encodeFileDirectiveHeader s fdirective) md
  | .eof eof => encodeEof (encodeFileDirectiveHeader s fdirective) eof
  | .fin fin => encodeFin (encodeFileDirectiveHeader s fdirective) fin
  | .ack ack => encodeAck (encodeFileDirectiveHeader s fdirective) ack
  | .fd withMeta fd => encodeFixedChunk (encodeFileDataHeader s withMeta fd) (fd.dataPtr.getD [])

structure EncodedPdu where
  isOk : Bool
  octets : List Octet
  header : PduHeader

/-- `isOk` is the encoder's state just before the PDU is closed. -/
def encodePdu (s : EncoderState) (pdu : Pdu) : EncodedPdu :=
  let (s, header) := encodeHeaderWithoutSize s pdu.header
  let s := encodeBody s pdu.fdirective pdu.body
  let (closed, header) := setPduLength s header
  ⟨s.isOk, closed.base.take closed.position, header⟩

def PduBody.octets (fdirective : PduFileDirectiveHeader) : PduBody → List Octet
  | .md part => [fdirective.directiveCode] ++ part.octets
  | .eof part => [fdirective.directiveCode] ++ part.octets
  | .fin part => [fdirective.directiveCode] ++ part.octets
  | .ack part => [fdirective.directiveCode] ++ part.octets
  | .fd withMeta part => part.octets withMeta ++ part.dataPtr.getD []

theorem emits_body (fdirective : PduFileDirectiveHeader) {body : PduBody} (h : body.WellFormed) :
    Emits encoderView (fun s => encodeBody s fdirective body) (body.octets fdirective) := by
  have hdir := emits_fileDirectiveHeader fdirective
  cases body with
  | md md => exact hdir.seq (emits_md h.source h.dest)
  | eof eof => exact hdir.seq (emits_eof h.tlvs.each)
  | fin fin => exact hdir.seq (emits_fin h.tlvs.each)
  | ack ack => exact hdir.seq (emits_ack ack)
  | fd withMeta fd => exact (emits_fileDataHeader withMeta fd).seq (emits_fixedChunk _)

/-- A buffer with nothing encoded yet. -/
def Fresh (s : EncoderState) : Prop :=
  s.codecState.nextOffset = 0 ∧ s.codecState.maxSize ≤ s.base.length

theorem Fresh.fits {s : EncoderState} (h : Fresh s) : encoderView.fits s :=
  ⟨by rw [h.1]; exact Nat.zero_le _, h.2⟩

theorem Fresh.out {s : EncoderState} (h : Fresh s) : encoderView.out s = [] := by
  simp [encoderView, h.1]

/-- What `encodePdu` produces, and the header fields it fills in. -/
theorem encodePdu_octets {s : EncoderState} (hs : Fresh s) {pdu : Pdu} (hwf : pdu.WellFormed)
    (hok : (encodePdu s pdu).isOk = true) :
    ∃ dataLength, (encodePdu s pdu).octets =
        pdu.header.octets (octetAt (storeUint16 dataLength) 0) (octetAt (storeUint16 dataLength) 1) ++
          pdu.body.octets pdu.fdirective ∧
      (encodePdu s pdu).header = { pdu.header with
        headerEncodedLength := BitVec.ofNat 16 (4 + pdu.header.integerOctets.length),
        dataEncodedLength := dataLength } := by
  obtain ⟨hfits, hheader⟩ := encodeHeader_out hs.fits pdu.header
  obtain ⟨hfits', hbody⟩ := emits_body pdu.fdirective hwf.body _ hfits
  have hok' : (encodeBody (encodeHeaderWithoutSize s pdu.header).1 pdu.fdirective pdu.body).isOk =
      true := hok
  obtain ⟨hokHeader, hout⟩ := hbody hok'
  obtain ⟨-, ⟨high, low, houtHeader⟩, hfields⟩ := hheader hokHeader
  rw [hs.out, List.nil_append] at houtHeader
  rw [houtHeader] at hout
  have hposition : (encodeHeaderWithoutSize s pdu.header).1.position =
      4 + pdu.header.integerOctets.length := by
    have hlen := congrArg List.length houtHeader
    simp only [encoderView, List.length_take, PduHeader.octets, List.length_append,
      List.length_cons, List.length_nil] at hlen
    have hle : (encodeHeaderWithoutSize s pdu.header).1.position ≤
        (encodeHeaderWithoutSize s pdu.header).1.base.length := hfits.1.trans hfits.2
    have hmin := Nat.min_eq_left hle
    simp only [EncoderState.position, codecGetPosition] at hmin ⊢
    omega
  rw [hposition] at hfields
  set body := encodeBody (encodeHeaderWithoutSize s pdu.header).1 pdu.fdirective pdu.body
  set closing := setPduLength body (encodeHeaderWithoutSize s pdu.header).2 with hclosing
  refine ⟨closing.2.dataEncodedLength, ?_, ?_⟩
  · exact encodeHeaderFinalSize_out hfits' hok' hout
  · have heq : (encodePdu s pdu).header = closing.2 := rfl
    rw [heq, hclosing, setPduLength, hfields]
    simp only
    split <;> rfl

/-! ## Decoding a PDU -/

/-- The decoders for the same kind of PDU. -/
def decodeBody : PduBody → DecodeM (PduFileDirectiveHeader × PduBody)
  | .md _ => do
    let fdirective ← decodeFileDirectiveHeader default
    let md ← decodeMd default
    pure (fdirective, .md md)
  | .eof _ => do
    let fdirective ← decodeFileDirectiveHeader default
    let eof ← decodeEof default
    pure (fdirective, .eof eof)
  | .fin _ => do
    let fdirective ← decodeFileDirectiveHeader default
    let fin ← decodeFin default
    pure (fdirective, .fin fin)
  | .ack _ => do
    let fdirective ← decodeFileDirectiveHeader default
    let ack ← decodeAck default
    pure (fdirective, .ack ack)
  | .fd withMeta _ => do
    let fd ← decodeFileDataHeader withMeta default
    pure (⟨0⟩, .fd withMeta fd)

def decodePdu (kind : PduBody) : DecodeM (Bool × Pdu) := do
  let (success, header) ← decodeHeader default
  let (fdirective, body) ← decodeBody kind
  pure (success, ⟨header, fdirective, body⟩)

theorem consumesAll_body {p : Nat} {fdirective : PduFileDirectiveHeader} {body : PduBody}
    (h : body.WellFormed) (hdirective : body.isDirective = false → fdirective = ⟨0⟩) :
    ConsumesAll decoderView p (decodeBody body) (body.octets fdirective) (fdirective, body) := by
  have hdir := fun p => consumes_fileDirectiveHeader (p := p) default fdirective
  cases body with
  | md md =>
    exact (hdir p).bindAll ((consumes_md default h).all.bind (consumes_pure _).all)
  | eof eof => exact (hdir p).bindAll ((consumesAll_eof default h).bind (consumes_pure _).all)
  | fin fin => exact (hdir p).bindAll ((consumesAll_fin default h).bind (consumes_pure _).all)
  | ack ack =>
    exact (hdir p).bindAll ((consumes_ack default h).all.bind (consumes_pure _).all)
  | fd withMeta fd =>
    rw [hdirective rfl]
    exact (consumesAll_fileData default h).bind (consumes_pure _).all

theorem consumesAll_pdu {pdu : Pdu} (hwf : pdu.WellFormed) (dataLength : BitVec 16) :
    ConsumesAll decoderView 0 (decodePdu pdu.body)
      (pdu.header.octets (octetAt (storeUint16 dataLength) 0) (octetAt (storeUint16 dataLength) 1) ++
        pdu.body.octets pdu.fdirective)
      (true, ⟨decodedHeader default pdu.header dataLength (4 + pdu.header.integerOctets.length),
        pdu.fdirective, pdu.body⟩) := by
  have hheader := consumes_header (p := 0) default hwf.header dataLength
  rw [Nat.zero_add] at hheader
  refine hheader.bindAll ?_
  exact (consumesAll_body hwf.body hwf.noDirective).bind (consumes_pure _).all

/-- Decoding the produced octets leaves the decoder valid and returns the
header as the encoder left it, the directive code and the body. -/
def PduRoundTrips (s : EncoderState) (pdu : Pdu) : Prop :=
  let encoded := encodePdu s pdu
  let decoded := decodePdu pdu.body (decoderOn encoded.octets)
  decoded.2.isOk = true ∧ decoded.1 = (true, { pdu with header := encoded.header })

instance (s : EncoderState) (pdu : Pdu) : Decidable (PduRoundTrips s pdu) :=
  inferInstanceAs (Decidable (_ ∧ _))

/-- The round trip works exactly for headers with the segment-metadata flag clear. -/
theorem pdu_round_trip_iff (s : EncoderState) (pdu : Pdu) (hs : Fresh s) (hwf : pdu.WellFormed)
    (hvalid : (encodePdu s pdu).isOk = true) :
    PduRoundTrips s pdu ↔ pdu.header.segmentMetaFlag = 0 := by
  obtain ⟨dataLength, hoctets, hheader⟩ := encodePdu_octets hs hwf hvalid
  obtain ⟨hv, ⟨hok, -⟩, -, -⟩ := consumesAll_pdu hwf dataLength
    (decoderOn (encodePdu s pdu).octets) (decoderOn_ok _) rfl (by rw [hoctets]; rfl)
  unfold PduRoundTrips
  simp only
  constructor
  · rintro ⟨-, heq⟩
    have hflag := congrArg (fun r => r.2.header.segmentMetaFlag) (hv.symm.trans heq)
    rw [hheader] at hflag
    exact hflag.symm
  · intro hflag
    refine ⟨hok, hv.trans ?_⟩
    rw [hheader]
    have hdefault : (default : PduHeader).segmentMetaFlag = pdu.header.segmentMetaFlag := by
      rw [hflag]
      rfl
    simp only [decodedHeader, hdefault]

/-- An ACK PDU, for fixed inputs. -/
def ackPdu (segmentMetaFlag : Octet) : Pdu where
  header := { (default : PduHeader) with
    version := 1, eidLength := 1, txnSeqLength := 2, segmentMetaFlag := segmentMetaFlag,
    sourceEid := 23, destinationEid := 24, sequenceNum := 300 }
  fdirective := ⟨FileDirective.ack⟩
  body := .ack ⟨4, 0, 0, 1⟩

theorem ackPdu_wellFormed (segmentMetaFlag : Octet) : (ackPdu segmentMetaFlag).WellFormed where
  header := by constructor <;> simp only [ackPdu] <;> decide
  body := by constructor <;> decide
  noDirective h := by cases h

theorem ackPdu_round_trip :
    PduRoundTrips ⟨codecReset 16, List.replicate 16 0⟩ (ackPdu 0) ↔ (0 : Octet) = 0 :=
  pdu_round_trip_iff _ _ ⟨rfl, by decide⟩ (ackPdu_wellFormed 0) (by decide +kernel)

/-- A header with the segment-metadata flag set does not come back. -/
theorem segment_meta_flag_lost :
    ¬∀ (s : EncoderState) (pdu : Pdu), Fresh s → pdu.WellFormed → (encodePdu s pdu).isOk = true →
      PduRoundTrips s pdu := by
  intro h
  have hack := h ⟨codecReset 16, List.replicate 16 0⟩ (ackPdu 1) ⟨rfl, by decide⟩
    (ackPdu_wellFormed 1) (by decide +kernel)
  revert hack
  decide +kernel

end Nos3.Cf
