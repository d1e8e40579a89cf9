import Nos3.Base.Wire
import Nos3.Cf.Source.Codec

/-!
# What the encoders put on the wire

The octets of every PDU part, written down once, and for each encoder the rule
that it appends exactly those octets unless it leaves the encoder invalid.
-/
namespace Nos3.Cf
open Nos3.Base.BigEndian Nos3.Base.Wire

/-! ## The wire format -/

def Lv.octets (lv : Lv) : List Octet := lv.length :: lv.dataPtr.getD []

def Tlv.octets (tlv : Tlv) : List Octet :=
  tlv.type :: tlv.length ::
    if tlv.type = tlvTypeEntityId then
      beOctets tlv.length.toNat (tlv.data.asEid.setWidth 64 : BitVec 64)
    else tlv.data.asDataPtr.getD []

def SegmentRequest.octets (seg : SegmentRequest) : List Octet :=
  storeUint32 seg.offsetStart ++ storeUint32 seg.offsetEnd

def PduMd.octets (md : PduMd) : List Octet :=
  (mdControlImage md :: storeUint32 md.size) ++ (md.sourceFilename.octets ++ md.destFilename.octets)

def PduEof.octets (eof : PduEof) : List Octet :=
  (Nos3.Base.BitField.Field.set Fields.eofCc 0 eof.cc :: storeUint32 eof.crc ++
    storeUint32 eof.size) ++ eof.tlvList.tlv.flatMap Tlv.octets

def PduFin.octets (fin : PduFin) : List Octet :=
  [finFlagsImage fin] ++ fin.tlvList.tlv.flatMap Tlv.octets

def PduAck.octets (ack : PduAck) : List Octet := [ackDirectiveImage ack, ackStatusImage ack]

def PduNak.octets (nak : PduNak) : List Octet :=
  (storeUint32 nak.scopeStart ++ storeUint32 nak.scopeEnd) ++
    nak.segmentList.segments.flatMap SegmentRequest.octets

def PduFileDataHeader.metaOctets (withMeta : Bool) (fd : PduFileDataHeader) : List Octet :=
  if withMeta then [fdOptionalImage fd] ++ fd.segmentList.segments.flatMap SegmentRequest.octets
  else []

def PduFileDataHeader.octets (withMeta : Bool) (fd : PduFileDataHeader) : List Octet :=
  fd.metaOctets withMeta ++ storeUint32 fd.offset

/-- The integers behind the fixed part of the header. -/
def PduHeader.integerOctets (plh : PduHeader) : List Octet :=
  beOctets plh.eidLength.toNat (plh.sourceEid.setWidth 64 : BitVec 64) ++
    (beOctets plh.txnSeqLength.toNat (plh.sequenceNum.setWidth 64 : BitVec 64) ++
      beOctets plh.eidLength.toNat (plh.destinationEid.setWidth 64 : BitVec 64))

/-- An LV or plain TLV whose data has the length it declares. -/
def HasData (length : Octet) (dataPtr : Option (List Octet)) : Prop :=
  ∃ data, dataPtr = some data ∧ data.length = length.toNat

structure Tlv.WellFormed (tlv : Tlv) : Prop where
  plain : tlv.type ≠ tlvTypeEntityId →
    ∃ data, tlv.data = .dataPtr (some data) ∧ data.length = tlv.length.toNat
  entity : tlv.type = tlvTypeEntityId →
    ∃ eid, tlv.data = .eid eid ∧ eid.toNat < 256 ^ tlv.length.toNat

/-! ## Chunks -/

def encoderView : Nos3.Base.Wire.Writer EncoderState Octet where
  fits s := s.codecState.nextOffset ≤ s.codecState.maxSize ∧ s.codecState.maxSize ≤ s.base.length
  ok s := s.isOk = true
  out s := s.base.take s.codecState.nextOffset

theorem codecCheckSize_cases (s : CodecState) (n : Nat) :
    (s.nextOffset + n ≤ s.maxSize ∧
      codecCheckSize s n = (s.isValid, { s with nextOffset := s.nextOffset + n })) ∨
    (s.maxSize < s.nextOffset + n ∧ codecCheckSize s n = (false, { s with isValid := false })) := by
  unfold codecCheckSize
  by_cases h : s.nextOffset + n > s.maxSize
  · exact Or.inr ⟨h, by simp [h, codecSetDone, codecIsOk]⟩
  · exact Or.inl ⟨not_lt.mp h, by simp [h, codecIsOk]⟩

/-- A chunk is granted at the current position, or the encoder ends up invalid. -/
theorem doEncodeChunk_cases (s : EncoderState) (n : Nat) :
    (s.isOk = true ∧ s.codecState.nextOffset + n ≤ s.codecState.maxSize ∧
      doEncodeChunk s n = (some s.codecState.nextOffset,
        { s with codecState := { s.codecState with nextOffset := s.codecState.nextOffset + n } })) ∨
    (∃ cs, doEncodeChunk s n = (none, { s with codecState := cs }) ∧ cs.isValid = false ∧
      cs.maxSize = s.codecState.maxSize ∧
      (s.codecState.nextOffset ≤ s.codecState.maxSize → cs.nextOffset ≤ cs.maxSize)) := by
  unfold doEncodeChunk
  rcases codecCheckSize_cases s.codecState n with ⟨hroom, heq⟩ | ⟨hfull, heq⟩
  · cases hv : s.codecState.isValid with
    | true => exact Or.inl ⟨hv, hroom, by simp [heq, hv, EncoderState.position, codecGetPosition]⟩
    | false =>
      exact Or.inr ⟨{ s.codecState with nextOffset := s.codecState.nextOffset + n },
        by simp [heq, hv], hv, rfl, fun _ => hroom⟩
  · exact Or.inr ⟨{ s.codecState with isValid := false }, by simp [heq], rfl, rfl, id⟩

/-- Storing into a freshly granted chunk appends the image. -/
theorem store_out {s : EncoderState} (hfits : encoderView.fits s) {image : List Octet}
    (hroom : s.codecState.nextOffset + image.length ≤ s.codecState.maxSize) :
    let s' : EncoderState := EncoderState.store { s with codecState :=
      { s.codecState with nextOffset := s.codecState.nextOffset + image.length } }
      s.codecState.nextOffset image
    encoderView.fits s' ∧ encoderView.out s' = encoderView.out s ++ image := by
  obtain ⟨hpos, hlen⟩ := hfits
  have htake : (s.base.take s.codecState.nextOffset).length = s.codecState.nextOffset := by
    simp only [List.length_take]
    omega
  refine ⟨⟨hroom, ?_⟩, ?_⟩
  · simp only [EncoderState.store, List.length_append, htake, List.length_drop]
    omega
  · simp only [encoderView, EncoderState.store]
    rw [List.take_append_of_le_length (by simp only [List.length_append, htake]; omega)]
    exact List.take_of_length_le (by simp only [List.length_append, htake]; omega)

/-- The shape shared by all encoders with a fixed part: a chunk, its image, and
what follows only where the chunk was granted. -/
theorem emits_chunk_then {n : Nat} {image rest : List Octet} {k : EncoderState → EncoderState}
    (hn : image.length = n) (hk : Emits encoderView k rest) :
    Emits encoderView (fun s =>
      match doEncodeChunk s n with
      | (some ptr, s) => k (s.store ptr image)
      | (none, s) => s) (image ++ rest) := by
  intro s hs
  subst hn
  rcases doEncodeChunk_cases s image.length with ⟨hok, hroom, heq⟩ | ⟨cs, heq, hcs, hmax, hpos⟩
  · simp only [heq]
    obtain ⟨hfits, hout⟩ := store_out hs hroom
    obtain ⟨hfits', hk'⟩ := hk _ hfits
    refine ⟨hfits', fun hok' => ⟨hok, ?_⟩⟩
    rw [(hk' hok').2, hout, List.append_assoc]
  · simp only [heq]
    refine ⟨⟨hpos hs.1, hmax ▸ hs.2⟩, fun hok' => ?_⟩
    have hvalid : cs.isValid = true := hok'
    rw [hcs] at hvalid
    cases hvalid

theorem emits_fixedChunk (image : List Octet) :
    Emits encoderView (fun s => encodeFixedChunk s image) image := by
  have h : Emits encoderView (fun s => encodeFixedChunk s image) (image ++ []) :=
    emits_chunk_then (k := fun s => s) rfl emits_nothing
  rw [List.append_nil] at h
  exact h

theorem emits_integerInSize (value : BitVec 64) (size : Octet) :
    Emits encoderView (fun s => encodeIntegerInSize s value size) (beOctets size.toNat value) :=
  emits_fixedChunk _

theorem emits_data {length : Octet} {data : List Octet} (h : data.length = length.toNat) :
    Emits encoderView (fun s => encodeData s length (some data)) data := by
  have hall : data.take length.toNat = data := List.take_of_length_le (by omega)
  intro s hs
  unfold encodeData
  rcases doEncodeChunk_cases s length.toNat with ⟨hok, hroom, heq⟩ | ⟨cs, heq, hcs, hmax, hpos⟩
  · simp only [heq, hall]
    rw [← h] at hroom ⊢
    obtain ⟨hfits, hout⟩ := store_out hs hroom
    exact ⟨hfits, fun _ => ⟨hok, hout⟩⟩
  · simp only [heq]
    exact ⟨⟨hpos hs.1, hmax ▸ hs.2⟩, fun hok' => by cases hok'⟩

/-! ## One rule for each encoder -/

@[simp] theorem storeUint32_length (v : BitVec 32) : (storeUint32 v).length = 4 :=
  beOctets_length 4 v

theorem emits_lv {lv : Lv} (h : HasData lv.length lv.dataPtr) :
    Emits encoderView (fun s => encodeLV s lv) lv.octets := by
  obtain ⟨data, hdata, hlen⟩ := h
  have hrest : Emits encoderView
      (fun s => if lv.length > 0 then encodeData s lv.length lv.dataPtr else s) data := by
    by_cases hpos : lv.length > 0
    · simp only [hpos, ↓reduceIte, hdata]
      exact emits_data hlen
    · have hz : lv.length = 0 := by simpa using hpos
      have hnil : data = [] := List.eq_nil_of_length_eq_zero (by rw [hlen, hz]; rfl)
      simp only [hpos, ↓reduceIte, hnil]
      exact emits_nothing
  have hall : Emits encoderView (fun s => encodeLV s lv) (storeUint8 lv.length ++ data) :=
    emits_chunk_then (n := Sizeof.lv) rfl hrest
  have hoct : lv.octets = storeUint8 lv.length ++ data := by simp [Lv.octets, hdata, storeUint8]
  rw [hoct]
  exact hall

theorem emits_tlv {tlv : Tlv} (h : tlv.WellFormed) :
    Emits encoderView (fun s => encodeTLV s tlv) tlv.octets := by
  have hrest : Emits encoderView
      (fun s =>
        if tlv.type = tlvTypeEntityId then
          encodeIntegerInSize s (tlv.data.asEid.setWidth 64) tlv.length
        else if tlv.length > 0 then encodeData s tlv.length tlv.data.asDataPtr
        else s)
      (if tlv.type = tlvTypeEntityId then
        beOctets tlv.length.toNat (tlv.data.asEid.setWidth 64 : BitVec 64)
      else tlv.data.asDataPtr.getD []) := by
    by_cases htype : tlv.type = tlvTypeEntityId
    · simp only [htype, ↓reduceIte]
      exact emits_integerInSize _ _
    · obtain ⟨data, hdata, hlen⟩ := h.plain htype
      simp only [htype, ↓reduceIte, hdata, TlvData.asDataPtr, Option.getD_some]
      by_cases hpos : tlv.length > 0
      · simp only [hpos, ↓reduceIte]
        exact emits_data hlen
      · have hz : tlv.length = 0 := by simpa using hpos
        have hnil : data = [] := List.eq_nil_of_length_eq_zero (by rw [hlen, hz]; rfl)
        simp only [hpos, ↓reduceIte, hnil]
        exact emits_nothing
  have htype : (storeUint8 tlv.type ++ storeUint8 tlv.length).length = Sizeof.tlv := rfl
  exact emits_chunk_then htype hrest

theorem emits_segmentRequest (seg : SegmentRequest) :
    Emits encoderView (fun s => encodeSegmentRequest s seg) seg.octets :=
  emits_fixedChunk _

theorem emits_all {α : Type} {encodeItem : EncoderState → α → EncoderState}
    {octets : α → List Octet} :
    ∀ items : List α, (∀ item ∈ items, Emits encoderView (encodeItem · item) (octets item)) →
      Emits encoderView (fun s => encodeAll encodeItem s items) (items.flatMap octets)
  | [], _ => emits_nothing
  | item :: items, h => by
    have hrest := emits_all items fun x hx => h x (List.mem_cons_of_mem _ hx)
    have hseq := (h item (by simp)).seq hrest
    intro s hs
    simp only [encodeAll, List.flatMap_cons]
    by_cases hok : s.isOk = true
    · simp only [hok, ↓reduceIte]
      exact hseq s hs
    · simp only [hok]
      exact ⟨hs, fun hok' => absurd hok' hok⟩

theorem emits_allTlv {l : TlvList} (h : ∀ tlv ∈ l.tlv, tlv.WellFormed) :
    Emits encoderView (fun s => encodeAllTlv s l) (l.tlv.flatMap Tlv.octets) :=
  emits_all l.tlv fun tlv ht => emits_tlv (h tlv ht)

theorem emits_allSegments (l : SegmentList) :
    Emits encoderView (fun s => encodeAllSegments s l)
      (l.segments.flatMap SegmentRequest.octets) :=
  emits_all l.segments fun seg _ => emits_segmentRequest seg

theorem emits_md {md : PduMd} (hsrc : HasData md.sourceFilename.length md.sourceFilename.dataPtr)
    (hdst : HasData md.destFilename.length md.destFilename.dataPtr) :
    Emits encoderView (fun s => encodeMd s md) md.octets :=
  emits_chunk_then (by simp [Sizeof.pduMd]) ((emits_lv hsrc).seq (emits_lv hdst))

theorem emits_eof {eof : PduEof} (h : ∀ tlv ∈ eof.tlvList.tlv, tlv.WellFormed) :
    Emits encoderView (fun s => encodeEof s eof) eof.octets :=
  emits_chunk_then (by simp [Sizeof.pduEof]) (emits_allTlv h)

theorem emits_fin {fin : PduFin} (h : ∀ tlv ∈ fin.tlvList.tlv, tlv.WellFormed) :
    Emits encoderView (fun s => encodeFin s fin) fin.octets :=
  emits_chunk_then (n := Sizeof.pduFin) rfl (emits_allTlv h)

theorem emits_ack (ack : PduAck) : Emits encoderView (fun s => encodeAck s ack) ack.octets :=
  emits_fixedChunk _

theorem emits_nak (nak : PduNak) : Emits encoderView (fun s => encodeNak s nak) nak.octets :=
  emits_chunk_then (by simp [Sizeof.pduNak]) (emits_allSegments _)

theorem emits_fileDataHeader (withMeta : Bool) (fd : PduFileDataHeader) :
    Emits encoderView (fun s => encodeFileDataHeader s withMeta fd) (fd.octets withMeta) := by
  have hmeta : Emits encoderView (fun s =>
      if withMeta then
        match doEncodeChunk s Sizeof.uint8 with
        | (some ptr, s) => encodeAllSegments (s.store ptr [fdOptionalImage fd]) fd.segmentList
        | (none, s) => s
      else s) (fd.metaOctets withMeta) := by
    cases withMeta with
    | false => exact emits_nothing
    | true => exact emits_chunk_then (n := Sizeof.uint8) rfl (emits_allSegments _)
  exact hmeta.seq (emits_fixedChunk _)

theorem emits_fileDirectiveHeader (fdir : PduFileDirectiveHeader) :
    Emits encoderView (fun s => encodeFileDirectiveHeader s fdir) [fdir.directiveCode] :=
  emits_fixedChunk _

end Nos3.Cf
