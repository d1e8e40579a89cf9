import Nos3.Cf.Source.Codec
import Nos3.Cf.Source.EncodeRules

/-!
# What the decoders take off the wire

For each decoder the rule that it consumes exactly the octets its encoder
emits and returns the logical structure they stand for. The list decoders read
to the end of the input.
-/
namespace Nos3.Cf
open Nos3.Base.BigEndian Nos3.Base.BitField Nos3.Base.Wire

/-- A decoder over a complete octet string. -/
structure DecoderState.Aligned (s : DecoderState) : Prop where
  size : s.codecState.maxSize = s.base.length
  inside : s.codecState.nextOffset ≤ s.codecState.maxSize

def decoderView : Reader DecoderState Octet where
  ok s := s.isOk = true ∧ s.Aligned
  pos s := s.codecState.nextOffset
  rest s := s.base.drop s.codecState.nextOffset

variable {p : Nat}

/-! ## Chunks -/

theorem doDecodeChunk_granted {s : DecoderState} {n : Nat} (hok : s.isOk = true)
    (hroom : s.codecState.nextOffset + n ≤ s.codecState.maxSize) :
    doDecodeChunk n s = (some s.codecState.nextOffset, { s with
      codecState := { s.codecState with nextOffset := s.codecState.nextOffset + n }
      requests := s.requests ++
        [⟨true, n, some s.codecState.nextOffset, s.codecState.nextOffset + n⟩] }) := by
  have hv : s.codecState.isValid = true := hok
  unfold doDecodeChunk
  rcases codecCheckSize_cases s.codecState n with ⟨-, heq⟩ | ⟨hfull, -⟩
  · simp [heq, hv, hok, DecoderState.position, codecGetPosition]
  · omega

theorem rest_length {s : DecoderState} (h : s.Aligned) {bytes tail : List Octet}
    (hrest : decoderView.rest s = bytes ++ tail) :
    s.codecState.nextOffset + bytes.length ≤ s.codecState.maxSize := by
  have hlen := congrArg List.length hrest
  simp only [decoderView, List.length_drop, List.length_append] at hlen
  have := h.size
  have := h.inside
  omega

theorem take_of_rest {s : DecoderState} {bytes tail : List Octet}
    (hrest : decoderView.rest s = bytes ++ tail) :
    (s.base.drop s.codecState.nextOffset).take bytes.length = bytes := by
  have hdrop : s.base.drop s.codecState.nextOffset = bytes ++ tail := hrest
  rw [hdrop, List.take_left]

theorem drop_of_rest {s : DecoderState} {bytes tail : List Octet}
    (hrest : decoderView.rest s = bytes ++ tail) :
    s.base.drop (s.codecState.nextOffset + bytes.length) = tail := by
  have hdrop : s.base.drop s.codecState.nextOffset = bytes ++ tail := hrest
  rw [← List.drop_drop, hdrop, List.drop_left]

theorem consumes_fixedChunk {bytes : List Octet} {n : Nat} (hn : bytes.length = n) :
    Consumes decoderView p (decodeFixedChunk n) bytes (some bytes) := by
  intro s tail ⟨hok, hal⟩ hp hrest
  subst hn
  have hroom := rest_length hal hrest
  have hrun : decodeFixedChunk bytes.length s =
      (some bytes, (readOctets s.codecState.nextOffset bytes.length
        (doDecodeChunk bytes.length s).2).2) := by
    simp only [decodeFixedChunk, bind, StateT.bind, doDecodeChunk_granted hok hroom]
    simp [Functor.map, StateT.map, readOctets, take_of_rest hrest]
  rw [hrun, doDecodeChunk_granted hok hroom]
  exact ⟨rfl, ⟨hok, ⟨hal.size, hroom⟩⟩, by rw [← hp]; rfl, drop_of_rest hrest⟩

theorem consumes_dataPtr {bytes : List Octet} {n : Nat} (hn : bytes.length = n) :
    Consumes decoderView p (decodeDataPtr n) bytes (some bytes) := by
  intro s tail ⟨hok, hal⟩ hp hrest
  subst hn
  have hroom := rest_length hal hrest
  have hrun : decodeDataPtr bytes.length s = (some bytes, (doDecodeChunk bytes.length s).2) := by
    simp only [decodeDataPtr, bind, StateT.bind, doDecodeChunk_granted hok hroom]
    simp [Functor.map, StateT.map, viewOctets, take_of_rest hrest]
  rw [hrun, doDecodeChunk_granted hok hroom]
  exact ⟨rfl, ⟨hok, ⟨hal.size, hroom⟩⟩, by rw [← hp]; rfl, drop_of_rest hrest⟩

theorem consumes_integerInSize {size : Octet} {value : BitVec 64}
    (h : value.toNat < 256 ^ size.toNat) :
    Consumes decoderView p (decodeIntegerInSize size) (beOctets size.toNat value) value := by
  rw [← List.append_nil (beOctets size.toNat value)]
  refine (consumes_fixedChunk (beOctets_length size.toNat value)).bind ?_
  simpa [ofBe_beOctets h] using consumes_pure value

/-- The shape shared by all decoders with a fixed part. -/
theorem consumes_chunk_then {α : Type} {n : Nat} {image rest : List Octet} {v : α}
    {none' : DecodeM α} {k : List Octet → DecodeM α} (hn : image.length = n)
    (hk : Consumes decoderView (p + image.length) (k image) rest v) :
    Consumes decoderView p (do
      match ← decodeFixedChunk n with
      | none => none'
      | some chunk => k chunk) (image ++ rest) v :=
  (consumes_fixedChunk hn).bind hk

theorem consumesAll_chunk_then {α : Type} {n : Nat} {image rest : List Octet} {v : α}
    {none' : DecodeM α} {k : List Octet → DecodeM α} (hn : image.length = n)
    (hk : ConsumesAll decoderView (p + image.length) (k image) rest v) :
    ConsumesAll decoderView p (do
      match ← decodeFixedChunk n with
      | none => none'
      | some chunk => k chunk) (image ++ rest) v :=
  (consumes_fixedChunk hn).bindAll hk

/-! ## Fields of a chunk -/

theorem loadUint32_at (before after : List Octet) (v : BitVec 32) :
    loadUint32 (before ++ storeUint32 v ++ after) before.length = v := by
  have hload : loadUint32 (before ++ storeUint32 v ++ after) before.length = ofBe (beOctets 4 v) := by
    simp [loadUint32, octetAt, storeUint32, beOctets]
  rw [hload]
  exact ofBe_beOctets_word (by decide) v

theorem loadUint32_first (v w : BitVec 32) : loadUint32 (storeUint32 v ++ storeUint32 w) 0 = v := by
  simpa using loadUint32_at [] (storeUint32 w) v

theorem loadUint32_second (v w : BitVec 32) :
    loadUint32 (storeUint32 v ++ storeUint32 w) 4 = w := by
  simpa using loadUint32_at (storeUint32 v) [] w

/-! ## One rule for each decoder -/

theorem consumes_lv (old : Lv) {lv : Lv} (h : HasData lv.length lv.dataPtr) :
    Consumes decoderView p (decodeLV old) lv.octets lv := by
  obtain ⟨data, hdata, hlen⟩ := h
  have hoct : lv.octets = [lv.length] ++ (data ++ []) := by simp [Lv.octets, hdata]
  have hlv : lv = ⟨lv.length, some data⟩ := by rw [← hdata]
  rw [hoct]
  conv => rhs; rw [hlv]
  exact consumes_chunk_then (n := Sizeof.lv) rfl ((consumes_dataPtr hlen).bind (consumes_pure _))

theorem consumes_tlv (old : Tlv) {tlv : Tlv} (h : tlv.WellFormed) :
    Consumes decoderView p (decodeTLV old) tlv.octets tlv := by
  obtain ⟨type, length, data⟩ := tlv
  by_cases htype : type = tlvTypeEntityId
  · obtain ⟨eid, hdata, hfit⟩ := h.entity htype
    simp only at hdata hfit
    subst hdata
    have hfit' : (eid.setWidth 64).toNat < 256 ^ length.toNat := by
      rw [BitVec.toNat_setWidth, Nat.mod_eq_of_lt (eid.isLt.trans (by decide))]
      exact hfit
    have hback : (eid.setWidth 64).setWidth 32 = eid := by simp
    have hoct : Tlv.octets ⟨type, length, .eid eid⟩ =
        [type, length] ++ (beOctets length.toNat (eid.setWidth 64 : BitVec 64) ++ []) := by
      simp [Tlv.octets, htype, TlvData.asEid]
    rw [hoct]
    refine consumes_chunk_then (n := Sizeof.tlv) rfl ?_
    simp only [loadUint8, octetAt, List.getD_cons_zero, List.getD_cons_succ, htype, ↓reduceIte]
    refine (consumes_integerInSize hfit').bind ?_
    rw [hback]
    exact consumes_pure _
  · obtain ⟨octets, hdata, hlen⟩ := h.plain htype
    simp only at hdata hlen
    subst hdata
    have hoct : Tlv.octets ⟨type, length, .dataPtr (some octets)⟩ =
        [type, length] ++ (octets ++ []) := by
      simp [Tlv.octets, htype, TlvData.asDataPtr]
    rw [hoct]
    refine consumes_chunk_then (n := Sizeof.tlv) rfl ?_
    simp only [loadUint8, octetAt, List.getD_cons_zero, List.getD_cons_succ, htype, ↓reduceIte]
    exact (consumes_dataPtr hlen).bind (consumes_pure _)

theorem consumes_segmentRequest (old seg : SegmentRequest) :
    Consumes decoderView p (decodeSegmentRequest old) seg.octets seg := by
  have h : Consumes decoderView p (decodeSegmentRequest old) (seg.octets ++ []) seg :=
    consumes_chunk_then (n := Sizeof.segmentRequest)
    (by simp [SegmentRequest.octets, Sizeof.segmentRequest])
    (by
      rw [SegmentRequest.octets, loadUint32_first, loadUint32_second]
      exact consumes_pure _)
  rw [List.append_nil] at h
  exact h

/-! ## The list decoders -/

section Lists
variable {α : Type} [Inhabited α] {decodeItem : α → DecodeM α} {octets : α → List Octet} {cap : Nat}

theorem remain_eq {s : DecoderState} (h : s.Aligned) :
    s.remain = (decoderView.rest s).length := by
  simp [DecoderState.remain, codecGetRemain, decoderView, h.size]

/-- One round of the loop on an entry that decodes. -/
theorem decodeAllLoop_round (limit : Nat) {items : List α} (hroom : items.length < cap)
    {s : DecoderState} (hs : decoderView.ok s) {item : α} {tail : List Octet}
    (hne : octets item ≠ [])
    (hitem : Consumes decoderView s.codecState.nextOffset (decodeItem default) (octets item) item)
    (hrest : decoderView.rest s = octets item ++ tail) :
    decodeAllLoop decodeItem cap (limit + 1) items s =
      decodeAllLoop decodeItem cap limit (items ++ [item]) (decodeItem default s).2 := by
  obtain ⟨hv, ⟨hok', -⟩, -, -⟩ := hitem s tail hs rfl hrest
  have hremain : s.remain ≠ 0 := by
    rw [remain_eq hs.2, hrest]
    simp [hne]
  have hcap : ¬items.length ≥ cap := not_le.mpr hroom
  have hstep : decodeItem default s = (item, (decodeItem default s).2) := Prod.ext hv rfl
  simp only [decodeAllLoop, bind, StateT.bind, DecodeM.remain, hremain, hcap, ↓reduceIte,
    DecodeM.isOk]
  rw [hstep]
  simp only [hok', ↓reduceIte]

theorem consumesAll_loop :
    ∀ (l : List α) (limit : Nat) (items : List α) (p : Nat), l.length ≤ limit →
      items.length + l.length ≤ cap → (∀ item ∈ l, octets item ≠ []) →
      (∀ item ∈ l, ∀ p, Consumes decoderView p (decodeItem default) (octets item) item) →
      ConsumesAll decoderView p (decodeAllLoop decodeItem cap limit items) (l.flatMap octets)
        (items ++ l)
  | [], limit, items, p, _, _, _, _ => by
    intro s hs hp hrest
    have hsame : decodeAllLoop decodeItem cap limit items s = (items, s) := by
      cases limit with
      | zero => rfl
      | succ limit =>
        have hremain : s.remain = 0 := by
          rw [remain_eq hs.2, hrest]
          rfl
        simp [decodeAllLoop, bind, StateT.bind, DecodeM.remain, hremain]
        rfl
    rw [hsame]
    exact ⟨by simp, hs, by simpa using hp, hrest⟩
  | item :: l, 0, items, p, hlimit, _, _, _ => by
    simp only [List.length_cons] at hlimit
    omega
  | item :: l, limit + 1, items, p, hlimit, hcap, hne, hitem => by
    simp only [List.length_cons] at hlimit hcap
    intro s hs hp hrest
    rw [List.flatMap_cons] at hrest ⊢
    have hhead := hitem item (by simp) s.codecState.nextOffset
    rw [decodeAllLoop_round limit (by omega) hs (hne item (by simp)) hhead hrest]
    obtain ⟨-, hs', hp', hrest'⟩ := hhead s _ hs rfl hrest
    obtain ⟨hv, hfinal, hpos, htail⟩ := consumesAll_loop l limit (items ++ [item])
      (p + (octets item).length) (by omega) (by simp; omega)
      (fun x hx => hne x (List.mem_cons_of_mem _ hx))
      (fun x hx => hitem x (List.mem_cons_of_mem _ hx)) _ hs' (by rw [hp', ← hp]; rfl) hrest'
    exact ⟨by simpa using hv, hfinal, by rw [hpos, List.length_append]; omega, htail⟩

/-- More entries than the array has room for leave the decoder invalid. -/
theorem loop_overfull :
    ∀ (l : List α) (limit : Nat) (items : List α), cap < items.length + l.length →
      items.length ≤ cap → cap < items.length + limit → (∀ item ∈ l, octets item ≠ []) →
      (∀ item ∈ l, ∀ p, Consumes decoderView p (decodeItem default) (octets item) item) →
      ∀ s, decoderView.ok s → decoderView.rest s = l.flatMap octets →
        (decodeAllLoop decodeItem cap limit items s).2.isOk = false
  | [], limit, items, hover, hfit, _, _, _ => by
    simp only [List.length_nil] at hover
    omega
  | item :: l, 0, items, _, hfit, hlimit, _, _ => by omega
  | item :: l, limit + 1, items, hover, hfit, hlimit, hne, hitem => by
    intro s hs hrest
    rw [List.flatMap_cons] at hrest
    by_cases hroom : items.length < cap
    · have hhead := hitem item (by simp) s.codecState.nextOffset
      rw [decodeAllLoop_round limit hroom hs (hne item (by simp)) hhead hrest]
      obtain ⟨-, hs', -, hrest'⟩ := hhead s _ hs rfl hrest
      simp only [List.length_cons] at hover
      exact loop_overfull l limit (items ++ [item]) (by simp; omega) (by simp; omega)
        (by simp; omega) (fun x hx => hne x (List.mem_cons_of_mem _ hx))
        (fun x hx => hitem x (List.mem_cons_of_mem _ hx)) _ hs' hrest'
    · have hremain : s.remain ≠ 0 := by
        rw [remain_eq hs.2, hrest]
        simp [hne item (by simp)]
      have hcap : items.length ≥ cap := not_lt.mp hroom
      simp only [decodeAllLoop, bind, StateT.bind, DecodeM.remain, hremain, hcap, ↓reduceIte,
        DecodeM.setDone]
      rfl

end Lists

theorem tlv_octets_ne_nil (tlv : Tlv) : tlv.octets ≠ [] := by simp [Tlv.octets]

theorem segment_octets_ne_nil (seg : SegmentRequest) : seg.octets ≠ [] := by
  intro h
  have := congrArg List.length h
  simp [SegmentRequest.octets] at this

theorem consumesAll_allTlv {l : TlvList} (hwf : ∀ tlv ∈ l.tlv, tlv.WellFormed)
    (hcount : l.numTlv ≤ pduMaxTlv) :
    ConsumesAll decoderView p (decodeAllTlv pduMaxTlv) (l.tlv.flatMap Tlv.octets) l := by
  have hloop : ConsumesAll decoderView p (decodeAllLoop decodeTLV pduMaxTlv pduMaxTlv [])
      (l.tlv.flatMap Tlv.octets) ([] ++ l.tlv) := consumesAll_loop l.tlv pduMaxTlv [] p
    hcount (by simpa [TlvList.numTlv] using hcount) (fun tlv _ => tlv_octets_ne_nil tlv)
    (fun tlv ht p => consumes_tlv default (hwf tlv ht))
  intro s hs hp hrest
  obtain ⟨hv, h⟩ := hloop s hs hp hrest
  exact ⟨congrArg TlvList.mk hv, h⟩

theorem consumesAll_allSegments {l : SegmentList} (hcount : l.numSegments ≤ pduMaxTlv) :
    ConsumesAll decoderView p (decodeAllSegments pduMaxSegments)
      (l.segments.flatMap SegmentRequest.octets) l := by
  have hloop : ConsumesAll decoderView p
      (decodeAllLoop decodeSegmentRequest pduMaxTlv pduMaxSegments [])
      (l.segments.flatMap SegmentRequest.octets) ([] ++ l.segments) := consumesAll_loop
    l.segments pduMaxSegments [] p (hcount.trans (by decide))
    (by simpa [SegmentList.numSegments] using hcount)
    (fun seg _ => segment_octets_ne_nil seg) (fun seg _ p => consumes_segmentRequest default seg)
  intro s hs hp hrest
  obtain ⟨hv, h⟩ := hloop s hs hp hrest
  exact ⟨congrArg SegmentList.mk hv, h⟩

/-! ## Directive PDUs -/

structure PduMd.WellFormed (md : PduMd) : Prop where
  closeReq : md.closeReq.toNat < 2
  checksumType : md.checksumType.toNat < 16
  source : HasData md.sourceFilename.length md.sourceFilename.dataPtr
  dest : HasData md.destFilename.length md.destFilename.dataPtr

structure TlvList.WellFormed (l : TlvList) : Prop where
  count : l.numTlv ≤ pduMaxTlv
  each : ∀ tlv ∈ l.tlv, tlv.WellFormed

structure PduEof.WellFormed (eof : PduEof) : Prop where
  cc : eof.cc.toNat < 16
  tlvs : eof.tlvList.WellFormed

structure PduFin.WellFormed (fin : PduFin) : Prop where
  cc : fin.cc.toNat < 16
  deliveryCode : fin.deliveryCode.toNat < 2
  fileStatus : fin.fileStatus.toNat < 4
  tlvs : fin.tlvList.WellFormed

structure PduAck.WellFormed (ack : PduAck) : Prop where
  ackDirectiveCode : ack.ackDirectiveCode.toNat < 16
  ackSubtypeCode : ack.ackSubtypeCode.toNat < 16
  cc : ack.cc.toNat < 16
  txnStatus : ack.txnStatus.toNat < 4

theorem md_control (md : PduMd) (h : md.WellFormed) :
    Fields.mdClosureRequested.get (mdControlImage md) = md.closeReq ∧
      Fields.mdChecksumType.get (mdControlImage md) = md.checksumType := by
  refine ⟨?_, Field.get_set (by decide) _ h.checksumType⟩
  rw [mdControlImage, Field.get_set_of_disjoint (by decide)]
  exact Field.get_set (by decide) _ h.closeReq

theorem consumes_md (old : PduMd) {md : PduMd} (h : md.WellFormed) :
    Consumes decoderView p (decodeMd old) md.octets md := by
  obtain ⟨hclose, hsum⟩ := md_control md h
  have hsize : loadUint32 (mdControlImage md :: storeUint32 md.size) 1 = md.size := by
    simpa using loadUint32_at [mdControlImage md] [] md.size
  rw [PduMd.octets, ← List.append_nil md.destFilename.octets]
  refine consumes_chunk_then (by simp [Sizeof.pduMd]) ?_
  refine (consumes_lv _ h.source).bind ((consumes_lv _ h.dest).bind ?_)
  simp only [octetAt, List.getD_cons_zero, hclose, hsum, hsize]
  exact consumes_pure _

theorem consumesAll_eof (old : PduEof) {eof : PduEof} (h : eof.WellFormed) :
    ConsumesAll decoderView p (decodeEof old) eof.octets eof := by
  set cc := Fields.eofCc.set 0 eof.cc with hcc
  have hget : Fields.eofCc.get cc = eof.cc := Field.get_set (by decide) _ h.cc
  have hcrc : loadUint32 (cc :: storeUint32 eof.crc ++ storeUint32 eof.size) 1 = eof.crc := by
    simpa using loadUint32_at [cc] (storeUint32 eof.size) eof.crc
  have hsize : loadUint32 (cc :: storeUint32 eof.crc ++ storeUint32 eof.size) 5 = eof.size := by
    simpa using loadUint32_at (cc :: storeUint32 eof.crc) [] eof.size
  rw [PduEof.octets, ← hcc]
  refine consumesAll_chunk_then (by simp [Sizeof.pduEof]) ?_
  refine (consumesAll_allTlv h.tlvs.each h.tlvs.count).bind ?_
  simp only [octetAt, List.getD_cons_zero, List.cons_append, hget] at hcrc hsize ⊢
  rw [hcrc, hsize]
  exact (consumes_pure _).all

theorem fin_flags (fin : PduFin) (h : fin.WellFormed) :
    Fields.finCc.get (finFlagsImage fin) = fin.cc ∧
      Fields.finDeliveryCode.get (finFlagsImage fin) = fin.deliveryCode ∧
      Fields.finFileStatus.get (finFlagsImage fin) = fin.fileStatus := by
  refine ⟨?_, ?_, Field.get_set (by decide) _ h.fileStatus⟩
  · rw [finFlagsImage, Field.get_set_of_disjoint (by decide), Field.get_set_of_disjoint (by decide)]
    exact Field.get_set (by decide) _ h.cc
  · rw [finFlagsImage, Field.get_set_of_disjoint (by decide)]
    exact Field.get_set (by decide) _ h.deliveryCode

theorem consumesAll_fin (old : PduFin) {fin : PduFin} (h : fin.WellFormed) :
    ConsumesAll decoderView p (decodeFin old) fin.octets fin := by
  obtain ⟨hcc, hdelivery, hstatus⟩ := fin_flags fin h
  refine consumesAll_chunk_then (n := Sizeof.pduFin) rfl ?_
  refine (consumesAll_allTlv h.tlvs.each h.tlvs.count).bind ?_
  simp only [octetAt, List.getD_cons_zero, hcc, hdelivery, hstatus]
  exact (consumes_pure _).all

theorem consumes_ack (old : PduAck) {ack : PduAck} (h : ack.WellFormed) :
    Consumes decoderView p (decodeAck old) ack.octets ack := by
  have hcode : Fields.ackDirCode.get (ackDirectiveImage ack) = ack.ackDirectiveCode := by
    rw [ackDirectiveImage, Field.get_set_of_disjoint (by decide)]
    exact Field.get_set (by decide) _ h.ackDirectiveCode
  have hsub : Fields.ackDirSubtypeCode.get (ackDirectiveImage ack) = ack.ackSubtypeCode :=
    Field.get_set (by decide) _ h.ackSubtypeCode
  have hcc : Fields.ackCc.get (ackStatusImage ack) = ack.cc := by
    rw [ackStatusImage, Field.get_set_of_disjoint (by decide)]
    exact Field.get_set (by decide) _ h.cc
  have hstatus : Fields.ackTransactionStatus.get (ackStatusImage ack) = ack.txnStatus :=
    Field.get_set (by decide) _ h.txnStatus
  rw [← List.append_nil ack.octets]
  refine consumes_chunk_then (n := Sizeof.pduAck) rfl ?_
  simp only [PduAck.octets, octetAt, List.getD_cons_zero, List.getD_cons_succ, hcode, hsub, hcc,
    hstatus]
  exact consumes_pure _

theorem consumesAll_nak (old : PduNak) {nak : PduNak}
    (h : nak.segmentList.numSegments ≤ pduMaxTlv) :
    ConsumesAll decoderView p (decodeNak old) nak.octets nak := by
  refine consumesAll_chunk_then (by simp [Sizeof.pduNak]) ?_
  refine (consumesAll_allSegments h).bind ?_
  rw [loadUint32_first, loadUint32_second]
  exact (consumes_pure _).all

theorem consumes_fileDirectiveHeader (old fdir : PduFileDirectiveHeader) :
    Consumes decoderView p (decodeFileDirectiveHeader old) [fdir.directiveCode] fdir := by
  rw [← List.append_nil [fdir.directiveCode]]
  exact consumes_chunk_then (n := Sizeof.pduFileDirectiveHeader) rfl (consumes_pure _)

/-! ## File data -/

structure PduFileDataHeader.WellFormed (withMeta : Bool) (fd : PduFileDataHeader) : Prop where
  continuationState : fd.continuationState.toNat < 4
  segments : fd.segmentList.numSegments ≤ pduMaxSegments
  noMeta : withMeta = false → fd.continuationState = 0 ∧ fd.segmentList = ⟨[]⟩
  data : ∃ data, fd.dataPtr = some data ∧ data.length = fd.dataLen

theorem consumes_isOk : Consumes decoderView p DecodeM.isOk [] true := by
  intro s tail hs hp hrest
  exact ⟨hs.1, hs, hp, hrest⟩

theorem consumesAll_remain {α : Type} {bytes : List Octet} {k : Nat → DecodeM α} {v : α}
    (hk : ConsumesAll decoderView p (k bytes.length) bytes v) :
    ConsumesAll decoderView p (DecodeM.remain >>= k) bytes v := by
  intro s hs hp hrest
  have hremain : (DecodeM.remain >>= k) s = k bytes.length s := by
    have hlen : s.remain = bytes.length := by rw [remain_eq hs.2, hrest]
    simp only [bind, StateT.bind, DecodeM.remain, hlen]
  rw [hremain]
  exact hk s hs hp hrest

theorem consumes_metaSegments :
    ∀ (l items : List SegmentRequest) (p : Nat),
      Consumes decoderView p (decodeMetaSegments l.length items)
        (l.flatMap SegmentRequest.octets) (items ++ l)
  | [], items, p => by simpa [decodeMetaSegments] using consumes_pure (p := p) items
  | seg :: l, items, p => by
    have hrest := consumes_metaSegments l (items ++ [seg]) (p + seg.octets.length)
    rw [List.append_assoc, List.singleton_append] at hrest
    refine (consumes_segmentRequest default seg).bind ?_
    exact consumes_isOk.bind (a := []) hrest

theorem fd_optional (fd : PduFileDataHeader) (hcs : fd.continuationState.toNat < 4)
    (hsegs : fd.segmentList.numSegments ≤ pduMaxSegments) :
    Fields.fdRecordContinuationState.get (fdOptionalImage fd) = fd.continuationState ∧
      (Fields.fdSegmentMetadataLength.get (fdOptionalImage fd)).toNat =
        fd.segmentList.numSegments := by
  have hmax : fd.segmentList.numSegments < 64 := hsegs.trans_lt (by decide)
  have hnum : (BitVec.ofNat 8 fd.segmentList.numSegments).toNat = fd.segmentList.numSegments :=
    Nat.mod_eq_of_lt (hmax.trans (by decide))
  constructor
  · rw [fdOptionalImage, Field.get_set_of_disjoint (by decide)]
    exact Field.get_set (by decide) _ hcs
  · rw [fdOptionalImage, Field.get_set (by decide) _ (by rw [hnum]; exact hmax), hnum]

theorem consumes_fileDataMeta {withMeta : Bool} {fd : PduFileDataHeader}
    (h : fd.WellFormed withMeta) :
    Consumes decoderView p (decodeFileDataMeta withMeta) (fd.metaOctets withMeta)
      (fd.continuationState, fd.segmentList.segments) := by
  cases withMeta with
  | false =>
    obtain ⟨hcs, hsegs⟩ := h.noMeta rfl
    rw [hcs, hsegs]
    exact consumes_pure _
  | true =>
    obtain ⟨hcs, hnum⟩ := fd_optional fd h.continuationState h.segments
    have hfits : ¬fd.segmentList.numSegments > pduMaxSegments := not_lt.mpr h.segments
    have hloop := consumes_metaSegments fd.segmentList.segments [] (p + 1)
    have hseq := hloop.bind (k := fun segments => pure (fd.continuationState, segments))
      (consumes_pure _)
    rw [List.append_nil] at hseq
    refine consumes_chunk_then (n := Sizeof.uint8) rfl ?_
    simp only [octetAt, List.getD_cons_zero, hcs, hnum, if_neg hfits]
    exact hseq

/-- The file data part with its data, which runs to the end of the input. -/
theorem consumesAll_fileData (old : PduFileDataHeader) {withMeta : Bool} {fd : PduFileDataHeader}
    (h : fd.WellFormed withMeta) :
    ConsumesAll decoderView p (decodeFileDataHeader withMeta old)
      (fd.octets withMeta ++ fd.dataPtr.getD []) fd := by
  obtain ⟨data, hdata, hlen⟩ := h.data
  have hoffset : loadUint32 (storeUint32 fd.offset) 0 = fd.offset := by
    simpa using loadUint32_at [] [] fd.offset
  rw [PduFileDataHeader.octets, List.append_assoc]
  refine (consumes_fileDataMeta h).bindAll ?_
  refine consumesAll_chunk_then (by simp [Sizeof.pduFileDataHeader]) ?_
  rw [hdata, Option.getD_some]
  refine consumesAll_remain ?_
  rw [← List.append_nil data]
  refine ((consumes_dataPtr (by simp)).bind ?_).all
  have hval : ({ old with
      continuationState := fd.continuationState, segmentList := fd.segmentList,
      offset := loadUint32 (storeUint32 fd.offset) 0, dataLen := (data ++ []).length,
      dataPtr := some data } : PduFileDataHeader) = fd := by
    obtain ⟨cs, segs, off, ptr, len⟩ := fd
    simp_all
  conv => rhs; rw [← hval]
  exact consumes_pure _

end Nos3.Cf

/-!
## The PDU header on the wire

The header is written in two steps, so its octets are described with the length
field as a parameter: arbitrary after `encodeHeaderWithoutSize`, the data length
once the PDU is closed.
-/
namespace Nos3.Cf
open Nos3.Base.BigEndian Nos3.Base.BitField Nos3.Base.Wire

variable {p : Nat}

/-- Header fields within their bit widths, the flags this codec does not encode
clear, and integer widths that fit the values. -/
structure PduHeader.WellFormed (plh : PduHeader) : Prop where
  version : plh.version.toNat < 8
  pduType : plh.pduType.toNat < 2
  direction : plh.direction.toNat < 2
  txmMode : plh.txmMode.toNat < 2
  crcFlag : plh.crcFlag = 0
  largeFlag : plh.largeFlag = 0
  eidLength : 1 ≤ plh.eidLength.toNat ∧ plh.eidLength.toNat ≤ Sizeof.entityId
  txnSeqLength : 1 ≤ plh.txnSeqLength.toNat ∧ plh.txnSeqLength.toNat ≤ Sizeof.transactionSeq
  sourceEid : plh.sourceEid.toNat < 256 ^ plh.eidLength.toNat
  destinationEid : plh.destinationEid.toNat < 256 ^ plh.eidLength.toNat
  sequenceNum : plh.sequenceNum.toNat < 256 ^ plh.txnSeqLength.toNat

def PduHeader.octets (plh : PduHeader) (high low : Octet) : List Octet :=
  [headerFlagsImage plh, high, low, headerLengthsImage plh] ++ plh.integerOctets

/-! ## Encoding -/

/-- Storing the outer octets of a four-octet chunk keeps the inner two. -/
theorem store_outer (s : EncoderState) (ptr : Nat) (first last : Octet)
    (h : ptr + 4 ≤ s.base.length) :
    (s.store ptr [first]).store (ptr + 3) [last] =
      s.store ptr [first, octetAt s.base (ptr + 1), octetAt s.base (ptr + 2), last] := by
  obtain ⟨a, b, hbase, ha⟩ : ∃ a b, s.base = a ++ b ∧ a.length = ptr :=
    ⟨_, _, (List.take_append_drop ptr _).symm, by simp; omega⟩
  have hb : 4 ≤ b.length := by
    rw [hbase, List.length_append] at h
    omega
  obtain ⟨b0, b1, b2, b3, t, rfl⟩ : ∃ b0 b1 b2 b3 t, b = b0 :: b1 :: b2 :: b3 :: t := by
    match b, hb with
    | b0 :: b1 :: b2 :: b3 :: t, _ => exact ⟨b0, b1, b2, b3, t, rfl⟩
  subst ha
  have hfour : a.length + 3 + 1 - a.length = 4 := by omega
  have hlong : a.length ≤ a.length + 3 + 1 := by omega
  simp [EncoderState.store, octetAt, hbase, List.take_append, List.drop_append,
    List.take_of_length_le, List.drop_of_length_le, hfour, hlong]

/-- Unless it fails, the header encoder appends the header octets with some
content in the length field and notes the position. -/
theorem encodeHeader_out {s : EncoderState} (hs : encoderView.fits s) (plh : PduHeader) :
    encoderView.fits (encodeHeaderWithoutSize s plh).1 ∧
    (encoderView.ok (encodeHeaderWithoutSize s plh).1 → encoderView.ok s ∧
      (∃ high low, encoderView.out (encodeHeaderWithoutSize s plh).1 =
        encoderView.out s ++ plh.octets high low) ∧
      (encodeHeaderWithoutSize s plh).2 =
        { plh with
          headerEncodedLength := BitVec.ofNat 16 (encodeHeaderWithoutSize s plh).1.position }) := by
  unfold encodeHeaderWithoutSize
  rcases doEncodeChunk_cases s Sizeof.pduHeader with ⟨hok, hroom, heq⟩ | ⟨cs, heq, hcs, hmax, hpos⟩
  · have hints := (emits_integerInSize (plh.sourceEid.setWidth 64) plh.eidLength).seq
      ((emits_integerInSize (plh.sequenceNum.setWidth 64) plh.txnSeqLength).seq
        (emits_integerInSize (plh.destinationEid.setWidth 64) plh.eidLength))
    simp only [heq]
    have hbase : s.codecState.nextOffset + 4 ≤ s.base.length := hroom.trans hs.2
    have hstore := store_outer { s with codecState :=
      { s.codecState with nextOffset := s.codecState.nextOffset + Sizeof.pduHeader } }
      s.codecState.nextOffset (headerFlagsImage plh) (headerLengthsImage plh) hbase
    rw [hstore]
    obtain ⟨hfits, hout⟩ := store_out hs
      (show s.codecState.nextOffset + [headerFlagsImage plh,
        octetAt s.base (s.codecState.nextOffset + 1), octetAt s.base (s.codecState.nextOffset + 2),
        headerLengthsImage plh].length ≤ s.codecState.maxSize from hroom)
    obtain ⟨hfits', hk⟩ := hints _ hfits
    refine ⟨hfits', fun hok' => ⟨hok, ⟨octetAt s.base (s.codecState.nextOffset + 1),
      octetAt s.base (s.codecState.nextOffset + 2), ?_⟩, trivial⟩⟩
    refine (hk hok').2.trans ?_
    rw [hout, List.append_assoc]
    rfl
  · simp only [heq]
    refine ⟨⟨hpos hs.1, hmax ▸ hs.2⟩, fun hok' => ?_⟩
    have hvalid : cs.isValid = true := hok'
    rw [hcs] at hvalid
    cases hvalid

/-- Closing a PDU that starts at the head of the buffer fills in its length field. -/
theorem encodeHeaderFinalSize_out {s : EncoderState} {plh hdr : PduHeader} {high low : Octet}
    {rest : List Octet} (hs : encoderView.fits s) (hok : s.isOk = true)
    (hout : encoderView.out s = plh.octets high low ++ rest) :
    encoderView.out (encodeHeaderFinalSize s hdr) =
      plh.octets (octetAt (storeUint16 hdr.dataEncodedLength) 0)
        (octetAt (storeUint16 hdr.dataEncodedLength) 1) ++ rest := by
  have hlen := congrArg List.length hout
  have htake : (encoderView.out s).length = s.codecState.nextOffset := by
    simp only [encoderView, List.length_take]
    have := hs.1
    have := hs.2
    omega
  have hfour : 4 ≤ s.codecState.nextOffset := by
    rw [htake] at hlen
    simp only [PduHeader.octets, List.length_append, List.length_cons, List.length_nil] at hlen
    omega
  have hpos : s.position ≥ Sizeof.pduHeader := hfour
  have hbase : s.base = encoderView.out s ++ s.base.drop s.codecState.nextOffset :=
    (List.take_append_drop _ _).symm
  have htwo : storeUint16 hdr.dataEncodedLength =
      [octetAt (storeUint16 hdr.dataEncodedLength) 0,
        octetAt (storeUint16 hdr.dataEncodedLength) 1] := rfl
  have hhead : s.base = headerFlagsImage plh :: high :: low ::
      (headerLengthsImage plh :: (plh.integerOctets ++ rest) ++
        s.base.drop s.codecState.nextOffset) := by
    conv_lhs => rw [hbase, hout]
    simp [PduHeader.octets]
  have hsame : encoderView.out (encodeHeaderFinalSize s hdr) =
      (headerFlagsImage plh :: (storeUint16 hdr.dataEncodedLength ++
        (headerLengthsImage plh :: (plh.integerOctets ++ rest) ++
          s.base.drop s.codecState.nextOffset))).take s.codecState.nextOffset := by
    simp only [encodeHeaderFinalSize, hok, hpos, and_self, ↓reduceIte, encoderView,
      EncoderState.setDone, codecSetDone, EncoderState.store]
    conv_lhs => rw [hhead]
    simp [storeUint16]
  rw [hsame, htwo]
  have hwhole : s.codecState.nextOffset = (plh.octets high low ++ rest).length := by
    rw [← htake, hlen]
  have hsplit : headerFlagsImage plh :: ([octetAt (storeUint16 hdr.dataEncodedLength) 0,
      octetAt (storeUint16 hdr.dataEncodedLength) 1] ++
        (headerLengthsImage plh :: (plh.integerOctets ++ rest) ++
          s.base.drop s.codecState.nextOffset)) =
      (plh.octets (octetAt (storeUint16 hdr.dataEncodedLength) 0)
        (octetAt (storeUint16 hdr.dataEncodedLength) 1) ++ rest) ++
          s.base.drop s.codecState.nextOffset := by
    simp [PduHeader.octets]
  rw [hsplit, List.take_append_of_le_length (by rw [hwhole]; simp [PduHeader.octets])]
  refine List.take_of_length_le ?_
  rw [hwhole]
  simp [PduHeader.octets]

/-! ## Decoding -/

theorem header_flags {plh : PduHeader} (h : plh.WellFormed) :
    Fields.headerVersion.get (headerFlagsImage plh) = plh.version ∧
    Fields.headerDir.get (headerFlagsImage plh) = plh.direction ∧
    Fields.headerType.get (headerFlagsImage plh) = plh.pduType ∧
    Fields.headerMode.get (headerFlagsImage plh) = plh.txmMode ∧
    Fields.headerCrc.get (headerFlagsImage plh) = plh.crcFlag ∧
    Fields.headerLargeFile.get (headerFlagsImage plh) = plh.largeFlag := by
  refine ⟨?_, ?_, ?_, Field.get_set (by decide) _ h.txmMode, ?_, ?_⟩
  · rw [headerFlagsImage, Field.get_set_of_disjoint (by decide),
      Field.get_set_of_disjoint (by decide), Field.get_set_of_disjoint (by decide)]
    exact Field.get_set (by decide) _ h.version
  · rw [headerFlagsImage, Field.get_set_of_disjoint (by decide),
      Field.get_set_of_disjoint (by decide)]
    exact Field.get_set (by decide) _ h.direction
  · rw [headerFlagsImage, Field.get_set_of_disjoint (by decide)]
    exact Field.get_set (by decide) _ h.pduType
  · rw [headerFlagsImage, Field.get_set_of_disjoint (by decide),
      Field.get_set_of_disjoint (by decide), Field.get_set_of_disjoint (by decide),
      Field.get_set_of_disjoint (by decide), Field.get_zero, h.crcFlag]
  · rw [headerFlagsImage, Field.get_set_of_disjoint (by decide),
      Field.get_set_of_disjoint (by decide), Field.get_set_of_disjoint (by decide),
      Field.get_set_of_disjoint (by decide), Field.get_zero, h.largeFlag]

theorem biased_length {length : Octet} (h : 1 ≤ length.toNat ∧ length.toNat ≤ 4) :
    (length - 1).toNat < 2 ^ 3 ∧ length - 1 + 1 = length := by
  obtain ⟨h1, h4⟩ := h
  constructor
  · bv_omega
  · bv_omega

theorem header_lengths {plh : PduHeader} (h : plh.WellFormed) :
    Fields.lengthsEntity.get (headerLengthsImage plh) + 1 = plh.eidLength ∧
    Fields.lengthsTransactionSequence.get (headerLengthsImage plh) + 1 = plh.txnSeqLength := by
  obtain ⟨heid, hback⟩ := biased_length h.eidLength
  obtain ⟨htsn, hback'⟩ := biased_length h.txnSeqLength
  constructor
  · rw [headerLengthsImage, Field.get_set_of_disjoint (by decide),
      Field.get_set (by decide) _ heid, hback]
  · rw [headerLengthsImage, Field.get_set (by decide) _ htsn, hback']

theorem loadUint16_store (first last : Octet) (v : BitVec 16) :
    loadUint16 [first, octetAt (storeUint16 v) 0, octetAt (storeUint16 v) 1, last] 1 = v := by
  have hload : loadUint16 [first, octetAt (storeUint16 v) 0, octetAt (storeUint16 v) 1, last] 1 =
      ofBe (beOctets 2 v) := by
    simp [loadUint16, octetAt, storeUint16, beOctets]
  rw [hload]
  exact ofBe_beOctets_word (by decide) v

/-- What decoding makes of a header: the segment-metadata flag is not on the
wire and stays as it was. -/
def decodedHeader (old plh : PduHeader) (dataLength : BitVec 16) (position : Nat) : PduHeader :=
  { plh with
    segmentMetaFlag := old.segmentMetaFlag
    dataEncodedLength := dataLength
    headerEncodedLength := BitVec.ofNat 16 position }

theorem consumes_integer32 {size : Octet} {value : BitVec 32}
    (h : value.toNat < 256 ^ size.toNat) :
    Consumes decoderView p (decodeIntegerInSize size)
      (beOctets size.toNat (value.setWidth 64 : BitVec 64)) (value.setWidth 64) := by
  refine consumes_integerInSize ?_
  rw [BitVec.toNat_setWidth, Nat.mod_eq_of_lt (value.isLt.trans (by decide))]
  exact h

theorem consumes_position : Consumes decoderView p DecodeM.position [] p := by
  intro s tail hs hp hrest
  exact ⟨hp, hs, hp, hrest⟩

theorem consumes_header (old : PduHeader) {plh : PduHeader} (h : plh.WellFormed)
    (dataLength : BitVec 16) :
    Consumes decoderView p (decodeHeader old)
      (plh.octets (octetAt (storeUint16 dataLength) 0) (octetAt (storeUint16 dataLength) 1))
      (true, decodedHeader old plh dataLength (p + 4 + plh.integerOctets.length)) := by
  obtain ⟨hversion, hdir, htype, hmode, hcrc, hlarge⟩ := header_flags h
  obtain ⟨heid, htsn⟩ := header_lengths h
  have hwide : ¬(plh.eidLength.toNat > Sizeof.entityId ∨
      plh.txnSeqLength.toNat > Sizeof.transactionSeq) := by
    have := h.eidLength.2
    have := h.txnSeqLength.2
    omega
  refine consumes_chunk_then (n := Sizeof.pduHeader) rfl ?_
  simp only [decodeHeaderVariable, decodeHeaderFixed, loadUint16_store]
  simp only [octetAt, List.getD_cons_zero, List.getD_cons_succ, hversion, hdir, htype, hmode,
    hcrc, hlarge, heid, htsn, if_neg hwide]
  rw [PduHeader.integerOctets]
  refine (consumes_integer32 h.sourceEid).bind ((consumes_integer32 h.sequenceNum).bind ?_)
  rw [← List.append_nil (beOctets plh.eidLength.toNat (plh.destinationEid.setWidth 64 : BitVec 64))]
  refine (consumes_integer32 h.destinationEid).bind ?_
  have hend := consumes_position.bind (p := p + 4 + plh.eidLength.toNat + plh.txnSeqLength.toNat +
    plh.eidLength.toNat) (k := fun position => pure (true, decodedHeader old plh dataLength position))
    (consumes_pure _)
  simp only [List.length_cons, List.length_nil, beOctets_length, List.append_nil,
    List.length_append, ← Nat.add_assoc] at hend ⊢
  simpa [decodedHeader] using hend

end Nos3.Cf
