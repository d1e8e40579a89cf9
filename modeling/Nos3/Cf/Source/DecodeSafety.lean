import Nos3.Base.Wire
import Nos3.Cf.Source.Codec

/-!
# What every decoding step respects

`DecoderStep` relates the decoder state before and after any piece of decoding,
successful or not: positions and reads stay inside the input, failure is final,
and the record of chunk requests grows by requests that respect both. It is
reflexive and transitive, so each decoder has it because its parts do.
-/
namespace Nos3.Cf
open Nos3.Base.Wire

/-- How a stretch of requests and reads fits between two decoder states. -/
structure RequestLog (s s' : DecoderState) (new : List ChunkRequest) (reads : List Nat) :
    Prop where
  requests : s'.requests = s.requests ++ new
  allReads : s'.reads = s.reads ++ reads
  refused : ∀ r ∈ new, r.validBefore = false → r.granted = none
  final : ∀ r ∈ new, r.granted = none → s'.isOk = false
  invalid : s.isOk = false → ∀ r ∈ new, r.validBefore = false
  later : new.Pairwise fun a b => a.granted = none → b.validBefore = false
  granted : s.codecState.nextOffset ≤ s.codecState.maxSize → ∀ r ∈ new,
    r.nextOffset ≤ s.codecState.maxSize ∧
      ∀ ptr, r.granted = some ptr → ptr + r.size ≤ s.codecState.maxSize
  readsInside : s.codecState.nextOffset ≤ s.codecState.maxSize →
    ∀ i ∈ reads, i < s.codecState.maxSize

structure DecoderStep (s s' : DecoderState) : Prop where
  base : s'.base = s.base
  size : s'.codecState.maxSize = s.codecState.maxSize
  inside : s.codecState.nextOffset ≤ s.codecState.maxSize →
    s'.codecState.nextOffset ≤ s'.codecState.maxSize
  sticky : s.isOk = false → s'.isOk = false
  log : ∃ new reads, RequestLog s s' new reads

theorem DecoderStep.refl (s : DecoderState) : DecoderStep s s :=
  ⟨rfl, rfl, id, id, [], [], by simp, by simp, by simp, by simp, by simp, .nil, by simp, by simp⟩

theorem DecoderStep.trans {a b c : DecoderState} (hab : DecoderStep a b) (hbc : DecoderStep b c) :
    DecoderStep a c := by
  obtain ⟨new₁, reads₁, h₁⟩ := hab.log
  obtain ⟨new₂, reads₂, h₂⟩ := hbc.log
  refine ⟨hbc.base.trans hab.base, hbc.size.trans hab.size, fun h => hbc.inside (hab.inside h),
    fun h => hbc.sticky (hab.sticky h), new₁ ++ new₂, reads₁ ++ reads₂, ?_⟩
  refine ⟨?_, ?_, fun r hr => ?_, fun r hr hn => ?_, fun h r hr => ?_, ?_, fun h r hr => ?_,
    fun h i hi => ?_⟩
  · rw [h₂.requests, h₁.requests, List.append_assoc]
  · rw [h₂.allReads, h₁.allReads, List.append_assoc]
  · rcases List.mem_append.mp hr with hr | hr
    · exact h₁.refused r hr
    · exact h₂.refused r hr
  · rcases List.mem_append.mp hr with hr | hr
    · exact hbc.sticky (h₁.final r hr hn)
    · exact h₂.final r hr hn
  · rcases List.mem_append.mp hr with hr | hr
    · exact h₁.invalid h r hr
    · exact h₂.invalid (hab.sticky h) r hr
  · exact List.pairwise_append.mpr ⟨h₁.later, h₂.later,
      fun x hx y hy hn => h₂.invalid (h₁.final x hx hn) y hy⟩
  · rcases List.mem_append.mp hr with hr | hr
    · exact h₁.granted h r hr
    · rw [← hab.size]
      exact h₂.granted (hab.inside h) r hr
  · rcases List.mem_append.mp hi with hi | hi
    · exact h₁.readsInside h i hi
    · rw [← hab.size]
      exact h₂.readsInside (hab.inside h) i hi

/-! ## Chunks -/

theorem doDecodeChunk_step (n : Nat) (s : DecoderState) :
    DecoderStep s (doDecodeChunk n s).2 ∧
      ∀ ptr, (doDecodeChunk n s).1 = some ptr →
        s.codecState.nextOffset ≤ s.codecState.maxSize →
        ptr + n ≤ (doDecodeChunk n s).2.codecState.maxSize := by
  unfold doDecodeChunk codecCheckSize
  by_cases hfull : s.codecState.nextOffset + n > s.codecState.maxSize
  · simp only [hfull, ↓reduceIte, codecSetDone, codecIsOk, Bool.false_eq_true]
    refine ⟨⟨rfl, rfl, id, fun _ => rfl, [_], [], rfl, by simp, by simp, fun _ _ _ => rfl,
      by simp, by simp, fun h => ?_, by simp⟩, by simp⟩
    simpa using h
  · have hroom : s.codecState.nextOffset + n ≤ s.codecState.maxSize := not_lt.mp hfull
    simp only [hfull, ↓reduceIte, codecIsOk]
    cases hv : s.codecState.isValid with
    | true =>
      have hok : s.isOk = true := hv
      refine ⟨⟨rfl, rfl, fun _ => hroom, fun h => ?_, [_], [], rfl, by simp, by simp [hok],
        by simp, fun h => ?_, by simp, fun _ => ?_, by simp⟩, fun ptr hptr _ => ?_⟩
      · rw [hok] at h
        cases h
      · rw [hok] at h
        cases h
      · simpa [DecoderState.position, codecGetPosition] using hroom
      · cases hptr
        exact hroom
    | false =>
      have hok : s.isOk = false := hv
      refine ⟨⟨rfl, rfl, fun _ => hroom, fun _ => rfl, [_], [], rfl, by simp, by simp,
        fun _ _ _ => rfl, by simp [hok], by simp, fun _ => ?_, by simp⟩, by simp⟩
      simpa using hroom

theorem read_step {s : DecoderState} {ptr n : Nat} (h : ptr + n ≤ s.codecState.maxSize) :
    DecoderStep s (readOctets ptr n s).2 := by
  refine ⟨rfl, rfl, id, id, [], List.range' ptr n, by simp [readOctets], rfl, by simp, by simp,
    by simp, .nil, by simp, fun _ i hi => ?_⟩
  have := List.mem_range'_1.mp hi
  omega

theorem steps_pure {α : Type} (v : α) : Steps DecoderStep (pure v : DecodeM α) :=
  Nos3.Base.Wire.steps_pure DecoderStep.refl v

theorem Steps.then {α β : Type} {m : DecodeM α} {k : α → DecodeM β}
    (hm : Steps DecoderStep m) (hk : ∀ a, Steps DecoderStep (k a)) :
    Steps DecoderStep (m >>= k) := by
  have htrans : ∀ a b c, DecoderStep a b → DecoderStep b c → DecoderStep a c :=
    fun _ _ _ => DecoderStep.trans
  exact Steps.bind htrans hm hk

theorem steps_isOk : Steps DecoderStep DecodeM.isOk := fun s => DecoderStep.refl s

theorem steps_remain : Steps DecoderStep DecodeM.remain := fun s => DecoderStep.refl s

theorem steps_position : Steps DecoderStep DecodeM.position := fun s => DecoderStep.refl s

theorem setDone_step (s : DecoderState) : DecoderStep s s.setDone :=
  ⟨rfl, rfl, id, fun _ => rfl, [], [], by simp [DecoderState.setDone],
    by simp [DecoderState.setDone], by simp, by simp, by simp, .nil, by simp, by simp⟩

theorem steps_setDone : Steps DecoderStep DecodeM.setDone := setDone_step

/-- Reading a chunk: the read follows the grant, so it stays inside. A decoder
that starts beyond its input promises nothing about positions. -/
theorem steps_fixedChunk (n : Nat) : Steps DecoderStep (decodeFixedChunk n) := by
  intro s
  obtain ⟨hstep, hgrant⟩ := doDecodeChunk_step n s
  cases hptr : (doDecodeChunk n s).1 with
  | none =>
    have hrun : (decodeFixedChunk n s).2 = (doDecodeChunk n s).2 := by
      simp only [decodeFixedChunk, bind, StateT.bind]
      generalize doDecodeChunk n s = result at hptr
      obtain ⟨granted, s'⟩ := result
      obtain rfl : granted = none := hptr
      rfl
    exact hrun ▸ hstep
  | some ptr =>
    have hrun : (decodeFixedChunk n s).2 = (readOctets ptr n (doDecodeChunk n s).2).2 := by
      simp only [decodeFixedChunk, bind, StateT.bind]
      generalize doDecodeChunk n s = result at hptr
      obtain ⟨granted, s'⟩ := result
      obtain rfl : granted = some ptr := hptr
      rfl
    rw [hrun]
    by_cases hin : s.codecState.nextOffset ≤ s.codecState.maxSize
    · exact hstep.trans (read_step (hgrant ptr hptr hin))
    · obtain ⟨new, reads, hlog⟩ := hstep.log
      exact ⟨hstep.base, hstep.size, fun h => absurd h hin, hstep.sticky, new,
        reads ++ List.range' ptr n, hlog.requests, by simp [readOctets, hlog.allReads],
        hlog.refused, hlog.final, hlog.invalid, hlog.later, fun h => absurd h hin,
        fun h => absurd h hin⟩

theorem steps_dataPtr (n : Nat) : Steps DecoderStep (decodeDataPtr n) := by
  intro s
  have hrun : (decodeDataPtr n s).2 = (doDecodeChunk n s).2 := by
    simp only [decodeDataPtr, bind, StateT.bind]
    generalize doDecodeChunk n s = result
    obtain ⟨granted, s'⟩ := result
    cases granted <;> rfl
  rw [hrun]
  exact (doDecodeChunk_step n s).1

/-- A decoder with a fixed part: it suffices to look at what follows the chunk. -/
theorem steps_chunk_then {α : Type} {n : Nat} {v : α} {k : List Octet → DecodeM α}
    (hk : ∀ chunk, Steps DecoderStep (k chunk)) :
    Steps DecoderStep (do
      match ← decodeFixedChunk n with
      | none => pure v
      | some chunk => k chunk) := by
  refine Steps.then (steps_fixedChunk n) fun chunk => ?_
  cases chunk with
  | none => exact steps_pure v
  | some chunk => exact hk chunk

/-! ## The decoders -/

theorem steps_integerInSize (size : Octet) : Steps DecoderStep (decodeIntegerInSize size) := by
  refine Steps.then (steps_fixedChunk _) fun chunk => ?_
  cases chunk <;> exact steps_pure _

theorem steps_header (plh : PduHeader) : Steps DecoderStep (decodeHeader plh) := by
  refine steps_chunk_then fun peh => ?_
  unfold decodeHeaderVariable
  split
  · exact steps_pure _
  · refine Steps.then (steps_integerInSize _) fun _ => Steps.then (steps_integerInSize _) fun _ => ?_
    exact Steps.then (steps_integerInSize _) fun _ => Steps.then steps_position fun _ => steps_pure _

theorem steps_fileDirectiveHeader (pfdir : PduFileDirectiveHeader) :
    Steps DecoderStep (decodeFileDirectiveHeader pfdir) :=
  steps_chunk_then fun _ => steps_pure _

theorem steps_lv (pllv : Lv) : Steps DecoderStep (decodeLV pllv) :=
  steps_chunk_then fun _ => Steps.then (steps_dataPtr _) fun _ => steps_pure _

theorem steps_tlv (pltlv : Tlv) : Steps DecoderStep (decodeTLV pltlv) := by
  refine steps_chunk_then fun _ => ?_
  simp only
  split
  · exact Steps.then (steps_integerInSize _) fun _ => steps_pure _
  · exact Steps.then (steps_dataPtr _) fun _ => steps_pure _

theorem steps_segmentRequest (plseg : SegmentRequest) :
    Steps DecoderStep (decodeSegmentRequest plseg) :=
  steps_chunk_then fun _ => steps_pure _

theorem steps_allLoop {α : Type} [Inhabited α] {decodeItem : α → DecodeM α} {cap : Nat}
    (hitem : ∀ old, Steps DecoderStep (decodeItem old)) :
    ∀ (limit : Nat) (items : List α), Steps DecoderStep (decodeAllLoop decodeItem cap limit items)
  | 0, items => steps_pure items
  | limit + 1, items => by
    refine Steps.then steps_remain fun remain => ?_
    split
    · exact steps_pure _
    · split
      · exact Steps.then steps_setDone fun _ => steps_pure _
      · refine Steps.then (hitem _) fun item => Steps.then steps_isOk fun ok => ?_
        split
        · exact steps_allLoop hitem limit _
        · exact steps_pure _

theorem steps_allTlv (limit : Nat) : Steps DecoderStep (decodeAllTlv limit) :=
  Steps.map _ (steps_allLoop steps_tlv limit [])

theorem steps_allSegments (limit : Nat) : Steps DecoderStep (decodeAllSegments limit) :=
  Steps.map _ (steps_allLoop steps_segmentRequest limit [])

theorem steps_md (plmd : PduMd) : Steps DecoderStep (decodeMd plmd) :=
  steps_chunk_then fun _ => Steps.then (steps_lv _) fun _ => Steps.then (steps_lv _) fun _ =>
    steps_pure _

theorem steps_eof (pleof : PduEof) : Steps DecoderStep (decodeEof pleof) :=
  steps_chunk_then fun _ => Steps.then (steps_allTlv _) fun _ => steps_pure _

theorem steps_fin (plfin : PduFin) : Steps DecoderStep (decodeFin plfin) :=
  steps_chunk_then fun _ => Steps.then (steps_allTlv _) fun _ => steps_pure _

theorem steps_ack (plack : PduAck) : Steps DecoderStep (decodeAck plack) :=
  steps_chunk_then fun _ => steps_pure _

theorem steps_nak (plnak : PduNak) : Steps DecoderStep (decodeNak plnak) :=
  steps_chunk_then fun _ => Steps.then (steps_allSegments _) fun _ => steps_pure _

theorem steps_metaSegments :
    ∀ (fieldCount : Nat) (segments : List SegmentRequest),
      Steps DecoderStep (decodeMetaSegments fieldCount segments)
  | 0, segments => steps_pure segments
  | fieldCount + 1, segments => by
    refine Steps.then (steps_segmentRequest _) fun _ => Steps.then steps_isOk fun ok => ?_
    split
    · exact steps_metaSegments fieldCount _
    · exact steps_pure _

theorem steps_fileDataMeta (withMeta : Bool) : Steps DecoderStep (decodeFileDataMeta withMeta) := by
  unfold decodeFileDataMeta
  split
  · refine steps_chunk_then fun _ => ?_
    simp only
    split
    · exact Steps.then steps_setDone fun _ => steps_pure _
    · exact Steps.then (steps_metaSegments _ _) fun _ => steps_pure _
  · exact steps_pure _

theorem steps_fileDataFixed (plfd : PduFileDataHeader) :
    Steps DecoderStep (decodeFileDataFixed plfd) :=
  steps_chunk_then fun _ => Steps.then steps_remain fun _ => Steps.then (steps_dataPtr _) fun _ =>
    steps_pure _

theorem steps_fileDataHeader (withMeta : Bool) (plfd : PduFileDataHeader) :
    Steps DecoderStep (decodeFileDataHeader withMeta plfd) :=
  Steps.then (steps_fileDataMeta _) fun _ => steps_fileDataFixed _

/-! ## How many entries the list decoders keep -/

theorem returns_chunk_then {α : Type} {post : α → Prop} {n : Nat} {v : α}
    {k : List Octet → DecodeM α} (hv : post v) (hk : ∀ chunk, Returns post (k chunk)) :
    Returns post (do
      match ← decodeFixedChunk n with
      | none => pure v
      | some chunk => k chunk) := by
  refine (returns_any _).bind fun chunk _ => ?_
  cases chunk with
  | none => exact returns_pure hv
  | some chunk => exact hk chunk

theorem allLoop_length {α : Type} [Inhabited α] {decodeItem : α → DecodeM α} {cap : Nat} :
    ∀ (limit : Nat) (items : List α), items.length ≤ cap →
      Returns (fun l => l.length ≤ cap) (decodeAllLoop decodeItem cap limit items)
  | 0, items, h => returns_pure h
  | limit + 1, items, h => by
    refine (returns_any _).bind fun remain _ => ?_
    split
    · exact returns_pure h
    · split
      · exact (returns_any _).bind fun _ _ => returns_pure h
      · refine (returns_any _).bind fun item _ => (returns_any _).bind fun ok _ => ?_
        split
        · exact allLoop_length limit _ (by simp; omega)
        · exact returns_pure h

theorem allTlv_count (limit : Nat) :
    Returns (fun l => l.numTlv ≤ pduMaxTlv) (decodeAllTlv limit) :=
  Returns.map (allLoop_length limit [] (Nat.zero_le _))

/-- The array would hold `CF_PDU_MAX_SEGMENTS`. -/
theorem allSegments_count (limit : Nat) :
    Returns (fun l => l.numSegments ≤ pduMaxTlv) (decodeAllSegments limit) :=
  Returns.map (allLoop_length limit [] (Nat.zero_le _))

theorem metaSegments_length :
    ∀ (fieldCount : Nat) (segments : List SegmentRequest),
      Returns (fun l => l.length ≤ segments.length + fieldCount)
        (decodeMetaSegments fieldCount segments)
  | 0, segments => returns_pure (Nat.le_refl _)
  | fieldCount + 1, segments => by
    refine (returns_any _).bind fun segment _ => (returns_any _).bind fun ok _ => ?_
    split
    · intro s
      have hrest := metaSegments_length fieldCount (segments ++ [segment]) s
      simp only [List.length_append, List.length_singleton] at hrest
      omega
    · exact returns_pure (Nat.le_add_right _ _)

theorem eof_count :
    Returns (fun eof => eof.tlvList.numTlv ≤ pduMaxTlv) (decodeEof default) :=
  returns_chunk_then (Nat.zero_le _) fun _ =>
    (allTlv_count _).bind fun _ h => returns_pure h

theorem fin_count :
    Returns (fun fin => fin.tlvList.numTlv ≤ pduMaxTlv) (decodeFin default) :=
  returns_chunk_then (Nat.zero_le _) fun _ =>
    (allTlv_count _).bind fun _ h => returns_pure h

theorem nak_count :
    Returns (fun nak => nak.segmentList.numSegments ≤ pduMaxTlv) (decodeNak default) :=
  returns_chunk_then (Nat.zero_le _) fun _ =>
    (allSegments_count _).bind fun _ h => returns_pure h

theorem fdMeta_count (withMeta : Bool) :
    Returns (fun fields => fields.2.length ≤ pduMaxSegments) (decodeFileDataMeta withMeta) := by
  unfold decodeFileDataMeta
  split
  · refine returns_chunk_then (Nat.zero_le _) fun chunk => ?_
    simp only
    split
    · exact (returns_any _).bind fun _ _ => returns_pure (Nat.zero_le _)
    · rename_i hfits
      refine (metaSegments_length _ _).bind fun l hl => returns_pure ?_
      simp only [List.length_nil, Nat.zero_add] at hl
      exact hl.trans (not_lt.mp hfits)
  · exact returns_pure (Nat.zero_le _)

theorem fd_count (withMeta : Bool) :
    Returns (fun fd => fd.segmentList.numSegments ≤ pduMaxSegments)
      (decodeFileDataHeader withMeta default) :=
  (fdMeta_count withMeta).bind fun _ h => returns_chunk_then h fun _ =>
    (returns_any _).bind fun _ _ => (returns_any _).bind fun _ _ => returns_pure h

end Nos3.Cf
