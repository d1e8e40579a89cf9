import Nos3.Base.Wire
import Nos3.Cf.Source.Codec
import Nos3.Cf.Source.HeaderRules
import Nos3.Cf.Source.DecodeSafety

/-!
# Decoders that do not look ahead

`reframe head tail` puts other octets where the decoder has already been and
more octets behind its input. A decoder of fixed shape that succeeds does the
same on the reframed input. The list decoders and the file data decoder do not:
they run to the end of the input, wherever that is.
-/
namespace Nos3.Cf
open Nos3.Base.Wire

def DecoderState.reframe (head tail : List Octet) (s : DecoderState) : DecoderState :=
  { s with
    codecState := { s.codecState with maxSize := s.codecState.maxSize + tail.length }
    base := head ++ s.base.drop head.length ++ tail }

/-- The decoder is past the octets that were replaced. -/
structure Beyond (n : Nat) (s : DecoderState) : Prop where
  aligned : s.Aligned
  past : n ≤ s.codecState.nextOffset

def Ok (s : DecoderState) : Prop := s.isOk = true

variable {head tail : List Octet}

abbrev Unaffected (head tail : List Octet) {α : Type} (m : DecodeM α) : Prop :=
  Stable (Beyond head.length) Ok (DecoderState.reframe head tail) m

@[simp] theorem reframe_isOk (s : DecoderState) : (s.reframe head tail).isOk = s.isOk := rfl

@[simp] theorem reframe_position (s : DecoderState) :
    (s.reframe head tail).position = s.position := rfl

/-- Behind the replaced octets the input is the old one, then the new tail. -/
theorem reframe_drop {s : DecoderState} (h : Beyond head.length s) :
    (s.reframe head tail).base.drop s.codecState.nextOffset =
      s.base.drop s.codecState.nextOffset ++ tail := by
  obtain ⟨hal, hpast⟩ := h
  have hinside : s.codecState.nextOffset ≤ s.base.length := hal.inside.trans_eq hal.size
  simp only [DecoderState.reframe]
  rw [List.append_assoc, List.drop_append, List.drop_of_length_le hpast, List.nil_append,
    List.drop_append, List.drop_drop, List.length_drop]
  have h1 : head.length + (s.codecState.nextOffset - head.length) = s.codecState.nextOffset := by
    omega
  have h2 : s.codecState.nextOffset - head.length - (s.base.length - head.length) = 0 := by omega
  rw [h1, h2, List.drop_zero]

theorem reframe_remain {s : DecoderState} (h : s.Aligned) :
    (s.reframe head tail).remain = s.remain + tail.length := by
  have := h.inside
  simp only [DecoderState.remain, DecoderState.reframe, codecGetRemain]
  omega

/-! ## Chunks -/

/-- A granted chunk: where it was, and the state after it. -/
theorem doDecodeChunk_ok {s : DecoderState} {n : Nat} (h : Ok (doDecodeChunk n s).2) :
    s.isOk = true ∧ s.codecState.nextOffset + n ≤ s.codecState.maxSize := by
  unfold doDecodeChunk at h
  rcases codecCheckSize_cases s.codecState n with ⟨hroom, heq⟩ | ⟨-, heq⟩
  · rw [heq] at h
    exact ⟨h, hroom⟩
  · rw [heq] at h
    cases h

/-- The state a granted request of `n` octets leaves, with the reads `reads`. -/
def DecoderState.advance (s : DecoderState) (n : Nat) (reads : List Nat) : DecoderState :=
  { s with
    codecState := { s.codecState with nextOffset := s.codecState.nextOffset + n }
    reads := s.reads ++ reads
    requests := s.requests ++
      [⟨true, n, some s.codecState.nextOffset, s.codecState.nextOffset + n⟩] }

theorem decodeFixedChunk_granted {s : DecoderState} {n : Nat} (hok : s.isOk = true)
    (hroom : s.codecState.nextOffset + n ≤ s.codecState.maxSize) :
    decodeFixedChunk n s = (some ((s.base.drop s.codecState.nextOffset).take n),
      s.advance n (List.range' s.codecState.nextOffset n)) := by
  simp only [decodeFixedChunk, bind, StateT.bind, doDecodeChunk_granted hok hroom]
  rfl

theorem decodeDataPtr_granted {s : DecoderState} {n : Nat} (hok : s.isOk = true)
    (hroom : s.codecState.nextOffset + n ≤ s.codecState.maxSize) :
    decodeDataPtr n s = (some ((s.base.drop s.codecState.nextOffset).take n), s.advance n []) := by
  simp only [decodeDataPtr, bind, StateT.bind, doDecodeChunk_granted hok hroom]
  simp [DecoderState.advance, Functor.map, StateT.map, viewOctets]

theorem fixedChunk_ok {s : DecoderState} {n : Nat} (h : Ok (decodeFixedChunk n s).2) :
    s.isOk = true ∧ s.codecState.nextOffset + n ≤ s.codecState.maxSize := by
  have hrun : (decodeFixedChunk n s).2.isOk = (doDecodeChunk n s).2.isOk := by
    simp only [decodeFixedChunk, bind, StateT.bind]
    generalize doDecodeChunk n s = result
    obtain ⟨granted, s'⟩ := result
    cases granted <;> rfl
  exact doDecodeChunk_ok (hrun.symm.trans h)

theorem dataPtr_ok {s : DecoderState} {n : Nat} (h : Ok (decodeDataPtr n s).2) :
    s.isOk = true ∧ s.codecState.nextOffset + n ≤ s.codecState.maxSize := by
  have hrun : (decodeDataPtr n s).2.isOk = (doDecodeChunk n s).2.isOk := by
    simp only [decodeDataPtr, bind, StateT.bind]
    generalize doDecodeChunk n s = result
    obtain ⟨granted, s'⟩ := result
    cases granted <;> rfl
  exact doDecodeChunk_ok (hrun.symm.trans h)

theorem Beyond.advance {n k : Nat} {s : DecoderState} (h : Beyond n s)
    (hroom : s.codecState.nextOffset + k ≤ s.codecState.maxSize) (reads : List Nat) :
    Beyond n (s.advance k reads) :=
  ⟨⟨h.aligned.size, hroom⟩, Nat.le_add_right_of_le h.past⟩

theorem reframe_take {s : DecoderState} (h : Beyond head.length s) {n : Nat}
    (hroom : s.codecState.nextOffset + n ≤ s.codecState.maxSize) :
    ((s.reframe head tail).base.drop s.codecState.nextOffset).take n =
      (s.base.drop s.codecState.nextOffset).take n := by
  rw [reframe_drop h, List.take_append_of_le_length]
  rw [List.length_drop, ← h.aligned.size]
  omega

theorem unaffected_fixedChunk (n : Nat) : Unaffected head tail (decodeFixedChunk n) where
  keeps s hs hok := by
    obtain ⟨hv, hroom⟩ := fixedChunk_ok hok
    rw [decodeFixedChunk_granted hv hroom]
    exact hs.advance hroom _
  sticky s hok := (fixedChunk_ok hok).1
  same s hs hok := by
    obtain ⟨hv, hroom⟩ := fixedChunk_ok hok
    have hroom' : (s.reframe head tail).codecState.nextOffset + n ≤
        (s.reframe head tail).codecState.maxSize := Nat.le_add_right_of_le hroom
    rw [decodeFixedChunk_granted hv hroom,
      decodeFixedChunk_granted (s := s.reframe head tail) hv hroom']
    exact Prod.ext (congrArg some (reframe_take hs hroom)) rfl

theorem unaffected_dataPtr (n : Nat) : Unaffected head tail (decodeDataPtr n) where
  keeps s hs hok := by
    obtain ⟨hv, hroom⟩ := dataPtr_ok hok
    rw [decodeDataPtr_granted hv hroom]
    exact hs.advance hroom _
  sticky s hok := (dataPtr_ok hok).1
  same s hs hok := by
    obtain ⟨hv, hroom⟩ := dataPtr_ok hok
    have hroom' : (s.reframe head tail).codecState.nextOffset + n ≤
        (s.reframe head tail).codecState.maxSize := Nat.le_add_right_of_le hroom
    rw [decodeDataPtr_granted hv hroom,
      decodeDataPtr_granted (s := s.reframe head tail) hv hroom']
    exact Prod.ext (congrArg some (reframe_take hs hroom)) rfl

theorem unaffected_pure {α : Type} (v : α) : Unaffected head tail (pure v : DecodeM α) :=
  stable_pure v

theorem unaffected_isOk : Unaffected head tail DecodeM.isOk :=
  ⟨fun _ h _ => h, fun _ h => h, fun _ _ _ => rfl⟩

theorem unaffected_position : Unaffected head tail DecodeM.position :=
  ⟨fun _ h _ => h, fun _ h => h, fun _ _ _ => rfl⟩

theorem unaffected_setDone : Unaffected head tail DecodeM.setDone :=
  ⟨fun _ _ h => (by cases h), fun _ h => (by cases h), fun _ _ h => (by cases h)⟩

theorem unaffected_chunk_then {α : Type} {n : Nat} {v : α} {k : List Octet → DecodeM α}
    (hk : ∀ chunk, Unaffected head tail (k chunk)) :
    Unaffected head tail (do
      match ← decodeFixedChunk n with
      | none => pure v
      | some chunk => k chunk) := by
  refine (unaffected_fixedChunk n).bind fun chunk => ?_
  cases chunk with
  | none => exact unaffected_pure v
  | some chunk => exact hk chunk

/-! ## The decoders of fixed shape -/

theorem unaffected_integerInSize (size : Octet) :
    Unaffected head tail (decodeIntegerInSize size) := by
  refine (unaffected_fixedChunk _).bind fun chunk => ?_
  cases chunk <;> exact unaffected_pure _

theorem unaffected_headerVariable (plh : PduHeader) :
    Unaffected head tail (decodeHeaderVariable plh) := by
  unfold decodeHeaderVariable
  split
  · exact unaffected_pure _
  · refine (unaffected_integerInSize _).bind fun _ => (unaffected_integerInSize _).bind fun _ => ?_
    exact (unaffected_integerInSize _).bind fun _ => unaffected_position.bind fun _ =>
      unaffected_pure _

theorem unaffected_header (plh : PduHeader) : Unaffected head tail (decodeHeader plh) :=
  unaffected_chunk_then fun _ => unaffected_headerVariable _

theorem unaffected_fileDirectiveHeader (pfdir : PduFileDirectiveHeader) :
    Unaffected head tail (decodeFileDirectiveHeader pfdir) :=
  unaffected_chunk_then fun _ => unaffected_pure _

theorem unaffected_lv (pllv : Lv) : Unaffected head tail (decodeLV pllv) :=
  unaffected_chunk_then fun _ => (unaffected_dataPtr _).bind fun _ => unaffected_pure _

theorem unaffected_tlv (pltlv : Tlv) : Unaffected head tail (decodeTLV pltlv) := by
  refine unaffected_chunk_then fun _ => ?_
  simp only
  split
  · exact (unaffected_integerInSize _).bind fun _ => unaffected_pure _
  · exact (unaffected_dataPtr _).bind fun _ => unaffected_pure _

theorem unaffected_segmentRequest (plseg : SegmentRequest) :
    Unaffected head tail (decodeSegmentRequest plseg) :=
  unaffected_chunk_then fun _ => unaffected_pure _

theorem unaffected_md (plmd : PduMd) : Unaffected head tail (decodeMd plmd) :=
  unaffected_chunk_then fun _ => (unaffected_lv _).bind fun _ => (unaffected_lv _).bind fun _ =>
    unaffected_pure _

theorem unaffected_ack (plack : PduAck) : Unaffected head tail (decodeAck plack) :=
  unaffected_chunk_then fun _ => unaffected_pure _

theorem unaffected_metaSegments :
    ∀ (fieldCount : Nat) (segments : List SegmentRequest),
      Unaffected head tail (decodeMetaSegments fieldCount segments)
  | 0, segments => unaffected_pure segments
  | fieldCount + 1, segments => by
    refine (unaffected_segmentRequest _).bind fun _ => unaffected_isOk.bind fun ok => ?_
    split
    · exact unaffected_metaSegments fieldCount _
    · exact unaffected_pure _

theorem unaffected_fileDataMeta (withMeta : Bool) :
    Unaffected head tail (decodeFileDataMeta withMeta) := by
  unfold decodeFileDataMeta
  split
  · refine unaffected_chunk_then fun _ => ?_
    simp only
    split
    · exact unaffected_setDone.bind fun _ => unaffected_pure _
    · exact (unaffected_metaSegments _ _).bind fun _ => unaffected_pure _
  · exact unaffected_pure _

/-! ## The list decoders -/

section Lists
variable {α : Type} [Inhabited α] {decodeItem : α → DecodeM α} {cap : Nat}

theorem allLoop_succ (limit : Nat) (items : List α) (s : DecoderState) :
    decodeAllLoop decodeItem cap (limit + 1) items s =
      if s.remain = 0 then (items, s)
      else if items.length ≥ cap then (items, s.setDone)
      else
        if (decodeItem default s).2.isOk then
          decodeAllLoop decodeItem cap limit (items ++ [(decodeItem default s).1])
            (decodeItem default s).2
        else (items, (decodeItem default s).2) := by
  simp only [decodeAllLoop, bind, StateT.bind, DecodeM.remain]
  split
  · rfl
  · split
    · rfl
    · simp only [StateT.bind, DecodeM.isOk]
      generalize decodeItem default s = result
      obtain ⟨item, s'⟩ := result
      simp only [bind]
      split <;> rfl

theorem allLoop_length_ge :
    ∀ (limit : Nat) (items : List α) (s : DecoderState),
      items.length ≤ (decodeAllLoop decodeItem cap limit items s).1.length
  | 0, items, s => Nat.le_refl _
  | limit + 1, items, s => by
    rw [allLoop_succ]
    split
    · exact Nat.le_refl _
    · split
      · exact Nat.le_refl _
      · split
        · have hrest := allLoop_length_ge limit (items ++ [(decodeItem default s).1])
            (decodeItem default s).2
          simp only [List.length_append, List.length_singleton] at hrest
          omega
        · exact Nat.le_refl _

/-- Where there is more to read, a loop that succeeds has found another entry. -/
theorem allLoop_grows {limit : Nat} {items : List α} {s : DecoderState} (hremain : s.remain ≠ 0)
    (hok : Ok (decodeAllLoop decodeItem cap (limit + 1) items s).2) :
    items.length < (decodeAllLoop decodeItem cap (limit + 1) items s).1.length := by
  rw [allLoop_succ, if_neg hremain] at hok ⊢
  split at hok
  · cases hok
  · rename_i hcap
    rw [if_neg hcap]
    split at hok
    · rename_i hitem
      rw [if_pos hitem]
      have hrest : _ ≤ (decodeAllLoop decodeItem cap limit _ _).1.length := allLoop_length_ge limit
        (items ++ [(decodeItem default s).1]) (decodeItem default s).2
      simp only [List.length_append, List.length_singleton] at hrest
      omega
    · rename_i hitem
      exact absurd hok hitem

/-- On a reframed input the loop first does the same. It then stops, if its limit
is used up, or goes on reading the new tail. -/
theorem allLoop_reframe (hitem : ∀ old, Unaffected head tail (decodeItem old)) :
    ∀ (limit : Nat) (items : List α) (s : DecoderState), Beyond head.length s →
      Ok (decodeAllLoop decodeItem cap limit items s).2 →
      let r := decodeAllLoop decodeItem cap limit items s
      (r.1.length = items.length + limit ∧
        decodeAllLoop decodeItem cap limit items (s.reframe head tail) =
          (r.1, r.2.reframe head tail)) ∨
      (r.2.remain = 0 ∧ r.2.Aligned ∧ ∃ more, r.1.length + (more + 1) = items.length + limit ∧
        decodeAllLoop decodeItem cap limit items (s.reframe head tail) =
          decodeAllLoop decodeItem cap (more + 1) r.1 (r.2.reframe head tail))
  | 0, items, s, _, hok => Or.inl ⟨rfl, rfl⟩
  | limit + 1, items, s, hs, hok => by
    by_cases hremain : s.remain = 0
    · have hrun : decodeAllLoop decodeItem cap (limit + 1) items s = (items, s) := by
        rw [allLoop_succ, if_pos hremain]
      rw [hrun] at hok ⊢
      exact Or.inr ⟨hremain, hs.aligned, limit, rfl, rfl⟩
    · have hremain' : (s.reframe head tail).remain ≠ 0 := by
        rw [reframe_remain hs.aligned]
        omega
      rw [allLoop_succ, if_neg hremain] at hok
      split at hok
      · cases hok
      · rename_i hcap
        split at hok
        · rename_i hone
          have hstable := hitem default
          have hsame := hstable.same s hs hone
          have hrun : decodeAllLoop decodeItem cap (limit + 1) items s =
              decodeAllLoop decodeItem cap limit (items ++ [(decodeItem default s).1])
                (decodeItem default s).2 := by
            rw [allLoop_succ, if_neg hremain, if_neg hcap, if_pos hone]
          have hrun' : decodeAllLoop decodeItem cap (limit + 1) items (s.reframe head tail) =
              decodeAllLoop decodeItem cap limit (items ++ [(decodeItem default s).1])
                ((decodeItem default s).2.reframe head tail) := by
            rw [allLoop_succ, if_neg hremain', if_neg hcap, hsame]
            exact if_pos hone
          have hlen : (items ++ [(decodeItem default s).1]).length + limit =
              items.length + (limit + 1) := by
            simp only [List.length_append, List.length_singleton]
            omega
          have hrest := allLoop_reframe hitem limit (items ++ [(decodeItem default s).1])
            (decodeItem default s).2 (hstable.keeps s hs hone) hok
          rw [hrun, hrun', ← hlen]
          exact hrest
        · rename_i hbad
          exact absurd hok hbad

/-- A non-empty tail goes unnoticed exactly when the limit was used up before it. -/
theorem allLoop_tail_iff (hitem : ∀ old, Unaffected head tail (decodeItem old)) {limit : Nat}
    {items : List α} {s : DecoderState} (hs : Beyond head.length s)
    (hok : Ok (decodeAllLoop decodeItem cap limit items s).2) (htail : tail ≠ []) :
    (Ok (decodeAllLoop decodeItem cap limit items (s.reframe head tail)).2 ∧
      (decodeAllLoop decodeItem cap limit items (s.reframe head tail)).1 =
        (decodeAllLoop decodeItem cap limit items s).1) ↔
      (decodeAllLoop decodeItem cap limit items s).1.length = items.length + limit := by
  rcases allLoop_reframe hitem limit items s hs hok with
    ⟨hlen, hrun⟩ | ⟨hremain, hal, more, hlen, hrun⟩
  · rw [hrun]
    exact ⟨fun _ => hlen, fun _ => ⟨hok, rfl⟩⟩
  · rw [hrun]
    constructor
    · rintro ⟨hok', hsame⟩
      have hmore : ((decodeAllLoop decodeItem cap limit items s).2.reframe head tail).remain ≠ 0 := by
        rw [reframe_remain hal]
        have := List.length_pos_of_ne_nil htail
        omega
      have hgrows := allLoop_grows hmore hok'
      rw [hsame] at hgrows
      exact absurd hgrows (Nat.lt_irrefl _)
    · intro h
      omega

end Lists

/-! ## The decoders that read to the end -/

theorem fixedChunk_none {s : DecoderState} {n : Nat} (h : ¬Ok (decodeFixedChunk n s).2) :
    (decodeFixedChunk n s).1 = none := by
  by_cases hroom : s.isOk = true ∧ s.codecState.nextOffset + n ≤ s.codecState.maxSize
  · rw [decodeFixedChunk_granted hroom.1 hroom.2] at h
    exact absurd hroom.1 h
  · have hrefused : (doDecodeChunk n s).1 = none := by
      unfold doDecodeChunk
      rcases codecCheckSize_cases s.codecState n with ⟨hfit, heq⟩ | ⟨-, heq⟩
      · rw [heq]
        exact if_neg fun hv => hroom ⟨hv, hfit⟩
      · rw [heq]
        rfl
    simp only [decodeFixedChunk, bind, StateT.bind]
    generalize doDecodeChunk n s = result at hrefused
    obtain ⟨granted, s'⟩ := result
    simp only at hrefused
    subst hrefused
    rfl

variable (tail) in
/-- A successful decoder with a fixed part, taken apart at its chunk. -/
theorem chunk_then_reframe {α : Type} {n : Nat} {v : α} {k : List Octet → DecodeM α}
    {m : DecodeM α} (hm : m = do
      match ← decodeFixedChunk n with
      | none => pure v
      | some chunk => k chunk) {s : DecoderState} (hs : Beyond head.length s)
    (hok : Ok (m s).2) :
    ∃ chunk s₁, Beyond head.length s₁ ∧ m s = k chunk s₁ ∧
      m (s.reframe head tail) = k chunk (s₁.reframe head tail) := by
  have hstable : Unaffected head tail (decodeFixedChunk n) := unaffected_fixedChunk n
  subst hm
  simp only [bind, StateT.bind] at hok ⊢
  by_cases hroom : Ok (decodeFixedChunk n s).2
  · obtain ⟨hv, hfit⟩ := fixedChunk_ok hroom
    have hrun := hstable.same s hs hroom
    have hkeep := hstable.keeps s hs hroom
    rw [decodeFixedChunk_granted hv hfit] at hrun hkeep ⊢
    rw [hrun]
    exact ⟨_, _, hkeep, rfl, rfl⟩
  · have hrefused := fixedChunk_none hroom
    generalize decodeFixedChunk n s = result at hok hroom hrefused
    obtain ⟨chunk, s'⟩ := result
    simp only at hrefused
    subst hrefused
    exact absurd hok hroom

theorem eof_tail_iff {s : DecoderState} (hs : Beyond head.length s)
    (hok : Ok (decodeEof default s).2) (htail : tail ≠ []) :
    (Ok (decodeEof default (s.reframe head tail)).2 ∧
      (decodeEof default (s.reframe head tail)).1 = (decodeEof default s).1) ↔
      (decodeEof default s).1.tlvList.numTlv = pduMaxTlv := by
  obtain ⟨chunk, s₁, hs₁, hrun, hrun'⟩ :=
    chunk_then_reframe tail (m := decodeEof default) rfl hs hok
  rw [hrun] at hok
  have hiff := allLoop_tail_iff unaffected_tlv hs₁
    (show Ok (decodeAllLoop decodeTLV pduMaxTlv pduMaxTlv [] s₁).2 from hok) htail
  rw [List.length_nil, Nat.zero_add] at hiff
  rw [hrun, hrun']
  refine Iff.trans ?_ hiff
  exact and_congr Iff.rfl ⟨fun h => congrArg (fun eof => eof.tlvList.tlv) h,
    fun h => congrArg (fun l => (⟨_, _, _, ⟨l⟩⟩ : PduEof)) h⟩

theorem fin_tail_iff {s : DecoderState} (hs : Beyond head.length s)
    (hok : Ok (decodeFin default s).2) (htail : tail ≠ []) :
    (Ok (decodeFin default (s.reframe head tail)).2 ∧
      (decodeFin default (s.reframe head tail)).1 = (decodeFin default s).1) ↔
      (decodeFin default s).1.tlvList.numTlv = pduMaxTlv := by
  obtain ⟨chunk, s₁, hs₁, hrun, hrun'⟩ :=
    chunk_then_reframe tail (m := decodeFin default) rfl hs hok
  rw [hrun] at hok
  have hiff := allLoop_tail_iff unaffected_tlv hs₁
    (show Ok (decodeAllLoop decodeTLV pduMaxTlv pduMaxTlv [] s₁).2 from hok) htail
  rw [List.length_nil, Nat.zero_add] at hiff
  rw [hrun, hrun']
  refine Iff.trans ?_ hiff
  exact and_congr Iff.rfl ⟨fun h => congrArg (fun fin => fin.tlvList.tlv) h,
    fun h => congrArg (fun l => (⟨_, _, _, ⟨l⟩⟩ : PduFin)) h⟩

/-- The limit of the segment list is never used up, so a NAK always notices. -/
theorem nak_tail {s : DecoderState} (hs : Beyond head.length s)
    (hok : Ok (decodeNak default s).2) (htail : tail ≠ []) :
    ¬(Ok (decodeNak default (s.reframe head tail)).2 ∧
      (decodeNak default (s.reframe head tail)).1 = (decodeNak default s).1) := by
  obtain ⟨chunk, s₁, hs₁, hrun, hrun'⟩ :=
    chunk_then_reframe tail (m := decodeNak default) rfl hs hok
  rw [hrun] at hok
  have hiff := allLoop_tail_iff unaffected_segmentRequest hs₁
    (show Ok (decodeAllLoop decodeSegmentRequest pduMaxTlv pduMaxSegments [] s₁).2 from hok) htail
  have hfew : (decodeAllLoop decodeSegmentRequest pduMaxTlv pduMaxSegments [] s₁).1.length ≤
      pduMaxTlv := allSegments_count pduMaxSegments s₁
  rw [hrun, hrun']
  rintro ⟨hok', hsame⟩
  have hlen := hiff.mp ⟨hok', congrArg (fun nak => nak.segmentList.segments) hsame⟩
  rw [hlen] at hfew
  exact absurd hfew (by decide)

theorem remain_view {s : DecoderState} (h : s.Aligned) :
    (s.base.drop s.codecState.nextOffset).length = s.remain ∧
      s.codecState.nextOffset + s.remain ≤ s.codecState.maxSize := by
  have := h.inside
  refine ⟨?_, ?_⟩
  · rw [List.length_drop, ← h.size]
    rfl
  · simp only [DecoderState.remain, codecGetRemain]
    omega

/-- The data is whatever is left, so it takes the new tail in. -/
theorem fileDataFixed_reframe (old : PduFileDataHeader) {s : DecoderState}
    (hs : Beyond head.length s) (hok : Ok (decodeFileDataFixed old s).2) :
    ∃ data, (decodeFileDataFixed old s).1.dataPtr = some data ∧
      (decodeFileDataFixed old s).1.dataLen = data.length ∧
      Ok (decodeFileDataFixed old (s.reframe head tail)).2 ∧
      (decodeFileDataFixed old (s.reframe head tail)).1 =
        { (decodeFileDataFixed old s).1 with
          dataPtr := some (data ++ tail), dataLen := data.length + tail.length } := by
  obtain ⟨chunk, s₁, hs₁, hrun, hrun'⟩ :=
    chunk_then_reframe tail (m := decodeFileDataFixed old) rfl hs hok
  rw [hrun] at hok
  have hv : s₁.isOk = true := (dataPtr_ok (n := s₁.remain) hok).1
  obtain ⟨hlen, hfit⟩ := remain_view hs₁.aligned
  have hview : (s₁.reframe head tail).base.drop _ = _ := reframe_drop hs₁
  have hfit' : (s₁.reframe head tail).codecState.nextOffset + (s₁.reframe head tail).remain ≤
      (s₁.reframe head tail).codecState.maxSize := by
    rw [reframe_remain hs₁.aligned]
    simp only [DecoderState.reframe]
    omega
  have hdata := decodeDataPtr_granted hv hfit
  have hdata' := decodeDataPtr_granted (s := s₁.reframe head tail) hv hfit'
  have hwhole : (s₁.base.drop s₁.codecState.nextOffset).take s₁.remain =
      s₁.base.drop s₁.codecState.nextOffset := List.take_of_length_le hlen.le
  have hwhole' : ((s₁.reframe head tail).base.drop s₁.codecState.nextOffset).take
      (s₁.reframe head tail).remain = s₁.base.drop s₁.codecState.nextOffset ++ tail := by
    rw [hview]
    refine List.take_of_length_le ?_
    rw [List.length_append, hlen, reframe_remain hs₁.aligned]
  rw [hrun, hrun']
  simp only [bind, StateT.bind, DecodeM.remain, hdata, hdata']
  refine ⟨s₁.base.drop s₁.codecState.nextOffset, congrArg some hwhole, hlen.symm, hv, ?_⟩
  have hremain : (s₁.reframe head tail).remain = _ := reframe_remain hs₁.aligned
  simp only [pure]
  delta StateT.pure
  rw [hlen, ← hremain]
  exact congrArg (fun d => ({ old with
    offset := loadUint32 chunk 0, dataLen := (s₁.reframe head tail).remain,
    dataPtr := some d } : PduFileDataHeader)) hwhole'

variable (tail) in
theorem fileData_reframe (withMeta : Bool) (old : PduFileDataHeader) {s : DecoderState}
    (hs : Beyond head.length s) (hok : Ok (decodeFileDataHeader withMeta old s).2) :
    ∃ data, (decodeFileDataHeader withMeta old s).1.dataPtr = some data ∧
      (decodeFileDataHeader withMeta old s).1.dataLen = data.length ∧
      Ok (decodeFileDataHeader withMeta old (s.reframe head tail)).2 ∧
      (decodeFileDataHeader withMeta old (s.reframe head tail)).1 =
        { (decodeFileDataHeader withMeta old s).1 with
          dataPtr := some (data ++ tail), dataLen := data.length + tail.length } := by
  have hmeta : Unaffected head tail (decodeFileDataMeta withMeta) :=
    unaffected_fileDataMeta withMeta
  have hrun : ∀ s', decodeFileDataHeader withMeta old s' = decodeFileDataFixed
      { old with
        continuationState := (decodeFileDataMeta withMeta s').1.1
        segmentList := ⟨(decodeFileDataMeta withMeta s').1.2⟩ } (decodeFileDataMeta withMeta s').2 :=
    fun _ => rfl
  rw [hrun] at hok ⊢
  have hmetaOk : Ok (decodeFileDataMeta withMeta s).2 := by
    by_contra hbad
    have hstep := steps_fileDataFixed { old with
      continuationState := (decodeFileDataMeta withMeta s).1.1
      segmentList := ⟨(decodeFileDataMeta withMeta s).1.2⟩ } (decodeFileDataMeta withMeta s).2
    exact Bool.false_ne_true ((hstep.sticky (Bool.eq_false_iff.mpr hbad)).symm.trans hok)
  have hsame := hmeta.same s hs hmetaOk
  have hkeep := hmeta.keeps s hs hmetaOk
  rw [hrun, hsame]
  exact fileDataFixed_reframe _ hkeep hok

end Nos3.Cf
