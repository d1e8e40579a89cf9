import Nos3.Cf.Source.ChunkOperations
import Nos3.Cf.Source.SenderRules
import Mathlib.Data.Nat.Find

/-!
# The chunks a sender owes (cf_cfdp_s.c, cf_chunk.c)

The gaps a NAK asks for are kept as chunks inside the file. A request of no bytes
leaves no trace where a chunk takes it up or the list is full; otherwise it goes in
as an empty chunk.
-/
namespace Nos3.Cf
open Nos3.Base.SpanList

/-- Some chunk holds the offset or ends there. -/
def Touches (cl : ChunkList) (offset : Nat) : Prop :=
  ∃ c ∈ cl.chunks, c.offset ≤ offset ∧ offset ≤ c.offset + c.size

/-- `chunk` is one of no bytes. -/
theorem Split.empty_block {a m b : List Chunk} {chunk : Chunk} (h : Split a m b chunk)
    (hsize : chunk.size = 0) {c : Chunk} (hc : c ∈ m) : c.offset = chunk.offset := by
  have := h.inside c hc
  omega

theorem AllPositive.merged {a m b : List Chunk} {chunk : Chunk} (h : Split a m b chunk)
    (hpos : AllPositive (a ++ m ++ b)) (hne : m ≠ []) :
    AllPositive (a ++ mergedChunk m chunk :: b) := by
  obtain ⟨init, z, rfl⟩ := List.eq_nil_or_concat m |>.resolve_left hne
  rw [List.concat_eq_append] at *
  have hz := hpos z (by simp)
  have hinside := h.inside z (by simp)
  have hend := mergedChunk_end_concat init z chunk
  intro c hc
  rcases List.mem_append.mp hc with hc | hc
  · exact hpos c (by simp [hc])
  · rcases List.mem_cons.mp hc with rfl | hc
    · omega
    · exact hpos c (by simp [hc])

/-- What becomes of a request of no bytes. -/
theorem chunkListAdd_empty {cl : ChunkList} {offset : Nat} (h : Canonical cl.chunks)
    (hpos : AllPositive cl.chunks) (hmax : 0 < cl.maxChunks) (hb : offset < 2 ^ 32) :
    ((Touches cl offset ∨ cl.maxChunks ≤ cl.count) ∧
      AllPositive (chunkListAdd cl offset 0).chunks) ∨
    (¬(Touches cl offset ∨ cl.maxChunks ≤ cl.count) ∧
      ⟨offset, 0⟩ ∈ (chunkListAdd cl offset 0).chunks) := by
  obtain ⟨max, chunks⟩ := cl
  obtain ⟨a, m, b, hl, hsplit, hpoint, hcount⟩ :=
    Split.of_position (show Canonical (⟨max, chunks⟩ : ChunkList).chunks from h)
      (show (⟨offset, 0⟩ : Chunk).offset + (⟨offset, 0⟩ : Chunk).size < 2 ^ 32 from hb)
  simp only at hl
  subst hl
  unfold chunkListAdd
  simp only [hpoint]
  rcases insert_cases hsplit max hcount with
    ⟨a', prev, rfl, htouch, heq⟩ | ⟨hapart, hroom, heq⟩ | ⟨hapart, rfl, hfull, heq⟩
  · have hbelow := hsplit.below prev (by simp)
    refine Or.inl ⟨Or.inl ⟨prev, by simp, hbelow.le, htouch⟩, ?_⟩
    rw [heq]
    have hprev := hpos prev (by simp)
    have hend := extendedChunk_end prev (mergedChunk m ⟨offset, 0⟩)
    intro c hc
    rcases List.mem_append.mp hc with hc | hc
    · exact hpos c (by simp [hc])
    · rcases List.mem_cons.mp hc with rfl | hc
      · omega
      · exact hpos c (by simp [hc])
  · rw [heq]
    by_cases hm : m = []
    · -- nothing touches the offset and there is room
      subst hm
      refine Or.inr ⟨?_, by simp [mergedChunk]⟩
      rintro (⟨c, hc, hlo, hhi⟩ | hfull)
      · rcases hsplit.apart_of_nil hapart c (by simpa using hc) with h1 | h1 <;>
          simp only at h1 <;> omega
      · rcases hroom with hne | hroom
        · exact hne rfl
        · exact absurd hroom (not_lt.mpr hfull)
    · obtain ⟨c, hc⟩ := List.exists_mem_of_ne_nil m hm
      have hat : c.offset = offset := hsplit.empty_block rfl hc
      refine Or.inl ⟨Or.inl ⟨c, by simp [hc], hat.le, by omega⟩, ?_⟩
      exact AllPositive.merged hsplit hpos hm
  · -- a full list keeps its chunks: none of them is smaller
    refine Or.inl ⟨Or.inr (by simpa [ChunkList.count] using hfull), ?_⟩
    rw [heq]
    have hne : a ++ b ≠ [] := by
      rintro hnil
      rw [hnil] at hfull
      exact absurd hmax (not_lt.mpr hfull)
    have hcan : Canonical (a ++ b) := by simpa using h
    rcases replaceSmallest_cases hcan hne max ⟨offset, 0⟩ with
      hsame | ⟨_, _, _, _, _, _, _, _, _, hsmaller, _⟩
    · rw [hsame]
      simpa using hpos
    · exact absurd hsmaller (Nat.not_lt_zero _)

/-! ## Chunks inside a file -/

/-- A list of gaps of a file of `fsize` bytes. -/
structure GapChunks (fsize : Nat) (cl : ChunkList) : Prop where
  capacity : 0 < cl.maxChunks
  canonical : Canonical cl.chunks
  positive : AllPositive cl.chunks
  inside : ∀ c ∈ cl.chunks, c.offset + c.size ≤ fsize

/-- Chunks that cover nothing behind the end of the file are inside it. -/
theorem inside_of_covered {l : List Chunk} {fsize : Nat} (hpos : AllPositive l)
    (hcovered : ∀ x ∈ bytesOf l, x < fsize) : ∀ c ∈ l, c.offset + c.size ≤ fsize := by
  intro c hc
  have hsize := hpos c hc
  have hlast := hcovered (c.offset + c.size - 1)
    (mem_bytesOf.mpr ⟨c, hc, by omega, by omega⟩)
  omega

theorem GapChunks.covered_lt {fsize : Nat} {cl : ChunkList} (h : GapChunks fsize cl) :
    ∀ x ∈ cl.covered, x < fsize := by
  intro x hx
  obtain ⟨c, hc, -, hhi⟩ := mem_bytesOf.mp hx
  exact hhi.trans_le (h.inside c hc)

/-- A request inside the file keeps the list a list of gaps, unless it is empty and
goes in as it is. -/
theorem GapChunks.add {fsize : Nat} {cl : ChunkList} (h : GapChunks fsize cl)
    (hfsize : fsize < 2 ^ 32) {offset size : Nat} (hend : offset + size ≤ fsize)
    (htaken : size = 0 → Touches cl offset ∨ cl.maxChunks ≤ cl.count) :
    GapChunks fsize (chunkListAdd cl offset size) := by
  have hb : offset + size < 2 ^ 32 := hend.trans_lt hfsize
  have hpos : AllPositive (chunkListAdd cl offset size).chunks := by
    rcases Nat.eq_zero_or_pos size with rfl | hsize
    · rcases chunkListAdd_empty h.canonical h.positive h.capacity (by omega) with
        ⟨-, hpos⟩ | ⟨hno, -⟩
      · exact hpos
      · exact absurd (htaken rfl) hno
    · rcases chunkListAdd_cases h.canonical h.capacity hb with ⟨-, hs⟩ | ⟨-, ho⟩
      · exact hs.positive h.positive hsize
      · exact ho.positive h.positive hsize
  refine ⟨?_, chunkListAdd_canonical h.canonical h.capacity hb, hpos, ?_⟩
  · rw [chunkListAdd_maxChunks h.canonical h.capacity hb]
    exact h.capacity
  · refine inside_of_covered hpos fun x hx => ?_
    rcases chunkListAdd_covered h.canonical h.capacity hb hx with hold | ⟨-, hnew⟩
    · exact h.covered_lt x hold
    · exact hnew.trans_le hend

/-! ## Serving the first chunk -/

/-- The number of bytes a list of chunks asks for. -/
def chunkBytes (chunks : List Chunk) : Nat := (chunks.map Chunk.size).sum

theorem chunkBytes_cons (c : Chunk) (rest : List Chunk) :
    chunkBytes (c :: rest) = c.size + chunkBytes rest := by
  rw [chunkBytes, List.map_cons, List.sum_cons]
  rfl

theorem AllPositive.chunkBytes_pos {l : List Chunk} (h : AllPositive l) (hne : l ≠ []) :
    0 < chunkBytes l := by
  obtain ⟨c, rest, rfl⟩ := List.exists_cons_of_ne_nil hne
  have hsize := h c (List.mem_cons_self ..)
  rw [chunkBytes_cons]
  omega

/-- What is taken off the first chunk is gone from the list, and nothing else. -/
theorem chunkBytes_removeFromFirst {cl : ChunkList} {c : Chunk} {rest : List Chunk}
    (hl : cl.chunks = c :: rest) {n : Nat} (hn : n ≤ c.size) :
    chunkBytes (chunkListRemoveFromFirst cl n).chunks + n = chunkBytes cl.chunks := by
  have htaken : (if n > c.size then c.size else n) = n := if_neg (not_lt.mpr hn)
  unfold chunkListRemoveFromFirst
  simp only [hl, List.getD_cons_zero, htaken]
  by_cases hall : c.size - n = 0
  · rw [if_pos hall]
    simp only [chunksEraseChunk, hl, List.take_zero, List.nil_append, List.drop_succ_cons,
      List.drop_zero, chunkBytes_cons]
    omega
  · rw [if_neg hall]
    simp only [hl, List.set_cons_zero, chunkBytes_cons]
    omega

theorem GapChunks.removeFromFirst {fsize : Nat} {cl : ChunkList} (h : GapChunks fsize cl)
    (hne : cl.chunks ≠ []) (n : Nat) : GapChunks fsize (chunkListRemoveFromFirst cl n) := by
  have hr : Removed cl n _ := removeFromFirst_removed h.canonical hne
  have hpos := hr.positive h.positive
  refine ⟨hr.capacity ▸ h.capacity, hr.canonical, hpos, inside_of_covered hpos fun x hx => ?_⟩
  have hold : x ∈ cl.covered \ removedFromFirst cl n := hr.covers ▸ hx
  exact h.covered_lt x hold.1

end Nos3.Cf

/-!
## Serving the gaps of a NAK

The segment requests of a NAK become chunks of the sender, and each call of
`CF_CFDP_S_CheckAndRespondNak` sends data of the first one. A request whose ends
are equal is accepted like any other; where it goes in as an empty chunk the calls
send nothing from then on.
-/
namespace Nos3.Cf

/-! ## The requests -/

/-- An accepted request of no bytes that finds a free slot and no chunk to merge
with. -/
def BareRequest (w : World) (sr : SegmentRequest) : Prop :=
  sr.offsetStart = sr.offsetEnd ∧ sr.offsetEnd ≠ 0 ∧ sr.offsetEnd.toNat ≤ w.t.fsize ∧
    ¬(Touches w.t.chunkList sr.offsetStart.toNat ∨
      w.t.chunkList.maxChunks ≤ w.t.chunkList.count)

/-- The requests a NAK PDU is served with: none if it does not decode. -/
def nakRequests (ph : PduBuffer) : List SegmentRequest :=
  if (recvNak ph).1 then (recvNak ph).2.intHeader.asNak.segmentList.segments else []

/-- The sender after the first `k` requests. -/
def afterRequests (w : World) (requests : List SegmentRequest) (k : Nat) : World :=
  (requests.take k).foldl s2NakSegment w

/-- The chunks of the sender are gaps of its file. -/
def GapsOwed (w : World) : Prop := w.t.fsize < 2 ^ 32 ∧ GapChunks w.t.fsize w.t.chunkList

theorem s2Nak_requests (w : World) (ph : PduBuffer) :
    s2Nak w ph = (nakRequests ph).foldl s2NakSegment w := by
  unfold s2Nak nakRequests
  generalize recvNak ph = received
  obtain ⟨ok, ph⟩ := received
  cases ok <;> rfl

/-- A request leaves a list of gaps, except for a bare one. -/
theorem s2NakSegment_gapsOwed {w : World} (h : GapsOwed w) {sr : SegmentRequest}
    (hbare : ¬BareRequest w sr) : GapsOwed (s2NakSegment w sr) := by
  obtain ⟨hfsize, hchunks⟩ := h
  unfold s2NakSegment
  split
  · exact ⟨hfsize, hchunks⟩
  · rename_i hnonzero
    split
    · exact ⟨hfsize, hchunks⟩
    · rename_i hordered
      split
      · exact ⟨hfsize, hchunks⟩
      · rename_i hinside
        have hle : sr.offsetStart.toNat ≤ sr.offsetEnd.toNat :=
          BitVec.le_def.mp (by simpa using hordered)
        refine ⟨hfsize, hchunks.add hfsize (by omega) fun hempty => ?_⟩
        have heq : sr.offsetStart = sr.offsetEnd := BitVec.eq_of_toNat_eq (by omega)
        by_contra hfree
        refine hbare ⟨heq, fun hzero => hnonzero ⟨heq.trans hzero, hzero⟩, by omega, hfree⟩

theorem s2NakSegment_bare {w : World} (h : GapsOwed w) {sr : SegmentRequest}
    (hbare : BareRequest w sr) :
    ∃ c ∈ (s2NakSegment w sr).t.chunkList.chunks, c.size = 0 := by
  obtain ⟨hfsize, hchunks⟩ := h
  obtain ⟨heq, hnonzero, hinside, hfree⟩ := hbare
  have hword : sr.offsetStart.toNat < 2 ^ 32 := sr.offsetStart.isLt
  have hadd : s2NakSegment w sr =
      w.setChunkList (chunkListAdd w.t.chunkList sr.offsetStart.toNat 0) := by
    unfold s2NakSegment
    rw [heq, if_neg (fun hz => hnonzero hz.1), if_neg (by simp), if_neg (not_lt.mpr hinside),
      Nat.sub_self]
  rw [hadd]
  rcases chunkListAdd_empty hchunks.canonical hchunks.positive hchunks.capacity hword with
    ⟨htaken, -⟩ | ⟨-, hmem⟩
  · exact absurd htaken hfree
  · exact ⟨_, hmem, rfl⟩

theorem afterRequests_succ (w : World) {requests : List SegmentRequest} {k : Nat}
    (hk : k < requests.length) :
    afterRequests w requests (k + 1) = s2NakSegment (afterRequests w requests k) requests[k] := by
  rw [afterRequests, List.take_succ_eq_append_getElem hk, List.foldl_append]
  rfl

/-- As long as no request was bare the chunks are gaps of the file. -/
theorem afterRequests_gapsOwed {w : World} (h : GapsOwed w) {requests : List SegmentRequest}
    {n : Nat} (hn : n ≤ requests.length)
    (hbare : ∀ k (hk : k < requests.length), k < n →
      ¬BareRequest (afterRequests w requests k) requests[k]) :
    GapsOwed (afterRequests w requests n) := by
  induction n with
  | zero => exact h
  | succ n ih =>
    rw [afterRequests_succ w hn]
    have hprev := ih (by omega) fun k hk hlt => hbare k hk (by omega)
    exact s2NakSegment_gapsOwed hprev (hbare n hn (by omega))

/-! ## The calls -/

/-- Repeated calls of `CF_CFDP_S_CheckAndRespondNak`, each with a message buffer and
none with a file error. Between two calls everything but the transaction may
change. -/
structure NakCalls (cfg : Config) (w : World) (run : Nat → World) : Prop where
  start : run 0 = w
  buffer : ∀ k, (msgOutGet cfg (run k)).1 ≠ none
  reads : ∀ k, (sCheckAndRespondNak cfg (run k)).1 ≠ -1
  t : ∀ k, (run (k + 1)).t = (sCheckAndRespondNak cfg (run k)).2.t

/-- Bytes still to be sent. -/
def bytesOwed (w : World) : Nat := chunkBytes w.t.chunkList.chunks

/-- What a call does that finds chunks: it sends metadata that is owed, or data of at
least one byte. -/
structure CallServes (w w' : World) : Prop where
  metadata : w.t.tx.mdNeedSend = true →
    w'.t.tx.mdNeedSend = false ∧ w'.t.chunkList = w.t.chunkList
  data : w.t.tx.mdNeedSend = false →
    w'.t.tx.mdNeedSend = false ∧ bytesOwed w' < bytesOwed w

/-- The chunks are non-empty and inside the file, every call serves until they are
gone, and one call for each byte and one for the metadata are enough for that. -/
structure NakServed (cfg : Config) (w : World) : Prop where
  chunks : ∀ c ∈ w.t.chunkList.chunks, 0 < c.size ∧ c.offset + c.size ≤ w.t.fsize
  serves : ∀ run, NakCalls cfg w run → ∀ k, (run k).t.chunkList.chunks ≠ [] →
    CallServes (run k) (run (k + 1))
  drains : ∀ run, NakCalls cfg w run → ∀ k, bytesOwed w + 1 ≤ k →
    (run k).t.chunkList.chunks = []

theorem checkAndRespondNak_metadata {cfg : Config} {w : World}
    (hbuffer : (msgOutGet cfg w).1 ≠ none) (howed : w.t.tx.mdNeedSend = true) :
    (sCheckAndRespondNak cfg w).2.t = { w.t with tx.mdNeedSend := false } := by
  have hframe := sendMd_frame cfg w
  obtain ⟨ph, hph⟩ := Option.ne_none_iff_exists'.mp hbuffer
  have hret : (sendMd cfg w).1 = .success := by
    simp only [sendMd, sendDirective, constructPduHeader, hph]
    rfl
  simp only [sCheckAndRespondNak, howed, if_true]
  generalize sendMd cfg w = result at hframe hret
  obtain ⟨ret, w'⟩ := result
  simp only at hret
  subst hret
  have ht : w'.t = w.t := hframe.t
  show { w'.t with tx.mdNeedSend := false } = { w.t with tx.mdNeedSend := false }
  rw [ht]

theorem checkAndRespondNak_idle {cfg : Config} {w : World} (howed : w.t.tx.mdNeedSend = false)
    (hnone : w.t.chunkList.chunks = []) : (sCheckAndRespondNak cfg w).2.t = w.t := by
  simp [sCheckAndRespondNak, howed, chunkListGetFirstChunk, hnone]

theorem checkAndRespondNak_data {cfg : Config} {w : World}
    (hbuffer : (msgOutGet cfg w).1 ≠ none) (hreads : (sCheckAndRespondNak cfg w).1 ≠ -1)
    (hchunk : 0 < cfg.outgoingFileChunkSize) (howed : w.t.tx.mdNeedSend = false) {c : Chunk}
    {rest : List Chunk} (hl : w.t.chunkList.chunks = c :: rest) (hsize : 0 < c.size) :
    ∃ n, 0 < n ∧ n ≤ c.size ∧
      (sCheckAndRespondNak cfg w).2.t.chunkList = chunkListRemoveFromFirst w.t.chunkList n ∧
      (sCheckAndRespondNak cfg w).2.t.tx = w.t.tx ∧
      (sCheckAndRespondNak cfg w).2.t.fsize = w.t.fsize := by
  have hfirst : chunkListGetFirstChunk w.t.chunkList = some c := by
    rw [chunkListGetFirstChunk, hl]
    rfl
  have hout := sSendFileData_outcome cfg w c.offset c.size false
  simp only [sCheckAndRespondNak, howed, hfirst] at hreads ⊢
  generalize sSendFileData cfg w c.offset c.size false = result at hout hreads ⊢
  cases hout with
  | noBuffer noPdu => exact absurd noPdu hbuffer
  | refused => simp at hreads
  | short => simp at hreads
  | sent fd read size header wire frame sent =>
    rename_i w' f octets ph
    have hpos : 0 < octets.length := size ▸ fileDataSize_pos hchunk hsize
    have hle : octets.length ≤ c.size := size ▸ fileDataSize_le cfg w c.offset c.size
    have ht := frame.t
    have hpositive : (octets.length : Int) > 0 := by omega
    have hlist : w'.t.chunkList = w.t.chunkList := by
      rw [ht]
      rfl
    have htx : w'.t.tx = w.t.tx := by rw [ht]
    have hfsize : w'.t.fsize = w.t.fsize := by rw [ht]
    simp only [Bool.false_eq_true, if_false, hpositive, if_true, Int.toNat_natCast, hlist]
    exact ⟨octets.length, hpos, hle, rfl, htx, hfsize⟩

/-- A call whose PDU would hold no data changes no chunk. -/
theorem checkAndRespondNak_stuck {cfg : Config} {w : World}
    (hnone : ∀ c ∈ w.t.chunkList.chunks.head?, fileDataSize cfg w c.offset c.size = 0) :
    (sCheckAndRespondNak cfg w).2.t.chunkList = w.t.chunkList := by
  unfold sCheckAndRespondNak
  split
  · have hframe := sendMd_frame cfg w
    generalize sendMd cfg w = result at hframe
    have hlist : result.2.t.chunkList = w.t.chunkList := congrArg Transaction.chunkList hframe.t
    obtain ⟨ret, w'⟩ := result
    cases ret <;> exact hlist
  · split
    · rfl
    · rename_i c hfirst
      have hout := sSendFileData_outcome cfg w c.offset c.size false
      have hsize := hnone c hfirst
      generalize sSendFileData cfg w c.offset c.size false = result at hout ⊢
      cases hout with
      | noBuffer noPdu frame => exact congrArg Transaction.chunkList frame.t
      | refused reason moved frame =>
        have ht := frame.t
        simp only [Int.reduceNeg, Int.reduceLT, gt_iff_lt, if_false, if_true]
        rw [ht]
        rfl
      | short fd read size frame =>
        have ht := frame.t
        simp only [Int.reduceNeg, Int.reduceLT, gt_iff_lt, if_false, if_true]
        rw [ht]
        rfl
      | sent fd read size header wire frame sent =>
        have ht := frame.t
        simp only [size, hsize, Int.natCast_zero, gt_iff_lt, lt_irrefl, if_false]
        rw [ht]
        rfl

/-- One call on gaps of the file. -/
theorem checkAndRespondNak_serves {cfg : Config} {w : World} (h : GapsOwed w)
    (hchunk : 0 < cfg.outgoingFileChunkSize) (hbuffer : (msgOutGet cfg w).1 ≠ none)
    (hreads : (sCheckAndRespondNak cfg w).1 ≠ -1) :
    GapsOwed (sCheckAndRespondNak cfg w).2 ∧
      (w.t.chunkList.chunks ≠ [] → CallServes w (sCheckAndRespondNak cfg w).2) ∧
      (w.t.chunkList.chunks = [] → (sCheckAndRespondNak cfg w).2.t.chunkList.chunks = []) := by
  by_cases howed : w.t.tx.mdNeedSend = true
  · have ht := checkAndRespondNak_metadata hbuffer howed
    have hlist : (sCheckAndRespondNak cfg w).2.t.chunkList = w.t.chunkList := by
      rw [ht]
      rfl
    refine ⟨?_, fun _ => ⟨fun _ => ⟨by rw [ht], hlist⟩, fun hno => ?_⟩, fun hnone => ?_⟩
    · rw [GapsOwed, hlist, ht]
      exact h
    · cases howed.symm.trans hno
    · rw [hlist, hnone]
  · have howed : w.t.tx.mdNeedSend = false := by simpa using howed
    cases hl : w.t.chunkList.chunks with
    | nil =>
      have ht := @checkAndRespondNak_idle cfg _ howed hl
      rw [GapsOwed, ht]
      exact ⟨h, fun hne => absurd rfl hne, fun _ => hl⟩
    | cons c rest =>
      have hsize : 0 < c.size := h.2.positive c (by rw [hl]; exact List.mem_cons_self ..)
      obtain ⟨n, hn, hle, hlist, htx, hfsize⟩ :=
        checkAndRespondNak_data hbuffer hreads hchunk howed hl hsize
      have hne : w.t.chunkList.chunks ≠ [] := by
        rw [hl]
        exact List.cons_ne_nil _ _
      refine ⟨?_, fun _ => ⟨fun hyes => ?_, fun _ => ⟨by rw [htx, howed], ?_⟩⟩, fun hnil => ?_⟩
      · rw [GapsOwed, hlist, hfsize]
        exact ⟨h.1, h.2.removeFromFirst hne n⟩
      · cases howed.symm.trans hyes
      · have hremoved := chunkBytes_removeFromFirst hl hle
        rw [bytesOwed, bytesOwed, hlist]
        omega
      · exact absurd hnil (List.cons_ne_nil _ _)

/-- Bytes to be sent, and the metadata as one more. -/
def workOwed (w : World) : Nat := bytesOwed w + (if w.t.tx.mdNeedSend then 1 else 0)

theorem CallServes.workOwed_lt {w w' : World} (h : CallServes w w') :
    workOwed w' < workOwed w := by
  by_cases howed : w.t.tx.mdNeedSend = true
  · obtain ⟨hsent, hlist⟩ := h.metadata howed
    simp only [workOwed, bytesOwed, hsent, howed, hlist, if_true]
    simp
  · have howed : w.t.tx.mdNeedSend = false := by simpa using howed
    obtain ⟨hsent, hless⟩ := h.data howed
    simpa [workOwed, hsent, howed] using hless

theorem nakServed_of_gapsOwed {cfg : Config} {w : World} (h : GapsOwed w)
    (hchunk : 0 < cfg.outgoingFileChunkSize) : NakServed cfg w := by
  have hstep (run : Nat → World) (hrun : NakCalls cfg w run) (k : Nat)
      (hk : GapsOwed (run k)) := checkAndRespondNak_serves hk hchunk (hrun.buffer k) (hrun.reads k)
  have hinv (run : Nat → World) (hrun : NakCalls cfg w run) (k : Nat) : GapsOwed (run k) := by
    induction k with
    | zero => rwa [hrun.start]
    | succ k ih =>
      rw [GapsOwed, hrun.t k]
      exact (hstep run hrun k ih).1
  have hserves (run : Nat → World) (hrun : NakCalls cfg w run) (k : Nat)
      (hne : (run k).t.chunkList.chunks ≠ []) : CallServes (run k) (run (k + 1)) := by
    obtain ⟨hmetadata, hdata⟩ := (hstep run hrun k (hinv run hrun k)).2.1 hne
    refine ⟨fun howed => ?_, fun howed => ?_⟩
    · rw [hrun.t k]
      exact hmetadata howed
    · rw [bytesOwed, hrun.t k]
      exact hdata howed
  refine ⟨fun c hc => ⟨h.2.positive c hc, h.2.inside c hc⟩, hserves, fun run hrun k hk => ?_⟩
  -- the work left sinks with every call until the chunks are gone
  have hsinks (k : Nat) : (run k).t.chunkList.chunks = [] ∨ workOwed (run k) + k ≤ workOwed w := by
    induction k with
    | zero => exact Or.inr (by rw [hrun.start]; exact le_rfl)
    | succ k ih =>
      by_cases hnil : (run k).t.chunkList.chunks = []
      · refine Or.inl ?_
        rw [hrun.t k]
        exact (hstep run hrun k (hinv run hrun k)).2.2 hnil
      · have hless := (hserves run hrun k hnil).workOwed_lt
        rcases ih with hgone | hle
        · exact absurd hgone hnil
        · exact Or.inr (by omega)
  rcases hsinks k with hgone | hle
  · exact hgone
  · by_contra hne
    have hleft := (hinv run hrun k).2.positive.chunkBytes_pos hne
    have hmost : workOwed w ≤ bytesOwed w + 1 := by
      rw [workOwed]
      split <;> omega
    have hbytes : bytesOwed (run k) ≤ workOwed (run k) := Nat.le_add_right _ _
    rw [bytesOwed] at hbytes
    omega

/-! ## A NAK and the calls behind it -/

/-- A NAK none of whose requests is bare is served to the end. A bare request leaves
an empty chunk in the list as soon as it is processed, and with a chunk size of
zero no list is ever served. -/
theorem nak_service_drains {w : World} (h : GapsOwed w) (cfg : Config) (ph : PduBuffer) :
    (0 < cfg.outgoingFileChunkSize →
      (∀ k (hk : k < (nakRequests ph).length),
        ¬BareRequest (afterRequests w (nakRequests ph) k) (nakRequests ph)[k]) →
      NakServed cfg (s2Nak w ph)) ∧
    (∀ k (hk : k < (nakRequests ph).length),
      BareRequest (afterRequests w (nakRequests ph) k) (nakRequests ph)[k] →
      ∃ j ≤ k, ∃ c ∈ (afterRequests w (nakRequests ph) (j + 1)).t.chunkList.chunks, c.size = 0) ∧
    (cfg.outgoingFileChunkSize = 0 →
      ∀ w', (sCheckAndRespondNak cfg w').2.t.chunkList = w'.t.chunkList) := by
  refine ⟨fun hchunk hbare => ?_, fun k hk hbare => ?_, fun hchunk w' => ?_⟩
  · refine nakServed_of_gapsOwed ?_ hchunk
    have hall := afterRequests_gapsOwed h le_rfl fun k hk _ => hbare k hk
    rwa [afterRequests, List.take_length, ← s2Nak_requests] at hall
  · -- the first bare request meets a list of gaps
    classical
    have hex : ∃ j, ∃ hj : j < (nakRequests ph).length,
        BareRequest (afterRequests w (nakRequests ph) j) (nakRequests ph)[j] := ⟨k, hk, hbare⟩
    obtain ⟨hj, hfirst⟩ := Nat.find_spec hex
    refine ⟨Nat.find hex, Nat.find_min' hex ⟨hk, hbare⟩, ?_⟩
    rw [afterRequests_succ w hj]
    refine s2NakSegment_bare (afterRequests_gapsOwed h hj.le fun i hi hlt hb => ?_) hfirst
    exact Nat.find_min hex hlt ⟨hi, hb⟩
  · refine checkAndRespondNak_stuck fun c _ => ?_
    rw [fileDataSize, actualBytes, hchunk, Nat.min_zero]

/-- The sender of a file of ten octets, with no gap known. -/
def nakSender : World :=
  quietWorld
    { (default : Transaction) with
      state := .s2
      fsize := 10
      fd := some ⟨[], ⟨[0, 1, 2, 3, 4, 5, 6, 7, 8, 9], 10⟩⟩
      chunks := some ⟨4, []⟩
      com := { (default : FlagsCommon) with qIndex := .txw } }
    fun _ => none

/-- A NAK PDU behind its headers: the scope is the whole file. -/
def nakOf (first last : Octet) : PduBuffer :=
  let octets : List Octet := [0, 0, 0, 0, 0, 0, 0, 10, 0, 0, 0, first, 0, 0, 0, last]
  { (default : PduBuffer) with pdec := ⟨codecReset octets.length, octets, [], []⟩ }

theorem nakSender_gapsOwed : GapsOwed nakSender :=
  ⟨by decide, by decide, canonical_nil, by simp [AllPositive, nakSender, quietWorld,
    Transaction.chunkList], by simp [nakSender, quietWorld, Transaction.chunkList]⟩

/-- Octets five to seven are asked for. -/
theorem nak_service_drains_three_octets :
    NakServed { (default : Config) with outgoingFileChunkSize := 2 }
      (s2Nak nakSender (nakOf 5 8)) := by
  refine (nak_service_drains nakSender_gapsOwed _ (nakOf 5 8)).1 (by decide) fun k hk hbare => ?_
  have hrequests : nakRequests (nakOf 5 8) = [⟨5, 8⟩] := by decide
  simp only [hrequests, List.length_singleton, Nat.lt_one_iff] at hk
  subst hk
  simp only [hrequests, List.getElem_cons_zero] at hbare
  exact absurd hbare.1 (by decide)

/-- The request of no octet at five is queued; no call gets past it. -/
theorem empty_request_sticks :
    GapsOwed nakSender ∧ nakRequests (nakOf 5 5) = [⟨5, 5⟩] ∧
      (s2Nak nakSender (nakOf 5 5)).t.chunkList.chunks = [⟨5, 0⟩] ∧
      (∀ cfg, ¬NakServed cfg (s2Nak nakSender (nakOf 5 5))) ∧
      ∀ cfg w, w.t.chunkList.chunks = [⟨5, 0⟩] →
        (sCheckAndRespondNak cfg w).2.t.chunkList = w.t.chunkList := by
  have hlist : (s2Nak nakSender (nakOf 5 5)).t.chunkList.chunks = [⟨5, 0⟩] := by decide
  refine ⟨nakSender_gapsOwed, by decide, hlist, fun cfg hserved => ?_, fun cfg w hw => ?_⟩
  · exact absurd (hserved.chunks ⟨5, 0⟩ (by rw [hlist]; exact List.mem_cons_self ..)).1 (by decide)
  · refine checkAndRespondNak_stuck fun c hc => ?_
    rw [hw, List.head?_cons, Option.mem_def, Option.some.injEq] at hc
    subst hc
    exact Nat.le_zero.mp (fileDataSize_le cfg w 5 0)

end Nos3.Cf
