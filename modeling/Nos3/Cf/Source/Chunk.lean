import Nos3.Base.Gaps
import Mathlib.Data.List.Basic
import Mathlib.Algebra.Group.Nat.Defs
import Mathlib.Data.List.GetD

/-!
# CF chunk lists (cf_chunk.c, cf_chunk.h)

`CF_ChunkList_t` keeps `count` chunks of a caller-supplied array; the model keeps
the first `count` entries as a list, so `count` is its length and the `memmove`
calls are list edits. Offsets and sizes are 32-bit: every end offset is reduced
modulo 2^32 where the source adds. `CF_Assert` is compiled out in the flight
build and has no counterpart here.
-/
namespace Nos3.Cf

def uint32Modulus : Nat := 2 ^ 32

/-- Conversion of a C integer result to `uint32`. -/
def toUint32 (n : Nat) : Nat := n % uint32Modulus

theorem toUint32_of_lt {n : Nat} (h : n < 2 ^ 32) : toUint32 n = n := Nat.mod_eq_of_lt h

/-- `CF_Chunk_t`. -/
structure Chunk where
  offset : Nat
  size : Nat
  deriving DecidableEq, Repr, Inhabited

/-- `offset + size` as the source computes it. -/
def Chunk.endOff (c : Chunk) : Nat := toUint32 (c.offset + c.size)

/-- `CF_ChunkList_t`; `count` is `chunks.length`. -/
structure ChunkList where
  maxChunks : Nat
  chunks : List Chunk
  deriving DecidableEq, Repr, Inhabited

def ChunkList.count (cl : ChunkList) : Nat := cl.chunks.length

def chunksEraseRange (cl : ChunkList) (start stop : Nat) : ChunkList :=
  if start < stop then { cl with chunks := cl.chunks.take start ++ cl.chunks.drop stop } else cl

def chunksEraseChunk (cl : ChunkList) (eraseIndex : Nat) : ChunkList :=
  { cl with chunks := cl.chunks.take eraseIndex ++ cl.chunks.drop (eraseIndex + 1) }

def chunksInsertChunk (cl : ChunkList) (indexBefore : Nat) (chunk : Chunk) : ChunkList :=
  { cl with chunks := cl.chunks.take indexBefore ++ chunk :: cl.chunks.drop indexBefore }

/-- The loop of `CF_Chunks_FindInsertPosition`. `count` strictly decreases, so
`count` iterations of fuel never run out. -/
def findInsertLoop (chunks : List Chunk) (offset : Nat) : Nat → Nat → Nat → Nat
  | 0, first, _ => first
  | fuel + 1, first, count =>
    if count = 0 then first
    else
      let step := count / 2
      let i := first + step
      if (chunks.getD i default).offset < offset then
        findInsertLoop chunks offset fuel (i + 1) (count - (step + 1))
      else findInsertLoop chunks offset fuel first step

def chunksFindInsertPosition (cl : ChunkList) (chunk : Chunk) : Nat :=
  findInsertLoop cl.chunks chunk.offset cl.count 0 cl.count

/-- The result is `ret`, and the list with the extended previous chunk. -/
def chunksCombinePrevious (cl : ChunkList) (i : Nat) (chunk : Chunk) : Bool × ChunkList :=
  if i > 0 then
    let chunkEnd := chunk.endOff
    let prev := cl.chunks.getD (i - 1) default
    let prevEnd := prev.endOff
    if chunk.offset ≤ prevEnd then
      if prevEnd < chunkEnd then
        let extended := { prev with size := toUint32 (chunkEnd + uint32Modulus - prev.offset) }
        (true, { cl with chunks := cl.chunks.set (i - 1) extended })
      else (true, cl)
    else (false, cl)
  else (false, cl)

/-- The loop of `CF_Chunks_CombineNext`: how far `combined_i` advances over the
chunks from index `i` on. -/
def countCombined (chunkEnd : Nat) : List Chunk → Nat
  | [] => 0
  | c :: rest => if chunkEnd < c.offset then 0 else countCombined chunkEnd rest + 1

def chunksCombineNext (cl : ChunkList) (i : Nat) (chunk : Chunk) : Bool × ChunkList :=
  let combinedI := i + countCombined chunk.endOff (cl.chunks.drop i)
  if i ≠ combinedI then
    let chunkEnd := max (cl.chunks.getD (combinedI - 1) default).endOff chunk.endOff
    let combined : Chunk := ⟨chunk.offset, toUint32 (chunkEnd + uint32Modulus - chunk.offset)⟩
    (true, chunksEraseRange { cl with chunks := cl.chunks.set i combined } (i + 1) combinedI)
  else (false, cl)

/-- The loop of `CF_Chunks_FindSmallestSize` over the chunks from index `i` on. -/
def findSmallestLoop (chunks : List Chunk) : List Chunk → Nat → Nat → Nat
  | [], _, smallest => smallest
  | c :: rest, i, smallest =>
    if c.size < (chunks.getD smallest default).size then findSmallestLoop chunks rest (i + 1) i
    else findSmallestLoop chunks rest (i + 1) smallest

def chunksFindSmallestSize (cl : ChunkList) : Nat :=
  findSmallestLoop cl.chunks (cl.chunks.drop 1) 1 0

/-- The part of `CF_Chunks_Insert` reached when the list is full: the smallest
chunk makes room if the new one is larger. -/
def chunksReplaceSmallest (cl : ChunkList) (chunk : Chunk) : ChunkList :=
  let smallestI := chunksFindSmallestSize cl
  if (cl.chunks.getD smallestI default).size < chunk.size then
    let erased := chunksEraseChunk cl smallestI
    chunksInsertChunk erased (chunksFindInsertPosition erased chunk) chunk
  else cl

def chunksInsert (cl : ChunkList) (i : Nat) (chunk : Chunk) : ChunkList :=
  match chunksCombineNext cl i chunk with
  | (true, cl) =>
    match chunksCombinePrevious cl i (cl.chunks.getD i default) with
    | (true, cl) => chunksEraseChunk cl i
    | (false, cl) => cl
  | (false, cl) =>
    match chunksCombinePrevious cl i chunk with
    | (true, cl) => cl
    | (false, cl) =>
      if cl.count < cl.maxChunks then chunksInsertChunk cl i chunk
      else chunksReplaceSmallest cl chunk

def chunkListAdd (cl : ChunkList) (offset size : Nat) : ChunkList :=
  let chunk : Chunk := ⟨offset, size⟩
  chunksInsert cl (chunksFindInsertPosition cl chunk) chunk

def chunkListRemoveFromFirst (cl : ChunkList) (size : Nat) : ChunkList :=
  let c := cl.chunks.getD 0 default
  let size := if size > c.size then c.size else size
  if c.size - size = 0 then chunksEraseChunk cl 0
  else { cl with chunks := cl.chunks.set 0 ⟨toUint32 (c.offset + size), c.size - size⟩ }

def chunkListGetFirstChunk (cl : ChunkList) : Option Chunk := cl.chunks.head?

def chunkListReset (cl : ChunkList) : ChunkList := { cl with chunks := [] }

def chunkListInit (maxChunks : Nat) : ChunkList := chunkListReset ⟨maxChunks, []⟩

/-- The loop of `CF_ChunkList_ComputeGaps` from chunk index `i` on, `ret` gaps
having been reported so far. The result lists the gaps passed to
`compute_gap_fn`, in order. -/
def computeGapsLoop (maxGaps total start : Nat) : List Chunk → Nat → List Chunk
  | [], _ => []
  | c :: rest, ret =>
    if ret < maxGaps then
      let nextOff := match rest with
        | [] => total
        | next :: _ => next.offset
      let gapStart := c.endOff
      let offset := if gapStart > start then gapStart else start
      let gap : Chunk := ⟨offset, toUint32 (nextOff + uint32Modulus - offset)⟩
      if gapStart ≥ total then []
      else if start < nextOff then gap :: computeGapsLoop maxGaps total start rest (ret + 1)
      else computeGapsLoop maxGaps total start rest ret
    else []

/-- The gaps `CF_ChunkList_ComputeGaps` hands to its callback; the source
returns their number. -/
def chunkListComputeGaps (cl : ChunkList) (maxGaps total start : Nat) : List Chunk :=
  match cl.chunks with
  | [] => [⟨0, total⟩]
  | first :: _ =>
    if start < first.offset then
      ⟨start, first.offset - start⟩ :: computeGapsLoop maxGaps total start cl.chunks 1
    else computeGapsLoop maxGaps total start cl.chunks 0

example : chunkListAdd (chunkListAdd (chunkListAdd ⟨4, []⟩ 0 10) 20 5) 10 10 = ⟨4, [⟨0, 25⟩]⟩ := by
  decide

end Nos3.Cf

/-!
## The chunk-list representation under insertion and removal

`Canonical` is the representation invariant: offsets and ends in range, each
chunk ending strictly before the next one starts. The binary search splits a
canonical list at the new offset, the forward merge replaces a block by one
chunk, the backward merge extends its predecessor; each step is an instance of
the span-list rules, so the covered byte set is computed once, there.
-/
namespace Nos3.Cf
open Nos3.Base.SpanList

def Chunk.span (c : Chunk) : Span Nat := ⟨c.offset, c.offset + c.size⟩

@[simp] theorem Chunk.span_lo (c : Chunk) : c.span.lo = c.offset := rfl

@[simp] theorem Chunk.span_hi (c : Chunk) : c.span.hi = c.offset + c.size := rfl

/-- The file bytes a list of chunks stands for. -/
def bytesOf (chunks : List Chunk) : Set Nat := cover (chunks.map Chunk.span)

def ChunkList.covered (cl : ChunkList) : Set Nat := bytesOf cl.chunks

structure Canonical (chunks : List Chunk) : Prop where
  separated : Separated (chunks.map Chunk.span)
  bounded : ∀ c ∈ chunks, c.offset + c.size < 2 ^ 32

@[simp] theorem bytesOf_nil : bytesOf [] = ∅ := cover_nil

@[simp] theorem bytesOf_cons (c : Chunk) (l : List Chunk) :
    bytesOf (c :: l) = Set.Ico c.offset (c.offset + c.size) ∪ bytesOf l := cover_cons _ _

@[simp] theorem bytesOf_append (l m : List Chunk) : bytesOf (l ++ m) = bytesOf l ∪ bytesOf m := by
  simp [bytesOf]

theorem canonical_nil : Canonical [] := ⟨separated_nil, by simp⟩

theorem canonical_append {l m : List Chunk} :
    Canonical (l ++ m) ↔ Canonical l ∧ Canonical m ∧
      ∀ a ∈ l, ∀ b ∈ m, a.offset + a.size < b.offset := by
  constructor
  · rintro ⟨hs, hb⟩
    rw [List.map_append, separated_append] at hs
    obtain ⟨hl, hm, hx⟩ := hs
    exact ⟨⟨hl, fun c hc => hb c (List.mem_append_left _ hc)⟩,
      ⟨hm, fun c hc => hb c (List.mem_append_right _ hc)⟩,
      fun a ha b hbm => hx _ (List.mem_map_of_mem ha) _ (List.mem_map_of_mem hbm)⟩
  · rintro ⟨hl, hm, hx⟩
    refine ⟨?_, fun c hc => ?_⟩
    · rw [List.map_append, separated_append]
      refine ⟨hl.separated, hm.separated, fun a ha b hb => ?_⟩
      obtain ⟨a', ha', rfl⟩ := List.mem_map.mp ha
      obtain ⟨b', hb', rfl⟩ := List.mem_map.mp hb
      exact hx a' ha' b' hb'
    · rcases List.mem_append.mp hc with h | h
      · exact hl.bounded c h
      · exact hm.bounded c h

theorem canonical_singleton {c : Chunk} (h : c.offset + c.size < 2 ^ 32) : Canonical [c] :=
  ⟨separated_singleton (by simp), by simpa using h⟩

theorem Canonical.sublist {l m : List Chunk} (h : Canonical m) (hs : l.Sublist m) : Canonical l :=
  ⟨h.separated.sublist (hs.map _), fun c hc => h.bounded c (hs.subset hc)⟩

/-- A block gives way to one chunk that keeps clear of both neighbours. -/
theorem Canonical.replace_block {a m b : List Chunk} {c : Chunk} (h : Canonical (a ++ m ++ b))
    (hc : c.offset + c.size < 2 ^ 32) (hleft : ∀ x ∈ a, x.offset + x.size < c.offset)
    (hright : ∀ x ∈ b, c.offset + c.size < x.offset) : Canonical (a ++ c :: b) := by
  obtain ⟨ham, hb, hx⟩ := canonical_append.mp h
  obtain ⟨ha, -, -⟩ := canonical_append.mp ham
  have hcb : Canonical ([c] ++ b) :=
    canonical_append.mpr ⟨canonical_singleton hc, hb, by simpa using hright⟩
  refine canonical_append.mpr ⟨ha, hcb, fun x hxa y hy => ?_⟩
  rcases List.mem_cons.mp hy with rfl | hyb
  · exact hleft x hxa
  · exact hx x (List.mem_append_left _ hxa) y hyb

/-! ## Binary search -/

theorem Canonical.offset_mono {l : List Chunk} (h : Canonical l) {j k : Nat} (hjk : j ≤ k)
    (hk : k < l.length) : (l.getD j default).offset ≤ (l.getD k default).offset := by
  rcases Nat.lt_or_eq_of_le hjk with hlt | rfl
  · have hp := List.pairwise_iff_getElem.mp (List.pairwise_map.mp h.separated.apart)
      j k (by omega) hk hlt
    simp only [Chunk.span_hi, Chunk.span_lo] at hp
    rw [List.getD_eq_getElem _ _ (by omega), List.getD_eq_getElem _ _ hk]
    omega
  · exact Nat.le_refl _

/-- Loop invariant of the search: everything below `first` starts before the
offset, everything from `first + count` on does not. -/
theorem findInsertLoop_spec {l : List Chunk} (h : Canonical l) (off : Nat) :
    ∀ (fuel first count : Nat), count ≤ fuel → first + count ≤ l.length →
      (∀ j < first, (l.getD j default).offset < off) →
      (∀ j, first + count ≤ j → j < l.length → off ≤ (l.getD j default).offset) →
      let i := findInsertLoop l off fuel first count
      i ≤ l.length ∧ (∀ j < i, (l.getD j default).offset < off) ∧
        ∀ j, i ≤ j → j < l.length → off ≤ (l.getD j default).offset
  | 0, first, count, hf, hlen, hlo, hhi => by
    have hz : count = 0 := by omega
    subst hz
    exact ⟨hlen, hlo, hhi⟩
  | fuel + 1, first, count, hf, hlen, hlo, hhi => by
    by_cases hz : count = 0
    · subst hz
      simp only [findInsertLoop, ↓reduceIte]
      exact ⟨hlen, hlo, hhi⟩
    simp only [findInsertLoop, if_neg hz]
    split
    · rename_i hlt
      refine findInsertLoop_spec h off fuel _ _ (by omega) (by omega) (fun j hj => ?_)
        (fun j hj => hhi j (by omega))
      exact (h.offset_mono (by omega) (by omega)).trans_lt hlt
    · rename_i hge
      refine findInsertLoop_spec h off fuel _ _ (by omega) (by omega) hlo (fun j hj hjl => ?_)
      exact (not_lt.mp hge).trans (h.offset_mono hj hjl)

/-- The search splits a canonical list at the offset. -/
theorem findInsertPosition_split {cl : ChunkList} (h : Canonical cl.chunks) (chunk : Chunk) :
    ∃ a b, cl.chunks = a ++ b ∧ chunksFindInsertPosition cl chunk = a.length ∧
      (∀ c ∈ a, c.offset < chunk.offset) ∧ ∀ c ∈ b, chunk.offset ≤ c.offset := by
  obtain ⟨hle, hlo, hhi⟩ := findInsertLoop_spec h chunk.offset cl.count 0 cl.count le_rfl
    (by simp [ChunkList.count]) (by simp) (by simp [ChunkList.count]; omega)
  set i := findInsertLoop cl.chunks chunk.offset cl.count 0 cl.count with hi
  refine ⟨cl.chunks.take i, cl.chunks.drop i, (List.take_append_drop _ _).symm, ?_, ?_, ?_⟩
  · simp [chunksFindInsertPosition, ← hi, hle]
  · intro c hc
    obtain ⟨j, hj, rfl⟩ := List.getElem_of_mem hc
    have hj' : j < i := by simp at hj; omega
    have := hlo j hj'
    rw [List.getD_eq_getElem _ _ (by omega)] at this
    rwa [List.getElem_take]
  · intro c hc
    obtain ⟨j, hj, rfl⟩ := List.getElem_of_mem hc
    have hj' : i + j < cl.chunks.length := by simp at hj; omega
    have := hhi (i + j) (by omega) hj'
    rw [List.getD_eq_getElem _ _ hj'] at this
    rwa [List.getElem_drop]

/-! ## Forward merge -/

theorem countCombined_split (chunkEnd : Nat) :
    ∀ l : List Chunk, ∃ m r, l = m ++ r ∧ countCombined chunkEnd l = m.length ∧
      (∀ c ∈ m, c.offset ≤ chunkEnd) ∧ ∀ c, r.head? = some c → chunkEnd < c.offset
  | [] => ⟨[], [], by simp [countCombined]⟩
  | c :: rest => by
    by_cases h : chunkEnd < c.offset
    · exact ⟨[], c :: rest, by simp [countCombined, h]⟩
    · obtain ⟨m, r, rfl, hcount, hm, hr⟩ := countCombined_split chunkEnd rest
      refine ⟨c :: m, r, rfl, by simp [countCombined, h, hcount], ?_, hr⟩
      simpa using ⟨not_lt.mp h, hm⟩

/-- In a canonical list everything after the first chunk beyond the end is
beyond the end. -/
theorem Canonical.lt_of_head {r : List Chunk} (h : Canonical r) {e : Nat}
    (hr : ∀ c, r.head? = some c → e < c.offset) : ∀ c ∈ r, e < c.offset := by
  cases r with
  | nil => simp
  | cons first rest =>
    have hfirst := hr first rfl
    obtain ⟨-, -, hx⟩ := canonical_append (l := [first]).mp h
    intro c hc
    rcases List.mem_cons.mp hc with rfl | hc
    · exact hfirst
    · have := hx first (by simp) c hc
      omega

/-- The chunk that replaces a merged block: from the new offset to whichever
ends last, the block or the new chunk. -/
def mergedChunk (block : List Chunk) (chunk : Chunk) : Chunk :=
  match block.getLast? with
  | none => chunk
  | some z => ⟨chunk.offset, max (z.offset + z.size) (chunk.offset + chunk.size) - chunk.offset⟩

@[simp] theorem mergedChunk_offset (block : List Chunk) (chunk : Chunk) :
    (mergedChunk block chunk).offset = chunk.offset := by
  unfold mergedChunk
  split <;> rfl

theorem mergedChunk_end_concat (block : List Chunk) (z chunk : Chunk) :
    chunk.offset + (mergedChunk (block ++ [z]) chunk).size =
      max (z.offset + z.size) (chunk.offset + chunk.size) := by
  simp only [mergedChunk, List.getLast?_append, List.getLast?_singleton, Option.some_or]
  omega

/-- Where the search and the forward merge leave a chunk: `a` starts below it,
`m` starts inside or right at its end, `b` starts beyond it. -/
structure Split (a m b : List Chunk) (chunk : Chunk) : Prop where
  canonical : Canonical (a ++ m ++ b)
  bounded : chunk.offset + chunk.size < 2 ^ 32
  below : ∀ c ∈ a, c.offset < chunk.offset
  inside : ∀ c ∈ m, chunk.offset ≤ c.offset ∧ c.offset ≤ chunk.offset + chunk.size
  above : ∀ c ∈ b, chunk.offset + chunk.size < c.offset

theorem Split.of_position {cl : ChunkList} {chunk : Chunk} (h : Canonical cl.chunks)
    (hb : chunk.offset + chunk.size < 2 ^ 32) :
    ∃ a m b, cl.chunks = a ++ m ++ b ∧ Split a m b chunk ∧
      chunksFindInsertPosition cl chunk = a.length ∧
      countCombined chunk.endOff (m ++ b) = m.length := by
  obtain ⟨a, t, ht, hpos, hlo, hhi⟩ := findInsertPosition_split h chunk
  obtain ⟨m, b, rfl, hcount, hm, hbeyond⟩ := countCombined_split chunk.endOff t
  have hend : chunk.endOff = chunk.offset + chunk.size := toUint32_of_lt hb
  rw [ht, ← List.append_assoc] at h
  have hcb : Canonical b := (canonical_append.mp h).2.1
  rw [hend] at hm hbeyond
  refine ⟨a, m, b, by rw [ht, List.append_assoc], ⟨h, hb, hlo, fun c hc => ?_, ?_⟩, hpos, hcount⟩
  · exact ⟨hhi c (List.mem_append_left _ hc), hm c hc⟩
  · exact hcb.lt_of_head hbeyond

section Merge
variable {a m b : List Chunk} {chunk : Chunk}

/-- The merged chunk covers exactly the new chunk and the block. -/
theorem Split.merged_bytes (h : Split a m b chunk) :
    Set.Ico chunk.offset (chunk.offset + (mergedChunk m chunk).size) =
      Set.Ico chunk.offset (chunk.offset + chunk.size) ∪ bytesOf m := by
  rcases List.eq_nil_or_concat m with rfl | ⟨init, z, rfl⟩
  · simp [mergedChunk]
  · rw [List.concat_eq_append] at h ⊢
    have hsep : Separated (init.map Chunk.span ++ [z.span]) := by
      have := (canonical_append.mp (canonical_append.mp h.canonical).1).2.1.separated
      simpa using this
    have hlo : ∀ s ∈ init.map Chunk.span ++ [z.span], chunk.offset ≤ s.lo := by
      intro s hs
      rw [← List.map_singleton (f := Chunk.span), ← List.map_append] at hs
      obtain ⟨c, hc, rfl⟩ := List.mem_map.mp hs
      exact (h.inside c hc).1
    have habs := absorb hsep hlo (h.inside z (by simp)).2
    rw [mergedChunk_end_concat]
    simpa [bytesOf] using habs.symm

theorem Split.merged_bounded (h : Split a m b chunk) :
    chunk.offset + (mergedChunk m chunk).size < 2 ^ 32 := by
  rcases List.eq_nil_or_concat m with rfl | ⟨init, z, rfl⟩
  · exact h.bounded
  · rw [List.concat_eq_append] at h ⊢
    have hz := h.canonical.bounded z (by simp)
    have hc := h.bounded
    rw [mergedChunk_end_concat]
    omega

theorem Split.merged_before (h : Split a m b chunk) :
    ∀ c ∈ b, chunk.offset + (mergedChunk m chunk).size < c.offset := by
  intro c hc
  rcases List.eq_nil_or_concat m with rfl | ⟨init, z, rfl⟩
  · exact h.above c hc
  · rw [List.concat_eq_append] at h ⊢
    have hz := (canonical_append.mp h.canonical).2.2 z (by simp) c hc
    have hc := h.above c hc
    rw [mergedChunk_end_concat]
    omega

theorem Split.size_le_merged (h : Split a m b chunk) :
    chunk.size ≤ (mergedChunk m chunk).size := by
  rcases List.eq_nil_or_concat m with rfl | ⟨init, z, rfl⟩
  · exact Nat.le_refl _
  · have := mergedChunk_end_concat init z chunk
    rw [List.concat_eq_append]
    omega

/-- `CF_Chunks_CombineNext` puts the merged chunk in the place of the block. -/
theorem combineNext_eq (h : Split a m b chunk) (max : Nat)
    (hcount : countCombined chunk.endOff (m ++ b) = m.length) :
    chunksCombineNext ⟨max, a ++ m ++ b⟩ a.length chunk =
      (!m.isEmpty, ⟨max, a ++ (if m.isEmpty then [] else [mergedChunk m chunk]) ++ b⟩) := by
  have hdrop : (a ++ m ++ b).drop a.length = m ++ b := by simp
  rcases List.eq_nil_or_concat m with rfl | ⟨init, z, rfl⟩
  · simp only [List.nil_append, List.length_nil] at hcount
    simp [chunksCombineNext, hcount]
  · rw [List.concat_eq_append] at *
    have hz := h.canonical.bounded z (by simp)
    have hze : z.endOff = z.offset + z.size := toUint32_of_lt hz
    have hce : chunk.endOff = chunk.offset + chunk.size := toUint32_of_lt h.bounded
    have hlast : (a ++ (init ++ [z]) ++ b).getD (a.length + (init ++ [z]).length - 1) default = z := by
      simp
    have hsize : toUint32 (Max.max (z.offset + z.size) (chunk.offset + chunk.size) + uint32Modulus -
        chunk.offset) = (mergedChunk (init ++ [z]) chunk).size := by
      have hm := mergedChunk_end_concat init z chunk
      have hb := h.bounded
      simp only [toUint32, uint32Modulus]
      omega
    have hchunk : (⟨chunk.offset, (mergedChunk (init ++ [z]) chunk).size⟩ : Chunk) =
        mergedChunk (init ++ [z]) chunk := by
      rw [← mergedChunk_offset (init ++ [z]) chunk]
    have hne : a.length ≠ a.length + (init ++ [z]).length := by simp
    unfold chunksCombineNext
    simp only [hdrop, hcount, if_pos hne, hlast]
    rw [hze, hce, hsize, hchunk]
    cases init with
    | nil => simp [chunksEraseRange]
    | cons first init => simp [chunksEraseRange, List.take_append, List.take_of_length_le]

end Merge

/-! ## Backward merge -/

/-- The previous chunk, extended to the end of the new one where that is further. -/
def extendedChunk (prev chunk : Chunk) : Chunk :=
  ⟨prev.offset, max (prev.offset + prev.size) (chunk.offset + chunk.size) - prev.offset⟩

theorem extendedChunk_end (prev chunk : Chunk) :
    prev.offset + (extendedChunk prev chunk).size =
      max (prev.offset + prev.size) (chunk.offset + chunk.size) := by
  simp only [extendedChunk]
  omega

theorem combinePrevious_first (cl : ChunkList) (chunk : Chunk) :
    chunksCombinePrevious cl 0 chunk = (false, cl) := rfl

theorem combinePrevious_concat {a r : List Chunk} {prev chunk : Chunk} (max : Nat)
    (hp : prev.offset + prev.size < 2 ^ 32) (hc : chunk.offset + chunk.size < 2 ^ 32) :
    chunksCombinePrevious ⟨max, a ++ prev :: r⟩ (a.length + 1) chunk =
      if chunk.offset ≤ prev.offset + prev.size
      then (true, ⟨max, a ++ extendedChunk prev chunk :: r⟩)
      else (false, ⟨max, a ++ prev :: r⟩) := by
  have hpe : prev.endOff = prev.offset + prev.size := toUint32_of_lt hp
  have hce : chunk.endOff = chunk.offset + chunk.size := toUint32_of_lt hc
  have hget : (a ++ prev :: r).getD (a.length + 1 - 1) default = prev := by simp
  unfold chunksCombinePrevious
  rw [if_pos (Nat.succ_pos _)]
  simp only [hget, hpe, hce]
  split
  · split
    · rename_i hlt
      have hsize : toUint32 (chunk.offset + chunk.size + uint32Modulus - prev.offset) =
          (extendedChunk prev chunk).size := by
        simp only [toUint32, uint32Modulus, extendedChunk]
        omega
      rw [hsize]
      simp [extendedChunk]
    · rename_i hge
      have hsame : extendedChunk prev chunk = prev := by
        have := extendedChunk_end prev chunk
        rw [max_eq_left (not_lt.mp hge)] at this
        obtain ⟨off, size⟩ := prev
        simp only [extendedChunk, Chunk.mk.injEq, true_and] at this ⊢
        omega
      rw [hsame]
  · rfl

/-- `CF_Chunks_CombinePrevious` on the chunk behind the prefix `a`: it extends
the last chunk of `a` where the two touch, and otherwise changes nothing. -/
theorem combinePrevious_cases {a r : List Chunk} {chunk : Chunk} (max : Nat) (ha : Canonical a)
    (hc : chunk.offset + chunk.size < 2 ^ 32) :
    (∃ a' prev, a = a' ++ [prev] ∧ chunk.offset ≤ prev.offset + prev.size ∧
      chunksCombinePrevious ⟨max, a ++ r⟩ a.length chunk =
        (true, ⟨max, a' ++ extendedChunk prev chunk :: r⟩)) ∨
    ((∀ c ∈ a, c.offset + c.size < chunk.offset) ∧
      chunksCombinePrevious ⟨max, a ++ r⟩ a.length chunk = (false, ⟨max, a ++ r⟩)) := by
  rcases List.eq_nil_or_concat a with rfl | ⟨a', prev, rfl⟩
  · exact Or.inr ⟨by simp, combinePrevious_first _ _⟩
  · rw [List.concat_eq_append] at ha ⊢
    have hp := ha.bounded prev (by simp)
    have heq := combinePrevious_concat (a := a') (r := r) max hp hc
    have hlist : a' ++ [prev] ++ r = a' ++ prev :: r := by simp
    have hlen : (a' ++ [prev]).length = a'.length + 1 := by simp
    rw [hlist, hlen, heq]
    by_cases htouch : chunk.offset ≤ prev.offset + prev.size
    · exact Or.inl ⟨a', prev, rfl, htouch, if_pos htouch⟩
    · refine Or.inr ⟨fun c hmem => ?_, if_neg htouch⟩
      have hlast := ha.separated
      rw [List.map_append, List.map_singleton] at hlast
      have hspan : c.span ∈ (a' ++ [prev]).map Chunk.span := List.mem_map_of_mem hmem
      have := hlast.hi_le_last c.span (by simpa using hspan)
      simp only [Chunk.span_hi] at this
      omega

end Nos3.Cf
