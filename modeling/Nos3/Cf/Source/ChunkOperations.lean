import Nos3.Cf.Source.Chunk

/-!
# What one insertion or removal does to a canonical chunk list

`CF_ChunkListAdd` either accounts for the new chunk completely (`Stored`) or, on
a full list that nothing touches, gives up bytes (`Overflowed`).
-/
namespace Nos3.Cf
open Nos3.Base.SpanList

theorem eraseChunk_at (max : Nat) (a b : List Chunk) (c : Chunk) :
    chunksEraseChunk ⟨max, a ++ c :: b⟩ a.length = ⟨max, a ++ b⟩ := by
  simp [chunksEraseChunk, List.drop_append]

theorem insertChunk_at (max : Nat) (a b : List Chunk) (c : Chunk) :
    chunksInsertChunk ⟨max, a ++ b⟩ a.length c = ⟨max, a ++ c :: b⟩ := by
  simp [chunksInsertChunk]

section Insert
variable {a m b : List Chunk} {prev chunk : Chunk}

/-- The three ways a chunk goes in: the chunk before it grows over it and the
block, it takes the place of the block (or of nothing, while there is room), or
the list is full and nothing touches it. -/
theorem insert_cases (h : Split a m b chunk) (max : Nat)
    (hcount : countCombined chunk.endOff (m ++ b) = m.length) :
    (∃ a' prev, a = a' ++ [prev] ∧ chunk.offset ≤ prev.offset + prev.size ∧
      chunksInsert ⟨max, a ++ m ++ b⟩ a.length chunk =
        ⟨max, a' ++ extendedChunk prev (mergedChunk m chunk) :: b⟩) ∨
    ((∀ c ∈ a, c.offset + c.size < chunk.offset) ∧ (m ≠ [] ∨ (a ++ m ++ b).length < max) ∧
      chunksInsert ⟨max, a ++ m ++ b⟩ a.length chunk = ⟨max, a ++ mergedChunk m chunk :: b⟩) ∨
    ((∀ c ∈ a, c.offset + c.size < chunk.offset) ∧ m = [] ∧ max ≤ (a ++ b).length ∧
      chunksInsert ⟨max, a ++ m ++ b⟩ a.length chunk =
        chunksReplaceSmallest ⟨max, a ++ b⟩ chunk) := by
  have ha : Canonical a := (canonical_append.mp (canonical_append.mp h.canonical).1).1
  have hnext := combineNext_eq h max hcount
  unfold chunksInsert
  rw [hnext]
  cases m with
  | nil =>
    simp only [List.isEmpty_nil, Bool.not_true, ↓reduceIte, List.append_nil]
    rcases combinePrevious_cases (r := b) max ha h.bounded with
      ⟨a', prev, rfl, htouch, heq⟩ | ⟨hapart, heq⟩
    · rw [heq]
      exact Or.inl ⟨a', prev, rfl, htouch, rfl⟩
    · rw [heq]
      by_cases hroom : (a ++ b).length < max
      · refine Or.inr (Or.inl ⟨hapart, Or.inr hroom, ?_⟩)
        have hcnt : (⟨max, a ++ b⟩ : ChunkList).count < max := hroom
        simp only [if_pos hcnt]
        exact insertChunk_at max a b chunk
      · have hcnt : ¬(⟨max, a ++ b⟩ : ChunkList).count < max := hroom
        refine Or.inr (Or.inr ⟨hapart, trivial, not_lt.mp hroom, ?_⟩)
        simp only [if_neg hcnt]
  | cons c m =>
    have hmc : mergedChunk (c :: m) chunk = ⟨chunk.offset, (mergedChunk (c :: m) chunk).size⟩ := by
      rw [← mergedChunk_offset (c :: m) chunk]
    have hget : (a ++ [mergedChunk (c :: m) chunk] ++ b).getD a.length default =
        mergedChunk (c :: m) chunk := by simp
    have hlist : a ++ [mergedChunk (c :: m) chunk] ++ b =
        a ++ mergedChunk (c :: m) chunk :: b := by simp
    simp only [List.isEmpty_cons, Bool.not_false, Bool.false_eq_true, ↓reduceIte, hget]
    rw [hlist]
    have hbounded : (mergedChunk (c :: m) chunk).offset + (mergedChunk (c :: m) chunk).size <
        2 ^ 32 := by
      simpa using h.merged_bounded
    rcases combinePrevious_cases (r := mergedChunk (c :: m) chunk :: b) max ha hbounded with
      ⟨a', prev, rfl, htouch, heq⟩ | ⟨hapart, heq⟩
    · rw [heq]
      refine Or.inl ⟨a', prev, rfl, by simpa using htouch, ?_⟩
      have herase := eraseChunk_at max (a' ++ [extendedChunk prev (mergedChunk (c :: m) chunk)])
        b (mergedChunk (c :: m) chunk)
      simpa using herase
    · rw [heq]
      exact Or.inr (Or.inl ⟨by simpa using hapart, Or.inl (by simp), rfl⟩)

theorem Split.merged_canonical (h : Split a m b chunk)
    (hapart : ∀ c ∈ a, c.offset + c.size < chunk.offset) :
    Canonical (a ++ mergedChunk m chunk :: b) :=
  h.canonical.replace_block (by simpa using h.merged_bounded) (by simpa using hapart)
    (by simpa using h.merged_before)

theorem Split.merged_covers (h : Split a m b chunk) :
    bytesOf (a ++ mergedChunk m chunk :: b) =
      bytesOf (a ++ m ++ b) ∪ Set.Ico chunk.offset (chunk.offset + chunk.size) := by
  simp only [bytesOf_append, bytesOf_cons, mergedChunk_offset, h.merged_bytes]
  ext x
  simp only [Set.mem_union]
  tauto

theorem Split.extended_canonical (h : Split (a ++ [prev]) m b chunk) :
    Canonical (a ++ extendedChunk prev (mergedChunk m chunk) :: b) := by
  have hcan : Canonical (a ++ ([prev] ++ m) ++ b) := by simpa using h.canonical
  have hp := h.canonical.bounded prev (by simp)
  have hend := extendedChunk_end prev (mergedChunk m chunk)
  rw [mergedChunk_offset] at hend
  refine hcan.replace_block ?_ (fun x hx => ?_) fun x hx => ?_
  · have := h.merged_bounded
    simp only [extendedChunk] at hend ⊢
    omega
  · exact (canonical_append.mp (canonical_append.mp (canonical_append.mp h.canonical).1).1).2.2
      x hx prev (by simp)
  · have hprev := (canonical_append.mp h.canonical).2.2 prev (by simp) x hx
    have hmerged := h.merged_before x hx
    simp only [extendedChunk] at hend ⊢
    omega

theorem Split.extended_covers (h : Split (a ++ [prev]) m b chunk)
    (htouch : chunk.offset ≤ prev.offset + prev.size) :
    bytesOf (a ++ extendedChunk prev (mergedChunk m chunk) :: b) =
      bytesOf (a ++ [prev] ++ m ++ b) ∪ Set.Ico chunk.offset (chunk.offset + chunk.size) := by
  have hlow : prev.offset ≤ chunk.offset := (h.below prev (by simp)).le
  have hgrow : _ ∪ Set.Ico chunk.offset (chunk.offset + (mergedChunk m chunk).size) = _ :=
    union_touching hlow htouch
  have hend := extendedChunk_end prev (mergedChunk m chunk)
  rw [mergedChunk_offset] at hend
  rw [← hend, h.merged_bytes] at hgrow
  simp only [bytesOf_append, bytesOf_cons, bytesOf_nil, Set.union_empty]
  have hoff : (extendedChunk prev (mergedChunk m chunk)).offset = prev.offset := rfl
  rw [hoff, ← hgrow]
  ext x
  simp only [Set.mem_union]
  tauto

end Insert

/-! ## Replacing the smallest chunk of a full list -/

theorem findSmallestLoop_lt (chunks : List Chunk) :
    ∀ (l : List Chunk) (i smallest : Nat), i + l.length ≤ chunks.length →
      smallest < chunks.length → findSmallestLoop chunks l i smallest < chunks.length
  | [], _, _, _, h => h
  | c :: rest, i, smallest, hi, h => by
    simp only [List.length_cons] at hi
    simp only [findSmallestLoop]
    split
    · exact findSmallestLoop_lt chunks rest _ _ (by omega) (by omega)
    · exact findSmallestLoop_lt chunks rest _ _ (by omega) h

theorem findSmallest_lt {cl : ChunkList} (h : cl.chunks ≠ []) :
    chunksFindSmallestSize cl < cl.chunks.length := by
  have hpos := List.length_pos_of_ne_nil h
  exact findSmallestLoop_lt cl.chunks _ _ _ (by simp; omega) hpos

/-- In a full list with nothing to merge, either the new chunk is dropped or it
takes its ordered place after one other chunk was erased. -/
theorem replaceSmallest_cases {l : List Chunk} (h : Canonical l) (hne : l ≠ []) (max : Nat)
    (chunk : Chunk) :
    chunksReplaceSmallest ⟨max, l⟩ chunk = ⟨max, l⟩ ∨
    ∃ u victim v a b, l = u ++ victim :: v ∧ u ++ v = a ++ b ∧
      (∀ c ∈ a, c.offset < chunk.offset) ∧ (∀ c ∈ b, chunk.offset ≤ c.offset) ∧
      victim.size < chunk.size ∧
      chunksReplaceSmallest ⟨max, l⟩ chunk = ⟨max, a ++ chunk :: b⟩ := by
  have hlt : chunksFindSmallestSize ⟨max, l⟩ < l.length := findSmallest_lt hne
  unfold chunksReplaceSmallest
  set s := chunksFindSmallestSize ⟨max, l⟩
  by_cases hsize : (l.getD s default).size < chunk.size
  · refine Or.inr ?_
    simp only [if_pos hsize]
    have hsplit : l = l.take s ++ l.getD s default :: l.drop (s + 1) := by
      rw [List.getD_eq_getElem _ _ hlt]
      simp
    have hcan : Canonical (l.take s ++ l.drop (s + 1)) := by
      refine h.sublist ?_
      conv_rhs => rw [hsplit]
      exact List.Sublist.append_left (List.sublist_cons_self _ _) _
    obtain ⟨a, b, hab, hpos, hlo, hhi⟩ :=
      findInsertPosition_split
        (show Canonical (⟨max, l.take s ++ l.drop (s + 1)⟩ : ChunkList).chunks from hcan) chunk
    have herased : l.take s ++ l.drop (s + 1) = a ++ b := hab
    refine ⟨l.take s, l.getD s default, l.drop (s + 1), a, b, hsplit, herased, hlo, hhi, hsize, ?_⟩
    simp only [chunksEraseChunk]
    rw [hpos, herased, insertChunk_at]
  · exact Or.inl (by simp only [if_neg hsize])

/-! ## The operations on a canonical list -/

/-- The new chunk overlaps or touches a chunk of the list: one of the two
merges of `CF_Chunks_Insert` reports success. -/
def chunkListAddMerges (cl : ChunkList) (offset size : Nat) : Bool :=
  let i := chunksFindInsertPosition cl ⟨offset, size⟩
  (chunksCombineNext cl i ⟨offset, size⟩).1 || (chunksCombinePrevious cl i ⟨offset, size⟩).1

/-- An insertion, not a merge, into a list without a free slot. -/
def chunkListAddOverflows (cl : ChunkList) (offset size : Nat) : Bool :=
  decide (cl.maxChunks ≤ cl.count) && !chunkListAddMerges cl offset size

def AllPositive (chunks : List Chunk) : Prop := ∀ c ∈ chunks, 0 < c.size

/-- The new chunk is fully accounted for. -/
structure Stored (old : ChunkList) (chunk : Chunk) (new : ChunkList) : Prop where
  capacity : new.maxChunks = old.maxChunks
  canonical : Canonical new.chunks
  covers : new.covered = old.covered ∪ Set.Ico chunk.offset (chunk.offset + chunk.size)
  room : new.count ≤ old.count ∨ old.count < old.maxChunks ∧ new.count = old.count + 1
  positive : AllPositive old.chunks → 0 < chunk.size → AllPositive new.chunks

/-- The list was full: some bytes are given up, none are invented. -/
structure Overflowed (old : ChunkList) (chunk : Chunk) (new : ChunkList) : Prop where
  capacity : new.maxChunks = old.maxChunks
  canonical : Canonical new.chunks
  covers : new.covered ⊆ old.covered ∪ Set.Ico chunk.offset (chunk.offset + chunk.size)
  room : new.count = old.count
  positive : AllPositive old.chunks → 0 < chunk.size → AllPositive new.chunks
  loses : AllPositive old.chunks → 0 < chunk.size →
    ∃ x ∈ old.covered ∪ Set.Ico chunk.offset (chunk.offset + chunk.size), x ∉ new.covered

section Operations
variable {a b m : List Chunk} {prev chunk : Chunk} {max : Nat}

theorem mem_bytesOf {l : List Chunk} {x : Nat} :
    x ∈ bytesOf l ↔ ∃ c ∈ l, c.offset ≤ x ∧ x < c.offset + c.size := by
  simp [bytesOf]

theorem bytesOf_mono {l l' : List Chunk} (h : l ⊆ l') : bytesOf l ⊆ bytesOf l' :=
  cover_mono (List.map_subset _ h)

theorem stored_extended (h : Split (a ++ [prev]) m b chunk)
    (htouch : chunk.offset ≤ prev.offset + prev.size) :
    Stored ⟨max, a ++ [prev] ++ m ++ b⟩ chunk
      ⟨max, a ++ extendedChunk prev (mergedChunk m chunk) :: b⟩ where
  capacity := rfl
  canonical := h.extended_canonical
  covers := h.extended_covers htouch
  room := Or.inl (by simp [ChunkList.count])
  positive hold hnew := by
    have hprev := hold prev (by simp)
    have hend := extendedChunk_end prev (mergedChunk m chunk)
    intro c hc
    rcases List.mem_append.mp hc with hc | hc
    · exact hold c (by simp [hc])
    · rcases List.mem_cons.mp hc with rfl | hc
      · omega
      · exact hold c (by simp [hc])

theorem stored_merged (h : Split a m b chunk) (hapart : ∀ c ∈ a, c.offset + c.size < chunk.offset)
    (hroom : m ≠ [] ∨ (a ++ m ++ b).length < max) :
    Stored ⟨max, a ++ m ++ b⟩ chunk ⟨max, a ++ mergedChunk m chunk :: b⟩ where
  capacity := rfl
  canonical := h.merged_canonical hapart
  covers := h.merged_covers
  room := by
    rcases Nat.eq_zero_or_pos m.length with hz | hpos
    · have hm : m = [] := List.eq_nil_of_length_eq_zero hz
      subst hm
      refine Or.inr ⟨by simpa [ChunkList.count] using hroom, ?_⟩
      simp [ChunkList.count]
      omega
    · left
      simp [ChunkList.count]
      omega
  positive hold hnew := by
    have hsize := h.size_le_merged
    intro c hc
    rcases List.mem_append.mp hc with hc | hc
    · exact hold c (by simp [hc])
    · rcases List.mem_cons.mp hc with rfl | hc
      · omega
      · exact hold c (by simp [hc])

theorem Split.apart_of_nil (h : Split a [] b chunk)
    (hapart : ∀ c ∈ a, c.offset + c.size < chunk.offset) :
    ∀ c ∈ a ++ b, c.offset + c.size < chunk.offset ∨ chunk.offset + chunk.size < c.offset := by
  intro c hc
  rcases List.mem_append.mp hc with hc | hc
  · exact Or.inl (hapart c hc)
  · exact Or.inr (h.above c hc)

theorem overflowed_dropped (h : Split a [] b chunk)
    (hapart : ∀ c ∈ a, c.offset + c.size < chunk.offset) :
    Overflowed ⟨max, a ++ b⟩ chunk ⟨max, a ++ b⟩ where
  capacity := rfl
  canonical := by simpa using h.canonical
  covers := Set.subset_union_left
  room := rfl
  positive hold _ := hold
  loses _ hnew := by
    refine ⟨chunk.offset, Or.inr ⟨le_rfl, by omega⟩, fun hx => ?_⟩
    obtain ⟨c, hc, hlo, hhi⟩ := mem_bytesOf.mp hx
    rcases h.apart_of_nil hapart c hc with h1 | h1 <;> omega

/-- The victim's first byte is the one given up: every other chunk keeps clear
of the victim. -/
theorem overflowed_replaced {u v a' b' : List Chunk} {victim : Chunk} (h : Split a [] b chunk)
    (hapart : ∀ c ∈ a, c.offset + c.size < chunk.offset) (hold : a ++ b = u ++ victim :: v)
    (hnew : u ++ v = a' ++ b') (hlo : ∀ c ∈ a', c.offset < chunk.offset)
    (hhi : ∀ c ∈ b', chunk.offset ≤ c.offset) :
    Overflowed ⟨max, a ++ b⟩ chunk ⟨max, a' ++ chunk :: b'⟩ := by
  have hcan : Canonical (u ++ victim :: v) := by
    have := h.canonical
    simpa [← hold] using this
  have hsub : (a' ++ b').Sublist (u ++ victim :: v) := by
    rw [← hnew]
    exact List.Sublist.append_left (List.sublist_cons_self _ _) _
  have hmem : ∀ c ∈ a' ++ b', c ∈ a ++ b := fun c hc => by
    rw [hold]
    exact hsub.subset hc
  have hapart' := h.apart_of_nil hapart
  refine ⟨rfl, ?_, ?_, ?_, fun hpos hsize => ?_, fun hpos hsize => ?_⟩
  · refine Canonical.replace_block (m := []) (by simpa using hcan.sublist hsub) h.bounded
      (fun x hx => ?_) fun x hx => ?_
    · have := hlo x hx
      rcases hapart' x (hmem x (by simp [hx])) with h1 | h1 <;> omega
    · have := hhi x hx
      rcases hapart' x (hmem x (by simp [hx])) with h1 | h1 <;> omega
  · intro x hx
    simp only [ChunkList.covered, bytesOf_append, bytesOf_cons] at hx
    have hkeep : bytesOf (a' ++ b') ⊆ bytesOf (a ++ b) := bytesOf_mono hmem
    rw [bytesOf_append] at hkeep
    rcases hx with hx | hx | hx
    · exact Or.inl (hkeep (Or.inl hx))
    · exact Or.inr hx
    · exact Or.inl (hkeep (Or.inr hx))
  · have h1 := congrArg List.length hold
    have h2 := congrArg List.length hnew
    simp only [List.length_append, List.length_cons] at h1 h2
    simp only [ChunkList.count, List.length_append, List.length_cons]
    omega
  · intro c hc
    rcases List.mem_append.mp hc with hc | hc
    · exact hpos c (hmem c (by simp [hc]))
    · rcases List.mem_cons.mp hc with rfl | hc
      · exact hsize
      · exact hpos c (hmem c (by simp [hc]))
  · have hv : victim ∈ a ++ b := by simp [hold]
    have hvpos := hpos victim hv
    refine ⟨victim.offset, Or.inl (mem_bytesOf.mpr ⟨victim, hv, le_rfl, by omega⟩), fun hx => ?_⟩
    obtain ⟨c, hc, hclo, hchi⟩ := mem_bytesOf.mp hx
    have hc' : c = chunk ∨ c ∈ u ++ v := by
      rw [hnew]
      simp only [List.mem_append, List.mem_cons] at hc ⊢
      tauto
    rcases hc' with rfl | hc'
    · rcases hapart' victim hv with h1 | h1 <;> omega
    · obtain ⟨-, hvv, hux⟩ := canonical_append.mp hcan
      rcases List.mem_append.mp hc' with hu | hv'
      · have := hux c hu victim (by simp)
        omega
      · have := (canonical_append (l := [victim]).mp hvv).2.2 victim (by simp) c hv'
        omega

end Operations

theorem chunkListAdd_cases {cl : ChunkList} {offset size : Nat} (h : Canonical cl.chunks)
    (hmax : 0 < cl.maxChunks) (hb : offset + size < 2 ^ 32) :
    (chunkListAddOverflows cl offset size = false ∧
      Stored cl ⟨offset, size⟩ (chunkListAdd cl offset size)) ∨
    (chunkListAddOverflows cl offset size = true ∧
      Overflowed cl ⟨offset, size⟩ (chunkListAdd cl offset size)) := by
  obtain ⟨max, chunks⟩ := cl
  obtain ⟨a, m, b, hl, hsplit, hpos, hcount⟩ :=
    Split.of_position (show Canonical (⟨max, chunks⟩ : ChunkList).chunks from h)
      (show (⟨offset, size⟩ : Chunk).offset + (⟨offset, size⟩ : Chunk).size < 2 ^ 32 from hb)
  simp only at hl
  subst hl
  have hnext := combineNext_eq hsplit max hcount
  have ha : Canonical a := (canonical_append.mp (canonical_append.mp h).1).1
  have hprevious := combinePrevious_cases (r := m ++ b) max ha hsplit.bounded
  rw [← List.append_assoc] at hprevious
  unfold chunkListAddOverflows chunkListAddMerges chunkListAdd
  simp only [hpos, hnext]
  rcases insert_cases hsplit max hcount with
    ⟨a', prev, rfl, htouch, heq⟩ | ⟨hapart, hroom, heq⟩ | ⟨hapart, rfl, hfull, heq⟩
  · left
    rw [heq]
    refine ⟨?_, stored_extended hsplit htouch⟩
    rcases hprevious with ⟨_, _, _, _, hp⟩ | ⟨hp, -⟩
    · rw [hp]
      simp only [Bool.or_true, Bool.not_true, Bool.and_false]
    · exact absurd htouch (not_le.mpr (hp prev (by simp)))
  · left
    rw [heq]
    refine ⟨?_, stored_merged hsplit hapart hroom⟩
    rcases hroom with hm | hroom
    · simp [List.isEmpty_eq_false_iff.mpr hm]
    · have hfree : ¬max ≤ (⟨max, a ++ m ++ b⟩ : ChunkList).count := not_le.mpr hroom
      simp only [decide_eq_false hfree, Bool.false_and]
  · right
    rw [heq]
    have hfull' : max ≤ (⟨max, a ++ [] ++ b⟩ : ChunkList).count := by
      simpa [ChunkList.count] using hfull
    refine ⟨?_, ?_⟩
    · rcases hprevious with ⟨a', prev, ha', htouch, -⟩ | ⟨-, hp⟩
      · exact absurd htouch (not_le.mpr (hapart prev (by simp [ha'])))
      · rw [hp, decide_eq_true hfull']
        rfl
    · have hne : a ++ b ≠ [] := by
        rintro hnil
        rw [hnil] at hfull
        exact absurd hmax (not_lt.mpr hfull)
      have hcan : Canonical (a ++ b) := by simpa using h
      rw [List.append_nil]
      rcases replaceSmallest_cases hcan hne max ⟨offset, size⟩ with
        hsame | ⟨u, victim, v, a', b', hold, hnew, hlo, hhi, -, hrep⟩
      · rw [hsame]
        exact overflowed_dropped hsplit hapart
      · rw [hrep]
        exact overflowed_replaced hsplit hapart hold hnew hlo hhi

theorem chunkListAdd_canonical {cl : ChunkList} {offset size : Nat} (h : Canonical cl.chunks)
    (hmax : 0 < cl.maxChunks) (hb : offset + size < 2 ^ 32) :
    Canonical (chunkListAdd cl offset size).chunks := by
  rcases chunkListAdd_cases h hmax hb with ⟨-, hs⟩ | ⟨-, ho⟩
  · exact hs.canonical
  · exact ho.canonical

theorem chunkListAdd_covered {cl : ChunkList} {offset size : Nat} (h : Canonical cl.chunks)
    (hmax : 0 < cl.maxChunks) (hb : offset + size < 2 ^ 32) :
    (chunkListAdd cl offset size).covered ⊆ cl.covered ∪ Set.Ico offset (offset + size) := by
  rcases chunkListAdd_cases h hmax hb with ⟨-, hs⟩ | ⟨-, ho⟩
  · exact hs.covers.subset
  · exact ho.covers

theorem chunkListAdd_maxChunks {cl : ChunkList} {offset size : Nat} (h : Canonical cl.chunks)
    (hmax : 0 < cl.maxChunks) (hb : offset + size < 2 ^ 32) :
    (chunkListAdd cl offset size).maxChunks = cl.maxChunks := by
  rcases chunkListAdd_cases h hmax hb with ⟨-, hs⟩ | ⟨-, ho⟩
  · exact hs.capacity
  · exact ho.capacity

theorem chunkListAdd_count_le {cl : ChunkList} {offset size : Nat} (h : Canonical cl.chunks)
    (hmax : 0 < cl.maxChunks) (hb : offset + size < 2 ^ 32) (hcount : cl.count ≤ cl.maxChunks) :
    (chunkListAdd cl offset size).count ≤ cl.maxChunks := by
  rcases chunkListAdd_cases h hmax hb with ⟨-, hs⟩ | ⟨-, ho⟩
  · rcases hs.room with h1 | ⟨h1, h2⟩ <;> omega
  · rw [ho.room]
    exact hcount

/-! ## Removal from the front -/

/-- What `CF_ChunkList_RemoveFromFirst` takes off the first chunk. -/
def removedFromFirst (cl : ChunkList) (size : Nat) : Set Nat :=
  let c := cl.chunks.getD 0 default
  Set.Ico c.offset (c.offset + min size c.size)

structure Removed (old : ChunkList) (size : Nat) (new : ChunkList) : Prop where
  capacity : new.maxChunks = old.maxChunks
  canonical : Canonical new.chunks
  covers : new.covered = old.covered \ removedFromFirst old size
  room : new.count ≤ old.count
  positive : AllPositive old.chunks → AllPositive new.chunks

theorem removeFromFirst_removed {cl : ChunkList} {size : Nat} (h : Canonical cl.chunks)
    (hne : cl.chunks ≠ []) : Removed cl size (chunkListRemoveFromFirst cl size) := by
  obtain ⟨max, chunks⟩ := cl
  cases chunks with
  | nil => exact absurd rfl hne
  | cons c rest =>
    have hb : c.offset + c.size < 2 ^ 32 := h.bounded c (by simp)
    obtain ⟨-, hrest, hx⟩ := canonical_append (l := [c]).mp h
    have hclear : ∀ x ∈ bytesOf rest, c.offset + c.size < x := by
      intro x hxr
      obtain ⟨d, hd, hlo, -⟩ := mem_bytesOf.mp hxr
      have := hx c (by simp) d hd
      omega
    have htaken : (if size > c.size then c.size else size) = min size c.size := by
      split <;> omega
    unfold chunkListRemoveFromFirst
    simp only [List.getD_cons_zero, htaken]
    split
    · rename_i hz
      refine ⟨rfl, hrest, ?_, by simp [ChunkList.count, chunksEraseChunk], fun hpos d hd => ?_⟩
      · ext x
        simp only [ChunkList.covered, chunksEraseChunk, removedFromFirst, List.take_zero,
          List.nil_append, List.drop_succ_cons, List.drop_zero, bytesOf_cons, List.getD_cons_zero,
          Set.mem_sdiff, Set.mem_union, Set.mem_Ico]
        constructor
        · intro hxr
          exact ⟨Or.inr hxr, by have := hclear x hxr; omega⟩
        · rintro ⟨hxr | hxr, hnot⟩
          · omega
          · exact hxr
      · exact hpos d (List.mem_cons_of_mem _ (by simpa [chunksEraseChunk] using hd))
    · rename_i hnz
      have hoff : toUint32 (c.offset + min size c.size) = c.offset + min size c.size :=
        toUint32_of_lt (by omega)
      simp only [List.set_cons_zero, hoff]
      refine ⟨rfl, ?_, ?_, by simp [ChunkList.count], fun hpos d hd => ?_⟩
      · refine Canonical.replace_block (a := []) (m := [c]) (by simpa using h) (by simp; omega)
          (by simp) (fun d hd => ?_)
        have := hx c (by simp) d hd
        simp only
        omega
      · ext x
        simp only [ChunkList.covered, removedFromFirst, bytesOf_cons, List.getD_cons_zero,
          Set.mem_sdiff, Set.mem_union, Set.mem_Ico]
        constructor
        · rintro (hin | hxr)
          · exact ⟨Or.inl (by omega), by omega⟩
          · exact ⟨Or.inr hxr, by have := hclear x hxr; omega⟩
        · rintro ⟨hin | hxr, hnot⟩
          · exact Or.inl (by omega)
          · exact Or.inr hxr
      · rcases List.mem_cons.mp hd with rfl | hd
        · simp only
          omega
        · exact hpos d (List.mem_cons_of_mem _ hd)

end Nos3.Cf
