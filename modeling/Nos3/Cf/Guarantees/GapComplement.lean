import Nos3.Base.Transition
import Nos3.Cf.Source.ChunkOperations
import Nos3.Base.Gaps
import Mathlib.Order.CompletePartialOrder

/-!
# Chunk lists over whole runs

A chunk list is driven by additions and removals from the front while the exact
byte set is kept beside it. The list stays in canonical form within its
capacity, never claims a byte that is not in the set, and agrees with the set
up to the first insertion that finds no free slot; that insertion does lose
bytes.
-/
namespace Nos3.Cf
open Nos3.Base.Transition

inductive ChunkOp
  | add (offset size : Nat)
  | removeFromFirst (size : Nat)
  deriving DecidableEq, Repr

/-- A chunk list, the bytes added to it less those removed, and whether some
insertion found the list full. -/
structure TrackedChunks where
  list : ChunkList
  bytes : Set Nat
  overflowed : Bool

/-- The calls the source allows: no empty chunk, no 32-bit overflow, and removal
only where there is a first chunk. -/
def trackedNext (s : TrackedChunks) : ChunkOp → Option TrackedChunks
  | .add offset size =>
    if 0 < size ∧ offset + size < 2 ^ 32 then
      some ⟨chunkListAdd s.list offset size, s.bytes ∪ Set.Ico offset (offset + size),
        s.overflowed || chunkListAddOverflows s.list offset size⟩
    else none
  | .removeFromFirst size =>
    if s.list.count = 0 then none
    else some ⟨chunkListRemoveFromFirst s.list size, s.bytes \ removedFromFirst s.list size,
      s.overflowed⟩

/-- `CF_ChunkListInit` asserts a positive capacity and resets the list. -/
def chunkMachine : Machine TrackedChunks ChunkOp where
  start s := 0 < s.list.maxChunks ∧ s.list = chunkListReset s.list ∧ s.bytes = ∅ ∧
    s.overflowed = false
  next := trackedNext

structure TrackedInv (s : TrackedChunks) : Prop where
  capacity : 0 < s.list.maxChunks
  canonical : Canonical s.list.chunks
  positive : AllPositive s.list.chunks
  room : s.list.count ≤ s.list.maxChunks
  sound : s.list.covered ⊆ s.bytes
  exact : s.overflowed = false → s.list.covered = s.bytes

theorem trackedInv_start (s : TrackedChunks) (h : chunkMachine.start s) : TrackedInv s := by
  obtain ⟨hmax, hreset, hbytes, hflag⟩ := h
  have hnil : s.list.chunks = [] := by
    rw [hreset]
    rfl
  refine ⟨hmax, ?_, ?_, ?_, ?_, ?_⟩
  · rw [hnil]
    exact canonical_nil
  · simp [AllPositive, hnil]
  · simp [ChunkList.count, hnil]
  · simp [ChunkList.covered, hnil]
  · simp [ChunkList.covered, hnil, hbytes]

theorem trackedInv_add {s : TrackedChunks} (h : TrackedInv s) {offset size : Nat}
    (hsize : 0 < size) (hb : offset + size < 2 ^ 32) :
    TrackedInv ⟨chunkListAdd s.list offset size, s.bytes ∪ Set.Ico offset (offset + size),
      s.overflowed || chunkListAddOverflows s.list offset size⟩ := by
  have hmono : s.list.covered ∪ Set.Ico offset (offset + size) ⊆
      s.bytes ∪ Set.Ico offset (offset + size) := Set.union_subset_union_left _ h.sound
  rcases chunkListAdd_cases h.canonical h.capacity hb with ⟨hno, hs⟩ | ⟨hover, ho⟩
  · refine ⟨hs.capacity ▸ h.capacity, hs.canonical, hs.positive h.positive hsize, ?_, ?_, ?_⟩
    · exact (chunkListAdd_count_le h.canonical h.capacity hb h.room).trans_eq hs.capacity.symm
    · exact hs.covers.subset.trans hmono
    · intro hflag
      rw [hno, Bool.or_false] at hflag
      rw [hs.covers, h.exact hflag]
  · refine ⟨ho.capacity ▸ h.capacity, ho.canonical, ho.positive h.positive hsize, ?_, ?_, ?_⟩
    · exact (chunkListAdd_count_le h.canonical h.capacity hb h.room).trans_eq ho.capacity.symm
    · exact ho.covers.trans hmono
    · simp [hover]

theorem trackedInv_remove {s : TrackedChunks} (h : TrackedInv s) (size : Nat)
    (hne : s.list.count ≠ 0) :
    TrackedInv ⟨chunkListRemoveFromFirst s.list size, s.bytes \ removedFromFirst s.list size,
      s.overflowed⟩ := by
  have hr : Removed s.list size (chunkListRemoveFromFirst s.list size) :=
    removeFromFirst_removed h.canonical (List.ne_nil_of_length_pos (Nat.pos_of_ne_zero hne))
  refine ⟨hr.capacity ▸ h.capacity, hr.canonical, hr.positive h.positive, ?_, ?_, ?_⟩
  · rw [hr.capacity]
    exact hr.room.trans h.room
  · rw [hr.covers]
    exact Set.sdiff_subset_sdiff_left h.sound
  · intro hflag
    rw [hr.covers, h.exact hflag]

theorem trackedInv_next (s : TrackedChunks) (op : ChunkOp) (s' : TrackedChunks)
    (h : TrackedInv s) (hn : chunkMachine.next s op = some s') : TrackedInv s' := by
  cases op with
  | add offset size =>
    simp only [chunkMachine, trackedNext] at hn
    split at hn
    · rename_i hok
      cases hn
      exact trackedInv_add h hok.1 hok.2
    · cases hn
  | removeFromFirst size =>
    simp only [chunkMachine, trackedNext] at hn
    split at hn
    · cases hn
    · rename_i hne
      cases hn
      exact trackedInv_remove h size hne

theorem trackedInv_reachable {s : TrackedChunks} (h : chunkMachine.Reachable s) : TrackedInv s :=
  h.invariant trackedInv_start trackedInv_next

theorem offsets_increasing {l : List Chunk} (h : Canonical l) :
    (l.map Chunk.offset).Pairwise (· < ·) := by
  refine List.pairwise_map.mpr ((List.pairwise_map.mp h.separated.apart).imp ?_)
  intro c d hcd
  simp only [Chunk.span_hi, Chunk.span_lo] at hcd
  omega

theorem ends_before_next {l : List Chunk} (h : Canonical l) :
    l.Pairwise fun c d => c.offset + c.size < d.offset := by
  simpa using List.pairwise_map.mp h.separated.apart

/-- Representation and coverage in every reachable state. The last part says why
the equality stops where it does: the insertion that finds the list full is the
one that loses bytes. -/
theorem chunk_list_coverage {s : TrackedChunks} (h : chunkMachine.Reachable s) :
    s.list.count ≤ s.list.maxChunks ∧
    (s.list.chunks.map Chunk.offset).Pairwise (· < ·) ∧
    (∀ c ∈ s.list.chunks, 0 < c.size) ∧
    (s.list.chunks.Pairwise fun c d => c.offset + c.size < d.offset) ∧
    s.list.covered ⊆ s.bytes ∧
    (s.overflowed = false → s.list.covered = s.bytes) ∧
    (∀ offset size s', s.overflowed = false →
      chunkMachine.next s (.add offset size) = some s' → s'.overflowed = true →
      s'.list.covered ⊂ s'.bytes) := by
  have hinv := trackedInv_reachable h
  refine ⟨hinv.room, offsets_increasing hinv.canonical, hinv.positive,
    ends_before_next hinv.canonical, hinv.sound, hinv.exact, ?_⟩
  intro offset size s' hflag hn hover
  have hinv' := trackedInv_next _ _ _ hinv hn
  simp only [chunkMachine, trackedNext] at hn
  split at hn
  · rename_i hok
    cases hn
    simp only [hflag, Bool.false_or] at hover
    rcases chunkListAdd_cases hinv.canonical hinv.capacity hok.2 with ⟨hno, -⟩ | ⟨-, ho⟩
    · rw [hno] at hover
      cases hover
    · refine Set.ssubset_iff_exists.mpr ⟨hinv'.sound, ?_⟩
      obtain ⟨x, hx, hnot⟩ := ho.loses hinv.positive hok.1
      rw [hinv.exact hflag] at hx
      exact ⟨x, hx, hnot⟩
  · cases hn

/-- Two slots: the third separate chunk evicts the smallest one. -/
theorem chunk_list_coverage_two_slots :
    (chunkListAdd (chunkListAdd (chunkListAdd (chunkListInit 2) 0 1) 10 5) 20 5).count ≤ 2 ∧
      (chunkListAdd (chunkListAdd (chunkListAdd (chunkListInit 2) 0 1) 10 5) 20 5).covered ⊆
        ((∅ ∪ Set.Ico 0 (0 + 1)) ∪ Set.Ico 10 (10 + 5)) ∪ Set.Ico 20 (20 + 5) := by
  have hstart : chunkMachine.start ⟨chunkListInit 2, ∅, false⟩ := ⟨by decide, rfl, rfl, rfl⟩
  have hrun : chunkMachine.Reachable ⟨_, _, _⟩ :=
    Machine.run_reaches [.add 0 1, .add 10 5, .add 20 5] (.start hstart) rfl
  have hall := chunk_list_coverage hrun
  exact ⟨hall.1, hall.2.2.2.2.1⟩

end Nos3.Cf

/-!
## The gap walk of CF_ChunkList_ComputeGaps (cf_chunk.c)

The gaps handed to the callback, taken as spans, are those of the walk without
the cut at the end of the file, up to `max_gaps` of them. The value the function
returns is computed beside them, by `ret` alone.
-/
namespace Nos3.Cf
open Nos3.Base.SpanList

/-- `next_off`: the start of the next chunk, or the end of the file. -/
def nextOff (total : Nat) : List Chunk → Nat
  | [] => total
  | next :: _ => next.offset

/-- `ret` in the loop of `CF_ChunkList_ComputeGaps`; it stays below `max_gaps`
before each increment. -/
def computeGapsRetLoop (maxGaps total start : Nat) : List Chunk → Nat → Nat
  | [], ret => ret
  | c :: rest, ret =>
    if ret < maxGaps then
      if c.endOff ≥ total then ret
      else if start < nextOff total rest then
        computeGapsRetLoop maxGaps total start rest (ret + 1)
      else computeGapsRetLoop maxGaps total start rest ret
    else ret

/-- The value `CF_ChunkList_ComputeGaps` returns. -/
def chunkListComputeGapsRet (cl : ChunkList) (maxGaps total start : Nat) : Nat :=
  match cl.chunks with
  | [] => 1
  | first :: _ =>
    computeGapsRetLoop maxGaps total start cl.chunks (if start < first.offset then 1 else 0)

theorem computeGapsLoop_cons (maxGaps total start : Nat) (c : Chunk) (rest : List Chunk)
    (ret : Nat) :
    computeGapsLoop maxGaps total start (c :: rest) ret =
      if ret < maxGaps then
        if c.endOff ≥ total then []
        else if start < nextOff total rest then
          ⟨max start c.endOff,
            toUint32 (nextOff total rest + uint32Modulus - max start c.endOff)⟩ ::
            computeGapsLoop maxGaps total start rest (ret + 1)
        else computeGapsLoop maxGaps total start rest ret
      else [] := by
  have hpick : (if c.endOff > start then c.endOff else start) = max start c.endOff := by
    rw [max_def]
    split_ifs <;> omega
  rw [← hpick]
  cases rest <;> rfl

theorem computeGapsRetLoop_eq (maxGaps total start : Nat) (l : List Chunk) (ret : Nat) :
    computeGapsRetLoop maxGaps total start l ret =
      ret + (computeGapsLoop maxGaps total start l ret).length := by
  induction l generalizing ret with
  | nil => rfl
  | cons c rest ih =>
    rw [computeGapsRetLoop, computeGapsLoop_cons]
    split_ifs
    · rfl
    · rw [ih, List.length_cons]
      omega
    · rw [ih]
    · rfl

/-- The returned value is the number of calls of the callback. -/
theorem chunkListComputeGapsRet_eq (cl : ChunkList) (maxGaps total start : Nat) :
    chunkListComputeGapsRet cl maxGaps total start =
      (chunkListComputeGaps cl maxGaps total start).length := by
  unfold chunkListComputeGapsRet chunkListComputeGaps
  cases cl.chunks with
  | nil => rfl
  | cons first rest =>
    simp only [computeGapsRetLoop_eq]
    split_ifs with h
    · rw [List.length_cons]
      omega
    · omega

theorem Canonical.solid {l : List Chunk} (h : Canonical l) (hpos : AllPositive l) :
    Solid (l.map Chunk.span) := by
  refine ⟨fun s hs => ?_, h.separated.apart⟩
  obtain ⟨c, hc, rfl⟩ := List.mem_map.mp hs
  have := hpos c hc
  simp only [Chunk.span_lo, Chunk.span_hi]
  omega

theorem Canonical.endOff_eq {l : List Chunk} (h : Canonical l) {c : Chunk} (hc : c ∈ l) :
    c.endOff = c.offset + c.size := toUint32_of_lt (h.bounded c hc)

/-- A gap the loop reports, as a span. -/
theorem reported_span {offset stop : Nat} (hle : offset ≤ stop) (hstop : stop < 2 ^ 32) :
    (⟨offset, toUint32 (stop + uint32Modulus - offset)⟩ : Chunk).span = ⟨offset, stop⟩ := by
  have hsize : toUint32 (stop + uint32Modulus - offset) = stop - offset := by
    rw [show stop + uint32Modulus - offset = (stop - offset) + uint32Modulus by omega, toUint32,
      Nat.add_mod_right]
    exact toUint32_of_lt (by omega)
  rw [Chunk.span, hsize]
  exact congrArg (Span.mk offset) (Nat.add_sub_cancel' hle)

theorem computeGapsLoop_spans {c : Chunk} {rest : List Chunk} (h : Canonical (c :: rest))
    {maxGaps total start : Nat} (hwindow : start < total) (htotal : total < 2 ^ 32) (ret : Nat) :
    (computeGapsLoop maxGaps total start (c :: rest) ret).map Chunk.span =
      (openGaps total (rest.map Chunk.span) (max start (c.offset + c.size))).take
        (maxGaps - ret) := by
  induction rest generalizing c ret with
  | nil =>
    rw [computeGapsLoop_cons, h.endOff_eq (List.mem_cons_self ..), nextOff, if_pos hwindow]
    by_cases hroom : ret < maxGaps
    · by_cases hend : c.offset + c.size ≥ total
      · rw [if_pos hroom, if_pos hend, openGaps_of_le (le_max_of_le_right hend),
          List.map_nil, List.take_nil]
      · have hlt : max start (c.offset + c.size) < total := max_lt hwindow (not_le.mp hend)
        rw [if_pos hroom, if_neg hend, List.map_cons, List.map_nil, openGaps,
          if_pos hlt, reported_span hlt.le htotal, List.take_of_length_le]
        · rfl
        · rw [List.length_singleton]
          omega
    · rw [if_neg hroom, Nat.sub_eq_zero_of_le (not_lt.mp hroom)]
      rfl
  | cons next rest ih =>
    have happart : c.offset + c.size < next.offset :=
      (canonical_append.mp (show Canonical ([c] ++ next :: rest) from h)).2.2 c (by simp) next
        (by simp)
    have hnext : next.offset < 2 ^ 32 :=
      (Nat.le_add_right _ _).trans_lt (h.bounded next (by simp))
    have htail := ih (h.sublist (List.sublist_cons_self ..))
    rw [computeGapsLoop_cons, h.endOff_eq (List.mem_cons_self ..), nextOff, List.map_cons]
    by_cases hroom : ret < maxGaps
    · by_cases hend : c.offset + c.size ≥ total
      · rw [if_pos hroom, if_pos hend, openGaps_of_le (le_max_of_le_right hend),
          List.map_nil, List.take_nil]
      · have hlt : max start (c.offset + c.size) < total := max_lt hwindow (not_le.mp hend)
        have hcarry : max (max start (c.offset + c.size)) next.span.hi =
            max start (next.offset + next.size) := by
          rw [Chunk.span_hi]
          omega
        rw [if_pos hroom, if_neg hend]
        by_cases hseen : start < next.offset
        · have hbefore : max start (c.offset + c.size) < next.offset := max_lt hseen happart
          rw [if_pos hseen, List.map_cons, htail, reported_span hbefore.le hnext,
            openGaps_before hlt hbefore, hcarry,
            show maxGaps - ret = maxGaps - (ret + 1) + 1 by omega, List.take_succ_cons,
            Chunk.span_lo]
        · have hbehind : next.offset ≤ max start (c.offset + c.size) :=
            (not_lt.mp hseen).trans (le_max_left _ _)
          rw [if_neg hseen, htail, openGaps_behind hlt hbehind, hcarry]
    · rw [if_neg hroom, Nat.sub_eq_zero_of_le (not_lt.mp hroom)]
      rfl

/-- What a list with chunks reports. -/
theorem chunkListComputeGaps_spans {cl : ChunkList} (h : Canonical cl.chunks)
    (hne : cl.chunks ≠ []) {maxGaps total start : Nat} (hgaps : 0 < maxGaps)
    (hwindow : start < total) (htotal : total < 2 ^ 32) :
    (chunkListComputeGaps cl maxGaps total start).map Chunk.span =
      (openGaps total (cl.chunks.map Chunk.span) start).take maxGaps := by
  unfold chunkListComputeGaps
  cases hl : cl.chunks with
  | nil => exact absurd hl hne
  | cons first rest =>
    rw [hl] at h
    have hloop (ret : Nat) :
        (computeGapsLoop maxGaps total start (first :: rest) ret).map Chunk.span = _ :=
      computeGapsLoop_spans h hwindow htotal ret
    simp only [List.map_cons]
    by_cases hfirst : start < first.offset
    · have hspan : (⟨start, first.offset - start⟩ : Chunk).span = ⟨start, first.offset⟩ :=
        congrArg (Span.mk start) (Nat.add_sub_cancel' hfirst.le)
      rw [if_pos hfirst, List.map_cons, hloop, hspan, openGaps_before hwindow hfirst]
      conv_rhs => rw [show maxGaps = maxGaps - 1 + 1 by omega, List.take_succ_cons]
      rfl
    · rw [if_neg hfirst, hloop, openGaps_behind hwindow (not_lt.mp hfirst)]
      rfl

end Nos3.Cf

/-!
## The gaps of a received file

`CF_ChunkList_ComputeGaps` should report the maximal missing intervals of
`[start, total)`. A list without chunks is answered with the whole file whatever
`start` is, and a gap between two chunks is not cut at the end of the file when
the second one lies behind it.
-/
namespace Nos3.Cf
open Nos3.Base.SpanList

/-- The reported intervals are the first `max_gaps` maximal missing ones, in
order, and the returned value is their number. -/
def ReportsGaps (cl : ChunkList) (maxGaps total start : Nat) : Prop :=
  ∃ all : List (Span Nat), (all.Pairwise fun a b => a.hi ≤ b.lo) ∧
    (∀ g, g ∈ all ↔ IsGap cl.covered start total g) ∧
    (chunkListComputeGaps cl maxGaps total start).map Chunk.span = all.take maxGaps ∧
    chunkListComputeGapsRet cl maxGaps total start = (all.take maxGaps).length

/-- The last byte of the file and the byte behind it are missing, and a chunk lies
further behind. -/
def EndsInsideGap (cl : ChunkList) (total : Nat) : Prop :=
  total - 1 ∉ cl.covered ∧ total ∉ cl.covered ∧ ∃ c ∈ cl.chunks, total < c.offset

/-- The missing intervals of `[start, total)`, from left to right. -/
def missing (cl : ChunkList) (total start : Nat) : List (Span Nat) :=
  gaps total (cl.chunks.map Chunk.span) start

theorem endsInsideGap_iff {cl : ChunkList} {total start : Nat} (hwindow : start < total) :
    EndsInsideGap cl total ↔ RunsOver total (cl.chunks.map Chunk.span) start := by
  constructor
  · rintro ⟨hlast, hbehind, c, hc, hlt⟩
    refine ⟨⟨total - 1, by omega, by omega, fun x hlo hhi => ?_⟩, c.span,
      List.mem_map_of_mem hc, hlt⟩
    rcases Nat.lt_or_eq_of_le hhi with hx | rfl
    · rwa [show x = total - 1 by omega]
    · exact hbehind
  · rintro ⟨⟨lo, -, hlo, hfree⟩, s, hs, hlt⟩
    obtain ⟨c, hc, rfl⟩ := List.mem_map.mp hs
    exact ⟨hfree _ (by omega) (by omega), hfree _ hlo.le le_rfl, c, hc, hlt⟩

/-- Any list that meets the description is the one the walk finds. -/
theorem reportsGaps_iff {cl : ChunkList} (h : Canonical cl.chunks) (hpos : AllPositive cl.chunks)
    {maxGaps total start : Nat} :
    ReportsGaps cl maxGaps total start ↔
      (chunkListComputeGaps cl maxGaps total start).map Chunk.span =
        (missing cl total start).take maxGaps := by
  have hmem (g : Span Nat) : g ∈ missing cl total start ↔ IsGap cl.covered start total g :=
    mem_gaps (h.solid hpos)
  constructor
  · rintro ⟨all, hordered, hall, hreported, -⟩
    rw [hreported]
    have heq : all = missing cl total start :=
      eq_of_ordered hordered (gaps_ordered (h.solid hpos) _ _)
        (fun g hg => ((hall g).mp hg).free.nonempty) fun g => (hall g).trans (hmem g).symm
    rw [heq]
  · intro hreported
    refine ⟨_, gaps_ordered (h.solid hpos) _ _, hmem, hreported, ?_⟩
    rw [chunkListComputeGapsRet_eq, ← List.length_map (f := Chunk.span), hreported]
    rfl

/-- Two lists that differ in the last element alone share what is taken from them
exactly while that element is not reached. -/
theorem take_concat_eq_iff {α : Type} {front : List α} {a b : α} (hne : a ≠ b) (n : Nat) :
    (front ++ [a]).take n = (front ++ [b]).take n ↔ n < (front ++ [b]).length := by
  rw [List.length_append, List.length_singleton]
  constructor
  · intro heq
    by_contra hlong
    rw [List.take_of_length_le (by simp; omega), List.take_of_length_le (by simp; omega)] at heq
    exact hne (List.singleton_inj.mp (List.append_cancel_left heq))
  · intro hlt
    rw [List.take_append_of_le_length (by omega), List.take_append_of_le_length (by omega)]

/-- The gaps are reported right unless the list is empty and `start` is not zero,
or the gap at the end of the file runs on to a chunk behind it and is among the
first `max_gaps`. -/
theorem compute_gaps_iff {cl : ChunkList} (h : Canonical cl.chunks)
    (hpos : AllPositive cl.chunks) {maxGaps total start : Nat} (hgaps : 0 < maxGaps)
    (hwindow : start < total) (htotal : total < 2 ^ 32) :
    ReportsGaps cl maxGaps total start ↔
      (cl.chunks = [] → start = 0) ∧
        (EndsInsideGap cl total → maxGaps < (missing cl total start).length) := by
  rw [reportsGaps_iff h hpos]
  by_cases hempty : cl.chunks = []
  · have hcompute : chunkListComputeGaps cl maxGaps total start = [⟨0, total⟩] := by
      rw [chunkListComputeGaps, hempty]
    have hmissing : missing cl total start = [⟨start, total⟩] := by
      rw [missing, hempty, List.map_nil, gaps, if_pos hwindow]
    have hno : ¬EndsInsideGap cl total := by
      rintro ⟨-, -, c, hc, -⟩
      rw [hempty] at hc
      exact absurd hc List.not_mem_nil
    rw [hcompute, hmissing, List.take_of_length_le hgaps]
    constructor
    · intro heq
      refine ⟨fun _ => ?_, fun hends => absurd hends hno⟩
      exact (congrArg Span.lo (List.singleton_inj.mp heq)).symm
    · rintro ⟨hzero, -⟩
      rw [hzero hempty]
      exact congrArg (fun n => [Span.mk 0 n]) (Nat.zero_add total)
  · rw [chunkListComputeGaps_spans h hempty hgaps hwindow htotal, endsInsideGap_iff hwindow,
      missing]
    rcases openGaps_cases (h.solid hpos) start total with
      ⟨hno, heq⟩ | ⟨hruns, front, lo, hi, hhi, hcut, hopen⟩
    · rw [heq]
      simp [hempty, hno]
    · have hne : (⟨lo, hi⟩ : Span Nat) ≠ ⟨lo, total⟩ := by
        intro heq
        exact absurd (congrArg Span.hi heq) (Nat.ne_of_gt hhi)
      rw [hcut, hopen, take_concat_eq_iff hne]
      simp [hempty, hruns]

/-- A file of eight bytes of which `[2, 5)` arrived. -/
theorem compute_gaps_middle : ReportsGaps ⟨4, [⟨2, 3⟩]⟩ 2 8 0 := by
  refine (compute_gaps_iff (canonical_singleton (by decide)) (by simp [AllPositive]) (by decide)
    (by decide) (by decide)).mpr ⟨by simp, ?_⟩
  rintro ⟨-, -, c, hc, hlt⟩
  simp only [List.mem_singleton] at hc
  subst hc
  exact absurd hlt (by decide)

/-- A stray chunk behind a file of eight bytes: the whole file is missing, and the
interval reported ends two bytes behind it. -/
theorem stray_chunk_widens_gap :
    Canonical [⟨10, 5⟩] ∧ AllPositive [⟨10, 5⟩] ∧
      chunkListComputeGaps ⟨4, [⟨10, 5⟩]⟩ 1 8 0 = [⟨0, 10⟩] ∧
      ¬ReportsGaps ⟨4, [⟨10, 5⟩]⟩ 1 8 0 := by
  refine ⟨canonical_singleton (by decide), by simp [AllPositive], by decide, ?_⟩
  rintro ⟨all, -, hall, hreported, -⟩
  have hmem : (⟨0, 10⟩ : Span Nat) ∈ all := by
    refine List.mem_of_mem_take (i := 1) ?_
    rw [← hreported]
    decide
  exact absurd ((hall _).mp hmem).free.below (by decide)

end Nos3.Cf
