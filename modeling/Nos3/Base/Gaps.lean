import Mathlib.Order.Interval.Set.Basic
import Mathlib.Data.Set.Lattice
import Mathlib.Data.List.Basic
import Mathlib.Order.MinMax
import Mathlib.Order.Lattice

/-!
# Lists of separated half-open spans

A finite union of intervals over any linear order, kept as a list. `cover` is
the represented set, `Separated` the canonical form: bounds in order, and each
span ending strictly before the next one starts. The insertion rules (`absorb`,
`replace_block`) are stated for blocks of a list, so that a concrete insertion
algorithm only has to show which block it replaces.
-/
namespace Nos3.Base.SpanList

universe u

structure Span (α : Type u) where
  lo : α
  hi : α
  deriving DecidableEq, Repr

variable {α : Type u} [LinearOrder α]

def Span.toSet (s : Span α) : Set α := Set.Ico s.lo s.hi

def cover (l : List (Span α)) : Set α := {x | ∃ s ∈ l, x ∈ s.toSet}

structure Separated (l : List (Span α)) : Prop where
  ordered : ∀ s ∈ l, s.lo ≤ s.hi
  apart : l.Pairwise fun a b => a.hi < b.lo

@[simp] theorem mem_toSet (s : Span α) (x : α) : x ∈ s.toSet ↔ s.lo ≤ x ∧ x < s.hi := Iff.rfl

@[simp] theorem mem_cover (l : List (Span α)) (x : α) :
    x ∈ cover l ↔ ∃ s ∈ l, s.lo ≤ x ∧ x < s.hi := Iff.rfl

@[simp] theorem cover_nil : cover ([] : List (Span α)) = ∅ := by
  ext x
  simp

@[simp] theorem cover_cons (s : Span α) (l : List (Span α)) :
    cover (s :: l) = s.toSet ∪ cover l := by
  ext x
  simp

@[simp] theorem cover_append (l m : List (Span α)) : cover (l ++ m) = cover l ∪ cover m := by
  ext x
  simp only [mem_cover, List.mem_append, Set.mem_union, or_and_right, exists_or]

theorem cover_mono {l m : List (Span α)} (h : l ⊆ m) : cover l ⊆ cover m := by
  rintro x ⟨s, hs, hx⟩
  exact ⟨s, h hs, hx⟩

@[simp] theorem separated_nil : Separated ([] : List (Span α)) := ⟨by simp, by simp⟩

theorem separated_append {l m : List (Span α)} :
    Separated (l ++ m) ↔
      Separated l ∧ Separated m ∧ ∀ a ∈ l, ∀ b ∈ m, a.hi < b.lo := by
  constructor
  · rintro ⟨ho, ha⟩
    obtain ⟨hl, hm, hx⟩ := List.pairwise_append.mp ha
    exact ⟨⟨fun s hs => ho s (List.mem_append_left _ hs), hl⟩,
      ⟨fun s hs => ho s (List.mem_append_right _ hs), hm⟩, hx⟩
  · rintro ⟨hl, hm, hx⟩
    refine ⟨fun s hs => ?_, List.pairwise_append.mpr ⟨hl.apart, hm.apart, hx⟩⟩
    rcases List.mem_append.mp hs with h | h
    · exact hl.ordered s h
    · exact hm.ordered s h

theorem separated_singleton {s : Span α} (h : s.lo ≤ s.hi) : Separated [s] :=
  ⟨by simpa using h, by simp⟩

theorem Separated.sublist {l m : List (Span α)} (h : Separated m) (hs : l.Sublist m) :
    Separated l :=
  ⟨fun s hmem => h.ordered s (hs.subset hmem), h.apart.sublist hs⟩

/-- In a separated list the last span reaches furthest. -/
theorem Separated.hi_le_last {l : List (Span α)} {z : Span α} (h : Separated (l ++ [z])) :
    ∀ s ∈ l ++ [z], s.hi ≤ z.hi := by
  obtain ⟨-, hz, hx⟩ := separated_append.mp h
  intro s hs
  rcases List.mem_append.mp hs with hl | hl
  · exact (hx s hl z (by simp)).le.trans (hz.ordered z (by simp))
  · rw [List.mem_singleton.mp hl]

/-- A span that starts at or below a whole block and reaches the start of its
last element unites with the block to one interval. -/
theorem absorb {l : List (Span α)} {z : Span α} {lo hi : α} (h : Separated (l ++ [z]))
    (hlo : ∀ s ∈ l ++ [z], lo ≤ s.lo) (hreach : z.lo ≤ hi) :
    Set.Ico lo hi ∪ cover (l ++ [z]) = Set.Ico lo (max z.hi hi) := by
  ext x
  constructor
  · rintro (⟨h1, h2⟩ | ⟨s, hs, h1, h2⟩)
    · exact ⟨h1, h2.trans_le (le_max_right _ _)⟩
    · exact ⟨(hlo s hs).trans h1, (h2.trans_le (h.hi_le_last s hs)).trans_le (le_max_left _ _)⟩
  · rintro ⟨h1, h2⟩
    by_cases hx : x < hi
    · exact Or.inl ⟨h1, hx⟩
    · have hge : hi ≤ x := not_lt.mp hx
      have hlt : x < z.hi := by
        rcases lt_max_iff.mp h2 with h | h
        · exact h
        · exact absurd h hx
      exact Or.inr ⟨z, by simp, hreach.trans hge, hlt⟩

/-- Two overlapping or touching intervals unite to one. -/
theorem union_touching {lo mid stop hi : α} (h1 : lo ≤ mid) (h2 : mid ≤ stop) :
    Set.Ico lo stop ∪ Set.Ico mid hi = Set.Ico lo (max stop hi) := by
  have hsep : Separated ([] ++ [(⟨lo, stop⟩ : Span α)]) := separated_singleton (h1.trans h2)
  ext x
  constructor
  · rintro (⟨ha, hb⟩ | ⟨ha, hb⟩)
    · exact ⟨ha, hb.trans_le (le_max_left _ _)⟩
    · exact ⟨h1.trans ha, hb.trans_le (le_max_right _ _)⟩
  · rintro ⟨ha, hb⟩
    by_cases hx : x < stop
    · exact Or.inl ⟨ha, hx⟩
    · rcases lt_max_iff.mp hb with h | h
      · exact absurd h hx
      · exact Or.inr ⟨h2.trans (not_lt.mp hx), h⟩

end Nos3.Base.SpanList

/-!
## The gaps a list of spans leaves in a window

A gap of `[start, stop)` with respect to a set is a maximal non-empty interval of
the window that misses the set. `gaps` walks a separated list of non-empty spans
from the left, carrying the first point not yet accounted for; `mem_gaps` says
that it finds exactly the gaps. `openGaps` is the same walk without the cut at
`stop`; the two differ in the last gap at most, and `RunsOver` says when.
-/
namespace Nos3.Base.SpanList

universe u

variable {α : Type u} [LinearOrder α]

/-- A non-empty interval of `[start, stop)` that misses `C`. -/
structure FreeSpan (C : Set α) (start stop : α) (g : Span α) : Prop where
  above : start ≤ g.lo
  nonempty : g.lo < g.hi
  below : g.hi ≤ stop
  clear : ∀ x, g.lo ≤ x → x < g.hi → x ∉ C

/-- A free interval that no larger one contains. -/
structure IsGap (C : Set α) (start stop : α) (g : Span α) : Prop where
  free : FreeSpan C start stop g
  maximal : ∀ f, FreeSpan C start stop f → f.lo ≤ g.lo → g.hi ≤ f.hi → f = g

def gaps (stop : α) : List (Span α) → α → List (Span α)
  | [], start => if start < stop then [⟨start, stop⟩] else []
  | s :: rest, start =>
    (if start < min s.lo stop then [⟨start, min s.lo stop⟩] else []) ++
      gaps stop rest (max start s.hi)

/-- The walk of `gaps` with every gap but the last running up to the next span. -/
def openGaps (stop : α) : List (Span α) → α → List (Span α)
  | [], start => if start < stop then [⟨start, stop⟩] else []
  | s :: rest, start =>
    if start < stop then
      (if start < s.lo then [⟨start, s.lo⟩] else []) ++ openGaps stop rest (max start s.hi)
    else []

/-- Some gap that touches `stop` goes on behind it up to a span of the list. -/
def RunsOver (stop : α) (l : List (Span α)) (start : α) : Prop :=
  (∃ lo, start ≤ lo ∧ lo < stop ∧ ∀ x, lo ≤ x → x ≤ stop → x ∉ cover l) ∧
    ∃ s ∈ l, stop < s.lo

/-- The form of the lists `gaps` is used on. -/
structure Solid (l : List (Span α)) : Prop where
  nonempty : ∀ s ∈ l, s.lo < s.hi
  apart : l.Pairwise fun a b => a.hi < b.lo

theorem Solid.tail {s : Span α} {l : List (Span α)} (h : Solid (s :: l)) : Solid l :=
  ⟨fun t ht => h.nonempty t (List.mem_cons_of_mem _ ht), (List.pairwise_cons.mp h.apart).2⟩

theorem Solid.head_nonempty {s : Span α} {l : List (Span α)} (h : Solid (s :: l)) :
    s.lo < s.hi := h.nonempty s (List.mem_cons_self ..)

theorem Solid.head_lt {s : Span α} {l : List (Span α)} (h : Solid (s :: l)) :
    ∀ t ∈ l, s.hi < t.lo := (List.pairwise_cons.mp h.apart).1

/-- Below the first span nothing is covered. -/
theorem Solid.not_covered_below {s : Span α} {l : List (Span α)} (h : Solid (s :: l)) {x : α}
    (hx : x < s.lo) : x ∉ cover (s :: l) := by
  rintro ⟨t, ht, hlo, -⟩
  rcases List.mem_cons.mp ht with rfl | hmem
  · exact absurd hx (not_lt.mpr hlo)
  · exact absurd ((hx.trans h.head_nonempty).trans (h.head_lt t hmem)) (not_lt.mpr hlo)

/-- A free interval lies before the first span or behind it. -/
theorem freeSpan_cons {s : Span α} {l : List (Span α)} (h : Solid (s :: l)) {start stop : α}
    {g : Span α} :
    FreeSpan (cover (s :: l)) start stop g ↔
      (start ≤ g.lo ∧ g.lo < g.hi ∧ g.hi ≤ min s.lo stop) ∨
        FreeSpan (cover l) (max start s.hi) stop g := by
  constructor
  · intro hf
    by_cases hbefore : g.hi ≤ s.lo
    · exact Or.inl ⟨hf.above, hf.nonempty, le_min hbefore hf.below⟩
    · have hbehind : s.hi ≤ g.lo := by
        by_contra hlt
        have hfree := hf.clear (max g.lo s.lo) (le_max_left _ _)
          (max_lt hf.nonempty (not_le.mp hbefore))
        exact hfree ⟨s, List.mem_cons_self .., le_max_right _ _,
          max_lt (not_le.mp hlt) h.head_nonempty⟩
      refine Or.inr ⟨max_le hf.above hbehind, hf.nonempty, hf.below, fun x hlo hhi hx => ?_⟩
      exact hf.clear x hlo hhi (cover_mono (List.subset_cons_self ..) hx)
  · rintro (⟨habove, hne, hbelow⟩ | hf)
    · refine ⟨habove, hne, hbelow.trans (min_le_right _ _), fun x _ hhi => ?_⟩
      exact h.not_covered_below (hhi.trans_le (hbelow.trans (min_le_left _ _)))
    · refine ⟨(le_max_left _ _).trans hf.above, hf.nonempty, hf.below, fun x hlo hhi hx => ?_⟩
      rw [cover_cons] at hx
      rcases hx with ⟨-, hx⟩ | hx
      · exact absurd (((le_max_right _ _).trans hf.above).trans hlo) (not_le.mpr hx)
      · exact hf.clear x hlo hhi hx

theorem isGap_nil {start stop : α} {g : Span α} :
    IsGap (cover ([] : List (Span α))) start stop g ↔ start < stop ∧ g = ⟨start, stop⟩ := by
  constructor
  · intro hg
    have hlt := (hg.free.above.trans_lt hg.free.nonempty).trans_le hg.free.below
    refine ⟨hlt, (hg.maximal ⟨start, stop⟩ ⟨le_rfl, hlt, le_rfl, by simp⟩ hg.free.above
      hg.free.below).symm⟩
  · rintro ⟨hlt, rfl⟩
    refine ⟨⟨le_rfl, hlt, le_rfl, by simp⟩, fun f hf hlo hhi => ?_⟩
    exact congrArg₂ Span.mk (le_antisymm hlo hf.above) (le_antisymm hf.below hhi)

/-- The gaps of a list are the one before its first span and those behind it. -/
theorem isGap_cons {s : Span α} {l : List (Span α)} (h : Solid (s :: l)) {start stop : α}
    {g : Span α} :
    IsGap (cover (s :: l)) start stop g ↔
      (start < min s.lo stop ∧ g = ⟨start, min s.lo stop⟩) ∨
        IsGap (cover l) (max start s.hi) stop g := by
  constructor
  · intro hg
    rcases (freeSpan_cons h).mp hg.free with ⟨habove, hne, hbelow⟩ | hf
    · have hlt := (habove.trans_lt hne).trans_le hbelow
      have hfirst : FreeSpan (cover (s :: l)) start stop ⟨start, min s.lo stop⟩ :=
        (freeSpan_cons h).mpr (Or.inl ⟨le_rfl, hlt, le_rfl⟩)
      exact Or.inl ⟨hlt, (hg.maximal _ hfirst habove hbelow).symm⟩
    · exact Or.inr ⟨hf, fun f hfree => hg.maximal f ((freeSpan_cons h).mpr (Or.inr hfree))⟩
  · rintro (⟨hlt, rfl⟩ | hg)
    · refine ⟨(freeSpan_cons h).mpr (Or.inl ⟨le_rfl, hlt, le_rfl⟩), fun f hf hlo hhi => ?_⟩
      rcases (freeSpan_cons h).mp hf with ⟨habove, -, hbelow⟩ | hbehind
      · exact congrArg₂ Span.mk (le_antisymm hlo habove) (le_antisymm hbelow hhi)
      · have hle := ((le_max_right _ _).trans hbehind.above).trans hlo
        exact absurd (hle.trans_lt (lt_min_iff.mp hlt).1) (not_lt.mpr h.head_nonempty.le)
    · refine ⟨(freeSpan_cons h).mpr (Or.inr hg.free), fun f hf hlo hhi => ?_⟩
      rcases (freeSpan_cons h).mp hf with ⟨-, -, hbelow⟩ | hbehind
      · have hhigh : s.hi < f.hi :=
          (((le_max_right _ _).trans hg.free.above).trans_lt hg.free.nonempty).trans_le hhi
        exact absurd (hhigh.trans_le (hbelow.trans (min_le_left _ _)))
          (not_lt.mpr h.head_nonempty.le)
      · exact hg.maximal f hbehind hlo hhi

theorem mem_gaps {l : List (Span α)} (h : Solid l) {start stop : α} {g : Span α} :
    g ∈ gaps stop l start ↔ IsGap (cover l) start stop g := by
  induction l generalizing start with
  | nil =>
    rw [isGap_nil]
    by_cases hlt : start < stop <;> simp [gaps, hlt]
  | cons s rest ih =>
    rw [isGap_cons h, gaps, List.mem_append, ih h.tail]
    by_cases hlt : start < min s.lo stop
    · rw [if_pos hlt, List.mem_singleton]
      simp only [hlt, true_and]
    · rw [if_neg hlt]
      simp only [List.not_mem_nil, hlt, false_and]

/-- The gaps come out in order, each behind the one before it. -/
theorem gaps_ordered {l : List (Span α)} (h : Solid l) (start stop : α) :
    (gaps stop l start).Pairwise fun a b => a.hi ≤ b.lo := by
  induction l generalizing start with
  | nil =>
    by_cases hlt : start < stop <;> simp [gaps, hlt]
  | cons s rest ih =>
    rw [gaps]
    refine List.pairwise_append.mpr ⟨?_, ih h.tail _, fun a ha b hb => ?_⟩
    · by_cases hlt : start < min s.lo stop <;> simp [hlt]
    · have hbehind := ((mem_gaps h.tail).mp hb).free.above
      have hend : a.hi ≤ s.lo := by
        by_cases hlt : start < min s.lo stop
        · rw [if_pos hlt, List.mem_singleton] at ha
          rw [ha]
          exact min_le_left _ _
        · rw [if_neg hlt] at ha
          exact absurd ha (List.not_mem_nil)
      exact (hend.trans h.head_nonempty.le).trans ((le_max_right _ _).trans hbehind)

/-- A window that is used up has no gaps. -/
theorem gaps_of_le {l : List (Span α)} (h : Solid l) {start stop : α} (hle : stop ≤ start) :
    gaps stop l start = [] := by
  refine List.eq_nil_iff_forall_not_mem.mpr fun g hg => ?_
  have hfree := ((mem_gaps h).mp hg).free
  exact absurd ((hfree.above.trans_lt hfree.nonempty).trans_le hfree.below) (not_lt.mpr hle)

/-- An ordered list of non-empty spans is known from its elements. -/
theorem eq_of_ordered {l m : List (Span α)} (hl : l.Pairwise fun a b => a.hi ≤ b.lo)
    (hm : m.Pairwise fun a b => a.hi ≤ b.lo) (hne : ∀ g ∈ l, g.lo < g.hi)
    (hmem : ∀ g, g ∈ l ↔ g ∈ m) : l = m := by
  have hnodup (k : List (Span α)) (hk : k.Pairwise fun a b => a.hi ≤ b.lo)
      (hkne : ∀ g ∈ k, g.lo < g.hi) : k.Nodup := by
    refine hk.imp_of_mem fun {a b} ha _ hab heq => ?_
    exact absurd (hkne a ha) (not_lt.mpr (heq ▸ hab))
  have hperm : l.Perm m :=
    (List.perm_ext_iff_of_nodup (hnodup l hl hne)
      (hnodup m hm fun g hg => hne g ((hmem g).mpr hg))).mpr hmem
  refine hperm.eq_of_pairwise (fun a b ha hb hab hba => ?_) hl hm
  have hlt := (hne a ha).trans_le (hab.trans ((hne b ((hmem b).mpr hb)).le.trans hba))
  exact absurd hlt (lt_irrefl _)

/-! ## The walk without the cut -/

theorem openGaps_of_le {l : List (Span α)} {start stop : α} (hle : stop ≤ start) :
    openGaps stop l start = [] := by
  cases l <;> simp [openGaps, not_lt.mpr hle]

theorem openGaps_before {s : Span α} {l : List (Span α)} {start stop : α} (hwindow : start < stop)
    (hlt : start < s.lo) :
    openGaps stop (s :: l) start = ⟨start, s.lo⟩ :: openGaps stop l (max start s.hi) := by
  rw [openGaps, if_pos hwindow, if_pos hlt]
  rfl

theorem openGaps_behind {s : Span α} {l : List (Span α)} {start stop : α} (hwindow : start < stop)
    (hle : s.lo ≤ start) : openGaps stop (s :: l) start = openGaps stop l (max start s.hi) := by
  rw [openGaps, if_pos hwindow, if_neg (not_lt.mpr hle)]
  rfl

/-- A first span that ends inside the window leaves the question to the rest. -/
theorem runsOver_cons {s : Span α} {l : List (Span α)} (h : Solid (s :: l)) {start stop : α}
    (hs : s.hi ≤ stop) : RunsOver stop (s :: l) start ↔ RunsOver stop l (max start s.hi) := by
  have hlow : s.lo ≤ stop := h.head_nonempty.le.trans hs
  constructor
  · rintro ⟨⟨lo, hstart, hlo, hfree⟩, t, ht, hbeyond⟩
    have hbehind : s.hi ≤ lo := by
      by_contra hlt
      refine hfree (max lo s.lo) (le_max_left _ _) (max_le hlo.le hlow) ?_
      exact ⟨s, List.mem_cons_self .., le_max_right _ _, max_lt (not_le.mp hlt) h.head_nonempty⟩
    refine ⟨⟨lo, max_le hstart hbehind, hlo, fun x h1 h2 hx => ?_⟩, t, ?_, hbeyond⟩
    · exact hfree x h1 h2 (cover_mono (List.subset_cons_self ..) hx)
    · rcases List.mem_cons.mp ht with rfl | hmem
      · exact absurd hbeyond (not_lt.mpr hlow)
      · exact hmem
  · rintro ⟨⟨lo, hstart, hlo, hfree⟩, t, ht, hbeyond⟩
    refine ⟨⟨lo, (le_max_left _ _).trans hstart, hlo, fun x h1 h2 hx => ?_⟩, t,
      List.mem_cons_of_mem _ ht, hbeyond⟩
    rw [cover_cons] at hx
    rcases hx with ⟨-, hx⟩ | hx
    · exact absurd (((le_max_right _ _).trans hstart).trans h1) (not_le.mpr hx)
    · exact hfree x h1 h2 hx

/-- Either the cut changes nothing, or it shortens the last gap alone. -/
theorem openGaps_cases {l : List (Span α)} (h : Solid l) (start stop : α) :
    (¬RunsOver stop l start ∧ openGaps stop l start = gaps stop l start) ∨
      (RunsOver stop l start ∧ ∃ front lo hi, stop < hi ∧
        gaps stop l start = front ++ [⟨lo, stop⟩] ∧
        openGaps stop l start = front ++ [⟨lo, hi⟩]) := by
  induction l generalizing start with
  | nil => exact Or.inl ⟨fun hr => by simpa using hr.2, rfl⟩
  | cons s rest ih =>
    by_cases hwindow : start < stop
    · rcases lt_or_ge stop s.lo with hover | hlow
      · -- the first span lies behind the window: its gap is the one that is cut
        have hused : stop ≤ max start s.hi := (hover.le.trans h.head_nonempty.le).trans
          (le_max_right _ _)
        refine Or.inr ⟨⟨⟨start, le_rfl, hwindow, fun x _ hx => ?_⟩, s, List.mem_cons_self ..,
          hover⟩, [], start, s.lo, hover, ?_, ?_⟩
        · exact h.not_covered_below (hx.trans_lt hover)
        · rw [gaps, gaps_of_le h.tail hused, min_eq_right hover.le, if_pos hwindow]
          rfl
        · rw [openGaps_before hwindow (hwindow.trans hover), openGaps_of_le hused]
          rfl
      · rw [openGaps, gaps, if_pos hwindow, min_eq_left hlow]
        rcases lt_or_ge stop s.hi with hreach | hends
        · have hused : stop ≤ max start s.hi := hreach.le.trans (le_max_right _ _)
          refine Or.inl ⟨?_, by rw [openGaps_of_le hused, gaps_of_le h.tail hused]⟩
          rintro ⟨⟨lo, -, hlo, hfree⟩, -⟩
          exact hfree stop hlo.le le_rfl ⟨s, List.mem_cons_self .., hlow, hreach⟩
        · rw [runsOver_cons h hends]
          rcases ih h.tail (max start s.hi) with ⟨hno, heq⟩ | ⟨hr, front, lo, hi, hhi, hg, ho⟩
          · exact Or.inl ⟨hno, by rw [heq]⟩
          · refine Or.inr ⟨hr, (if start < s.lo then [⟨start, s.lo⟩] else []) ++ front, lo, hi,
              hhi, ?_, ?_⟩
            · rw [hg, List.append_assoc]
            · rw [ho, List.append_assoc]
    · have hle := not_lt.mp hwindow
      refine Or.inl ⟨?_, by rw [openGaps_of_le hle, gaps_of_le h hle]⟩
      rintro ⟨⟨lo, hstart, hlo, -⟩, -⟩
      exact absurd (hstart.trans_lt hlo) hwindow

end Nos3.Base.SpanList
