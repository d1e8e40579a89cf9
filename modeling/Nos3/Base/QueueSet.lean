import Mathlib.Data.List.Perm.Basic
import Mathlib.Data.List.Nodup

/-!
# Queues that share their elements

A family of queues and an index that names the queue of each element. `Linked`
says that the live elements are on exactly the queue their index names, once; `remove` and `insert` are the two halves of every move.
-/
namespace Nos3.Base.QueueSet

universe u v

variable {ι : Type u} {κ : Type v}

structure Linked (qs : ι → List κ) (indexOf : κ → ι) (live : κ → Prop) : Prop where
  nodup : ∀ q, (qs q).Nodup
  mem_iff : ∀ q x, x ∈ qs q ↔ live x ∧ indexOf x = q

variable {qs : ι → List κ} {indexOf indexOf' : κ → ι} {live : κ → Prop} {x y : κ} {q q' : ι}

theorem Linked.isLive (h : Linked qs indexOf live) (hx : x ∈ qs q) : live x :=
  ((h.mem_iff q x).mp hx).1

theorem Linked.index (h : Linked qs indexOf live) (hx : x ∈ qs q) : indexOf x = q :=
  ((h.mem_iff q x).mp hx).2

/-- Only the indices of the elements that are live matter. -/
theorem Linked.congr (h : Linked qs indexOf live) (hindex : ∀ y, live y →
    indexOf' y = indexOf y) : Linked qs indexOf' live := by
  refine ⟨h.nodup, fun q y => (h.mem_iff q y).trans ?_⟩
  exact and_congr_right fun hy => by rw [hindex y hy]

variable [DecidableEq ι]

/-- One queue is replaced. -/
def replaced (qs : ι → List κ) (q : ι) (refs : List κ) : ι → List κ :=
  fun q' => if q' = q then refs else qs q'

theorem Linked.remove [DecidableEq κ] (h : Linked qs indexOf live) (x : κ) :
    Linked (replaced qs (indexOf x) ((qs (indexOf x)).erase x)) indexOf
      fun y => live y ∧ y ≠ x := by
  constructor
  · intro q
    unfold replaced
    split
    · exact (h.nodup _).erase x
    · exact h.nodup q
  · intro q y
    unfold replaced
    split
    · rename_i hq
      rw [(h.nodup _).mem_erase_iff, h.mem_iff, hq]
      exact ⟨fun hy => ⟨⟨hy.2.1, hy.1⟩, hy.2.2⟩, fun hy => ⟨hy.1.2, hy.1.1, hy.2⟩⟩
    · rename_i hq
      rw [h.mem_iff]
      refine ⟨fun hy => ⟨⟨hy.1, ?_⟩, hy.2⟩, fun hy => ⟨hy.1.1, hy.2⟩⟩
      rintro rfl
      exact hq hy.2.symm

/-- An element that was on no queue is put somewhere in one. -/
theorem Linked.insert (h : Linked qs indexOf live) {refs : List κ} (hx : ¬live x)
    (hrefs : refs.Perm (x :: qs q)) (hq : indexOf' x = q)
    (hindex : ∀ y, live y → indexOf' y = indexOf y) :
    Linked (replaced qs q refs) indexOf' fun y => live y ∨ y = x := by
  have habsent : x ∉ qs q := fun hmem => hx (h.isLive hmem)
  constructor
  · intro q'
    unfold replaced
    split
    · exact hrefs.nodup_iff.mpr (List.nodup_cons.mpr ⟨habsent, h.nodup q⟩)
    · exact h.nodup q'
  · intro q' y
    have hother : live y → (y ∈ qs q' ↔ indexOf' y = q') := by
      intro hy
      rw [h.mem_iff, hindex y hy]
      exact and_iff_right hy
    by_cases hy : live y
    · have hne : y ≠ x := by
        rintro rfl
        exact hx hy
      unfold replaced
      split
      · rename_i heq
        subst heq
        rw [hrefs.mem_iff, List.mem_cons, hother hy]
        exact ⟨fun h => ⟨.inl hy, h.resolve_left hne⟩, fun h => .inr h.2⟩
      · rw [hother hy]
        exact ⟨fun h => ⟨.inl hy, h⟩, fun h => h.2⟩
    · have hnone : y ∉ qs q' := fun hmem => hy (h.isLive hmem)
      unfold replaced
      split
      · rename_i heq
        subst heq
        rw [hrefs.mem_iff, List.mem_cons]
        constructor
        · rintro (rfl | hmem)
          · exact ⟨.inr rfl, hq⟩
          · exact absurd hmem hnone
        · rintro ⟨hlive | rfl, -⟩
          · exact absurd hlive hy
          · exact .inl rfl
      · rename_i hne
        constructor
        · exact fun hmem => absurd hmem hnone
        · rintro ⟨hlive | rfl, hindexed⟩
          · exact absurd hlive hy
          · exact absurd (hindexed.symm.trans hq) hne

/-- An element goes from its queue to another place. -/
theorem Linked.move [DecidableEq κ] (h : Linked qs indexOf live) {refs : List κ} (hx : live x)
    (hrefs : refs.Perm
      (x :: replaced qs (indexOf x) ((qs (indexOf x)).erase x) q))
    (hq : indexOf' x = q) (hindex : ∀ y, y ≠ x → indexOf' y = indexOf y) :
    Linked (replaced (replaced qs (indexOf x) ((qs (indexOf x)).erase x)) q refs) indexOf'
      live := by
  have hmoved := (h.remove x).insert (fun hgone => hgone.2 rfl) hrefs hq
    fun y hy => hindex y hy.2
  refine ⟨hmoved.nodup, fun q' y => (hmoved.mem_iff q' y).trans (and_congr_left fun _ => ?_)⟩
  constructor
  · rintro (hy | rfl)
    · exact hy.1
    · exact hx
  · intro hy
    by_cases hsame : y = x
    · exact .inr hsame
    · exact .inl ⟨hy, hsame⟩

end Nos3.Base.QueueSet
