import Mathlib.Data.List.Sort

/-!
# Bubble sort

Passes over a list that swap neighbours, until a pass swaps nothing. Each pass
that swaps leaves fewer inversions, so the loop ends; the result is a sorted
permutation.
-/
namespace Nos3.Base.BubbleSort

/-- One pass: the list after it and whether neighbours were swapped. -/
def pass : List Nat → List Nat × Bool
  | [] => ([], false)
  | [a] => ([a], false)
  | a :: b :: rest =>
    if b < a then (b :: (pass (a :: rest)).1, true)
    else (a :: (pass (b :: rest)).1, (pass (b :: rest)).2)
  termination_by l => l.length

/-- Pairs in the wrong order. -/
def inversions : List Nat → Nat
  | [] => 0
  | a :: rest => rest.countP (· < a) + inversions rest

theorem pass_perm (l : List Nat) : (pass l).1.Perm l := by
  induction l using pass.induct with
  | case1 => rw [pass]
  | case2 a => rw [pass]
  | case3 a b rest hswap ih =>
    rw [pass, if_pos hswap]
    exact (ih.cons b).trans (.swap a b rest)
  | case4 a b rest hswap ih =>
    rw [pass, if_neg hswap]
    exact ih.cons a

theorem pass_inversions (l : List Nat) :
    inversions (pass l).1 ≤ inversions l ∧
      ((pass l).2 = true → inversions (pass l).1 < inversions l) := by
  induction l using pass.induct with
  | case1 =>
    rw [pass]
    exact ⟨Nat.le_refl _, nofun⟩
  | case2 a =>
    rw [pass]
    exact ⟨Nat.le_refl _, nofun⟩
  | case3 a b rest hswap ih =>
    have hcount := (pass_perm (a :: rest)).countP_eq (· < b)
    have hless : inversions (b :: (pass (a :: rest)).1) < inversions (a :: b :: rest) := by
      have hrest := ih.1
      simp only [inversions, List.countP_cons] at hrest hcount ⊢
      simp only [decide_eq_true_eq, hswap, if_true] at hcount ⊢
      have hnot : ¬ a < b := by omega
      rw [if_neg hnot] at hcount
      omega
    rw [pass, if_pos hswap]
    exact ⟨hless.le, fun _ => hless⟩
  | case4 a b rest hswap ih =>
    have hcount := (pass_perm (b :: rest)).countP_eq (· < a)
    rw [pass, if_neg hswap]
    simp only [inversions] at ih ⊢
    refine ⟨by omega, fun hswapped => ?_⟩
    have hless := ih.2 hswapped
    omega

/-- `do … while (swapped)` -/
def bubbleSort (l : List Nat) : List Nat :=
  if (pass l).2 = true then bubbleSort (pass l).1 else l
  termination_by inversions l
  decreasing_by exact (pass_inversions l).2 ‹_›

theorem bubbleSort_perm (l : List Nat) : (bubbleSort l).Perm l := by
  induction l using bubbleSort.induct with
  | case1 l hswapped ih =>
    rw [bubbleSort, if_pos hswapped]
    exact ih.trans (pass_perm l)
  | case2 l hswapped =>
    rw [bubbleSort, if_neg hswapped]

/-- A pass that swaps nothing found the list sorted. -/
theorem sorted_of_pass {l : List Nat} (h : (pass l).2 ≠ true) : l.Pairwise (· ≤ ·) := by
  rw [← List.isChain_iff_pairwise]
  induction l using pass.induct with
  | case1 => exact .nil
  | case2 a => exact .singleton a
  | case3 a b rest hswap ih =>
    rw [pass, if_pos hswap] at h
    exact absurd rfl h
  | case4 a b rest hswap ih =>
    rw [pass, if_neg hswap] at h
    exact .cons_cons (Nat.le_of_not_lt hswap) (ih h)

theorem bubbleSort_sorted (l : List Nat) : (bubbleSort l).Pairwise (· ≤ ·) := by
  induction l using bubbleSort.induct with
  | case1 l hswapped ih =>
    rw [bubbleSort, if_pos hswapped]
    exact ih
  | case2 l hswapped =>
    rw [bubbleSort, if_neg hswapped]
    exact sorted_of_pass hswapped

theorem bubbleSort_length (l : List Nat) : (bubbleSort l).length = l.length :=
  (bubbleSort_perm l).length_eq

/-- There is one sorted permutation. -/
theorem bubbleSort_eq {l sorted : List Nat} (hperm : sorted.Perm l)
    (hsorted : sorted.Pairwise (· ≤ ·)) : bubbleSort l = sorted :=
  ((bubbleSort_perm l).trans hperm.symm).eq_of_pairwise
    (fun _ _ _ _ hle hge => Nat.le_antisymm hle hge) (bubbleSort_sorted l) hsorted

end Nos3.Base.BubbleSort
