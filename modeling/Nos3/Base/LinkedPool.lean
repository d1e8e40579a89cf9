import Mathlib.Data.List.FinRange
import Mathlib.Logic.Function.Basic

/-!
# Linked lists in a pool

A pool hands out its links in order, and each link may point at a next one. A
chain is the list of links that the pointers lead through.
-/
namespace Nos3.Base.LinkedPool
open Function (update update_self update_of_ne)

universe u
variable {ι : Type u}

def Chain (next : ι → Option ι) : Option ι → List ι → Prop
  | start, [] => start = none
  | start, a :: rest => start = some a ∧ Chain next (next a) rest

theorem Chain.congr {next next' : ι → Option ι} {start : Option ι} {l : List ι}
    (h : Chain next start l) (hsame : ∀ a ∈ l, next' a = next a) : Chain next' start l := by
  induction l generalizing start with
  | nil => exact h
  | cons a rest ih =>
    obtain ⟨ha, hrest⟩ := List.forall_mem_cons.mp hsame
    refine ⟨h.1, ?_⟩
    rw [ha]
    exact ih h.2 hrest

theorem Chain.single {next : ι → Option ι} {a : ι} (h : next a = none) :
    Chain next (some a) [a] := ⟨rfl, h⟩

theorem Chain.nil_of_none {next : ι → Option ι} {l : List ι} (h : Chain next none l) : l = [] := by
  cases l with
  | nil => rfl
  | cons a rest => cases h.1

theorem Chain.cons_of_some {next : ι → Option ι} {a : ι} {l : List ι}
    (h : Chain next (some a) l) : ∃ rest, l = a :: rest ∧ Chain next (next a) rest := by
  cases l with
  | nil => cases h
  | cons b rest =>
    cases h.1
    exact ⟨rest, rfl, h.2⟩

variable [DecidableEq ι]

/-- The last link of a chain gets a new one behind it. -/
theorem Chain.push {next : ι → Option ι} {start : Option ι} {l : List ι} {last new : ι}
    (h : Chain next start l) (hnodup : l.Nodup) (hlast : l.getLast? = some last)
    (hnew : new ∉ l) (hend : next new = none) :
    Chain (update next last (some new)) start (l ++ [new]) := by
  induction l generalizing start with
  | nil => cases hlast
  | cons a rest ih =>
    obtain ⟨hfresh, hnodup⟩ := List.nodup_cons.mp hnodup
    have hnewRest : new ∉ rest := fun hmem => hnew (List.mem_cons_of_mem a hmem)
    have hne : new ≠ a := fun heq => hnew (heq ▸ List.mem_cons_self)
    refine ⟨h.1, ?_⟩
    cases rest with
    | nil =>
      obtain rfl : a = last := Option.some.inj hlast
      rw [update_self]
      refine ⟨rfl, ?_⟩
      rw [update_of_ne hne]
      exact hend
    | cons b rest =>
      have hlast' : (b :: rest).getLast? = some last := hlast
      have hmem : last ∈ b :: rest := List.mem_of_getLast? hlast'
      have hother : a ≠ last := fun heq => hfresh (heq ▸ hmem)
      rw [update_of_ne hother]
      exact ih h.2 hnodup hlast' hnewRest

/-- A chain that does not lead through a link keeps its shape when the link is
set. -/
theorem Chain.update_other {next : ι → Option ι} {start : Option ι} {l : List ι} {a : ι}
    (h : Chain next start l) (ha : a ∉ l) (value : Option ι) :
    Chain (update next a value) start l :=
  h.congr fun b hb => update_of_ne (fun heq : b = a => ha (heq ▸ hb)) ..

section Allocated
variable {n : Nat}

/-- The links a pool of `n` has handed out. -/
def allocated (n count : Nat) : List (Fin n) := (List.finRange n).take count

theorem mem_allocated {count : Nat} {a : Fin n} : a ∈ allocated n count ↔ a.val < count := by
  rw [allocated, List.mem_take_iff_getElem]
  constructor
  · rintro ⟨i, hi, rfl⟩
    simp only [List.getElem_finRange, Fin.val_cast]
    omega
  · intro h
    exact ⟨a.val, by simp only [List.length_finRange]; omega, by simp⟩

theorem allocated_succ {count : Nat} (h : count < n) :
    allocated n (count + 1) = allocated n count ++ [⟨count, h⟩] := by
  have hcell : (List.finRange n)[count]? = some ⟨count, h⟩ := by
    rw [List.getElem?_eq_getElem (by simpa using h)]
    simp
  rw [allocated, List.take_add_one, hcell]
  rfl

theorem nodup_allocated (count : Nat) : (allocated n count).Nodup :=
  (List.nodup_finRange n).sublist (List.take_sublist _ _)

theorem length_allocated {count : Nat} (h : count ≤ n) : (allocated n count).length = count := by
  rw [allocated, List.length_take, List.length_finRange]
  omega

/-- The links handed out under one key. -/
def members {K : Type*} [DecidableEq K] (count : Nat) (key : Fin n → K) (k : K) : List (Fin n) :=
  (allocated n count).filter fun a => key a = k

variable {K : Type*} [DecidableEq K]

theorem mem_members {count : Nat} {key : Fin n → K} {k : K} {a : Fin n} :
    a ∈ members count key k ↔ a.val < count ∧ key a = k := by
  rw [members, List.mem_filter, mem_allocated, decide_eq_true_eq]

theorem nodup_members (count : Nat) (key : Fin n → K) (k : K) : (members count key k).Nodup :=
  (nodup_allocated count).filter _

theorem length_members_le (count : Nat) (key : Fin n → K) (k : K) :
    (members count key k).length ≤ n := by
  refine Nat.le_trans (List.length_filter_le _ _) ?_
  rw [allocated, List.length_take, List.length_finRange]
  exact Nat.min_le_right _ _

theorem not_mem_members {count : Nat} (hroom : count < n) (key : Fin n → K) (k : K) :
    (⟨count, hroom⟩ : Fin n) ∉ members count key k :=
  fun hmem => Nat.lt_irrefl _ (mem_members.mp hmem).1

theorem members_congr {count : Nat} {key key' : Fin n → K}
    (h : ∀ a : Fin n, a.val < count → key' a = key a) (k : K) :
    members count key' k = members count key k := by
  refine List.filter_congr fun a ha => ?_
  rw [h a (mem_allocated.mp ha)]

theorem members_succ {count : Nat} (h : count < n) (key : Fin n → K) (k : K) :
    members (count + 1) key k =
      members count key k ++ if key ⟨count, h⟩ = k then [⟨count, h⟩] else [] := by
  rw [members, allocated_succ h, List.filter_append, members]
  congr 1
  split
  case isTrue hkey => exact List.filter_cons_of_pos (decide_eq_true hkey)
  case isFalse hkey => exact List.filter_cons_of_neg (by simpa using hkey)

end Allocated

end Nos3.Base.LinkedPool
