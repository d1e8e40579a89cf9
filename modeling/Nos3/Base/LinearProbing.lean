import Mathlib.Data.Fintype.EquivFin
import Mathlib.Logic.Function.Basic
import Mathlib.Algebra.GroupWithZero.Nat

/-!
# Linear probing

A hash table without deletion. A key is looked for from the slot of its hash on, in
cyclic order, and a new key goes to the first empty slot that comes up. No empty slot
lies between the hash of a key and the slot it is in.
-/
namespace Nos3.Base.LinearProbing
open Function (update update_self update_of_ne)

variable {n : Nat} [NeZero n]

/-- The slot `k` places behind one. -/
def ahead (slot : Fin n) (k : Nat) : Fin n := Fin.ofNat n (slot + k)

/-- The first slot from one on that a search stops at, among the next `fuel`, and the number of
slots it has passed. -/
def probe (stop : Fin n → Bool) : Nat → Fin n → Option (Nat × Fin n)
  | 0, _ => none
  | fuel + 1, slot =>
    if stop slot = true then some (0, slot)
    else (probe stop fuel (ahead slot 1)).map fun (passed, found) => (passed + 1, found)

theorem ahead_zero (slot : Fin n) : ahead slot 0 = slot := by
  rw [ahead, Nat.add_zero]
  exact Fin.ofNat_val_eq_self slot

theorem ahead_ahead (slot : Fin n) (k l : Nat) : ahead (ahead slot k) l = ahead slot (k + l) := by
  refine Fin.ext ?_
  simp only [ahead, Fin.val_ofNat]
  rw [Nat.mod_add_mod, Nat.add_assoc]

/-- Every slot comes up within a round. -/
theorem exists_ahead (slot found : Fin n) : ∃ k < n, ahead slot k = found := by
  have hslot := slot.isLt
  have hfound := found.isLt
  refine ⟨(found + n - slot) % n, Nat.mod_lt _ (Nat.pos_of_neZero n), Fin.ext ?_⟩
  have hback : slot.val + (found.val + n - slot.val) = found.val + n := by omega
  rw [ahead, Fin.val_ofNat, Nat.add_mod_mod, hback, Nat.add_mod_right, Nat.mod_eq_of_lt hfound]

variable {stop : Fin n → Bool} {fuel k : Nat} {slot found : Fin n}

/-- A search returns the first slot that it stops at. -/
theorem probe_eq_some (hk : k < fuel) (hstop : stop (ahead slot k) = true)
    (hpass : ∀ l < k, stop (ahead slot l) = false) :
    probe stop fuel slot = some (k, ahead slot k) := by
  induction k generalizing fuel slot with
  | zero =>
    obtain ⟨fuel, rfl⟩ := Nat.exists_eq_succ_of_ne_zero hk.ne'
    rw [ahead_zero] at hstop ⊢
    rw [probe, if_pos hstop]
  | succ k ih =>
    obtain ⟨fuel, rfl⟩ := Nat.exists_eq_succ_of_ne_zero (Nat.ne_zero_of_lt hk)
    have hfirst := hpass 0 (Nat.succ_pos k)
    rw [ahead_zero] at hfirst
    have hnext : ∀ l, ahead (ahead slot 1) l = ahead slot (l + 1) := by
      intro l
      rw [ahead_ahead, Nat.add_comm]
    rw [probe, if_neg (Bool.eq_false_iff.mp hfirst), ih (Nat.lt_of_succ_lt_succ hk) (hnext k ▸ hstop)
      fun l hl => hnext l ▸ hpass (l + 1) (Nat.succ_lt_succ hl), hnext, Option.map_some]

/-- A search with a slot to stop at ends within a round. -/
theorem exists_probe (hstop : ∃ found, stop found = true) (slot : Fin n) :
    ∃ k < n, probe stop n slot = some (k, ahead slot k) ∧ stop (ahead slot k) = true ∧
      ∀ l < k, stop (ahead slot l) = false := by
  obtain ⟨found, hfound⟩ := hstop
  obtain ⟨k, hk, rfl⟩ := exists_ahead slot found
  have hex : ∃ k, stop (ahead slot k) = true := ⟨k, hfound⟩
  have hpass : ∀ l < Nat.find hex, stop (ahead slot l) = false :=
    fun l hl => Bool.eq_false_iff.mpr (Nat.find_min hex hl)
  have hlt : Nat.find hex < n := (Nat.find_min' hex hfound).trans_lt hk
  exact ⟨_, hlt, probe_eq_some hlt (Nat.find_spec hex) hpass, Nat.find_spec hex, hpass⟩

/-! ## Tables of keys -/

section Table
variable {κ : Type*} {hash : κ → Fin n} {table : Fin n → Option κ} {x y : κ}

/-- A key is `k` places behind a slot, behind other keys only. -/
structure Found (table : Fin n → Option κ) (x : κ) (slot : Fin n) (k : Nat) : Prop where
  lt : k < n
  here : table (ahead slot k) = some x
  before : ∀ l < k, ∃ z, table (ahead slot l) = some z ∧ z ≠ x

/-- Every key is found from its hash on. -/
def Chained (hash : κ → Fin n) (table : Fin n → Option κ) : Prop :=
  ∀ slot x, table slot = some x → ∃ k, Found table x (hash x) k ∧ ahead (hash x) k = slot

theorem chained_empty (hash : κ → Fin n) : Chained hash fun _ => none :=
  fun _ _ h => nomatch h

/-- A key is in one slot only. -/
theorem Chained.injective (h : Chained hash table) {i j : Fin n} (hi : table i = some x)
    (hj : table j = some x) : i = j := by
  obtain ⟨k, hk, rfl⟩ := h i x hi
  obtain ⟨l, hl, rfl⟩ := h j x hj
  rcases Nat.lt_trichotomy k l with hlt | rfl | hlt
  · obtain ⟨z, hz, hne⟩ := hl.before k hlt
    exact absurd (Option.some.inj (hz.symm.trans hk.here)) hne
  · rfl
  · obtain ⟨z, hz, hne⟩ := hk.before l hlt
    exact absurd (Option.some.inj (hz.symm.trans hl.here)) hne

/-- With fewer keys than slots one of the slots is empty. -/
theorem Chained.exists_empty (h : Chained hash table) {keys : List κ}
    (hkeys : ∀ slot x, table slot = some x → x ∈ keys) (hlen : keys.length < n) :
    ∃ slot, table slot = none := by
  by_contra hno
  have hfull : ∀ slot, ∃ i : Fin keys.length, table slot = some (keys.get i) := by
    intro slot
    obtain ⟨x, hx⟩ := Option.ne_none_iff_exists'.mp (not_exists.mp hno slot)
    obtain ⟨i, rfl⟩ := List.mem_iff_get.mp (hkeys slot x hx)
    exact ⟨i, hx⟩
  choose place hplace using hfull
  have hinj : Function.Injective place := by
    intro i j hij
    exact h.injective (hplace i) (hij ▸ hplace j)
  have hcard := Fintype.card_le_of_injective place hinj
  rw [Fintype.card_fin, Fintype.card_fin] at hcard
  exact absurd hlen (Nat.not_lt.mpr hcard)

/-- A key of the table is where the search for it stops. -/
theorem probe_found {stop : Fin n → Bool} (hstop : ∀ slot, stop slot = true ↔
      table slot = none ∨ table slot = some x) (h : Found table x slot k) :
    probe stop n slot = some (k, ahead slot k) := by
  refine probe_eq_some h.lt ((hstop _).mpr (.inr h.here)) fun l hl => ?_
  obtain ⟨z, hz, hne⟩ := h.before l hl
  refine Bool.eq_false_iff.mpr fun htrue => ?_
  rcases (hstop _).mp htrue with hnone | hsome
  · exact nomatch hz.symm.trans hnone
  · exact hne (Option.some.inj (hz.symm.trans hsome))

/-- The search for a key that is not in the table stops at an empty slot. -/
theorem probe_absent {stop : Fin n → Bool} (hstop : ∀ slot, stop slot = true ↔
      table slot = none ∨ table slot = some x) (habsent : ∀ slot, table slot ≠ some x)
    (hroom : ∃ slot, table slot = none) (slot : Fin n) :
    ∃ k found, probe stop n slot = some (k, found) ∧ table found = none := by
  obtain ⟨empty, hempty⟩ := hroom
  obtain ⟨k, -, hprobe, hhere, -⟩ := exists_probe ⟨empty, (hstop empty).mpr (.inl hempty)⟩ slot
  exact ⟨k, _, hprobe, ((hstop _).mp hhere).resolve_right (habsent _)⟩

omit [NeZero n] in
theorem ne_of_some {i j : Fin n} (hi : table i = some x) (hj : table j = none) : i ≠ j := by
  rintro rfl
  exact nomatch hi.symm.trans hj

/-- Filling an empty slot hides no key. -/
theorem Found.update {empty : Fin n} (h : Found table x slot k) (hempty : table empty = none)
    (y : κ) : Found (update table empty (some y)) x slot k where
  lt := h.lt
  here := by
    rw [update_of_ne (ne_of_some h.here hempty), h.here]
  before := by
    intro l hl
    obtain ⟨z, hz, hzx⟩ := h.before l hl
    refine ⟨z, ?_, hzx⟩
    rw [update_of_ne (ne_of_some hz hempty), hz]

/-- A new key goes to the first empty slot from its hash on. -/
theorem Chained.insert (h : Chained hash table) (habsent : ∀ slot, table slot ≠ some x) (hk : k < n)
    (hempty : table (ahead (hash x) k) = none)
    (hpass : ∀ l < k, table (ahead (hash x) l) ≠ none) :
    Chained hash (Function.update table (ahead (hash x) k) (some x)) := by
  intro slot y hy
  by_cases hslot : slot = ahead (hash x) k
  · subst hslot
    rw [update_self] at hy
    obtain rfl := Option.some.inj hy
    refine ⟨k, ⟨hk, update_self .., fun l hl => ?_⟩, rfl⟩
    obtain ⟨z, hz⟩ := Option.ne_none_iff_exists'.mp (hpass l hl)
    refine ⟨z, ?_, fun hzx => habsent _ (hzx ▸ hz)⟩
    rw [update_of_ne (ne_of_some hz hempty), hz]
  · rw [update_of_ne hslot] at hy
    obtain ⟨l, hl, hat⟩ := h slot y hy
    exact ⟨l, hl.update hempty x, hat⟩

end Table

end Nos3.Base.LinearProbing
