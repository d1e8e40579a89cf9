import Mathlib.Logic.Function.Basic
import Mathlib.Data.Nat.ModEq
import Mathlib.Tactic.Linarith

/-!
# Versioned buffers

One writer publishes records in a ring of buffers; a reader loads the fields of the last
one it knows of and then checks the version the buffer carries. The version is written
before any field, so a check that succeeds vouches for all the fields. Versions are
counted without a bound here, while the stored ones may repeat after `period` records.
-/
namespace Nos3.Base.VersionedBuffers

universe u
variable {V S κ : Type u} {β : Type u}

/-- The stored version of each record, and the buffer a version selects. -/
structure Numbering (V S : Type u) where
  version : Nat → V
  slot : V → S
  depth : Nat
  period : Nat
  depth_gt : 1 < depth
  slot_eq : ∀ i j, slot (version i) = slot (version j) ↔ i % depth = j % depth
  version_inj : ∀ i j, i ≤ j → j < i + period → version i = version j → i = j

structure Memory (V S κ β : Type u) where
  last : V
  stamp : S → V
  value : S → κ → β

/-- A record that is being written: its version, and the buffer it started from. -/
structure Draft (V S : Type u) where
  version : V
  source : S

/-- What a reader knows: the version it goes by, what it has loaded and what is to load. -/
structure Attempt (V κ β : Type u) where
  version : V
  values : κ → β
  todo : List κ

section Accesses
variable [DecidableEq S] [DecidableEq κ]

def Memory.setStamp (m : Memory V S κ β) (s : S) (v : V) : Memory V S κ β :=
  { m with stamp := Function.update m.stamp s v }

def Memory.store (m : Memory V S κ β) (s : S) (k : κ) (x : β) : Memory V S κ β :=
  { m with value := Function.update m.value s (Function.update (m.value s) k x) }

def Attempt.load (a : Attempt V κ β) (k : κ) (rest : List κ) (x : β) : Attempt V κ β :=
  { a with values := Function.update a.values k x, todo := rest }

end Accesses

variable {N : Numbering V S} {m : Memory V S κ β} {draft : Option (Draft V S)}
  {records : Nat → κ → β} {n : Nat}

/-- The number of the last record that was begun. -/
def begun (n : Nat) (draft : Option (Draft V S)) : Nat := if draft.isSome then n + 1 else n

/-- The records up to number `n` are published, and the ones not yet overwritten are there. -/
structure Consistent (N : Numbering V S) (records : Nat → κ → β) (n : Nat)
    (draft : Option (Draft V S)) (m : Memory V S κ β) : Prop where
  last : m.last = N.version n
  stamp : ∀ i, i ≤ begun n draft → begun n draft < i + N.depth →
    m.stamp (N.slot (N.version i)) = N.version i
  value : ∀ i, i ≤ n → begun n draft < i + N.depth → m.value (N.slot (N.version i)) = records i
  draft : ∀ d, draft = some d → d.version = N.version (n + 1) ∧ d.source = N.slot (N.version n)

/-- The reader began when record `i` was the last one. While that record is there, it has
loaded its fields only. -/
structure Loading (N : Numbering V S) (records : Nat → κ → β) (n : Nat)
    (draft : Option (Draft V S)) (i : Nat) (a : Attempt V κ β) : Prop where
  version : a.version = N.version i
  published : i ≤ n
  loaded : begun n draft < i + N.depth → ∀ k, k ∉ a.todo → a.values k = records i k

/-- Only the records that are published matter. -/
theorem Consistent.congr {records' : Nat → κ → β} (h : Consistent N records n draft m)
    (hsame : ∀ i, i ≤ n → records' i = records i) : Consistent N records' n draft m where
  last := h.last
  stamp := h.stamp
  value i hi hthere := by
    rw [hsame i hi]
    exact h.value i hi hthere
  draft := h.draft

theorem begun_le (n : Nat) (draft : Option (Draft V S)) : n ≤ begun n draft := by
  unfold begun
  split <;> omega

theorem begun_le_succ (n : Nat) (draft : Option (Draft V S)) : begun n draft ≤ n + 1 := by
  unfold begun
  split <;> omega

@[simp] theorem begun_none (n : Nat) : begun n (none : Option (Draft V S)) = n := rfl

@[simp] theorem begun_some (n : Nat) (d : Draft V S) : begun n (some d) = n + 1 := rfl

/-- Two records that are both there are in different buffers. -/
theorem slot_ne {i j top : Nat} (hij : i ≠ j) (hi : i ≤ top) (hj : j ≤ top)
    (hi' : top < i + N.depth) (hj' : top < j + N.depth) :
    N.slot (N.version i) ≠ N.slot (N.version j) := by
  intro h
  have hmod : i ≡ j [MOD N.depth] := (N.slot_eq i j).mp h
  rcases Nat.lt_or_gt_of_ne hij with hlt | hgt
  · obtain ⟨c, hc⟩ := (Nat.modEq_iff_dvd' (Nat.le_of_lt hlt)).mp hmod
    have hle := Nat.le_of_dvd (by omega) ⟨c, hc⟩
    omega
  · obtain ⟨c, hc⟩ := (Nat.modEq_iff_dvd' (Nat.le_of_lt hgt)).mp hmod.symm
    have hle := Nat.le_of_dvd (by omega) ⟨c, hc⟩
    omega

/-- The record that the buffer of record `i` holds by now. -/
theorem exists_current (N : Numbering V S) {i top : Nat} (hi : i ≤ top) :
    ∃ j, i ≤ j ∧ j ≤ top ∧ top < j + N.depth ∧
      N.slot (N.version j) = N.slot (N.version i) ∧ (j ≠ i → i + N.depth ≤ j) := by
  have hpos : 0 < N.depth := Nat.lt_trans Nat.zero_lt_one N.depth_gt
  have hlt := Nat.mod_lt (top - i) hpos
  have hdiv := Nat.div_add_mod (top - i) N.depth
  refine ⟨i + N.depth * ((top - i) / N.depth), Nat.le_add_right _ _, by omega, by omega, ?_, ?_⟩
  · rw [N.slot_eq]
    exact Nat.add_mul_mod_self_left ..
  · intro hne
    have hquot : (top - i) / N.depth ≠ 0 := by
      intro hzero
      rw [hzero] at hne
      omega
    have hone := Nat.mul_le_mul_left N.depth (Nat.one_le_iff_ne_zero.mpr hquot)
    omega

/-! ## What the writer's accesses keep -/

section Writing
variable {d : Draft V S}

/-- The version of the next record is written. -/
theorem Consistent.begin [DecidableEq S] (h : Consistent N records n none m) (hnext : V)
    (hversion : hnext = N.version (n + 1)) :
    Consistent N records n (some ⟨hnext, N.slot m.last⟩) (m.setStamp (N.slot hnext) hnext) where
  last := h.last
  stamp i hi hthere := by
    subst hversion
    rw [begun_some] at hi hthere
    by_cases hnew : i = n + 1
    · subst hnew
      exact Function.update_self ..
    · have hslot := slot_ne (N := N) hnew hi (le_refl (n + 1)) hthere (by have := N.depth_gt; omega)
      rw [Memory.setStamp]
      dsimp only
      rw [Function.update_of_ne hslot]
      exact h.stamp i (by rw [begun_none]; omega) (by rw [begun_none]; omega)
  value i hi hthere := by
    rw [begun_some] at hthere
    exact h.value i hi (by rw [begun_none]; omega)
  draft d hd := by
    cases hd
    exact ⟨hversion, congrArg N.slot h.last⟩

/-- A field of the draft is written. -/
theorem Consistent.store [DecidableEq S] [DecidableEq κ]
    (h : Consistent N records n (some d) m) (k : κ) (x : β) :
    Consistent N records n (some d) (m.store (N.slot d.version) k x) where
  last := h.last
  stamp := h.stamp
  value i hi hthere := by
    obtain ⟨hversion, -⟩ := h.draft d rfl
    rw [begun_some] at hthere
    have hslot := slot_ne (N := N) (show i ≠ n + 1 by omega) (Nat.le_succ_of_le hi)
      (le_refl (n + 1)) hthere (by have := N.depth_gt; omega)
    rw [Memory.store, hversion]
    dsimp only
    rw [Function.update_of_ne hslot]
    exact h.value i hi hthere
  draft := h.draft

/-- The draft becomes the last record. -/
theorem Consistent.publish (h : Consistent N records n (some d) m) :
    Consistent N (Function.update records (n + 1) (m.value (N.slot d.version))) (n + 1) none
      { m with last := m.stamp (N.slot d.version) } where
  last := by
    obtain ⟨hversion, -⟩ := h.draft d rfl
    rw [hversion]
    exact h.stamp (n + 1) (le_refl _) (by rw [begun_some]; have := N.depth_gt; omega)
  stamp := h.stamp
  value i hi hthere := by
    obtain ⟨hversion, -⟩ := h.draft d rfl
    by_cases hnew : i = n + 1
    · subst hnew
      rw [Function.update_self, hversion]
    · rw [Function.update_of_ne hnew]
      exact h.value i (by omega) hthere
  draft d hd := by cases hd

/-- The fields that are copied so far are those of the last record. -/
def Copied (N : Numbering V S) (records : Nat → κ → β) (n : Nat) (d : Draft V S)
    (m : Memory V S κ β) (todo : List κ) : Prop :=
  ∀ k, k ∉ todo → m.value (N.slot d.version) k = records n k

@[simp] theorem Memory.store_self [DecidableEq S] [DecidableEq κ] (m : Memory V S κ β) (s : S)
    (k : κ) (x : β) : (m.store s k x).value s = Function.update (m.value s) k x :=
  Function.update_self ..

theorem Copied.copy [DecidableEq S] [DecidableEq κ] {k : κ} {rest : List κ}
    (hm : Consistent N records n (some d) m) (h : Copied N records n d m (k :: rest)) :
    Copied N records n d (m.store (N.slot d.version) k (m.value d.source k)) rest := by
  intro k' hk'
  obtain ⟨-, hsource⟩ := hm.draft d rfl
  rw [Memory.store_self]
  by_cases hsame : k' = k
  · subst hsame
    rw [Function.update_self, hsource,
      hm.value n (le_refl n) (by rw [begun_some]; have := N.depth_gt; omega)]
  · rw [Function.update_of_ne hsame]
    exact h k' fun hmem => (List.mem_cons.mp hmem).elim hsame hk'

end Writing

/-! ## What a reader relies on -/

section Reading
variable {a : Attempt V κ β} {i : Nat}

theorem Loading.begin (h : Consistent N records n draft m) (values : κ → β) {todo : List κ}
    (htodo : ∀ k, k ∈ todo) : Loading N records n draft n ⟨m.last, values, todo⟩ where
  version := h.last
  published := le_refl n
  loaded _ k hk := absurd (htodo k) hk

/-- The writer may go on: what is published stays, and buffers are only reused. -/
theorem Loading.later {n' : Nat} {draft' : Option (Draft V S)} {records' : Nat → κ → β}
    (h : Loading N records n draft i a) (hn : n ≤ n') (hbegun : begun n draft ≤ begun n' draft')
    (hsame : ∀ j, j ≤ n → records' j = records j) : Loading N records' n' draft' i a where
  version := h.version
  published := h.published.trans hn
  loaded hthere k hk := by
    rw [hsame i h.published]
    exact h.loaded (Nat.lt_of_le_of_lt hbegun hthere) k hk

theorem Loading.load [DecidableEq κ] {k : κ} {rest : List κ}
    (hm : Consistent N records n draft m) (h : Loading N records n draft i a)
    (htodo : a.todo = k :: rest) :
    Loading N records n draft i (a.load k rest (m.value (N.slot a.version) k)) where
  version := h.version
  published := h.published
  loaded hthere k' hk' := by
    rw [Attempt.load]
    dsimp only
    by_cases hsame : k' = k
    · subst hsame
      rw [Function.update_self, h.version, hm.value i h.published hthere]
    · rw [Function.update_of_ne hsame]
      refine h.loaded hthere k' fun hmem => ?_
      rw [htodo] at hmem
      exact (List.mem_cons.mp hmem).elim hsame hk'

/-- A check that succeeds: all that was loaded is the record the reader began with. -/
theorem Loading.check (hm : Consistent N records n draft m) (h : Loading N records n draft i a)
    (htodo : a.todo = []) (hperiod : n + 1 < i + N.period)
    (hcheck : a.version = m.stamp (N.slot a.version)) : a.values = records i := by
  obtain ⟨j, hij, hj, hthere, hslot, -⟩ :=
    exists_current N (h.published.trans (begun_le n draft))
  have hle := begun_le_succ n draft
  have hstamp := hm.stamp j hj hthere
  rw [hslot, ← h.version, ← hcheck, h.version] at hstamp
  have heq := N.version_inj i j hij (by omega) hstamp
  subst heq
  funext k
  exact h.loaded hthere k (by rw [htodo]; exact List.not_mem_nil)

/-- A check that fails: the ring went around. -/
theorem Loading.check_fails (hm : Consistent N records n draft m)
    (h : Loading N records n draft i a) (hcheck : a.version ≠ m.stamp (N.slot a.version)) :
    i + N.depth ≤ n + 1 := by
  obtain ⟨j, -, hj, hthere, hslot, hfar⟩ :=
    exists_current N (h.published.trans (begun_le n draft))
  have hle := begun_le_succ n draft
  have hstamp := hm.stamp j hj hthere
  rw [hslot, ← h.version] at hstamp
  have hne : j ≠ i := by
    rintro rfl
    exact hcheck (by rw [hstamp, h.version])
  have hround := hfar hne
  omega

end Reading

end Nos3.Base.VersionedBuffers
