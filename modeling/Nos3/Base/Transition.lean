import Mathlib.Logic.Basic

/-!
# Runs of a deterministic labelled machine

`next` performs the labelled step where it is enabled. `Reaches ok` are the
states of the runs whose every step meets `ok`; a property kept by such steps
holds in all of them, which is the one induction on runs used anywhere.
-/
namespace Nos3.Base.Transition

universe u v

structure Machine (σ : Type u) (α : Type v) where
  start : σ → Prop
  next : σ → α → Option σ

variable {σ : Type u} {α : Type v}

inductive Machine.Reaches (M : Machine σ α) (ok : σ → α → Prop) : σ → Prop
  | start {s : σ} : M.start s → M.Reaches ok s
  | step {s s' : σ} {a : α} : M.Reaches ok s → ok s a → M.next s a = some s' → M.Reaches ok s'

def Machine.Reachable (M : Machine σ α) : σ → Prop := M.Reaches fun _ _ => True

theorem Machine.Reaches.invariant {M : Machine σ α} {ok : σ → α → Prop} {inv : σ → Prop}
    (hstart : ∀ s, M.start s → inv s)
    (hstep : ∀ s a s', inv s → ok s a → M.next s a = some s' → inv s')
    {s : σ} (h : M.Reaches ok s) : inv s := by
  induction h with
  | start hs => exact hstart _ hs
  | step _ hok hnext ih => exact hstep _ _ _ ih hok hnext

theorem Machine.Reachable.invariant {M : Machine σ α} {inv : σ → Prop}
    (hstart : ∀ s, M.start s → inv s)
    (hstep : ∀ s a s', inv s → M.next s a = some s' → inv s')
    {s : σ} (h : M.Reachable s) : inv s :=
  Machine.Reaches.invariant hstart (fun s a s' hi _ hn => hstep s a s' hi hn) h

/-- The state a list of labels leads to, while every step meets `ok`. -/
def Machine.run (M : Machine σ α) (ok : σ → α → Prop) [∀ s a, Decidable (ok s a)] :
    σ → List α → Option σ
  | s, [] => some s
  | s, a :: labels => if ok s a then (M.next s a).bind fun s' => M.run ok s' labels else none

theorem Machine.run_reaches {M : Machine σ α} {ok : σ → α → Prop} [∀ s a, Decidable (ok s a)] :
    ∀ (labels : List α) {s s' : σ}, M.Reaches ok s → M.run ok s labels = some s' → M.Reaches ok s'
  | [], s, s', h, hr => by
    cases hr
    exact h
  | a :: labels, s, s', h, hr => by
    rw [Machine.run] at hr
    split at hr
    · rename_i hok
      obtain ⟨mid, hmid, hrest⟩ := Option.bind_eq_some_iff.mp hr
      exact run_reaches labels (.step h hok hmid) hrest
    · cases hr

/-- A check that a concrete run ends with holds of a state it reaches. -/
theorem Machine.exists_reaches {M : Machine σ α} (ok : σ → α → Prop) [∀ s a, Decidable (ok s a)]
    (check : σ → Bool) {s : σ} (h : M.start s) (labels : List α)
    (hcheck : (M.run ok s labels).any check = true) : ∃ s', M.Reaches ok s' ∧ check s' = true := by
  obtain ⟨s', hrun, hs'⟩ := (Option.any_eq_true check _).mp hcheck
  exact ⟨s', run_reaches labels (.start h) hrun, hs'⟩

/-- The same machine with some of its labels, under other names. -/
def Machine.relabel {β : Type v} (M : Machine σ α) (label : β → α) : Machine σ β where
  start := M.start
  next s b := M.next s (label b)

theorem Machine.Reaches.of_relabel {β : Type v} {M : Machine σ α} {label : β → α}
    {ok : σ → α → Prop} {ok' : σ → β → Prop} (hok : ∀ s b, ok' s b → ok s (label b)) {s : σ}
    (h : (M.relabel label).Reaches ok' s) : M.Reaches ok s := by
  induction h with
  | start hs => exact .start hs
  | step _ hok' hnext ih => exact .step ih (hok _ _ hok') hnext

/-- Every step a list of labels takes meets `P`. -/
def Machine.Along (M : Machine σ α) (P : σ → α → Prop) : σ → List α → Prop
  | _, [] => True
  | s, a :: labels => P s a ∧ ∀ s', M.next s a = some s' → M.Along P s' labels

/-- Two step properties that agree where `inv` holds agree along every run from there,
when the steps that have the second one keep `inv`. -/
theorem Machine.along_congr {M : Machine σ α} (inv : σ → Prop) {P Q : σ → α → Prop}
    (hagree : ∀ s a, inv s → (P s a ↔ Q s a))
    (hkeep : ∀ s a s', inv s → Q s a → M.next s a = some s' → inv s') :
    ∀ (labels : List α) {s : σ}, inv s → (M.Along P s labels ↔ M.Along Q s labels)
  | [], _, _ => Iff.rfl
  | a :: labels, s, hinv => by
    simp only [Machine.Along, hagree s a hinv]
    refine and_congr_right fun hq => forall_congr' fun s' => imp_congr_right fun hnext => ?_
    exact along_congr inv hagree hkeep labels (hkeep s a s' hinv hq hnext)

end Nos3.Base.Transition
