import Mathlib.Data.List.Basic

/-!
# Changes checked one by one

A list of changes is worked off in order; each is checked against the state
reached so far and then made, and the first that is refused ends the run. What
was made before stays made.
-/
namespace Nos3.Base.CheckedSequence

universe u v

structure Checked (σ : Type u) (α : Type v) where
  check : σ → α → Bool
  apply : σ → α → σ

variable {σ : Type u} {α : Type v} (C : Checked σ α)

/-- The state reached and the change that was refused. -/
def Checked.run : σ → List α → σ × Option α
  | s, [] => (s, none)
  | s, a :: rest => if C.check s a then Checked.run (C.apply s a) rest else (s, some a)

variable {C}

theorem Checked.run_refused_first {s : σ} {a : α} (h : C.check s a = false) (rest : List α) :
    C.run s (a :: rest) = (s, some a) := by
  rw [Checked.run, if_neg (by simp [h])]

theorem Checked.run_cons {s : σ} {a : α} (h : C.check s a = true) (rest : List α) :
    C.run s (a :: rest) = C.run (C.apply s a) rest := by
  rw [Checked.run, if_pos h]

section Invariant
variable {inv : List α → σ → Prop}

/-- What every change that passes its check keeps holds when the run ends: of the
whole list, or of a front part with the refused change behind it. -/
theorem Checked.run_invariant
    (hstep : ∀ done s a, inv done s → C.check s a = true → inv (done ++ [a]) (C.apply s a)) :
    ∀ (changes done : List α) (s : σ), inv done s →
      match C.run s changes with
      | (s', none) => inv (done ++ changes) s'
      | (s', some a) => ∃ front back, changes = front ++ a :: back ∧ inv (done ++ front) s' ∧
          C.check s' a = false
  | [], done, s, h => by
    rw [Checked.run, List.append_nil]
    exact h
  | b :: rest, done, s, h => by
    cases hcheck : C.check s b with
    | false =>
      rw [run_refused_first hcheck]
      exact ⟨[], rest, rfl, by rwa [List.append_nil], hcheck⟩
    | true =>
      have hrest := run_invariant hstep rest _ _ (hstep done s b h hcheck)
      rw [run_cons hcheck]
      cases hrun : C.run (C.apply s b) rest with
      | mk s' refused =>
        rw [hrun] at hrest
        cases refused with
        | none =>
          rw [List.append_assoc] at hrest
          exact hrest
        | some a =>
          obtain ⟨front, back, hsplit, hinv, hfalse⟩ := hrest
          refine ⟨b :: front, back, by rw [hsplit]; rfl, ?_, hfalse⟩
          rwa [List.append_assoc] at hinv

end Invariant

end Nos3.Base.CheckedSequence
