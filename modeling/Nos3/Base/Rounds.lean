import Mathlib.Data.Nat.Init
import Mathlib.Tactic.Common

/-!
# Loops in rounds

A round may fail, and says whether another one follows. A loop whose rounds
lower a measure, unless they change nothing, ends exactly when no round starts
in a state that it would leave as it is.
-/
namespace Nos3.Base.Rounds

variable {σ : Type} (body : σ → Option (σ × Bool))

/-- The loop, when it ends within `fuel` rounds. -/
def loop : Nat → σ → Option σ
  | 0, _ => none
  | fuel + 1, s => do
    let (s, another) ← body s
    if another then loop fuel s else some s

/-- The state round `n` starts in, when there is such a round. -/
def roundStart : Nat → σ → Option σ
  | 0, s => some s
  | n + 1, s => do
    let (s, another) ← body s
    if another then roundStart n s else none

variable {body}

theorem loop_succ {s s' : σ} {another : Bool} (h : body s = some (s', another)) (fuel : Nat) :
    loop body (fuel + 1) s = if another then loop body fuel s' else some s' := by
  rw [loop, h]
  rfl

theorem roundStart_succ {s s' : σ} {another : Bool} (h : body s = some (s', another)) (n : Nat) :
    roundStart body (n + 1) s = if another then roundStart body n s' else none := by
  rw [roundStart, h]
  rfl

/-- Loops that go through a first round. -/
theorem loop_exists_iff {s s' : σ} (h : body s = some (s', true)) (Result : σ → Prop) :
    (∃ fuel final, loop body fuel s = some final ∧ Result final) ↔
      ∃ fuel final, loop body fuel s' = some final ∧ Result final := by
  refine ⟨fun ⟨fuel, final, hloop, hresult⟩ => ?_, fun ⟨fuel, final, hloop, hresult⟩ => ?_⟩
  · cases fuel with
    | zero => cases hloop
    | succ fuel => exact ⟨fuel, final, (loop_succ h fuel).symm.trans hloop, hresult⟩
  · exact ⟨fuel + 1, final, (loop_succ h fuel).trans hloop, hresult⟩

/-- Loops whose first round is the last. -/
theorem loop_exists_last_iff {s s' : σ} (h : body s = some (s', false)) (Result : σ → Prop) :
    (∃ fuel final, loop body fuel s = some final ∧ Result final) ↔ Result s' := by
  refine ⟨fun ⟨fuel, final, hloop, hresult⟩ => ?_, fun hresult => ⟨1, s', loop_succ h 0, hresult⟩⟩
  cases fuel with
  | zero => cases hloop
  | succ fuel =>
    cases (loop_succ h fuel).symm.trans hloop
    exact hresult

theorem loop_of_failed {s : σ} (h : body s = none) (fuel : Nat) : loop body fuel s = none := by
  cases fuel with
  | zero => rfl
  | succ fuel =>
    rw [loop, h]
    rfl

/-- What the last round gives, of a loop that ends. -/
theorem loop_result {Inv Result : σ → Prop}
    (hround : ∀ s, Inv s → ∃ s' another, body s = some (s', another) ∧
      if another then Inv s' else Result s')
    {fuel : Nat} {s final : σ} (hs : Inv s) (h : loop body fuel s = some final) :
    Result final := by
  induction fuel generalizing s with
  | zero => cases h
  | succ fuel ih =>
    obtain ⟨s', another, hbody, hnext⟩ := hround s hs
    rw [loop_succ hbody] at h
    cases another with
    | true => exact ih hnext h
    | false => exact Option.some.inj h ▸ hnext

/-- A round that changes nothing is followed by itself. -/
theorem loop_of_stuck {s : σ} (h : body s = some (s, true)) (fuel : Nat) :
    loop body fuel s = none := by
  induction fuel with
  | zero => rfl
  | succ fuel ih => exact (loop_succ h fuel).trans ih

section Measure
variable {Inv Stuck Result : σ → Prop} {μ : σ → Nat}
  (hround : ∀ s, Inv s → ¬ Stuck s → ∃ s' another, body s = some (s', another) ∧
    if another then Inv s' ∧ μ s' < μ s else Result s')
include hround

theorem loop_ends {s : σ} (hs : Inv s) (h : ∀ n t, roundStart body n s = some t → ¬ Stuck t) :
    ∃ fuel s', loop body fuel s = some s' ∧ Result s' := by
  induction hm : μ s using Nat.strong_induction_on generalizing s with
  | _ m ih =>
    obtain ⟨s', another, hbody, hnext⟩ := hround s hs (h 0 s rfl)
    cases another with
    | false => exact ⟨1, s', loop_succ hbody 0, hnext⟩
    | true =>
      obtain ⟨fuel, final, hloop, hresult⟩ := ih (μ s') (hm ▸ hnext.2) hnext.1
        (fun n t ht => h (n + 1) t ((roundStart_succ hbody n).trans ht)) rfl
      exact ⟨fuel + 1, final, (loop_succ hbody fuel).trans hloop, hresult⟩

variable (hstuck : ∀ s, Inv s → Stuck s → body s = some (s, true))
include hstuck

theorem loop_of_roundStart_stuck {n : Nat} {s t : σ} (hs : Inv s)
    (ht : roundStart body n s = some t) (h : Stuck t) (fuel : Nat) : loop body fuel s = none := by
  induction n generalizing s fuel with
  | zero =>
    obtain rfl := Option.some.inj ht
    exact loop_of_stuck (hstuck s hs h) fuel
  | succ n ih =>
    by_cases hstart : Stuck s
    · exact loop_of_stuck (hstuck s hs hstart) fuel
    · obtain ⟨s', another, hbody, hnext⟩ := hround s hs hstart
      rw [roundStart_succ hbody] at ht
      cases another with
      | false => cases ht
      | true =>
        cases fuel with
        | zero => rfl
        | succ fuel =>
          rw [loop_succ hbody]
          exact ih hnext.1 ht fuel

theorem loop_ends_iff {s : σ} (hs : Inv s) :
    (∃ fuel s', loop body fuel s = some s' ∧ Result s') ↔
      ∀ n t, roundStart body n s = some t → ¬ Stuck t := by
  refine ⟨fun ⟨fuel, s', hloop, _⟩ n t ht hstuck' => ?_, loop_ends hround hs⟩
  rw [loop_of_roundStart_stuck hround hstuck hs ht hstuck' fuel] at hloop
  cases hloop

end Measure
end Nos3.Base.Rounds
