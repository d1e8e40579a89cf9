import Mathlib.Logic.Basic

/-!
# Routines that fail and keep their state

A routine takes a state to a result or an error together with the state reached:
what was stored before the error stays stored. `Ends` states what holds after a
return and after an error; its rules follow the ways routines are put together,
and `bind_ok`, `bind_error` take one run apart.
-/
namespace Nos3.Base.Program

universe u v

/-- Both parts of a successful sequence succeed. -/
theorem bind_eq_ok {ε : Type u} {α β : Type v} {first : Except ε α} {next : α → Except ε β}
    {b : β} : (first >>= next) = .ok b ↔ ∃ a, first = .ok a ∧ next a = .ok b := by
  cases first with
  | error e => simp [bind, Except.bind]
  | ok a => simp [bind, Except.bind]

theorem bind_eq_error {ε : Type u} {α β : Type v} {first : Except ε α} {next : α → Except ε β}
    {e : ε} : (first >>= next) = .error e ↔
      first = .error e ∨ ∃ a, first = .ok a ∧ next a = .error e := by
  cases first with
  | error e => simp [bind, Except.bind]
  | ok a => simp [bind, Except.bind]

theorem ok_bind {ε : Type u} {α β : Type v} (a : α) (next : α → Except ε β) :
    ((.ok a : Except ε α) >>= next) = next a := rfl

theorem error_bind {ε : Type u} {α β : Type v} (e : ε) (next : α → Except ε β) :
    ((.error e : Except ε α) >>= next) = .error e := rfl

def Routine (ε σ α : Type) : Type := σ → Except ε α × σ

variable {ε σ α β : Type}

namespace Routine

def ret (a : α) : Routine ε σ α := fun s => (.ok a, s)

def andThen (first : Routine ε σ α) (next : α → Routine ε σ β) : Routine ε σ β := fun s =>
  match first s with
  | (.ok a, s) => next a s
  | (.error e, s) => (.error e, s)

instance : Monad (Routine ε σ) where
  pure := ret
  bind := andThen

def fail (e : ε) : Routine ε σ α := fun s => (.error e, s)

def get : Routine ε σ σ := fun s => (.ok s, s)

def modify (f : σ → σ) : Routine ε σ Unit := fun s => (.ok (), f s)

def lift (result : Except ε α) : Routine ε σ α := fun s => (result, s)

/-- The error becomes a result that the caller may look at later. -/
def attempt (routine : Routine ε σ α) : Routine ε σ (Except ε α) := fun s =>
  (.ok (routine s).1, (routine s).2)

/-- Fails unless the condition holds. -/
def require (condition : Bool) (e : ε) : Routine ε σ Unit :=
  if condition then ret () else fail e

end Routine

open Routine

theorem bind_def (first : Routine ε σ α) (next : α → Routine ε σ β) (s : σ) :
    (first >>= next) s = match first s with
      | (.ok a, s) => next a s
      | (.error e, s) => (.error e, s) := rfl

theorem bind_ok {first : Routine ε σ α} {next : α → Routine ε σ β} {s s' : σ} {b : β} :
    (first >>= next) s = (.ok b, s') ↔
      ∃ a mid, first s = (.ok a, mid) ∧ next a mid = (.ok b, s') := by
  rw [bind_def]
  rcases first s with ⟨_ | a, mid⟩
  · simp
  · exact ⟨fun h => ⟨a, mid, rfl, h⟩, by rintro ⟨_, _, ⟨⟩, h⟩; exact h⟩

theorem bind_error {first : Routine ε σ α} {next : α → Routine ε σ β} {s s' : σ} {e : ε} :
    (first >>= next) s = (.error e, s') ↔
      first s = (.error e, s') ∨ ∃ a mid, first s = (.ok a, mid) ∧ next a mid = (.error e, s') := by
  rw [bind_def]
  rcases first s with ⟨_ | a, mid⟩
  · simp
  · exact ⟨fun h => .inr ⟨a, mid, rfl, h⟩, by rintro (⟨⟨⟩⟩ | ⟨_, _, ⟨⟩, h⟩); exact h⟩

theorem lift_ok {result : Except ε α} {a : α} {s s' : σ} :
    lift result s = (.ok a, s') ↔ result = .ok a ∧ s' = s := by
  simp [lift, eq_comm]

theorem lift_error {result : Except ε α} {e : ε} {s s' : σ} :
    lift result s = (.error e, s') ↔ result = .error e ∧ s' = s := by
  simp [lift, eq_comm]

theorem lift_bind_ok {result : Except ε α} {next : α → Routine ε σ β} {s s' : σ} {b : β} :
    (lift result >>= next) s = (.ok b, s') ↔ ∃ a, result = .ok a ∧ next a s = (.ok b, s') := by
  rw [bind_ok]
  constructor
  · rintro ⟨a, mid, hlift, hnext⟩
    obtain ⟨hresult, rfl⟩ := lift_ok.mp hlift
    exact ⟨a, hresult, hnext⟩
  · rintro ⟨a, hresult, hnext⟩
    exact ⟨a, s, lift_ok.mpr ⟨hresult, rfl⟩, hnext⟩

theorem lift_bind {result : Except ε α} {next : α → Routine ε σ β} {a : α} (h : result = .ok a)
    (s : σ) : (lift result >>= next) s = next a s := by
  rw [h]
  rfl

theorem lift_bind_error {result : Except ε α} {next : α → Routine ε σ β} {e : ε}
    (h : result = .error e) (s : σ) : (lift result >>= next) s = (.error e, s) := by
  rw [h]
  rfl

theorem get_bind (next : σ → Routine ε σ β) (s : σ) : (get >>= next) s = next s s := rfl

theorem modify_bind (f : σ → σ) (next : Unit → Routine ε σ β) (s : σ) :
    (modify f >>= next) s = next () (f s) := rfl

/-- A run is its result and the state it ends in. -/
theorem run_eq {run : Except ε α × σ} {result : Except ε α} (h : run.1 = result) :
    run = (result, run.2) := by
  rw [← h]

/-! ## How a run ends -/

/-- From `s` the routine returns with `post` or fails with `fails`. -/
def Ends (routine : Routine ε σ α) (s : σ) (post : α → σ → Prop) (fails : ε → σ → Prop) : Prop :=
  match routine s with
  | (.ok a, s') => post a s'
  | (.error e, s') => fails e s'

section Ends
variable {s : σ} {post : α → σ → Prop} {fails : ε → σ → Prop}

theorem Ends.ok {routine : Routine ε σ α} (h : Ends routine s post fails) {s' : σ} {a : α}
    (hrun : routine s = (.ok a, s')) : post a s' := by
  rwa [Ends, hrun] at h

theorem Ends.error {routine : Routine ε σ α} (h : Ends routine s post fails) {s' : σ} {e : ε}
    (hrun : routine s = (.error e, s')) : fails e s' := by
  rwa [Ends, hrun] at h

theorem Ends.ret {a : α} (h : post a s) : Ends (pure a : Routine ε σ α) s post fails := h

theorem Ends.modify {f : σ → σ} {post : Unit → σ → Prop} (h : post () (f s)) :
    Ends (Routine.modify f : Routine ε σ Unit) s post fails := h

theorem Ends.lift {result : Except ε α} (hok : ∀ a, result = .ok a → post a s)
    (herror : ∀ e, result = .error e → fails e s) :
    Ends (Routine.lift result : Routine ε σ α) s post fails := by
  cases result with
  | ok a => exact hok a rfl
  | error e => exact herror e rfl

theorem Ends.bind {first : Routine ε σ α} {next : α → Routine ε σ β} {mid : α → σ → Prop}
    {post : β → σ → Prop} (hfirst : Ends first s mid fails)
    (hnext : ∀ a s', mid a s' → Ends (next a) s' post fails) :
    Ends (first >>= next) s post fails := by
  rw [Ends, bind_def]
  rcases hrun : first s with ⟨e | a, s'⟩
  · exact hfirst.error hrun
  · exact hnext a s' (hfirst.ok hrun)

theorem Ends.lift_bind {result : Except ε α} {next : α → Routine ε σ β} {post : β → σ → Prop}
    (herror : ∀ e, result = .error e → fails e s)
    (hnext : ∀ a, result = .ok a → Ends (next a) s post fails) :
    Ends (Routine.lift result >>= next) s post fails := by
  cases result with
  | ok a => exact hnext a rfl
  | error e => exact herror e rfl

theorem Ends.get_bind {next : σ → Routine ε σ β} {post : β → σ → Prop}
    (h : Ends (next s) s post fails) : Ends (Routine.get >>= next) s post fails := h

theorem Ends.modify_bind {f : σ → σ} {next : Unit → Routine ε σ β} {post : β → σ → Prop}
    (h : Ends (next ()) (f s) post fails) : Ends (Routine.modify f >>= next) s post fails := h

theorem Ends.attempt {routine : Routine ε σ α} {post : Except ε α → σ → Prop}
    (h : Ends routine s (fun a s' => post (.ok a) s') fun e s' => post (.error e) s') :
    Ends (Routine.attempt routine) s post fails := by
  rw [Ends] at h
  rw [Ends, Routine.attempt]
  rcases hrun : routine s with ⟨e | a, s'⟩
  · rwa [hrun] at h
  · rwa [hrun] at h

theorem Ends.ite {condition : Prop} [Decidable condition] {yes no : Routine ε σ α}
    (hyes : condition → Ends yes s post fails) (hno : ¬condition → Ends no s post fails) :
    Ends (if condition then yes else no) s post fails := by
  by_cases h : condition
  · rw [if_pos h]
    exact hyes h
  · rw [if_neg h]
    exact hno h

theorem Ends.mono {routine : Routine ε σ α} {post' : α → σ → Prop}
    (h : Ends routine s post fails) (hpost : ∀ a s', post a s' → post' a s') :
    Ends routine s post' fails := by
  rw [Ends] at h ⊢
  rcases hrun : routine s with ⟨e | a, s'⟩
  · rwa [hrun] at h
  · rw [hrun] at h
    exact hpost a s' h

end Ends

/-! ## What a routine leaves alone -/

section View
variable {τ : Type} {view : σ → τ}

/-- The part of the state that `view` shows stays, however the routine ends. -/
def Preserves (view : σ → τ) (routine : Routine ε σ α) : Prop :=
  ∀ s, view (routine s).2 = view s

/-- An error leaves the viewed part as it was before the routine. -/
def RestoresOnError (view : σ → τ) (routine : Routine ε σ α) : Prop :=
  ∀ s e s', routine s = (.error e, s') → view s' = view s

theorem Preserves.restoresOnError {routine : Routine ε σ α} (h : Preserves view routine) :
    RestoresOnError view routine := by
  intro s e s' hrun
  have hview := h s
  rwa [hrun] at hview

theorem Preserves.ret (a : α) : Preserves view (pure a : Routine ε σ α) := fun _ => rfl

theorem Preserves.fail (e : ε) : Preserves view (Routine.fail e : Routine ε σ α) := fun _ => rfl

theorem Preserves.get : Preserves view (Routine.get : Routine ε σ σ) := fun _ => rfl

theorem Preserves.lift (result : Except ε α) :
    Preserves view (Routine.lift result : Routine ε σ α) := fun _ => rfl

theorem Preserves.attempt {routine : Routine ε σ α} (h : Preserves view routine) :
    Preserves view (Routine.attempt routine) := h

theorem Preserves.modify {f : σ → σ} (h : ∀ s, view (f s) = view s) :
    Preserves view (Routine.modify f : Routine ε σ Unit) := h

theorem Preserves.bind {first : Routine ε σ α} {next : α → Routine ε σ β}
    (hfirst : Preserves view first) (hnext : ∀ a, Preserves view (next a)) :
    Preserves view (first >>= next) := by
  intro s
  have h := hfirst s
  rw [bind_def]
  rcases hrun : first s with ⟨e | a, mid⟩
  · rw [hrun] at h
    exact h
  · rw [hrun] at h
    exact (hnext a mid).trans h

theorem Preserves.ite {condition : Prop} [Decidable condition] {yes no : Routine ε σ α}
    (hyes : Preserves view yes) (hno : Preserves view no) :
    Preserves view (if condition then yes else no) := by
  split
  · exact hyes
  · exact hno

theorem RestoresOnError.bind {first : Routine ε σ α} {next : α → Routine ε σ β}
    (hfirst : Preserves view first) (hnext : ∀ a, RestoresOnError view (next a)) :
    RestoresOnError view (first >>= next) := by
  intro s e s' hrun
  rcases bind_error.mp hrun with hfail | ⟨a, mid, hok, hfail⟩
  · exact hfirst.restoresOnError s e s' hfail
  · have hmid := hfirst s
    rw [hok] at hmid
    exact (hnext a mid e s' hfail).trans hmid

end View

end Nos3.Base.Program
