import Mathlib.Data.List.Basic
import Mathlib.Order.Basic

/-!
# Rules for sequential writers and readers

A writer appends to an output and may fail for good; a reader takes from the
front of what is left. `Emits` and `Consumes` say what a routine does when all
goes well, and compose along sequencing. `Stable` is for readers that do not
look past what they consume, `Steps` for a relation kept by every step, failed
or not. The state types are arbitrary: a codec supplies its views.
-/
namespace Nos3.Base.Wire

universe u

variable {σ α γ β : Type u}

/-! ## Writers -/

/-- What a writer's state looks like from outside. -/
structure Writer (σ β : Type u) where
  fits : σ → Prop
  ok : σ → Prop
  out : σ → List β

/-- A routine that, unless it fails, found the writer healthy and appended `bytes`. -/
def Emits (W : Writer σ β) (f : σ → σ) (bytes : List β) : Prop :=
  ∀ s, W.fits s → W.fits (f s) ∧ (W.ok (f s) → W.ok s ∧ W.out (f s) = W.out s ++ bytes)

section Emits
variable {W : Writer σ β}

theorem emits_nothing : Emits W (fun s => s) [] := fun _ h => ⟨h, fun hok => ⟨hok, by simp⟩⟩

theorem Emits.seq {f g : σ → σ} {a b : List β} (hf : Emits W f a) (hg : Emits W g b) :
    Emits W (fun s => g (f s)) (a ++ b) := by
  intro s hs
  obtain ⟨hfits, hout⟩ := hf s hs
  obtain ⟨hfits', hout'⟩ := hg (f s) hfits
  refine ⟨hfits', fun hok => ?_⟩
  obtain ⟨hok1, h1⟩ := hout' hok
  obtain ⟨hok0, h0⟩ := hout hok1
  exact ⟨hok0, by rw [h1, h0, List.append_assoc]⟩

end Emits

/-! ## Readers -/

/-- A healthy reader has a position and something left to read. -/
structure Reader (σ β : Type u) where
  ok : σ → Prop
  pos : σ → Nat
  rest : σ → List β

/-- From position `p`, a routine that takes exactly `bytes` off the front and
returns `v`. -/
def Consumes (R : Reader σ β) (p : Nat) (m : StateM σ α) (bytes : List β) (v : α) : Prop :=
  ∀ s tail, R.ok s → R.pos s = p → R.rest s = bytes ++ tail →
    (m s).1 = v ∧ R.ok (m s).2 ∧ R.pos (m s).2 = p + bytes.length ∧ R.rest (m s).2 = tail

/-- The same for a routine that reads to the end of the input. -/
def ConsumesAll (R : Reader σ β) (p : Nat) (m : StateM σ α) (bytes : List β) (v : α) : Prop :=
  ∀ s, R.ok s → R.pos s = p → R.rest s = bytes →
    (m s).1 = v ∧ R.ok (m s).2 ∧ R.pos (m s).2 = p + bytes.length ∧ R.rest (m s).2 = []

section Consumes
variable {R : Reader σ β} {p : Nat}

theorem consumes_pure (v : α) : Consumes R p (pure v) [] v := by
  intro s tail hok hp hrest
  exact ⟨rfl, hok, hp, hrest⟩

theorem Consumes.bind {m : StateM σ α} {k : α → StateM σ γ} {a b : List β} {v : α} {u : γ}
    (hm : Consumes R p m a v) (hk : Consumes R (p + a.length) (k v) b u) :
    Consumes R p (m >>= k) (a ++ b) u := by
  intro s tail hok hp hrest
  rw [List.append_assoc] at hrest
  obtain ⟨hv, hok', hp', hrest'⟩ := hm s (b ++ tail) hok hp hrest
  obtain ⟨hu, hok'', hp'', hrest''⟩ := hk (m s).2 tail hok' hp' hrest'
  have hbind : (m >>= k) s = k v (m s).2 := by
    rw [← hv]
    rfl
  rw [hbind]
  exact ⟨hu, hok'', by rw [hp'', List.length_append, Nat.add_assoc], hrest''⟩

theorem Consumes.all {m : StateM σ α} {a : List β} {v : α} (hm : Consumes R p m a v) :
    ConsumesAll R p m a v :=
  fun s hok hp hrest => hm s [] hok hp (by simpa using hrest)

theorem Consumes.bindAll {m : StateM σ α} {k : α → StateM σ γ} {a b : List β} {v : α} {u : γ}
    (hm : Consumes R p m a v) (hk : ConsumesAll R (p + a.length) (k v) b u) :
    ConsumesAll R p (m >>= k) (a ++ b) u := by
  intro s hok hp hrest
  obtain ⟨hv, hok', hp', hrest'⟩ := hm s b hok hp hrest
  obtain ⟨hu, hok'', hp'', hrest''⟩ := hk (m s).2 hok' hp' hrest'
  have hbind : (m >>= k) s = k v (m s).2 := by
    rw [← hv]
    rfl
  rw [hbind]
  exact ⟨hu, hok'', by rw [hp'', List.length_append, Nat.add_assoc], hrest''⟩

/-- What follows a routine that has reached the end reads nothing more. -/
theorem ConsumesAll.bind {m : StateM σ α} {k : α → StateM σ γ} {a : List β} {v : α} {u : γ}
    (hm : ConsumesAll R p m a v) (hk : ConsumesAll R (p + a.length) (k v) [] u) :
    ConsumesAll R p (m >>= k) a u := by
  intro s hok hp hrest
  obtain ⟨hv, hok', hp', hrest'⟩ := hm s hok hp hrest
  obtain ⟨hu, hok'', hp'', hrest''⟩ := hk (m s).2 hok' hp' hrest'
  have hbind : (m >>= k) s = k v (m s).2 := by
    rw [← hv]
    rfl
  rw [hbind]
  exact ⟨hu, hok'', by simpa using hp'', hrest''⟩

end Consumes

/-! ## Readers that do not look ahead -/

/-- Under a change `ext` of the input, a routine that succeeds does the same and
keeps `inv`; failure is final. -/
structure Stable (inv ok : σ → Prop) (ext : σ → σ) (m : StateM σ α) : Prop where
  keeps : ∀ s, inv s → ok (m s).2 → inv (m s).2
  sticky : ∀ s, ok (m s).2 → ok s
  same : ∀ s, inv s → ok (m s).2 → m (ext s) = ((m s).1, ext (m s).2)

section Stable
variable {inv ok : σ → Prop} {ext : σ → σ}

theorem stable_pure (v : α) : Stable inv ok ext (pure v : StateM σ α) :=
  ⟨fun _ h _ => h, fun _ h => h, fun _ _ _ => rfl⟩

theorem Stable.bind {m : StateM σ α} {k : α → StateM σ γ} (hm : Stable inv ok ext m)
    (hk : ∀ a, Stable inv ok ext (k a)) : Stable inv ok ext (m >>= k) where
  keeps s hs hok := (hk (m s).1).keeps _ (hm.keeps s hs ((hk (m s).1).sticky _ hok)) hok
  sticky s hok := hm.sticky s ((hk (m s).1).sticky _ hok)
  same s hs hok := by
    have hok1 : ok (m s).2 := (hk (m s).1).sticky _ hok
    have hbind : (m >>= k) (ext s) = k (m (ext s)).1 (m (ext s)).2 := rfl
    rw [hbind, hm.same s hs hok1]
    exact (hk (m s).1).same _ (hm.keeps s hs hok1) hok

end Stable

/-! ## A relation kept by every step -/

def Steps (rel : σ → σ → Prop) (m : StateM σ α) : Prop := ∀ s, rel s (m s).2

section Steps
variable {rel : σ → σ → Prop}

theorem steps_pure (hrefl : ∀ s, rel s s) (v : α) : Steps rel (pure v : StateM σ α) :=
  fun s => hrefl s

theorem Steps.bind (htrans : ∀ a b c, rel a b → rel b c → rel a c) {m : StateM σ α}
    {k : α → StateM σ γ} (hm : Steps rel m) (hk : ∀ a, Steps rel (k a)) :
    Steps rel (m >>= k) :=
  fun s => htrans _ _ _ (hm s) (hk (m s).1 (m s).2)

theorem Steps.map {m : StateM σ α} (f : α → γ) (hm : Steps rel m) : Steps rel (f <$> m) := hm

end Steps

/-! ## What a routine returns, from any state -/

def Returns (post : α → Prop) (m : StateM σ α) : Prop := ∀ s, post (m s).1

section Returns

theorem returns_pure {post : α → Prop} {v : α} (h : post v) :
    Returns post (pure v : StateM σ α) := fun _ => h

theorem returns_any (m : StateM σ α) : Returns (fun _ => True) m := fun _ => trivial

theorem Returns.bind {pre : α → Prop} {post : γ → Prop} {m : StateM σ α} {k : α → StateM σ γ}
    (hm : Returns pre m) (hk : ∀ a, pre a → Returns post (k a)) : Returns post (m >>= k) :=
  fun s => hk (m s).1 (hm s) (m s).2

theorem Returns.map {post : γ → Prop} {m : StateM σ α} {f : α → γ}
    (hm : Returns (fun a => post (f a)) m) : Returns post (f <$> m) := hm

end Returns

end Nos3.Base.Wire
