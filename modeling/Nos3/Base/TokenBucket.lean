import Mathlib.Algebra.Order.Ring.Int
import Mathlib.Tactic.Linarith

/-!
# Token buckets

Tokens are gained with time up to a capacity, and each offer draws its cost whether it
passes or not, down to a floor. A gain below one cost is not paid out but left to grow.
-/
namespace Nos3.Base.TokenBucket

/-- `gain` is what an elapsed time is worth. -/
structure Bucket where
  cost : ℤ
  capacity : ℤ
  floor : ℤ
  gain : ℤ → ℤ

/-- The tokens, and the time up to which they are paid out. -/
structure Level where
  tokens : ℤ
  since : ℤ
  deriving DecidableEq

namespace Bucket

def fill (b : Bucket) (now : ℤ) (s : Level) : Level :=
  if b.cost ≤ b.gain (now - s.since) then
    ⟨min (s.tokens + b.gain (now - s.since)) b.capacity, now⟩
  else s

def draw (b : Bucket) (s : Level) : Level := { s with tokens := max (s.tokens - b.cost) b.floor }

def passes (b : Bucket) (now : ℤ) (s : Level) : Bool := 0 < (b.fill now s).tokens

def offer (b : Bucket) (now : ℤ) (s : Level) : Level := b.draw (b.fill now s)

/-- How many of the offers made at these times pass. -/
def passed (b : Bucket) : List ℤ → Level → ℤ
  | [], _ => 0
  | now :: later, s => (if b.passes now s then 1 else 0) + b.passed later (b.offer now s)

/-- What an elapsed time is worth differs from the sum over its parts by the slack at most. -/
structure Proper (b : Bucket) (slack : ℤ) : Prop where
  cost_pos : 0 < b.cost
  floor_le : b.floor ≤ -b.cost
  capacity_pos : 0 < b.capacity
  gain_nonneg : ∀ t, 0 ≤ t → 0 ≤ b.gain t
  gain_parts : ∀ t u, 0 ≤ t → 0 ≤ u → b.gain t + b.gain u ≤ b.gain (t + u)
  gain_whole : ∀ t u, 0 ≤ t → 0 ≤ u → b.gain (t + u) ≤ b.gain t + b.gain u + slack

/-- A level at `now`, as the calls leave it. -/
structure Holds (b : Bucket) (now : ℤ) (s : Level) : Prop where
  floor_le : b.floor ≤ s.tokens
  le_capacity : s.tokens ≤ b.capacity
  since_le : s.since ≤ now

/-- What the tokens grow to until `stop` without a further offer and without a capacity. -/
def worth (b : Bucket) (stop : ℤ) (s : Level) : ℤ := s.tokens + b.gain (stop - s.since)

end Bucket

/-- The times do not decrease, from `now` to `stop`. -/
def Ordered : ℤ → List ℤ → ℤ → Prop
  | now, [], stop => now ≤ stop
  | now, next :: later, stop => now ≤ next ∧ Ordered next later stop

variable {b : Bucket} {slack now next stop : ℤ} {s : Level} {times : List ℤ}

theorem Ordered.le (h : Ordered now times stop) : now ≤ stop := by
  induction times generalizing now with
  | nil => exact h
  | cons next later ih => exact h.1.trans (ih h.2)

namespace Bucket

theorem Holds.later (hs : b.Holds now s) (hnext : now ≤ next) : b.Holds next s :=
  ⟨hs.floor_le, hs.le_capacity, hs.since_le.trans hnext⟩

theorem Proper.gain_zero (hb : b.Proper slack) : b.gain 0 = 0 := by
  have hnonneg := hb.gain_nonneg 0 (le_refl 0)
  have hparts := hb.gain_parts 0 0 (le_refl 0) (le_refl 0)
  rw [add_zero] at hparts
  omega

theorem Proper.gain_mono (hb : b.Proper slack) {t u : ℤ} (ht : 0 ≤ t) (htu : t ≤ u) :
    b.gain t ≤ b.gain u := by
  have hrest := hb.gain_nonneg (u - t) (by omega)
  have hparts := hb.gain_parts t (u - t) ht (by omega)
  rw [show t + (u - t) = u by omega] at hparts
  omega

/-! ## One offer -/

theorem holds_fill (hb : b.Proper slack) (hs : b.Holds now s) : b.Holds now (b.fill now s) := by
  unfold fill
  split
  case isTrue hpaid =>
    have hcost := hb.cost_pos
    have hfloor := hs.floor_le
    have hlow := hb.floor_le
    have hpos := hb.capacity_pos
    exact ⟨le_min (by omega) (by omega), min_le_right _ _, le_refl now⟩
  case isFalse => exact hs

theorem holds_offer (hb : b.Proper slack) (hs : b.Holds now s) : b.Holds now (b.offer now s) := by
  have hfill := holds_fill hb hs
  have hcost := hb.cost_pos
  have hlow := hb.floor_le
  have hpos := hb.capacity_pos
  have hcap := hfill.le_capacity
  exact ⟨le_max_right _ _, max_le (by omega) (by omega), hfill.since_le⟩

/-- Paying out early gains nothing. -/
theorem worth_fill (hb : b.Proper slack) (hs : b.Holds now s) (hnow : now ≤ stop) :
    b.worth stop (b.fill now s) ≤ b.worth stop s := by
  unfold fill
  split
  case isTrue =>
    have hsince := hs.since_le
    have hsum := hb.gain_parts (now - s.since) (stop - now) (by omega) (by omega)
    rw [show now - s.since + (stop - now) = stop - s.since by omega] at hsum
    have hmin := min_le_left (s.tokens + b.gain (now - s.since)) b.capacity
    simp only [worth]
    omega
  case isFalse => exact le_refl _

/-- An offer that passes is paid for in full, and one that does not adds nothing. -/
theorem worth_offer (hb : b.Proper slack) (hs : b.Holds now s) (hnow : now ≤ stop) :
    b.cost * (if b.passes now s then 1 else 0) + b.worth stop (b.offer now s) ≤
      b.worth stop s := by
  have hfill := worth_fill hb hs hnow
  have hfloor := (holds_fill hb hs).floor_le
  have hlow := hb.floor_le
  have hcost := hb.cost_pos
  unfold worth at hfill ⊢
  by_cases hpass : 0 < (b.fill now s).tokens
  · have hpaid : (b.offer now s).tokens = (b.fill now s).tokens - b.cost :=
      max_eq_left (by omega)
    have hsince : (b.offer now s).since = (b.fill now s).since := rfl
    simp only [passes, hpass, decide_true, if_true, mul_one, hpaid, hsince]
    omega
  · have hmax : (b.offer now s).tokens ≤ (b.fill now s).tokens := max_le (by omega) hfloor
    have hsince : (b.offer now s).since = (b.fill now s).since := rfl
    simp only [passes, hpass, decide_false, Bool.false_eq_true, if_false, mul_zero, hsince]
    omega

theorem worth_pos_of_passes (hb : b.Proper slack) (hs : b.Holds now s) (hnow : now ≤ stop)
    (hpass : b.passes now s = true) : 0 < b.worth stop s := by
  have hfill := worth_fill hb hs hnow
  have hsince := (holds_fill hb hs).since_le
  have hgain := hb.gain_nonneg (stop - (b.fill now s).since) (by omega)
  have htokens : 0 < (b.fill now s).tokens := by simpa [passes] using hpass
  simp only [worth] at hfill ⊢
  omega

theorem fill_fill (hb : b.Proper slack) : b.fill now (b.fill now s) = b.fill now s := by
  have hcost := hb.cost_pos
  by_cases hpaid : b.cost ≤ b.gain (now - s.since)
  · have hnone : ¬b.cost ≤ b.gain (now - now) := by
      rw [sub_self, hb.gain_zero]
      omega
    rw [fill, fill, if_pos hpaid, if_neg hnone]
  · rw [fill, fill, if_neg hpaid, if_neg hpaid]

theorem Proper.slack_nonneg (hb : b.Proper slack) : 0 ≤ slack := by
  have hwhole := hb.gain_whole 0 0 (le_refl 0) (le_refl 0)
  rw [add_zero, hb.gain_zero] at hwhole
  omega

/-- Once an offer is made at most the capacity is left, and a gain not yet paid out. -/
theorem worth_fill_le (hb : b.Proper slack) (hs : b.Holds now s) (hnow : now ≤ stop) :
    b.worth stop (b.fill now s) < b.capacity + b.cost + slack + b.gain (stop - now) := by
  have hcap := (holds_fill hb hs).le_capacity
  have hslack := hb.slack_nonneg
  have hcost := hb.cost_pos
  unfold fill at hcap ⊢
  split at hcap
  case isTrue hpaid =>
    rw [if_pos hpaid]
    simp only [worth] at hcap ⊢
    omega
  case isFalse hearly =>
    rw [if_neg hearly]
    have hsince := hs.since_le
    have hwhole := hb.gain_whole (now - s.since) (stop - now) (by omega) (by omega)
    rw [show now - s.since + (stop - now) = stop - s.since by omega] at hwhole
    simp only [worth]
    omega

/-! ## Many offers -/

theorem passed_nonneg (times : List ℤ) (s : Level) : 0 ≤ b.passed times s := by
  induction times generalizing s with
  | nil => exact le_refl 0
  | cons now later ih =>
    have hlater := ih (b.offer now s)
    unfold passed
    split <;> omega

/-- All but the last of the offers that pass are paid for out of the tokens there are. -/
theorem cost_passed_lt (hb : b.Proper slack) (hs : b.Holds now s) (htimes : Ordered now times stop)
    (hsome : 0 < b.passed times s) : b.cost * b.passed times s < b.worth stop s + b.cost := by
  induction times generalizing now s with
  | nil => exact absurd hsome (lt_irrefl 0)
  | cons next later ih =>
    obtain ⟨hnext, hlater⟩ := htimes
    have hs := hs.later hnext
    have hoffer := worth_offer hb hs hlater.le
    rw [passed, mul_add]
    rcases (passed_nonneg (b := b) later (b.offer next s)).eq_or_lt with hnone | hrest
    · -- the last one that passes needs a token only
      rw [passed, ← hnone, add_zero] at hsome
      have hpass : b.passes next s = true := by
        by_contra hpass
        rw [if_neg hpass] at hsome
        exact lt_irrefl 0 hsome
      have hpos := worth_pos_of_passes hb hs hlater.le hpass
      rw [← hnone, mul_zero, if_pos hpass]
      omega
    · have hih := ih (holds_offer hb hs) hlater hrest
      omega

theorem passed_fill (hb : b.Proper slack) (later : List ℤ) :
    b.passed (now :: later) (b.fill now s) = b.passed (now :: later) s := by
  have hpasses : b.passes now (b.fill now s) = b.passes now s := by
    rw [passes, fill_fill hb, passes]
  have hoffer : b.offer now (b.fill now s) = b.offer now s := by
    rw [offer, fill_fill hb, offer]
  rw [passed, hpasses, hoffer, passed]

/-- What passes in a window is worth less than the capacity, the window and two offers. -/
theorem passed_window (hb : b.Proper slack) (hs : b.Holds now s)
    (htimes : Ordered now times stop) :
    b.cost * b.passed times s < b.capacity + 2 * b.cost + slack + b.gain (stop - now) := by
  have hcost := hb.cost_pos
  have hslack := hb.slack_nonneg
  have hpos := hb.capacity_pos
  have hstop := htimes.le
  have hgain := hb.gain_nonneg (stop - now) (by omega)
  rcases (passed_nonneg (b := b) times s).eq_or_lt with hnone | hsome
  · rw [← hnone, mul_zero]
    omega
  · cases times with
    | nil => exact absurd hsome (lt_irrefl 0)
    | cons next later =>
      obtain ⟨hnext, hlater⟩ := htimes
      have hs := hs.later hnext
      rw [← passed_fill hb] at hsome ⊢
      have hfrom : Ordered next (next :: later) stop := ⟨le_refl next, hlater⟩
      have hlt := cost_passed_lt hb (holds_fill hb hs) hfrom hsome
      have hworth := worth_fill_le hb hs hlater.le
      have hmono := hb.gain_mono (show 0 ≤ stop - next by have := hlater.le; omega)
        (show stop - next ≤ stop - now by omega)
      omega

/-- Long enough after the last offer the next one passes. -/
theorem passes_after (hb : b.Proper slack) (hs : b.Holds now s) (hnext : now ≤ next)
    (hlong : -b.floor < b.gain (next - now)) : b.passes next s = true := by
  have hsince := hs.since_le
  have hfloor := hs.floor_le
  have hlow := hb.floor_le
  have hpos := hb.capacity_pos
  have hmore := hb.gain_mono (show 0 ≤ next - now by omega)
    (show next - now ≤ next - s.since by omega)
  have htokens : 0 < (b.fill next s).tokens := by
    unfold fill
    rw [if_pos (by omega)]
    exact lt_min (by omega) hpos
  simpa [passes] using htokens

end Bucket

end Nos3.Base.TokenBucket
