import Mathlib.Order.Basic
import Mathlib.Tactic.SplitIfs

/-!
# The Gregorian calendar

Days are counted from the first day of year 0. A date is a year, a day in it and a
time of day to `n` parts of a second; it is determined by the instant it names.
-/
namespace Nos3.Base.Calendar

def IsLeap (year : Nat) : Prop := year % 4 = 0 ∧ (year % 100 ≠ 0 ∨ year % 400 = 0)

instance (year : Nat) : Decidable (IsLeap year) := inferInstanceAs (Decidable (_ ∧ _))

def daysInYear (year : Nat) : Nat := if IsLeap year then 366 else 365

/-- The days before the first one of a year. -/
def daysBefore : Nat → Nat
  | 0 => 0
  | year + 1 => daysBefore year + daysInYear year

@[simp] theorem daysBefore_succ (year : Nat) :
    daysBefore (year + 1) = daysBefore year + daysInYear year := rfl

theorem daysBefore_mono {year year' : Nat} (h : year ≤ year') :
    daysBefore year ≤ daysBefore year' := by
  induction h with
  | refl => exact Nat.le_refl _
  | step _ ih => exact Nat.le_trans ih (Nat.le_add_right _ _)

theorem lt_of_daysBefore_lt {year year' : Nat} (h : daysBefore year < daysBefore year') :
    year < year' :=
  Nat.lt_of_not_le fun hle => Nat.not_lt_of_le (daysBefore_mono hle) h

theorem daysInYear_le (year : Nat) : daysInYear year ≤ 366 := by
  rw [daysInYear]
  split_ifs <;> decide

theorem le_daysInYear (year : Nat) : 365 ≤ daysInYear year := by
  rw [daysInYear]
  split_ifs <;> decide

theorem daysBefore_le (year : Nat) : daysBefore year ≤ 366 * year := by
  induction year with
  | zero => exact Nat.le_refl _
  | succ year ih =>
    have hyear := daysInYear_le year
    rw [daysBefore_succ]
    omega

theorem le_daysBefore (year : Nat) : 365 * year ≤ daysBefore year := by
  induction year with
  | zero => exact Nat.le_refl _
  | succ year ih =>
    have hyear := le_daysInYear year
    rw [daysBefore_succ]
    omega

/-- A day of the calendar is in one year only. -/
theorem year_unique {year year' day day' : Nat} (hday : day < daysInYear year)
    (hday' : day' < daysInYear year') (h : daysBefore year + day = daysBefore year' + day') :
    year = year' := by
  rcases Nat.lt_trichotomy year year' with hlt | heq | hlt
  · have hmono := daysBefore_mono (Nat.succ_le_of_lt hlt)
    rw [Nat.succ_eq_add_one, daysBefore_succ] at hmono
    omega
  · exact heq
  · have hmono := daysBefore_mono (Nat.succ_le_of_lt hlt)
    rw [Nat.succ_eq_add_one, daysBefore_succ] at hmono
    omega

/-- A date to `n` parts of a second; the first day of a year is day 0. -/
@[ext] structure Date (n : Nat) where
  year : Nat
  day : Nat
  hour : Nat
  minute : Nat
  second : Nat
  fraction : Nat
  day_lt : day < daysInYear year
  hour_lt : hour < 24
  minute_lt : minute < 60
  second_lt : second < 60
  fraction_lt : fraction < n

variable {n : Nat}

/-- The seconds from the first day of year 0. -/
def Date.seconds (d : Date n) : Nat :=
  (((daysBefore d.year + d.day) * 24 + d.hour) * 60 + d.minute) * 60 + d.second

/-- The parts of a second from the first day of year 0. -/
def Date.instant (d : Date n) : Nat := d.seconds * n + d.fraction

/-- The instant at which a year begins. -/
def yearStart (n year : Nat) : Nat := daysBefore year * 86400 * n

theorem Date.seconds_eq {d d' : Date n} (h : d.instant = d'.instant) :
    d.seconds = d'.seconds ∧ d.fraction = d'.fraction := by
  have hpos : 0 < n := Nat.zero_lt_of_lt d.fraction_lt
  have hdiv (e : Date n) : e.instant / n = e.seconds := by
    rw [instant, Nat.mul_comm, Nat.mul_add_div hpos, Nat.div_eq_of_lt e.fraction_lt, Nat.add_zero]
  have hmod (e : Date n) : e.instant % n = e.fraction := by
    rw [instant, Nat.mul_comm, Nat.mul_add_mod, Nat.mod_eq_of_lt e.fraction_lt]
  exact ⟨by rw [← hdiv, h, hdiv], by rw [← hmod, h, hmod]⟩

theorem Date.instant_injective {d d' : Date n} (h : d.instant = d'.instant) : d = d' := by
  obtain ⟨hseconds, hfraction⟩ := Date.seconds_eq h
  simp only [Date.seconds] at hseconds
  have := d.hour_lt
  have := d'.hour_lt
  have := d.minute_lt
  have := d'.minute_lt
  have := d.second_lt
  have := d'.second_lt
  have hday : daysBefore d.year + d.day = daysBefore d'.year + d'.day := by omega
  have hyear := year_unique d.day_lt d'.day_lt hday
  rw [hyear] at hday
  ext
  · exact hyear
  all_goals omega

end Nos3.Base.Calendar
