import Nos3.Time.Guarantees.CyclicTime
import Nos3.Base.Calendar

/-!
# The printed date

`CFE_TIME_Print` writes the date on the Gregorian calendar that lies the time behind
the epoch, cut off after five places of a second.
-/
namespace Nos3.Time
open Nos3.Msg (SysTime)
open Nos3.Base.BigEndian (Octet)
open Nos3.Base.ByteMemory
open Nos3.Base.Calendar

/-! ## Fractions of a second -/

theorem timeAssembleFromSubseconds_zero (subSeconds : BitVec 32) :
    timeAssembleFromSubseconds 0 subSeconds =
      ((subSeconds.toNat * 2500000 / 2 ^ 30 : Nat) : Int) := by
  have hquarter : OS_TIME_TICKS_PER_SECOND >>> (2 : Nat) = 2500000 := rfl
  rw [timeAssembleFromSubseconds, hquarter, Int.zero_mul, Int.zero_add,
    Int.shiftRight_eq_div_pow]
  omega

theorem toNat_timeGetMicrosecondsPart {ticks : Nat} (h : ticks < 10000000) :
    (timeGetMicrosecondsPart ticks).toNat = ticks / 10 := by
  have hsecond : OS_TIME_TICKS_PER_SECOND = 10000000 := rfl
  have hmicro : BitVec.ofInt 32 OS_TIME_TICKS_PER_USEC = 10 := rfl
  have hten : (10 : BitVec 32).toNat = 10 := rfl
  rw [timeGetMicrosecondsPart, timeGetFractionalPart, hsecond, hmicro,
    Int.tmod_eq_of_lt (by omega) (by omega), BitVec.ofInt_natCast, BitVec.toNat_udiv,
    BitVec.toNat_ofNat, hten, Nat.mod_eq_of_lt (by omega)]

/-- The microseconds are cut off, not rounded. -/
theorem toNat_sub2MicroSecs (subSeconds : BitVec 32) :
    (sub2MicroSecs subSeconds).toNat = subSeconds.toNat * 1000000 / 2 ^ 32 := by
  have hlt := subSeconds.isLt
  rw [sub2MicroSecs, timeAssembleFromSubseconds_zero, toNat_timeGetMicrosecondsPart (by omega)]
  omega

theorem timeAssembleFromNanoseconds_zero (nanoseconds : BitVec 32) :
    timeAssembleFromNanoseconds 0 nanoseconds = ((nanoseconds.toNat / 100 : Nat) : Int) := by
  have hresolution : OS_TIME_TICK_RESOLUTION_NS = (100 : Nat) := rfl
  rw [timeAssembleFromNanoseconds, hresolution, Int.zero_mul, Int.zero_add, ← Int.ofNat_tdiv]

theorem toNat_timeGetSubsecondsPart {ticks : Nat} (h : ticks < 10000000) :
    (timeGetSubsecondsPart ticks).toNat = (ticks * 2 ^ 30 + 2499999) / 2500000 := by
  have hsecond : OS_TIME_TICKS_PER_SECOND = 10000000 := rfl
  have hquarter : OS_TIME_TICKS_PER_SECOND >>> (2 : Nat) = (2500000 : Nat) := rfl
  have hfrac : ((ticks : Int) <<< (30 : Nat)) + (2500000 : Nat) - 1 =
      ((ticks * 2 ^ 30 + 2499999 : Nat) : Int) := by
    rw [Int.shiftLeft_eq]
    omega
  rw [timeGetSubsecondsPart, timeGetFractionalPart, hquarter, hsecond,
    Int.tmod_eq_of_lt (by omega) (by omega)]
  rw [hfrac, ← Int.ofNat_tdiv, BitVec.ofInt_natCast, BitVec.toNat_ofNat, Nat.mod_eq_of_lt (by omega)]

/-- The conversion to subseconds rounds up, so that the microseconds come back. -/
theorem sub2MicroSecs_micro2SubSecs {microSeconds : BitVec 32}
    (h : microSeconds.toNat < 1000000) :
    sub2MicroSecs (micro2SubSecs microSeconds) = microSeconds := by
  have hle : ¬ microSeconds > 999999 := by
    have hmax : (999999 : BitVec 32).toNat = 999999 := rfl
    rw [gt_iff_lt, BitVec.lt_def, hmax]
    omega
  have hnano : (microSeconds * 1000).toNat = microSeconds.toNat * 1000 := by
    have hthousand : (1000 : BitVec 32).toNat = 1000 := rfl
    rw [BitVec.toNat_mul, hthousand, Nat.mod_eq_of_lt (by omega)]
  apply BitVec.eq_of_toNat_eq
  rw [toNat_sub2MicroSecs, micro2SubSecs, if_neg hle, timeAssembleFromNanoseconds_zero, hnano,
    toNat_timeGetSubsecondsPart (by omega)]
  omega

/-! ## Carries -/

theorem carryMinutes_spec (minutes seconds : BitVec 32)
    (h : minutes.toNat + seconds.toNat / 60 < 2 ^ 32) :
    (carryMinutes minutes seconds).1.toNat = minutes.toNat + seconds.toNat / 60 ∧
    (carryMinutes minutes seconds).2.toNat = seconds.toNat % 60 := by
  fun_induction carryMinutes minutes seconds with
  | case1 minutes seconds hle ih =>
    have hsixty : (60 : BitVec 32).toNat = 60 := rfl
    have hone : (1 : BitVec 32).toNat = 1 := rfl
    have hsub := BitVec.toNat_sub_of_le hle
    rw [BitVec.le_def, hsixty] at hle
    rw [hsixty] at hsub
    have hadd : (minutes + 1).toNat = minutes.toNat + 1 := by
      rw [BitVec.toNat_add, hone]
      omega
    rw [hsub, hadd] at ih
    obtain ⟨hminutes, hseconds⟩ := ih (by omega)
    exact ⟨by omega, by omega⟩
  | case2 minutes seconds hlt =>
    rw [BitVec.not_le, BitVec.lt_def] at hlt
    have hsixty : (60 : BitVec 32).toNat = 60 := rfl
    exact ⟨by simp only; omega, by simp only; omega⟩

theorem toNat_daysInThisYear (year : BitVec 32) :
    (daysInThisYear year).toNat = daysInYear year.toNat := by
  simp only [daysInThisYear, daysInYear, IsLeap, ← BitVec.toNat_inj, ne_eq, BitVec.toNat_umod,
    BitVec.reduceToNat]
  grind

/-- The loop ends in the year of the day it is given. -/
theorem countYears_spec {years days : BitVec 32} {last : Nat} (hlast : last ≤ 2 ^ 32)
    (h : daysBefore years.toNat + days.toNat < daysBefore last) :
    daysBefore (countYears years days).1.toNat + (countYears years days).2.toNat =
      daysBefore years.toNat + days.toNat ∧
    (countYears years days).2.toNat < daysInYear (countYears years days).1.toNat := by
  fun_induction countYears years days with
  | case1 years days hlt =>
    rw [BitVec.lt_def, toNat_daysInThisYear] at hlt
    exact ⟨rfl, hlt⟩
  | case2 years days hge ih =>
    rw [BitVec.not_lt] at hge
    have hsub := BitVec.toNat_sub_of_le hge
    rw [BitVec.le_def, toNat_daysInThisYear] at hge
    rw [toNat_daysInThisYear] at hsub
    have hyear : years.toNat + 1 < last := by
      apply lt_of_daysBefore_lt
      rw [daysBefore_succ]
      omega
    have hadd : (years + 1).toNat = years.toNat + 1 := by
      have hone : (1 : BitVec 32).toNat = 1 := rfl
      rw [BitVec.toNat_add, hone]
      omega
    rw [hsub, hadd, daysBefore_succ] at ih
    have hsum : daysBefore years.toNat + daysInYear years.toNat +
        (days.toNat - daysInYear years.toNat) = daysBefore years.toNat + days.toNat := by
      omega
    rw [hsum] at ih
    exact ih h

/-! ## The date -/

/-- The constants of the epoch are those of a date. -/
structure Epoch.InRange (epoch : Epoch) : Prop where
  day_pos : 0 < epoch.day.toNat
  day_le : epoch.day.toNat ≤ daysInYear epoch.year.toNat
  hour_lt : epoch.hour.toNat < 24
  minute_lt : epoch.minute.toNat < 60
  second_lt : epoch.second.toNat < 60
  micros_lt : epoch.micros.toNat < 1000000

def Epoch.date (epoch : Epoch) (h : epoch.InRange) : Date 1000000 where
  year := epoch.year.toNat
  day := epoch.day.toNat - 1
  hour := epoch.hour.toNat
  minute := epoch.minute.toNat
  second := epoch.second.toNat
  fraction := epoch.micros.toNat
  day_lt := Nat.lt_of_lt_of_le (Nat.sub_lt h.day_pos Nat.one_pos) h.day_le
  hour_lt := h.hour_lt
  minute_lt := h.minute_lt
  second_lt := h.second_lt
  fraction_lt := h.micros_lt

/-- The instant that lies the time behind the epoch, in units of 2^-32 µs. -/
def Epoch.instantOf (epoch : Epoch) (h : epoch.InRange) (t : SysTime) : Nat :=
  (epoch.date h).instant * 2 ^ 32 + (value t).toNat * 1000000

/-- The computed fields are those of a date, its day counted from 1. -/
structure Shows (fields : CalendarFields) (date : Date 100000) : Prop where
  years : fields.years.toNat = date.year
  days : fields.days.toNat = date.day + 1
  hours : fields.hours.toNat = date.hour
  minutes : fields.minutes.toNat = date.minute
  seconds : fields.seconds.toNat = date.second
  micros : fields.micros.toNat = date.fraction

/-- The time as whole seconds and microseconds, cut off to ten of these. -/
theorem instantOf_div {epoch : Epoch} (h : epoch.InRange) (t : SysTime) :
    epoch.instantOf h t / (10 * 2 ^ 32) =
      (((epoch.date h).seconds + t.seconds.toNat) * 1000000 +
        (epoch.micros.toNat + t.subseconds.toNat * 1000000 / 2 ^ 32)) / 10 := by
  have hepoch : (epoch.date h).instant =
      (epoch.date h).seconds * 1000000 + epoch.micros.toNat := by
    simp only [Date.instant, Epoch.date]
  rw [Epoch.instantOf, toNat_value, hepoch]
  omega

/-- The minutes and seconds before the carry. -/
theorem toNat_minutes {epoch : Epoch} (h : epoch.InRange) (micros seconds : BitVec 32)
    (hmicros : micros.toNat < 2000000) :
    (micros / 60000000 + seconds / 60 + epoch.minute).toNat =
      seconds.toNat / 60 + epoch.minute.toNat := by
  have hminute := h.minute_lt
  have hlt := seconds.isLt
  simp only [BitVec.toNat_add, BitVec.toNat_udiv, BitVec.reduceToNat]
  omega

theorem toNat_seconds {epoch : Epoch} (h : epoch.InRange) (micros seconds : BitVec 32)
    (hmicros : micros.toNat < 2000000) :
    (micros % 60000000 / 1000000 + seconds % 60 + epoch.second).toNat =
      micros.toNat / 1000000 + seconds.toNat % 60 + epoch.second.toNat := by
  have hsecond := h.second_lt
  simp only [BitVec.toNat_add, BitVec.toNat_udiv, BitVec.toNat_umod, BitVec.reduceToNat]
  omega

theorem toNat_days {epoch : Epoch} (h : epoch.InRange) (minutes : BitVec 32) :
    ((minutes / 60 + epoch.hour) / 24 + (epoch.day - 1)).toNat =
      (minutes.toNat / 60 + epoch.hour.toNat) / 24 + (epoch.day.toNat - 1) := by
  have hpos := h.day_pos
  have hday := Nat.le_trans h.day_le (daysInYear_le _)
  have hhour := h.hour_lt
  have hlt := minutes.isLt
  simp only [BitVec.toNat_add, BitVec.toNat_sub, BitVec.toNat_udiv, BitVec.reduceToNat]
  omega

theorem toNat_hours {epoch : Epoch} (h : epoch.InRange) (minutes : BitVec 32) :
    ((minutes / 60 + epoch.hour) % 24).toNat = (minutes.toNat / 60 + epoch.hour.toNat) % 24 := by
  have hhour := h.hour_lt
  have hlt := minutes.isLt
  simp only [BitVec.toNat_add, BitVec.toNat_udiv, BitVec.toNat_umod, BitVec.reduceToNat]
  omega

theorem toNat_micros (micros : BitVec 32) (hmicros : micros.toNat < 2000000) :
    (micros % 60000000 % 1000000 / 10).toNat = micros.toNat % 1000000 / 10 := by
  simp only [BitVec.toNat_udiv, BitVec.toNat_umod, BitVec.reduceToNat]
  omega

theorem calendarFields_shows {epoch : Epoch} (h : epoch.InRange) {t : SysTime} {last : Nat}
    (hlast : last ≤ 2 ^ 32) (hyear : epoch.instantOf h t < yearStart (1000000 * 2 ^ 32) last) :
    ∃ date, Shows (calendarFields epoch t) date ∧
      date.instant = epoch.instantOf h t / (10 * 2 ^ 32) := by
  have hhour := h.hour_lt
  have hminute := h.minute_lt
  have hsecond := h.second_lt
  have hmicro := h.micros_lt
  have hsec := t.seconds.isLt
  have hsub := t.subseconds.isLt
  have hmicros : (sub2MicroSecs t.subseconds + epoch.micros).toNat =
      epoch.micros.toNat + t.subseconds.toNat * 1000000 / 2 ^ 32 := by
    rw [BitVec.toNat_add, toNat_sub2MicroSecs]
    omega
  have hlt : (sub2MicroSecs t.subseconds + epoch.micros).toNat < 2000000 := by omega
  simp only [calendarFields]
  generalize sub2MicroSecs t.subseconds + epoch.micros = micros at hmicros hlt ⊢
  have hspec := carryMinutes_spec (micros / 60000000 + t.seconds / 60 + epoch.minute)
    (micros % 60000000 / 1000000 + t.seconds % 60 + epoch.second)
  rw [toNat_minutes h micros t.seconds hlt, toNat_seconds h micros t.seconds hlt] at hspec
  obtain ⟨hminutes, hseconds⟩ := hspec (by omega)
  rcases hcarry : carryMinutes (micros / 60000000 + t.seconds / 60 + epoch.minute)
    (micros % 60000000 / 1000000 + t.seconds % 60 + epoch.second) with ⟨minutes, seconds⟩
  rw [hcarry] at hminutes hseconds
  simp only at hminutes hseconds
  -- The seconds from the first day of year 0, in the fields reached so far.
  have hpassed : (epoch.date h).seconds + t.seconds.toNat + micros.toNat / 1000000 =
      (((daysBefore epoch.year.toNat +
        ((minutes / 60 + epoch.hour) / 24 + (epoch.day - 1)).toNat) * 24 +
        (minutes.toNat / 60 + epoch.hour.toNat) % 24) * 60 + minutes.toNat % 60) * 60 +
        seconds.toNat := by
    have hstart : (epoch.date h).seconds = (((daysBefore epoch.year.toNat +
      (epoch.day.toNat - 1)) * 24 + epoch.hour.toNat) * 60 + epoch.minute.toNat) * 60 +
      epoch.second.toNat := by simp only [Date.seconds, Epoch.date]
    rw [hstart, toNat_days h, hminutes, hseconds]
    omega
  have hinstant := instantOf_div h t
  rw [← hmicros] at hinstant
  have hbound : daysBefore epoch.year.toNat +
      ((minutes / 60 + epoch.hour) / 24 + (epoch.day - 1)).toNat < daysBefore last := by
    rw [yearStart] at hyear
    omega
  obtain ⟨hsum, hday⟩ := countYears_spec hlast hbound
  rcases hcount : countYears epoch.year ((minutes / 60 + epoch.hour) / 24 + (epoch.day - 1))
    with ⟨years, days⟩
  rw [hcount] at hsum hday
  simp only at hsum hday
  rw [← hsum] at hpassed
  let date : Date 100000 :=
    { year := years.toNat
      day := days.toNat
      hour := (minutes.toNat / 60 + epoch.hour.toNat) % 24
      minute := minutes.toNat % 60
      second := seconds.toNat
      fraction := micros.toNat % 1000000 / 10
      day_lt := hday
      hour_lt := Nat.mod_lt _ (by decide)
      minute_lt := Nat.mod_lt _ (by decide)
      second_lt := by omega
      fraction_lt := by omega }
  have hdate : date.seconds =
      (epoch.date h).seconds + t.seconds.toNat + micros.toNat / 1000000 := by
    rw [hpassed, Date.seconds]
  refine ⟨date, ?_, ?_⟩
  · have hone : (1 : BitVec 32).toNat = 1 := rfl
    have hyears : days.toNat < 366 := Nat.lt_of_lt_of_le hday (daysInYear_le _)
    constructor
    · simp only [date]
    · simp only [date, BitVec.toNat_add, hone]
      omega
    · exact toNat_hours h minutes
    · simp only [date, BitVec.toNat_umod, BitVec.reduceToNat]
    · simp only [date]
    · exact toNat_micros micros hlt
  · have hfraction : date.instant = date.seconds * 100000 + micros.toNat % 1000000 / 10 := by
      rw [Date.instant]
    rw [hinstant, hfraction, hdate]
    omega

/-! ## The text -/

/-- The last `width` decimal digits of a number. -/
def decimal : Nat → Nat → List Octet
  | 0, _ => []
  | width + 1, n => decimal width (n / 10) ++ [BitVec.ofNat 8 (0x30 + n % 10)]

/-- `yyyy-ddd-hh:mm:ss.xxxxx` and the null behind it. -/
def dateText (date : Date 100000) : List Octet :=
  decimal 4 date.year ++ [0x2D] ++ decimal 3 (date.day + 1) ++ [0x2D] ++ decimal 2 date.hour ++
    [0x3A] ++ decimal 2 date.minute ++ [0x3A] ++ decimal 2 date.second ++ [0x2E] ++
    decimal 5 date.fraction ++ [0]

theorem digit_eq (n : BitVec 32) : digit n = BitVec.ofNat 8 (0x30 + n.toNat) := by
  apply BitVec.eq_of_toNat_eq
  simp only [digit, BitVec.toNat_add, BitVec.toNat_setWidth, BitVec.toNat_ofNat,
    BitVec.reduceToNat]
  omega

theorem digits_two {n : BitVec 32} (h : n.toNat < 100) :
    [digit (n / 10), digit (n % 10)] = decimal 2 n.toNat := by
  have htens : n.toNat / 10 % 10 = n.toNat / 10 := by omega
  simp only [decimal, digit_eq, BitVec.toNat_udiv, BitVec.toNat_umod, BitVec.reduceToNat, htens,
    List.nil_append, List.cons_append]

theorem digits_three {n : BitVec 32} (h : n.toNat < 1000) :
    [digit (n / 100), digit (n % 100 / 10), digit (n % 100 % 10)] = decimal 3 n.toNat := by
  have hhundreds : n.toNat / 10 / 10 % 10 = n.toNat / 100 := by omega
  have htens : n.toNat / 10 % 10 = n.toNat % 100 / 10 := by omega
  have hones : n.toNat % 10 = n.toNat % 100 % 10 := by omega
  simp only [decimal, digit_eq, BitVec.toNat_udiv, BitVec.toNat_umod, BitVec.reduceToNat,
    hhundreds, htens, ← hones, List.nil_append, List.cons_append]

theorem digits_four {n : BitVec 32} (h : n.toNat < 10000) :
    [digit (n / 1000), digit (n % 1000 / 100), digit (n % 1000 % 100 / 10),
      digit (n % 1000 % 100 % 10)] = decimal 4 n.toNat := by
  have hthousands : n.toNat / 10 / 10 / 10 % 10 = n.toNat / 1000 := by omega
  have hhundreds : n.toNat / 10 / 10 % 10 = n.toNat % 1000 / 100 := by omega
  have htens : n.toNat / 10 % 10 = n.toNat % 1000 % 100 / 10 := by omega
  have hones : n.toNat % 10 = n.toNat % 1000 % 100 % 10 := by omega
  simp only [decimal, digit_eq, BitVec.toNat_udiv, BitVec.toNat_umod, BitVec.reduceToNat,
    hthousands, hhundreds, htens, ← hones, List.nil_append, List.cons_append]

theorem digits_five {n : BitVec 32} (h : n.toNat < 100000) :
    [digit (n / 10000), digit (n % 10000 / 1000), digit (n % 10000 % 1000 / 100),
      digit (n % 10000 % 1000 % 100 / 10), digit (n % 10000 % 1000 % 100 % 10)] =
      decimal 5 n.toNat := by
  have hten : n.toNat / 10 / 10 / 10 / 10 % 10 = n.toNat / 10000 := by omega
  have hthousands : n.toNat / 10 / 10 / 10 % 10 = n.toNat % 10000 / 1000 := by omega
  have hhundreds : n.toNat / 10 / 10 % 10 = n.toNat % 10000 % 1000 / 100 := by omega
  have htens : n.toNat / 10 % 10 = n.toNat % 10000 % 1000 % 100 / 10 := by omega
  have hones : n.toNat % 10 = n.toNat % 10000 % 1000 % 100 % 10 := by omega
  simp only [decimal, digit_eq, BitVec.toNat_udiv, BitVec.toNat_umod, BitVec.reduceToNat,
    hten, hthousands, hhundreds, htens, ← hones, List.nil_append, List.cons_append]

theorem calendarText_eq {fields : CalendarFields} {date : Date 100000} (h : Shows fields date)
    (hyear : date.year < 10000) : calendarText fields = dateText date := by
  have hday := Nat.lt_of_lt_of_le date.day_lt (daysInYear_le _)
  have hhour := date.hour_lt
  have hminute := date.minute_lt
  have hsecond := date.second_lt
  rw [dateText, ← h.years, ← h.days, ← h.hours, ← h.minutes, ← h.seconds, ← h.micros,
    ← digits_four (h.years ▸ hyear), ← digits_three (by rw [h.days]; omega),
    ← digits_two (by rw [h.hours]; omega), ← digits_two (by rw [h.minutes]; omega),
    ← digits_two (by rw [h.seconds]; omega), ← digits_five (h.micros ▸ date.fraction_lt)]
  simp only [calendarText, List.cons_append, List.nil_append]

@[simp] theorem decimal_length (width n : Nat) : (decimal width n).length = width := by
  induction width generalizing n with
  | zero => rfl
  | succ width ih => simp [decimal, ih]

theorem dateText_length (date : Date 100000) : (dateText date).length = 24 := by
  simp [dateText]

/-- The first `n` octets that a list is copied to are the list's. -/
theorem copyOut_copyIn_list (m : Memory) (a : Nat) (text : List Octet) :
    copyOut (copyIn m a text.length fun k => text.getD k 0) a text.length = text := by
  rw [copyOut_copyIn]
  apply List.ext_getElem
  · simp
  · intro k _ hk
    simp [List.getD_eq_getElem?_getD, hk]

theorem year_lt {date : Date 100000} {epoch : Epoch} {h : epoch.InRange} {t : SysTime} {last : Nat}
    (hinstant : date.instant = epoch.instantOf h t / (10 * 2 ^ 32))
    (hyear : epoch.instantOf h t < yearStart (1000000 * 2 ^ 32) last) : date.year < last := by
  apply lt_of_daysBefore_lt
  rw [Date.instant, Date.seconds] at hinstant
  rw [yearStart] at hyear
  omega

theorem timePrint_memory (epoch : Epoch) (m : Memory) {printBuffer : Nat} (h : printBuffer ≠ 0)
    (t : SysTime) : (timePrint epoch m printBuffer t).memory =
      copyIn m printBuffer (calendarText (calendarFields epoch t)).length
        fun k => (calendarText (calendarFields epoch t)).getD k 0 := by
  rw [timePrint, if_neg h]

/-- `CFE_TIME_Print` is the calendar: the octets from the buffer on are the text of the only
date that lies the time behind the epoch, cut off to ten microseconds; no other octet
changes. -/
theorem timePrint_calendar {epoch : Epoch} (h : epoch.InRange) {t : SysTime}
    (hyear : epoch.instantOf h t < yearStart (1000000 * 2 ^ 32) 10000) (m : Memory)
    {printBuffer : Nat} (hbuffer : printBuffer ≠ 0) :
    ∃ date : Date 100000,
      (∀ other : Date 100000,
        other.instant = epoch.instantOf h t / (10 * 2 ^ 32) ↔ other = date) ∧
      date.year < 10000 ∧
      copyOut (timePrint epoch m printBuffer t).memory printBuffer 24 = dateText date ∧
      ∀ i, i < printBuffer ∨ printBuffer + 24 ≤ i →
        (timePrint epoch m printBuffer t).memory i = m i := by
  obtain ⟨date, hshows, hinstant⟩ := calendarFields_shows h (by decide) hyear
  have hfour := year_lt hinstant hyear
  have hmemory := timePrint_memory epoch m hbuffer t
  rw [calendarText_eq hshows hfour, dateText_length] at hmemory
  refine ⟨date, fun other => ⟨fun hother => ?_, ?_⟩, hfour, ?_, fun i hi => ?_⟩
  · exact Date.instant_injective (hother.trans hinstant.symm)
  · rintro rfl
    exact hinstant
  · have hcopy := copyOut_copyIn_list m printBuffer (dateText date)
    rwa [dateText_length, ← hmemory] at hcopy
  · rw [hmemory]
    exact copyIn_outside hi

/-- Every time is printed where the epoch is some generations before the year 10000. -/
theorem instantOf_lt {epoch : Epoch} (h : epoch.InRange) (t : SysTime)
    (hyear : epoch.year.toNat ≤ 9800) :
    epoch.instantOf h t < yearStart (1000000 * 2 ^ 32) 10000 := by
  have hbefore := daysBefore_le epoch.year.toNat
  have hlast := le_daysBefore 10000
  have hday := Nat.le_trans h.day_le (daysInYear_le _)
  have hhour := h.hour_lt
  have hminute := h.minute_lt
  have hsecond := h.second_lt
  have hmicro := h.micros_lt
  have hlt := (value t).isLt
  rw [Epoch.instantOf, Date.instant, Date.seconds, yearStart]
  simp only [Epoch.date]
  generalize daysBefore 10000 = last at hlast ⊢
  omega

/-- The epoch of the sample configuration, and the last second of a leap day as time. -/
theorem timePrint_calendar_leapDay : ∃ date : Date 100000,
    (∀ other : Date 100000,
      other.instant = Epoch.instantOf ⟨1980, 1, 0, 0, 0, 0⟩ (by constructor <;> decide)
        ⟨5183999, 0xC0000000⟩ / (10 * 2 ^ 32) ↔ other = date) ∧
    date.year < 10000 ∧
    copyOut (timePrint ⟨1980, 1, 0, 0, 0, 0⟩ (fun _ => 0) 0x100
      ⟨5183999, 0xC0000000⟩).memory 0x100 24 = dateText date ∧
    ∀ i, i < 0x100 ∨ 0x100 + 24 ≤ i →
      (timePrint ⟨1980, 1, 0, 0, 0, 0⟩ (fun _ => 0) 0x100
        ⟨5183999, 0xC0000000⟩).memory i = 0 :=
  have hrange : Epoch.InRange ⟨1980, 1, 0, 0, 0, 0⟩ := by constructor <;> decide
  timePrint_calendar hrange (instantOf_lt hrange _ (by decide)) (fun _ => 0) (by decide)

end Nos3.Time
