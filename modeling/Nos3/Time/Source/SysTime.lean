import Nos3.Msg.Source.Header
import Nos3.Base.ByteMemory

/-!
# Spacecraft time

`cfe_time_api.c`: the arithmetic on times, their comparison and the conversion to
a calendar date in text. The interval functions are those of `osapi-clock.h`.
-/
namespace Nos3.Time
open Nos3.Msg (SysTime)
open Nos3.Base.BigEndian (Octet)
open Nos3.Base.ByteMemory (Memory copyIn)

/-- `CFE_TIME_Add` -/
def timeAdd (time1 time2 : SysTime) : SysTime :=
  let subseconds := time1.subseconds + time2.subseconds
  if subseconds < time1.subseconds then ⟨time1.seconds + time2.seconds + 1, subseconds⟩
  else ⟨time1.seconds + time2.seconds, subseconds⟩

/-- `CFE_TIME_Subtract` -/
def timeSubtract (time1 time2 : SysTime) : SysTime :=
  let subseconds := time1.subseconds - time2.subseconds
  if subseconds > time1.subseconds then ⟨time1.seconds - time2.seconds - 1, subseconds⟩
  else ⟨time1.seconds - time2.seconds, subseconds⟩

/-- `CFE_TIME_Compare_t` -/
inductive Compare where
  | aLtB | equal | aGtB
  deriving DecidableEq, Repr

def Compare.code : Compare → Int
  | .aLtB => -1
  | .equal => 0
  | .aGtB => 1

def CFE_TIME_NEGATIVE : BitVec 32 := 0x80000000

/-- `CFE_TIME_Compare`; a difference that is too large is taken for a rollover. -/
def timeCompare (timeA timeB : SysTime) : Compare :=
  if timeA.seconds > timeB.seconds then
    if timeA.seconds - timeB.seconds > CFE_TIME_NEGATIVE then .aLtB else .aGtB
  else if timeA.seconds < timeB.seconds then
    if timeB.seconds - timeA.seconds > CFE_TIME_NEGATIVE then .aGtB else .aLtB
  else if timeA.subseconds > timeB.subseconds then .aGtB
  else if timeA.subseconds < timeB.subseconds then .aLtB
  else .equal

/-! ## Intervals of the operating system -/

def OS_TIME_TICK_RESOLUTION_NS : Int := 100
def OS_TIME_TICKS_PER_SECOND : Int := 1000000000 / OS_TIME_TICK_RESOLUTION_NS
def OS_TIME_TICKS_PER_USEC : Int := 1000 / OS_TIME_TICK_RESOLUTION_NS

/-- `OS_TimeAssembleFromSubseconds`; an interval is its number of ticks. -/
def timeAssembleFromSubseconds (seconds : Int) (subseconds : BitVec 32) : Int :=
  seconds * OS_TIME_TICKS_PER_SECOND +
    ((subseconds.toNat * (OS_TIME_TICKS_PER_SECOND >>> (2 : Nat))) >>> (30 : Nat))

/-- `OS_TimeAssembleFromNanoseconds` -/
def timeAssembleFromNanoseconds (seconds : Int) (nanoseconds : BitVec 32) : Int :=
  seconds * OS_TIME_TICKS_PER_SECOND +
    Int.tdiv nanoseconds.toNat OS_TIME_TICK_RESOLUTION_NS

/-- `OS_TimeGetFractionalPart` -/
def timeGetFractionalPart (tm : Int) : Int := Int.tmod tm OS_TIME_TICKS_PER_SECOND

/-- `OS_TimeGetMicrosecondsPart`: the fraction becomes a `uint32` before it is divided. -/
def timeGetMicrosecondsPart (tm : Int) : BitVec 32 :=
  BitVec.ofInt 32 (timeGetFractionalPart tm) / BitVec.ofInt 32 OS_TIME_TICKS_PER_USEC

/-- `OS_TimeGetSubsecondsPart` -/
def timeGetSubsecondsPart (tm : Int) : BitVec 32 :=
  let frac := (timeGetFractionalPart tm <<< (30 : Nat)) + (OS_TIME_TICKS_PER_SECOND >>> (2 : Nat))
  BitVec.ofInt 32 (Int.tdiv (frac - 1) (OS_TIME_TICKS_PER_SECOND >>> (2 : Nat)))

/-- `CFE_TIME_Sub2MicroSecs` -/
def sub2MicroSecs (subSeconds : BitVec 32) : BitVec 32 :=
  timeGetMicrosecondsPart (timeAssembleFromSubseconds 0 subSeconds)

/-- `CFE_TIME_Micro2SubSecs` -/
def micro2SubSecs (microSeconds : BitVec 32) : BitVec 32 :=
  if microSeconds > 999999 then 0xFFFFFFFF
  else timeGetSubsecondsPart (timeAssembleFromNanoseconds 0 (microSeconds * 1000))

/-! ## The time in text -/

/-- The `CFE_MISSION_TIME_EPOCH_…` constants of a mission. -/
structure Epoch where
  year : BitVec 32
  day : BitVec 32
  hour : BitVec 32
  minute : BitVec 32
  second : BitVec 32
  micros : BitVec 32

/-- The loop that moves whole minutes from the seconds to the minutes. -/
def carryMinutes (minutes seconds : BitVec 32) : BitVec 32 × BitVec 32 :=
  if 60 ≤ seconds then carryMinutes (minutes + 1) (seconds - 60) else (minutes, seconds)
termination_by seconds.toNat
decreasing_by
  rename_i h
  rw [BitVec.le_def] at h
  rw [BitVec.toNat_sub_of_le h]
  exact Nat.sub_lt (Nat.lt_of_lt_of_le (by decide) h) (by decide)

def daysInThisYear (year : BitVec 32) : BitVec 32 :=
  if year % 4 = 0 then
    if year % 100 ≠ 0 then 366
    else if year % 400 = 0 then 366
    else 365
  else 365

theorem daysInThisYear_pos (year : BitVec 32) : 0 < (daysInThisYear year).toNat := by
  rw [daysInThisYear]
  split_ifs <;> decide

/-- The loop that counts years off the days. -/
def countYears (years days : BitVec 32) : BitVec 32 × BitVec 32 :=
  if days < daysInThisYear years then (years, days)
  else countYears (years + 1) (days - daysInThisYear years)
termination_by days.toNat
decreasing_by
  rename_i h
  rw [BitVec.lt_def, Nat.not_lt] at h
  rw [BitVec.toNat_sub_of_le (BitVec.le_def.mpr h)]
  exact Nat.sub_lt (Nat.lt_of_lt_of_le (daysInThisYear_pos years) h) (daysInThisYear_pos years)

/-- The fields that `CFE_TIME_Print` has computed when it begins to write. -/
structure CalendarFields where
  years : BitVec 32
  days : BitVec 32
  hours : BitVec 32
  minutes : BitVec 32
  seconds : BitVec 32
  micros : BitVec 32

/-- The first half of `CFE_TIME_Print`. The epoch's seconds, minutes, hours and days come in
at different stages. -/
def calendarFields (epoch : Epoch) (timeToPrint : SysTime) : CalendarFields :=
  let micros := sub2MicroSecs timeToPrint.subseconds + epoch.micros
  let minutes := micros / 60000000 + timeToPrint.seconds / 60 + epoch.minute
  let micros := micros % 60000000
  let seconds := micros / 1000000 + timeToPrint.seconds % 60 + epoch.second
  let micros := micros % 1000000
  let carried := carryMinutes minutes seconds
  let hours := carried.1 / 60 + epoch.hour
  let minutes := carried.1 % 60
  let days := hours / 24 + (epoch.day - 1)
  let hours := hours % 24
  let counted := countYears epoch.year days
  ⟨counted.1, counted.2 + 1, hours, minutes, carried.2, micros / 10⟩

/-- `'0' + (char)n` -/
def digit (n : BitVec 32) : Octet := 0x30 + n.setWidth 8

/-- The characters that `CFE_TIME_Print` writes, in their order. -/
def calendarText (fields : CalendarFields) : List Octet :=
  let years := fields.years
  let days := fields.days
  let micros := fields.micros
  [digit (years / 1000), digit (years % 1000 / 100), digit (years % 1000 % 100 / 10),
    digit (years % 1000 % 100 % 10), 0x2D,
    digit (days / 100), digit (days % 100 / 10), digit (days % 100 % 10), 0x2D,
    digit (fields.hours / 10), digit (fields.hours % 10), 0x3A,
    digit (fields.minutes / 10), digit (fields.minutes % 10), 0x3A,
    digit (fields.seconds / 10), digit (fields.seconds % 10), 0x2E,
    digit (micros / 10000), digit (micros % 10000 / 1000), digit (micros % 10000 % 1000 / 100),
    digit (micros % 10000 % 1000 % 100 / 10), digit (micros % 10000 % 1000 % 100 % 10), 0]

/-- What `CFE_TIME_Print` leaves: the memory and the lines of the system log. -/
structure Printed where
  memory : Memory
  sysLog : List String := []

/-- `CFE_TIME_Print`; address 0 is the null pointer. -/
def timePrint (epoch : Epoch) (m : Memory) (printBuffer : Nat) (timeToPrint : SysTime) : Printed :=
  if printBuffer = 0 then ⟨m, ["CFE_TIME_Print: Failed invalid arguments\n"]⟩
  else
    let text := calendarText (calendarFields epoch timeToPrint)
    ⟨copyIn m printBuffer text.length fun k => text.getD k 0, []⟩

end Nos3.Time
