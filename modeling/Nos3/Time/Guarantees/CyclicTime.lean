import Nos3.Time.Source.SysTime
import Mathlib.Tactic.SplitIfs

/-!
# Times on a cycle

A time is a number of 64 bits. Its halves are added and subtracted apart; the carry
and the borrow make that the arithmetic of the whole numbers. The comparison orders
times that lie less than half of the cycle apart as their difference does.
-/
namespace Nos3.Time
open Nos3.Msg (SysTime)

/-- A time as a number of units of 2^-32 s. -/
def value (t : SysTime) : BitVec 64 := t.seconds ++ t.subseconds

theorem toNat_value (t : SysTime) :
    (value t).toNat = t.seconds.toNat * 2 ^ 32 + t.subseconds.toNat := by
  rw [value, BitVec.toNat_append, ← Nat.shiftLeft_add_eq_or_of_lt t.subseconds.isLt,
    Nat.shiftLeft_eq]

theorem value_injective {a b : SysTime} (h : value a = value b) : a = b := by
  have hnat := congrArg BitVec.toNat h
  rw [toNat_value, toNat_value] at hnat
  have ha := a.subseconds.isLt
  have hb := b.subseconds.isLt
  obtain ⟨as, au⟩ := a
  obtain ⟨bs, bu⟩ := b
  have hs : as = bs := BitVec.eq_of_toNat_eq (by simp only at *; omega)
  have hu : au = bu := BitVec.eq_of_toNat_eq (by simp only at *; omega)
  rw [hs, hu]

/-! ## Sums and differences -/

/-- The low half is below its operand exactly where it passed zero. -/
theorem value_timeAdd (a b : SysTime) : value (timeAdd a b) = value a + value b := by
  apply BitVec.eq_of_toNat_eq
  have := a.subseconds.isLt
  have := b.subseconds.isLt
  have hone : (1 : BitVec 32).toNat = 1 := rfl
  rw [BitVec.toNat_add, toNat_value a, toNat_value b]
  simp only [timeAdd, BitVec.lt_def, BitVec.toNat_add]
  split
  · simp only [toNat_value, BitVec.toNat_add, hone]
    omega
  · simp only [toNat_value, BitVec.toNat_add]
    omega

/-- The low half is above its operand exactly where it passed zero. -/
theorem value_timeSubtract (a b : SysTime) : value (timeSubtract a b) = value a - value b := by
  apply BitVec.eq_of_toNat_eq
  have := a.subseconds.isLt
  have := b.subseconds.isLt
  have := a.seconds.isLt
  have := b.seconds.isLt
  have hone : (1 : BitVec 32).toNat = 1 := rfl
  rw [BitVec.toNat_sub, toNat_value a, toNat_value b]
  simp only [timeSubtract, gt_iff_lt, BitVec.lt_def, BitVec.toNat_sub]
  split
  · simp only [toNat_value, BitVec.toNat_sub, hone]
    omega
  · simp only [toNat_value, BitVec.toNat_sub]
    omega

theorem timeSubtract_timeAdd (a t : SysTime) : timeSubtract (timeAdd a t) t = a :=
  value_injective (by rw [value_timeSubtract, value_timeAdd, BitVec.add_sub_cancel])

/-! ## The order -/

theorem Compare.code_injective {c d : Compare} (h : c.code = d.code) : c = d := by
  cases c <;> cases d <;> first | rfl | exact absurd h (by decide)

/-- The way from one time to the other on the cycle, the shorter one. -/
def distance (a b : SysTime) : Nat := min (value a - value b).toNat (value b - value a).toNat

theorem value_sub_timeAdd (a b t : SysTime) :
    value (timeAdd a t) - value (timeAdd b t) = value a - value b := by
  rw [value_timeAdd, value_timeAdd]
  grind

theorem distance_timeAdd (a b t : SysTime) :
    distance (timeAdd a t) (timeAdd b t) = distance a b := by
  rw [distance, value_sub_timeAdd, value_sub_timeAdd, distance]

theorem timeCompare_antisymm (a b : SysTime) :
    (timeCompare b a).code = -(timeCompare a b).code := by
  simp only [timeCompare, gt_iff_lt, BitVec.lt_def]
  split_ifs
  all_goals first | rfl | omega

theorem timeCompare_equal_iff (a b : SysTime) : timeCompare a b = .equal ↔ a = b := by
  constructor
  · intro h
    apply value_injective
    apply BitVec.eq_of_toNat_eq
    rw [toNat_value, toNat_value]
    simp only [timeCompare, gt_iff_lt, BitVec.lt_def] at h
    split_ifs at h
    omega
  · rintro rfl
    simp [timeCompare]

/-- The first time is behind the second one by less than half of the cycle less a second. -/
theorem timeCompare_behind {a b : SysTime} (hpos : 0 < (value a - value b).toNat)
    (hnear : (value a - value b).toNat < (2 ^ 31 - 1) * 2 ^ 32) : timeCompare a b = .aGtB := by
  have := a.subseconds.isLt
  have := b.subseconds.isLt
  have := a.seconds.isLt
  have := b.seconds.isLt
  have hneg : CFE_TIME_NEGATIVE.toNat = 2 ^ 31 := rfl
  rw [BitVec.toNat_sub, toNat_value, toNat_value] at hpos hnear
  simp only [timeCompare, gt_iff_lt, BitVec.lt_def, BitVec.toNat_sub, hneg]
  split_ifs
  all_goals first | rfl | omega

/-- Two times that lie less than half of the cycle, less a second, apart compare as the signed
difference says. -/
theorem timeCompare_sign {a b : SysTime} (h : distance a b < (2 ^ 31 - 1) * 2 ^ 32) :
    (timeCompare a b).code = (value a - value b).toInt.sign := by
  have hsum : (value b - value a).toNat = (2 ^ 64 - (value a - value b).toNat) % 2 ^ 64 := by
    rw [← BitVec.toNat_neg, BitVec.neg_sub, BitVec.sub_eq_add_neg, BitVec.add_comm]
  have hlt := (value a - value b).isLt
  rw [distance] at h
  rw [BitVec.toInt_eq_toNat_cond]
  rcases Nat.eq_zero_or_pos (value a - value b).toNat with hzero | hpos
  · have heq : value a - value b = 0#64 := BitVec.eq_of_toNat_eq hzero
    rw [BitVec.sub_eq_iff_eq_add, BitVec.zero_add] at heq
    obtain rfl := value_injective heq
    rw [(timeCompare_equal_iff a a).mpr rfl, hzero]
    rfl
  · by_cases hbehind : (value a - value b).toNat < (2 ^ 31 - 1) * 2 ^ 32
    · rw [timeCompare_behind hpos hbehind, if_pos (by omega), Int.sign_eq_one_of_pos (by omega)]
      rfl
    · rw [← Int.neg_neg (timeCompare a b).code, ← timeCompare_antisymm,
        timeCompare_behind (by omega) (by omega), if_neg (by omega),
        Int.sign_eq_neg_one_of_neg (by omega)]
      rfl

/-- `CFE_TIME_Add` and `CFE_TIME_Subtract` are the arithmetic modulo 2^64, and the order of
`CFE_TIME_Compare` is that of the signed difference, whichever time rolls over. -/
theorem time_cyclic (a b t : SysTime) :
    value (timeAdd a b) = value a + value b ∧
    value (timeSubtract a b) = value a - value b ∧
    timeSubtract (timeAdd a t) t = a ∧
    (timeCompare b a).code = -(timeCompare a b).code ∧
    (timeCompare a b = .equal ↔ a = b) ∧
    (distance a b < (2 ^ 31 - 1) * 2 ^ 32 →
      (timeCompare a b).code = (value a - value b).toInt.sign ∧
      timeCompare (timeAdd a t) (timeAdd b t) = timeCompare a b) := by
  refine ⟨value_timeAdd a b, value_timeSubtract a b, timeSubtract_timeAdd a t,
    timeCompare_antisymm a b, timeCompare_equal_iff a b, fun h => ⟨timeCompare_sign h, ?_⟩⟩
  apply Compare.code_injective
  rw [timeCompare_sign h, timeCompare_sign (by rwa [distance_timeAdd]), value_sub_timeAdd]

/-- The second time has rolled over, the first one not yet. -/
theorem time_cyclic_rollover :
    timeCompare ⟨0xFFFFFFFF, 0x80000000⟩ ⟨0, 5⟩ = .aLtB ∧
    timeCompare (timeAdd ⟨0xFFFFFFFF, 0x80000000⟩ ⟨7, 0x80000000⟩)
      (timeAdd ⟨0, 5⟩ ⟨7, 0x80000000⟩) =
      timeCompare ⟨0xFFFFFFFF, 0x80000000⟩ ⟨0, 5⟩ :=
  ⟨by decide, ((time_cyclic ⟨0xFFFFFFFF, 0x80000000⟩ ⟨0, 5⟩ ⟨7, 0x80000000⟩).2.2.2.2.2
    (by decide)).2⟩

end Nos3.Time
