import Mathlib.Data.Nat.Bitwise

/-!
# Bit fields inside a word

A field is a run of `width` bits from bit `shift`. `get` and `set` are the usual
shift-and-mask pair; a field reads back what was set, and setting it leaves
every disjoint field alone.
-/
namespace Nos3.Base.BitField

structure Field where
  width : Nat
  shift : Nat
  deriving DecidableEq, Repr

variable {w : Nat}

def Field.mask (f : Field) : BitVec w := BitVec.ofNat w (2 ^ f.width - 1)

def Field.get (f : Field) (src : BitVec w) : BitVec w := (src >>> f.shift) &&& f.mask

def Field.set (f : Field) (dest val : BitVec w) : BitVec w :=
  (dest &&& ~~~(f.mask <<< f.shift)) ||| ((val &&& f.mask) <<< f.shift)

def Field.Disjoint (f g : Field) : Prop :=
  f.shift + f.width ≤ g.shift ∨ g.shift + g.width ≤ f.shift

instance (f g : Field) : Decidable (f.Disjoint g) := inferInstanceAs (Decidable (_ ∨ _))

theorem Field.getLsbD_mask (f : Field) (i : Nat) :
    (f.mask : BitVec w).getLsbD i = (decide (i < w) && decide (i < f.width)) := by
  rw [Field.mask, BitVec.getLsbD_ofNat, Nat.testBit_two_pow_sub_one]

theorem Field.getLsbD_get (f : Field) (src : BitVec w) (i : Nat) :
    (f.get src).getLsbD i = (src.getLsbD (f.shift + i) && decide (i < f.width)) := by
  rw [Field.get, BitVec.getLsbD_and, BitVec.getLsbD_ushiftRight, Field.getLsbD_mask]
  by_cases h : i < w
  · simp [h]
  · have : src.getLsbD (f.shift + i) = false := BitVec.getLsbD_of_ge _ _ (by omega)
    simp [this]

theorem Field.getLsbD_set (f : Field) (dest val : BitVec w) {i : Nat} (hi : i < w) :
    (f.set dest val).getLsbD i =
      if f.shift ≤ i ∧ i < f.shift + f.width then val.getLsbD (i - f.shift)
      else dest.getLsbD i := by
  simp only [Field.set, BitVec.getLsbD_or, BitVec.getLsbD_and, BitVec.getLsbD_not,
    BitVec.getLsbD_shiftLeft, Field.getLsbD_mask, hi, decide_true, Bool.true_and]
  have hsub : i - f.shift < w := by omega
  by_cases hlo : f.shift ≤ i
  · by_cases hhi : i < f.shift + f.width
    · have h1 : i - f.shift < f.width := by omega
      have h2 : ¬i < f.shift := by omega
      simp [hlo, hhi, h1, h2, hsub]
    · have h1 : ¬i - f.shift < f.width := by omega
      simp [hhi, h1]
  · have h2 : i < f.shift := by omega
    simp [hlo, h2]

theorem Field.get_set {f : Field} (hf : f.shift + f.width ≤ w) (dest : BitVec w) {val : BitVec w}
    (hval : val.toNat < 2 ^ f.width) : f.get (f.set dest val) = val := by
  refine BitVec.eq_of_getLsbD_eq fun i hi => ?_
  rw [Field.getLsbD_get]
  by_cases h : i < f.width
  · rw [Field.getLsbD_set _ _ _ (by omega), if_pos (by omega)]
    simp [h]
  · have hz : val.getLsbD i = false := by
      rw [BitVec.getLsbD]
      exact Nat.testBit_lt_two_pow (hval.trans_le (Nat.pow_le_pow_right (by decide) (by omega)))
    simp [h, hz]

theorem Field.get_set_of_disjoint {f g : Field} (hfg : f.Disjoint g) (dest val : BitVec w) :
    f.get (g.set dest val) = f.get dest := by
  refine BitVec.eq_of_getLsbD_eq fun i hi => ?_
  rw [Field.getLsbD_get, Field.getLsbD_get]
  by_cases h : i < f.width
  · by_cases hw : f.shift + i < w
    · rw [Field.getLsbD_set _ _ _ hw, if_neg]
      rcases hfg with h1 | h1 <;> omega
    · rw [BitVec.getLsbD_of_ge _ _ (by omega), BitVec.getLsbD_of_ge _ _ (by omega)]
  · simp [h]

theorem Field.Disjoint.symm {f g : Field} (hfg : f.Disjoint g) : g.Disjoint f := Or.symm hfg

theorem Field.set_comm {f g : Field} (hfg : f.Disjoint g) (dest u v : BitVec w) :
    f.set (g.set dest v) u = g.set (f.set dest u) v := by
  refine BitVec.eq_of_getLsbD_eq fun i hi => ?_
  rw [Field.getLsbD_set _ _ _ hi, Field.getLsbD_set _ _ _ hi, Field.getLsbD_set _ _ _ hi,
    Field.getLsbD_set _ _ _ hi]
  by_cases hf : f.shift ≤ i ∧ i < f.shift + f.width
  · have hg : ¬(g.shift ≤ i ∧ i < g.shift + g.width) := by
      rcases hfg with hlow | hhigh
      · omega
      · omega
    rw [if_pos hf, if_neg hg, if_pos hf]
  · rw [if_neg hf, if_neg hf]

@[simp] theorem Field.get_zero (f : Field) : f.get (0 : BitVec w) = 0 := by
  simp [Field.get]

/-- A field value fits the field. -/
theorem Field.get_lt (f : Field) (src : BitVec w) : (f.get src).toNat < 2 ^ f.width := by
  have hmask : (f.mask : BitVec w).toNat ≤ 2 ^ f.width - 1 := by
    rw [Field.mask, BitVec.toNat_ofNat]
    exact Nat.mod_le _ _
  have hand : (f.get src).toNat ≤ (f.mask : BitVec w).toNat := by
    rw [Field.get, BitVec.toNat_and]
    exact Nat.and_le_right
  have := Nat.two_pow_pos f.width
  omega

end Nos3.Base.BitField
