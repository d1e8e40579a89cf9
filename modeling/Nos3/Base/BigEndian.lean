import Mathlib.Data.List.Induction
import Mathlib.Algebra.Group.Nat.Defs

/-!
# Big-endian integers in octet strings

`beOctets n v` writes the low `n` octets of a word, most significant first, one
shift at a time; `ofBe` folds octets back into a word. Reading what was written
gives the value back whenever it fits the width written.
-/
namespace Nos3.Base.BigEndian

abbrev Octet := BitVec 8

variable {w : Nat}

def beOctets : Nat → BitVec w → List Octet
  | 0, _ => []
  | n + 1, v => beOctets n (v >>> 8) ++ [v.setWidth 8]

def ofBe (octets : List Octet) : BitVec w :=
  octets.foldl (fun acc octet => (acc <<< 8) ||| octet.setWidth w) 0

@[simp] theorem beOctets_length (n : Nat) (v : BitVec w) : (beOctets n v).length = n := by
  induction n generalizing v with
  | zero => rfl
  | succ n ih => simp [beOctets, ih]

@[simp] theorem ofBe_nil : (ofBe [] : BitVec w) = 0 := rfl

@[simp] theorem ofBe_concat (octets : List Octet) (last : Octet) :
    (ofBe (octets ++ [last]) : BitVec w) = (ofBe octets <<< 8) ||| last.setWidth w := by
  simp [ofBe]

/-- The low octet and the rest make up the word. -/
theorem shift_or_low (v : BitVec w) :
    ((v >>> 8) <<< 8) ||| (v.setWidth 8).setWidth w = v := by
  ext i hi
  simp only [BitVec.getElem_or, BitVec.getElem_shiftLeft, BitVec.getElem_setWidth,
    BitVec.getLsbD_setWidth]
  by_cases h : i < 8
  · simp [h, BitVec.getLsbD_eq_getElem hi]
  · have hback : 8 + (i - 8) = i := by omega
    simp [h, hback, BitVec.getLsbD_eq_getElem hi, BitVec.getElem_ushiftRight]

theorem toNat_shift_lt {v : BitVec w} {n : Nat} (h : v.toNat < 256 ^ (n + 1)) :
    (v >>> 8).toNat < 256 ^ n := by
  rw [BitVec.toNat_ushiftRight, Nat.shiftRight_eq_div_pow]
  rw [Nat.pow_succ] at h
  omega

theorem ofBe_beOctets {n : Nat} {v : BitVec w} (h : v.toNat < 256 ^ n) :
    ofBe (beOctets n v) = v := by
  induction n generalizing v with
  | zero =>
    simp only [Nat.pow_zero, Nat.lt_one_iff] at h
    exact (BitVec.eq_of_toNat_eq (by simpa [beOctets] using h)).symm
  | succ n ih =>
    rw [beOctets, ofBe_concat, ih (toNat_shift_lt h), shift_or_low]

theorem ofBe_beOctets_word {n : Nat} (hw : w ≤ 8 * n) (v : BitVec w) :
    ofBe (beOctets n v) = v := by
  refine ofBe_beOctets (Nat.lt_of_lt_of_le v.isLt ?_)
  calc 2 ^ w ≤ 2 ^ (8 * n) := Nat.pow_le_pow_right (by decide) hw
    _ = 256 ^ n := Nat.pow_mul 2 8 n

/-- A word is its octets as digits, as long as they fit it. -/
theorem toNat_ofBe_concat (octets : List Octet) (last : Octet)
    (h : 256 * (ofBe octets : BitVec w).toNat + 256 ≤ 2 ^ w) :
    (ofBe (octets ++ [last]) : BitVec w).toNat =
      256 * (ofBe octets : BitVec w).toNat + last.toNat := by
  have hlast := last.isLt
  rw [ofBe_concat, BitVec.toNat_or, BitVec.toNat_shiftLeft, BitVec.toNat_setWidth,
    Nat.mod_eq_of_lt (a := last.toNat) (by omega), Nat.shiftLeft_eq, Nat.mod_eq_of_lt (by omega),
    ← Nat.shiftLeft_eq, ← Nat.shiftLeft_add_eq_or_of_lt hlast, Nat.shiftLeft_eq]
  omega

theorem toNat_ofBe_lt (octets : List Octet) (h : 8 * octets.length ≤ w) :
    (ofBe octets : BitVec w).toNat < 256 ^ octets.length := by
  induction octets using List.reverseRecOn with
  | nil => simp
  | append_singleton octets last ih =>
    rw [List.length_append, List.length_singleton] at h ⊢
    have hbefore := ih (by omega)
    have hpow : 256 * 256 ^ octets.length ≤ 2 ^ w := by
      rw [← Nat.pow_succ', show 256 = 2 ^ 8 from rfl, ← Nat.pow_mul]
      exact Nat.pow_le_pow_right (by decide) (by omega)
    have hlast := last.isLt
    rw [toNat_ofBe_concat octets last (by omega), Nat.pow_succ]
    omega

/-- Writing what was read gives the octets back. -/
theorem beOctets_ofBe (octets : List Octet) (h : 8 * octets.length ≤ w) :
    beOctets octets.length (ofBe octets : BitVec w) = octets := by
  induction octets using List.reverseRecOn with
  | nil => rfl
  | append_singleton octets last ih =>
    rw [List.length_append, List.length_singleton] at h ⊢
    have hbefore : (ofBe octets : BitVec w).toNat < 256 ^ octets.length :=
      toNat_ofBe_lt octets (by omega)
    have hpow : 256 * 256 ^ octets.length ≤ 2 ^ w := by
      rw [← Nat.pow_succ', show 256 = 2 ^ 8 from rfl, ← Nat.pow_mul]
      exact Nat.pow_le_pow_right (by decide) (by omega)
    have hvalue := toNat_ofBe_concat (w := w) octets last (by omega)
    have hlast := last.isLt
    have hhigh : (ofBe (octets ++ [last]) : BitVec w) >>> 8 = ofBe octets := by
      apply BitVec.eq_of_toNat_eq
      rw [BitVec.toNat_ushiftRight, hvalue, Nat.shiftRight_eq_div_pow]
      omega
    have hlow : (ofBe (octets ++ [last]) : BitVec w).setWidth 8 = last := by
      apply BitVec.eq_of_toNat_eq
      rw [BitVec.toNat_setWidth, hvalue]
      omega
    rw [beOctets, hhigh, hlow, ih (by omega)]

/-- A 16-bit word put together from its two octets. -/
theorem word_of_octets (v : BitVec 16) :
    (((v >>> 8).setWidth 8).setWidth 16 <<< 8) ||| (v.setWidth 8).setWidth 16 = v := by
  have hhigh : ((v >>> 8).setWidth 8).setWidth 16 = v >>> 8 := by
    ext i hi
    simp only [BitVec.getElem_setWidth, BitVec.getLsbD_setWidth, BitVec.getElem_ushiftRight,
      BitVec.getLsbD_ushiftRight]
    by_cases h : i < 8
    · simp [h]
    · simp [h, BitVec.getLsbD_of_ge v (8 + i) (by omega)]
  rw [hhigh, shift_or_low]

end Nos3.Base.BigEndian
