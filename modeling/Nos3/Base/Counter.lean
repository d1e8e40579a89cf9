import Mathlib.Data.List.Chain
import Mathlib.Data.Nat.ModEq
import Mathlib.Logic.Function.Iterate
import Nos3.Base.BigEndian

/-!
# Counters kept in octet strings

`value` reads an octet string as a big-endian number; `increment` adds one in
place and wraps around. A counter of `n` octets cycles through `256 ^ n` values:
`advance` is how far one value lies ahead of another, `travel` adds up the way
along a list of values. A list whose neighbours differ comes back to a value only
after a whole cycle.
-/
namespace Nos3.Base.Counter
open Nos3.Base.BigEndian (Octet)

/-! ## Octet strings as numbers -/

def value (octets : List Octet) : Nat := octets.foldl (fun acc octet => acc * 256 + octet.toNat) 0

/-- Adds one from the least significant octet, which comes first here; the result
is whether every octet overflowed. -/
def carry : List Octet → Bool × List Octet
  | [] => (true, [])
  | octet :: rest =>
    if octet + 1 ≠ 0 then (false, (octet + 1) :: rest)
    else
      let (overflowed, rest) := carry rest
      (overflowed, (octet + 1) :: rest)

def increment (octets : List Octet) : List Octet :=
  let (overflowed, reversed) := carry octets.reverse
  if overflowed then List.replicate octets.length 0 else reversed.reverse

theorem value_concat (octets : List Octet) (last : Octet) :
    value (octets ++ [last]) = value octets * 256 + last.toNat := by
  simp [value]

@[simp] theorem value_nil : value [] = 0 := rfl

theorem value_append (high low : List Octet) :
    value (high ++ low) = value high * 256 ^ low.length + value low := by
  induction low using List.reverseRecOn with
  | nil => simp
  | append_singleton low last ih =>
    rw [← List.append_assoc, value_concat, ih, value_concat, List.length_append,
      List.length_singleton, Nat.pow_succ, Nat.add_mul, Nat.mul_assoc, Nat.add_assoc]

theorem value_lt (octets : List Octet) : value octets < 256 ^ octets.length := by
  induction octets using List.reverseRecOn with
  | nil => simp
  | append_singleton octets last ih =>
    have hlast := last.isLt
    rw [value_concat, List.length_append, List.length_singleton, Nat.pow_succ]
    omega

theorem value_injective {xs ys : List Octet} (hlen : xs.length = ys.length)
    (h : value xs = value ys) : xs = ys := by
  induction xs using List.reverseRecOn generalizing ys with
  | nil => exact (List.eq_nil_of_length_eq_zero hlen.symm).symm
  | append_singleton xs x ih =>
    rcases List.eq_nil_or_concat ys with rfl | ⟨ys, y, rfl⟩
    · simp at hlen
    · have hx := x.isLt
      have hy := y.isLt
      rw [List.concat_eq_append, value_concat, value_concat] at h
      have hlast : x = y := BitVec.eq_of_toNat_eq (by omega)
      rw [List.concat_eq_append, ih (by simpa using hlen) (by omega), hlast]

theorem value_replicate_zero (n : Nat) : value (List.replicate n (0 : Octet)) = 0 := by
  induction n with
  | zero => rfl
  | succ n ih => rw [List.replicate_succ', value_concat, ih]; rfl

theorem value_eq_zero_iff (octets : List Octet) :
    value octets = 0 ↔ octets = List.replicate octets.length 0 := by
  constructor
  · intro h
    exact value_injective (by simp) (h.trans (value_replicate_zero _).symm)
  · intro h
    rw [h]
    exact value_replicate_zero _

theorem carry_length (octets : List Octet) : (carry octets).2.length = octets.length := by
  induction octets with
  | nil => rfl
  | cons octet rest ih =>
    rw [carry]
    split
    · rfl
    · simp [ih]

@[simp] theorem increment_length (octets : List Octet) :
    (increment octets).length = octets.length := by
  simp only [increment]
  split
  · simp
  · simp [carry_length]

theorem octet_succ_toNat {octet : Octet} (h : octet + 1 ≠ 0) :
    (octet + 1).toNat = octet.toNat + 1 := by
  bv_omega

theorem octet_overflow {octet : Octet} (h : octet + 1 = 0) : octet.toNat = 255 := by
  bv_omega

/-- The least significant octet comes first, so the value is that of the reversed list. -/
theorem value_carry (octets : List Octet) :
    if (carry octets).1 then value octets.reverse + 1 = 256 ^ octets.length
    else value (carry octets).2.reverse = value octets.reverse + 1 := by
  induction octets with
  | nil => rfl
  | cons octet rest ih =>
    rw [carry]
    split
    · rename_i hmore
      simp only [Bool.false_eq_true, ↓reduceIte, List.reverse_cons, value_concat,
        octet_succ_toNat hmore]
      omega
    · rename_i hover
      have hzero : octet + 1 = 0 := by simpa using hover
      have hmax := octet_overflow hzero
      dsimp only
      split at ih
      · rename_i hcarry
        rw [if_pos hcarry, List.reverse_cons, value_concat, List.length_cons, Nat.pow_succ]
        omega
      · rename_i hcarry
        rw [if_neg hcarry, List.reverse_cons, List.reverse_cons, value_concat, value_concat, ih,
          hzero, hmax, show (0 : Octet).toNat = 0 from rfl]
        omega

/-- Adding one modulo the number of values. -/
theorem value_increment (octets : List Octet) :
    value (increment octets) = (value octets + 1) % 256 ^ octets.length := by
  have h := value_carry octets.reverse
  rw [List.reverse_reverse, List.length_reverse] at h
  simp only [increment]
  split at h
  · rename_i hover
    rw [if_pos hover, value_replicate_zero, h, Nat.mod_self]
  · rename_i hmore
    rw [if_neg hmore, h]
    have hlt := value_lt (carry octets.reverse).2.reverse
    rw [h, List.length_reverse, carry_length, List.length_reverse] at hlt
    exact (Nat.mod_eq_of_lt hlt).symm

theorem iterate_increment_length (n : Nat) (octets : List Octet) :
    (increment^[n] octets).length = octets.length := by
  induction n with
  | zero => rfl
  | succ n ih => rw [Function.iterate_succ_apply', increment_length, ih]

theorem value_iterate_increment (n : Nat) (octets : List Octet) :
    value (increment^[n] octets) = (value octets + n) % 256 ^ octets.length := by
  induction n with
  | zero => exact (Nat.mod_eq_of_lt (value_lt octets)).symm
  | succ n ih =>
    rw [Function.iterate_succ_apply', value_increment, ih, iterate_increment_length,
      Nat.mod_add_mod, Nat.add_assoc]

/-- The low octets of a counter count on their own. -/
theorem value_drop (octets : List Octet) (n : Nat) :
    value (octets.drop n) = value octets % 256 ^ (octets.length - n) := by
  have h := value_append (octets.take n) (octets.drop n)
  rw [List.take_append_drop] at h
  have hlt := value_lt (octets.drop n)
  rw [List.length_drop] at h hlt
  rw [h, Nat.mul_comm, Nat.mul_add_mod, Nat.mod_eq_of_lt hlt]

/-- The low octets tell the next values apart until they have gone round once. -/
theorem low_octets_injective {octets : List Octet} {n a b : Nat} (hn : n ≤ octets.length)
    (ha : 0 < a) (ha' : a ≤ 256 ^ n) (hb : 0 < b) (hb' : b ≤ 256 ^ n)
    (h : (increment^[a] octets).drop (octets.length - n) =
      (increment^[b] octets).drop (octets.length - n)) : a = b := by
  have hlow : ∀ k, value ((increment^[k] octets).drop (octets.length - n)) =
      (value octets + k) % 256 ^ n := by
    intro k
    rw [value_drop, value_iterate_increment, iterate_increment_length, Nat.sub_sub_self hn,
      Nat.mod_mod_of_dvd _ (Nat.pow_dvd_pow 256 hn)]
  have hmod : Nat.ModEq (256 ^ n) (value octets + (a - 1) + 1) (value octets + (b - 1) + 1) := by
    have hvalue := congrArg value h
    rw [hlow, hlow] at hvalue
    rwa [Nat.add_assoc, Nat.add_assoc, Nat.sub_add_cancel ha, Nat.sub_add_cancel hb]
  have hpred := (hmod.add_right_cancel' 1).add_left_cancel' (value octets)
  have heq := hpred.eq_of_lt_of_lt (by omega) (by omega)
  omega

/-! ## Going round -/

/-- How far `b` lies ahead of `a` on a cycle of `n` values. -/
def advance (n a b : Nat) : Nat := (b + n - a) % n

def travel (n : Nat) : List Nat → Nat
  | a :: b :: rest => advance n a b + travel n (b :: rest)
  | _ => 0

/-- Each value lies one to `window` ahead of the one before. -/
def StepsWithin (n window : Nat) (values : List Nat) : Prop :=
  values.IsChain fun a b => 0 < advance n a b ∧ advance n a b ≤ window

/-- Between two occurrences of a value the whole cycle is passed. -/
def ReturnsAfterCycle (n : Nat) (values : List Nat) : Prop :=
  ∀ before v between after, values = before ++ v :: between ++ v :: after →
    n ≤ travel n (v :: between ++ [v])

section Cycle
variable {n a b : Nat}

theorem advance_self (ha : a < n) : advance n a a = 0 := by
  rw [advance, show a + n - a = n from by omega, Nat.mod_self]

theorem add_advance (ha : a < n) (hb : b < n) : (a + advance n a b) % n = b := by
  rw [advance, Nat.add_mod_mod, show a + (b + n - a) = b + n from by omega,
    Nat.add_mod_right, Nat.mod_eq_of_lt hb]

theorem advance_add {k : Nat} (hk : k < n) (ha : a < n) : advance n a ((a + k) % n) = k := by
  rw [advance]
  by_cases h : a + k < n
  · rw [Nat.mod_eq_of_lt h, show a + k + n - a = k + n from by omega, Nat.add_mod_right,
      Nat.mod_eq_of_lt hk]
  · have hwrap : (a + k) % n = a + k - n := by
      rw [Nat.mod_eq_sub_mod (by omega), Nat.mod_eq_of_lt (by omega)]
    rw [hwrap, show a + k - n + n - a = k from by omega, Nat.mod_eq_of_lt hk]

theorem add_travel (values : List Nat) {v last : Nat} (hv : v < n) (hlast : last < n)
    (hall : ∀ x ∈ values, x < n) : (v + travel n (v :: values ++ [last])) % n = last := by
  induction values generalizing v with
  | nil => simpa [travel] using add_advance hv hlast
  | cons x values ih =>
    have hx : x < n := hall x (by simp)
    have hrest := ih hx fun y hy => hall y (by simp [hy])
    calc (v + travel n (v :: (x :: values) ++ [last])) % n
        = ((v + advance n v x) % n + travel n (x :: values ++ [last])) % n := by
          rw [Nat.mod_add_mod, Nat.add_assoc]
          rfl
      _ = last := by rw [add_advance hv hx, hrest]

theorem travel_pos {window : Nat} {values : List Nat} {v last : Nat}
    (h : StepsWithin n window (v :: values ++ [last])) : 0 < travel n (v :: values ++ [last]) := by
  cases values with
  | nil =>
    have hstep := (List.isChain_cons_cons.mp h).1.1
    simpa [travel] using hstep
  | cons x values =>
    have hstep := (List.isChain_cons_cons.mp h).1.1
    exact Nat.lt_of_lt_of_le hstep (Nat.le_add_right _ _)

/-- Steps that always move forward come back only after a whole cycle. -/
theorem StepsWithin.returnsAfterCycle {window : Nat} {values : List Nat}
    (h : StepsWithin n window values) (hall : ∀ x ∈ values, x < n) :
    ReturnsAfterCycle n values := by
  rintro before v between after rfl
  have hv : v < n := hall v (by simp)
  have hchain : StepsWithin n window (v :: between ++ [v]) := by
    refine List.IsChain.infix h ⟨before, after, ?_⟩
    simp
  have hback := add_travel between hv hv fun x hx => hall x (by simp [hx])
  have hpos := travel_pos hchain
  by_contra hlt
  have hzero := advance_add (Nat.lt_of_not_le hlt) hv
  rw [hback, advance_self hv] at hzero
  omega

end Cycle

end Nos3.Base.Counter
