import Mathlib.Data.Nat.Bitwise
import Mathlib.Data.List.Basic
import Mathlib.Logic.Function.Iterate

/-!
# Blocks of a memory pool

What block allocators rest on: aligned addresses, regions laid out one behind the
other, and linked lists threaded through the blocks.

## Rounding up with a mask

`(x + mask) & ~mask` in a word of `w` bits. Where the sum does not wrap around the
result is at least `x` and at most `mask` behind it, and it is a multiple of the
alignment if that is a power of two.
-/
namespace Nos3.Base.Alignment

/-- `x & ~mask` -/
def clearMask (w x mask : Nat) : Nat := x &&& ((2 ^ w - 1) ^^^ mask)

def alignUp (w x mask : Nat) : Nat := clearMask w ((x + mask) % 2 ^ w) mask

/-- Numbers without a common bit add up to their union. -/
theorem add_eq_or_of_disjoint {w a b : Nat} (ha : a < 2 ^ w) (hb : b < 2 ^ w)
    (h : a &&& b = 0) : a + b = a ||| b := by
  have hwords : BitVec.ofNat w a &&& BitVec.ofNat w b = 0#w := by
    refine BitVec.eq_of_toNat_eq ?_
    rw [BitVec.toNat_and, BitVec.toNat_ofNat, BitVec.toNat_ofNat, Nat.mod_eq_of_lt ha,
      Nat.mod_eq_of_lt hb, h]
    rfl
  have hsum := BitVec.toNat_add_of_and_eq_zero hwords
  rw [BitVec.add_eq_or_of_and_eq_zero _ _ hwords, BitVec.toNat_or, BitVec.toNat_ofNat,
    BitVec.toNat_ofNat, Nat.mod_eq_of_lt ha, Nat.mod_eq_of_lt hb] at hsum
  exact hsum.symm

/-- The bits that are kept and those that are cleared make up the word. -/
theorem clearMask_eq {w x : Nat} (hx : x < 2 ^ w) (mask : Nat) :
    clearMask w x mask + (x &&& mask) = x := by
  have hdisjoint : clearMask w x mask &&& (x &&& mask) = 0 := by
    refine Nat.eq_of_testBit_eq fun i => ?_
    simp only [clearMask, Nat.testBit_and, Nat.testBit_xor, Nat.testBit_two_pow_sub_one,
      Nat.zero_testBit]
    by_cases hi : i < w
    · cases x.testBit i <;> cases mask.testBit i <;> simp [hi]
    · have hhigh : x.testBit i = false :=
        Nat.testBit_lt_two_pow (hx.trans_le (Nat.pow_le_pow_right (by omega) (by omega)))
      simp [hhigh]
  have hunion : clearMask w x mask ||| (x &&& mask) = x := by
    refine Nat.eq_of_testBit_eq fun i => ?_
    simp only [clearMask, Nat.testBit_and, Nat.testBit_or, Nat.testBit_xor,
      Nat.testBit_two_pow_sub_one]
    by_cases hi : i < w
    · cases x.testBit i <;> cases mask.testBit i <;> simp [hi]
    · have hhigh : x.testBit i = false :=
        Nat.testBit_lt_two_pow (hx.trans_le (Nat.pow_le_pow_right (by omega) (by omega)))
      simp [hhigh]
  exact (add_eq_or_of_disjoint (Nat.and_le_left.trans_lt hx) (Nat.and_le_left.trans_lt hx)
    hdisjoint).trans hunion

theorem le_alignUp {w x mask : Nat} (h : x + mask < 2 ^ w) : x ≤ alignUp w x mask := by
  have hsplit := clearMask_eq h mask
  have hcleared : (x + mask) &&& mask ≤ mask := Nat.and_le_right
  rw [alignUp, Nat.mod_eq_of_lt h]
  omega

theorem alignUp_le {w x mask : Nat} (h : x + mask < 2 ^ w) : alignUp w x mask ≤ x + mask := by
  rw [alignUp, Nat.mod_eq_of_lt h]
  exact Nat.and_le_left

/-- A number that has no bit in common with its predecessor is a power of two. -/
theorem dvd_alignUp {w x align : Nat} (hpos : 0 < align) (hpower : (align - 1) &&& align = 0)
    (h : x + (align - 1) < 2 ^ w) : align ∣ alignUp w x (align - 1) := by
  obtain ⟨k, hk⟩ := (Nat.and_sub_one_eq_zero_iff_isPowerOfTwo (Nat.pos_iff_ne_zero.mp hpos)).mp
    ((Nat.and_comm _ _).trans hpower)
  have hsplit := clearMask_eq h (align - 1)
  rw [alignUp, Nat.mod_eq_of_lt h]
  rw [hk, Nat.and_two_pow_sub_one_eq_mod] at hsplit
  rw [hk]
  refine (Nat.dvd_iff_mod_eq_zero).mpr ?_
  have hmod := Nat.div_add_mod (x + (2 ^ k - 1)) (2 ^ k)
  have hmultiple : clearMask w (x + (2 ^ k - 1)) (2 ^ k - 1) = 2 ^ k * ((x + (2 ^ k - 1)) / 2 ^ k) := by
    omega
  rw [hmultiple, Nat.mul_mod_right]

end Nos3.Base.Alignment

/-!
## Regions laid out one behind the other

Each region starts where `place` puts one that is laid behind the end of the one
before, and none ends behind `bound`. If `place` leaves a gap, the regions and
the gaps in front of them do not overlap.
-/
namespace Nos3.Base.Tiling

variable {β : Type}

/-- The regions from `t` on; the last ends at `stop`. -/
def Tiled (place : Nat → Nat) (bound : Nat) (start len : β → Nat) : Nat → List β → Nat → Prop
  | t, [], stop => t = stop
  | t, b :: rest, stop => start b = place t ∧ start b + len b ≤ bound ∧
      Tiled place bound start len (start b + len b) rest stop

/-- Two regions with a gap between them, in either order. -/
def Apart (gap : Nat) (start len : β → Nat) (b c : β) : Prop :=
  start b + len b + gap ≤ start c ∨ start c + len c + gap ≤ start b

theorem Apart.symm {gap : Nat} {start len : β → Nat} {b c : β} (h : Apart gap start len b c) :
    Apart gap start len c b := Or.symm h

variable {place : Nat → Nat} {bound gap : Nat} {start len : β → Nat}

theorem tiled_concat {bs : List β} {b : β} {t stop : Nat} :
    Tiled place bound start len t (bs ++ [b]) stop ↔
      ∃ mid, Tiled place bound start len t bs mid ∧ start b = place mid ∧
        start b + len b ≤ bound ∧ start b + len b = stop := by
  induction bs generalizing t with
  | nil =>
    constructor
    · rintro ⟨hstart, hbound, hstop⟩
      exact ⟨t, rfl, hstart, hbound, hstop⟩
    · rintro ⟨mid, rfl, hstart, hbound, hstop⟩
      exact ⟨hstart, hbound, hstop⟩
  | cons c bs ih =>
    constructor
    · rintro ⟨hstart, hbound, hrest⟩
      obtain ⟨mid, hmid, hlast⟩ := ih.mp hrest
      exact ⟨mid, ⟨hstart, hbound, hmid⟩, hlast⟩
    · rintro ⟨mid, ⟨hstart, hbound, hmid⟩, hlast⟩
      exact ⟨hstart, hbound, ih.mpr ⟨mid, hmid, hlast⟩⟩

theorem Tiled.congr {place' : Nat → Nat} {start' len' : β → Nat} {bs : List β} {t stop : Nat}
    (h : Tiled place bound start len t bs stop) (hplace : ∀ t, place t = place' t)
    (hstart : ∀ b, start b = start' b) (hlen : ∀ b, len b = len' b) :
    Tiled place' bound start' len' t bs stop := by
  obtain rfl : place = place' := funext hplace
  obtain rfl : start = start' := funext hstart
  obtain rfl : len = len' := funext hlen
  exact h

theorem tiled_map {γ : Type} {f : γ → β} {cs : List γ} {t stop : Nat} :
    Tiled place bound start len t (cs.map f) stop ↔
      Tiled place bound (fun c => start (f c)) (fun c => len (f c)) t cs stop := by
  induction cs generalizing t with
  | nil => exact Iff.rfl
  | cons c cs ih => exact and_congr_right fun _ => and_congr_right fun _ => ih

section Gaps
variable (hgap : ∀ t, t ≤ bound → t + gap ≤ place t)
include hgap

theorem Tiled.le_stop {bs : List β} {t stop : Nat} (ht : t ≤ bound)
    (h : Tiled place bound start len t bs stop) : t ≤ stop ∧ stop ≤ bound := by
  induction bs generalizing t with
  | nil =>
    have hsame : t = stop := h
    exact ⟨Nat.le_of_eq hsame, hsame ▸ ht⟩
  | cons b bs ih =>
    obtain ⟨hstart, hbound, hrest⟩ := h
    obtain ⟨hstop, hle⟩ := ih hbound hrest
    have hplace := hgap t ht
    exact ⟨by omega, hle⟩

/-- The gaps alone bound the number of regions. -/
theorem Tiled.length_le {bs : List β} {t stop : Nat} (ht : t ≤ bound)
    (h : Tiled place bound start len t bs stop) : t + gap * bs.length ≤ stop := by
  induction bs generalizing t with
  | nil =>
    have hsame : t = stop := h
    rw [List.length_nil, Nat.mul_zero]
    omega
  | cons b bs ih =>
    obtain ⟨hstart, hbound, hrest⟩ := h
    have hlength := ih hbound hrest
    have hplace := hgap t ht
    rw [List.length_cons, Nat.mul_succ]
    omega

theorem Tiled.inside {bs : List β} {t stop : Nat} (ht : t ≤ bound)
    (h : Tiled place bound start len t bs stop) {b : β} (hb : b ∈ bs) :
    t + gap ≤ start b ∧ start b + len b ≤ stop := by
  induction bs generalizing t with
  | nil => cases hb
  | cons c bs ih =>
    obtain ⟨hstart, hbound, hrest⟩ := h
    have hplace := hgap t ht
    rcases List.mem_cons.mp hb with rfl | hb
    · exact ⟨by omega, (Tiled.le_stop hgap hbound hrest).1⟩
    · obtain ⟨hlow, hhigh⟩ := ih hbound hrest hb
      exact ⟨by omega, hhigh⟩

theorem Tiled.placed {bs : List β} {t stop : Nat} (ht : t ≤ bound)
    (h : Tiled place bound start len t bs stop) {b : β} (hb : b ∈ bs) :
    ∃ u, u ≤ bound ∧ start b = place u := by
  induction bs generalizing t with
  | nil => cases hb
  | cons c bs ih =>
    obtain ⟨hstart, hbound, hrest⟩ := h
    rcases List.mem_cons.mp hb with rfl | hb
    · exact ⟨t, ht, hstart⟩
    · exact ih hbound hrest hb

theorem Tiled.pairwise {bs : List β} {t stop : Nat} (ht : t ≤ bound)
    (h : Tiled place bound start len t bs stop) : bs.Pairwise (Apart gap start len) := by
  induction bs generalizing t with
  | nil => exact .nil
  | cons b bs ih =>
    obtain ⟨-, hbound, hrest⟩ := h
    refine .cons (fun c hc => .inl ?_) (ih hbound hrest)
    exact (Tiled.inside hgap hbound hrest hc).1

end Gaps

end Nos3.Base.Tiling

/-!
## Linked lists threaded through memory

`Chain` says that following `next` from `first` visits the keys of a list in its
order and ends at 0: a finite list, so no address comes twice on the way.
-/
namespace Nos3.Base.FreeChain

variable {β : Type}

def Chain (key : β → Nat) (next : Nat → Nat) : Nat → List β → Prop
  | first, [] => first = 0
  | first, b :: rest => first = key b ∧ Chain key next (next first) rest

variable {key : β → Nat} {next next' : Nat → Nat}

/-- A chain does not depend on what is stored outside its members. -/
theorem Chain.congr {first : Nat} {l : List β} (h : Chain key next first l)
    (hnext : ∀ b ∈ l, next (key b) = next' (key b)) : Chain key next' first l := by
  induction l generalizing first with
  | nil => exact h
  | cons b l ih =>
    obtain ⟨rfl, hrest⟩ := h
    refine ⟨rfl, ?_⟩
    rw [← hnext b List.mem_cons_self]
    exact ih hrest fun c hc => hnext c (List.mem_cons_of_mem b hc)

theorem Chain.push {first : Nat} {l : List β} {b : β} (h : Chain key next first l)
    (hnext : ∀ c ∈ l, next (key c) = next' (key c)) (hfirst : next' (key b) = first) :
    Chain key next' (key b) (b :: l) := by
  refine ⟨rfl, ?_⟩
  rw [hfirst]
  exact h.congr hnext

/-- A chain that does not start with 0 has a first member. -/
theorem Chain.head {first : Nat} {l : List β} (h : Chain key next first l) (hfirst : first ≠ 0) :
    ∃ b rest, l = b :: rest ∧ first = key b ∧ Chain key next (next first) rest := by
  cases l with
  | nil => exact absurd h hfirst
  | cons b rest => exact ⟨b, rest, rfl, h.1, h.2⟩

theorem Chain.eq_nil {l : List β} (h : Chain key next 0 l) (hkey : ∀ b ∈ l, key b ≠ 0) :
    l = [] := by
  cases l with
  | nil => rfl
  | cons b rest => exact absurd h.1.symm (hkey b List.mem_cons_self)

end Nos3.Base.FreeChain
