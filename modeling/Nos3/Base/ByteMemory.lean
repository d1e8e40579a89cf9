import Nos3.Base.BigEndian

/-!
# Byte memory

Octets by address, copies into a region and little-endian integers. What is read
depends on the region only, and a copy changes no octet outside its own.
-/
namespace Nos3.Base.ByteMemory
open Nos3.Base.BigEndian (Octet)

abbrev Memory := Nat → Octet

/-- The `n` octets behind `data` are copied to address `a`. -/
def copyIn (m : Memory) (a n : Nat) (data : Nat → Octet) : Memory := fun i =>
  if a ≤ i ∧ i < a + n then data (i - a) else m i

def copyOut (m : Memory) (a n : Nat) : List Octet := (List.range n).map fun k => m (a + k)

/-- Both memories have the same octets in the region. -/
def SameOn (m m' : Memory) (a n : Nat) : Prop := ∀ i, a ≤ i → i < a + n → m i = m' i

theorem SameOn.refl (m : Memory) (a n : Nat) : SameOn m m a n := fun _ _ _ => rfl

theorem SameOn.symm {m m' : Memory} {a n : Nat} (h : SameOn m m' a n) : SameOn m' m a n :=
  fun i hlow hhigh => (h i hlow hhigh).symm

theorem SameOn.trans {m m' m'' : Memory} {a n : Nat} (h : SameOn m m' a n)
    (h' : SameOn m' m'' a n) : SameOn m m'' a n :=
  fun i hlow hhigh => (h i hlow hhigh).trans (h' i hlow hhigh)

theorem SameOn.mono {m m' : Memory} {a n b k : Nat} (h : SameOn m m' a n) (hlow : a ≤ b)
    (hhigh : b + k ≤ a + n) : SameOn m m' b k :=
  fun i hi hik => h i (by omega) (by omega)

theorem copyIn_outside {m : Memory} {a n i : Nat} {data : Nat → Octet}
    (h : i < a ∨ a + n ≤ i) : copyIn m a n data i = m i :=
  if_neg (by omega)

theorem copyIn_inside {m : Memory} {a n k : Nat} {data : Nat → Octet} (h : k < n) :
    copyIn m a n data (a + k) = data k := by
  rw [copyIn, if_pos (by omega), Nat.add_sub_cancel_left]

theorem copyIn_sameOn {m : Memory} {a n b k : Nat} {data : Nat → Octet}
    (h : b + k ≤ a ∨ a + n ≤ b) : SameOn (copyIn m a n data) m b k :=
  fun _ _ _ => copyIn_outside (by omega)

theorem copyOut_congr {m m' : Memory} {a n : Nat} (h : SameOn m m' a n) :
    copyOut m a n = copyOut m' a n :=
  List.map_congr_left fun k hk => h _ (Nat.le_add_right a k)
    (Nat.add_lt_add_left (List.mem_range.mp hk) a)

theorem copyOut_copyIn (m : Memory) (a n : Nat) (data : Nat → Octet) :
    copyOut (copyIn m a n data) a n = (List.range n).map data :=
  List.map_congr_left fun _ hk => copyIn_inside (List.mem_range.mp hk)

/-! ## Little-endian integers -/

def loadLE (m : Memory) (a : Nat) : Nat → Nat
  | 0 => 0
  | n + 1 => (m a).toNat + 256 * loadLE m (a + 1) n

def storeLE (m : Memory) (a n v : Nat) : Memory :=
  copyIn m a n fun k => BitVec.ofNat 8 (v / 256 ^ k)

theorem loadLE_lt (m : Memory) (a n : Nat) : loadLE m a n < 256 ^ n := by
  induction n generalizing a with
  | zero => exact Nat.one_pos
  | succ n ih =>
    have hrest := ih (a + 1)
    have hoctet := (m a).isLt
    rw [loadLE, Nat.pow_succ]
    omega

theorem loadLE_congr {m m' : Memory} {a n : Nat} (h : SameOn m m' a n) :
    loadLE m a n = loadLE m' a n := by
  induction n generalizing a with
  | zero => rfl
  | succ n ih =>
    rw [loadLE, loadLE, h a (Nat.le_refl a) (by omega), ih (h.mono (by omega) (by omega))]

/-- The octets of a number from the lowest on make up the number. -/
theorem loadLE_of_octets {m : Memory} {a n v : Nat}
    (h : ∀ k, k < n → m (a + k) = BitVec.ofNat 8 (v / 256 ^ k)) : loadLE m a n = v % 256 ^ n := by
  induction n generalizing a v with
  | zero => rw [loadLE, Nat.pow_zero, Nat.mod_one]
  | succ n ih =>
    have hfirst : m a = BitVec.ofNat 8 v := by
      simpa using h 0 (by omega)
    have hoctet : (m a).toNat = v % 256 := by
      rw [hfirst]
      exact BitVec.toNat_ofNat v 8
    have hrest : loadLE m (a + 1) n = v / 256 % 256 ^ n := by
      refine ih fun k hk => ?_
      rw [Nat.add_assoc, h (1 + k) (by omega), Nat.pow_add, Nat.pow_one, Nat.div_div_eq_div_mul]
    rw [loadLE, hrest, hoctet, Nat.pow_succ', Nat.mod_mul]

theorem loadLE_storeLE (m : Memory) (a n v : Nat) :
    loadLE (storeLE m a n v) a n = v % 256 ^ n :=
  loadLE_of_octets fun _ hk => copyIn_inside hk

theorem loadLE_storeLE_other {m : Memory} {a n b k v : Nat} (h : b + k ≤ a ∨ a + n ≤ b) :
    loadLE (storeLE m a n v) b k = loadLE m b k :=
  loadLE_congr (copyIn_sameOn h)

theorem loadLE_zero {m : Memory} {a n : Nat} (h : ∀ i, a ≤ i → i < a + n → m i = 0) :
    loadLE m a n = 0 := by
  induction n generalizing a with
  | zero => rfl
  | succ n ih =>
    rw [loadLE, h a (Nat.le_refl a) (by omega), ih fun i hlow hhigh => h i (by omega) (by omega)]
    rfl

end Nos3.Base.ByteMemory

/-!
## Words in memory in either byte order

A word of `n` octets begins with its most or its least significant octet. What was
stored is loaded again in the same order. A word whose octets, from the lowest on,
name the places of a declared order is a swap map: octets that are taken from the
places it names, as it lies in memory itself, load as the declared word, and the
order of the memory cancels.
-/
namespace Nos3.Base
open BigEndian (Octet)
open ByteMemory

inductive ByteOrder
  | big
  | little
  deriving DecidableEq

namespace ByteOrder

/-- Where the octet of significance `i` of a word of `n` octets lies. -/
def place (order : ByteOrder) (n i : Nat) : Nat :=
  match order with
  | .big => n - 1 - i
  | .little => i

def load (order : ByteOrder) (n : Nat) (m : Memory) : BitVec (8 * n) :=
  BitVec.ofNat (8 * n) (loadLE (fun i => m (order.place n i)) 0 n)

/-- The octets of a word in the order of their addresses. -/
def octets (order : ByteOrder) (n : Nat) (v : BitVec (8 * n)) : Memory := fun k =>
  BitVec.ofNat 8 (v.toNat / 256 ^ order.place n k)

def store (order : ByteOrder) (n : Nat) (v : BitVec (8 * n)) (m : Memory) : Memory :=
  copyIn m 0 n (order.octets n v)

variable {order host declared : ByteOrder} {n k : Nat} {m m' : Memory} {v : BitVec (8 * n)}

theorem place_lt (h : k < n) : order.place n k < n := by
  cases order with
  | big => exact Nat.lt_of_le_of_lt (Nat.sub_le _ _) (Nat.sub_lt (Nat.zero_lt_of_lt h) Nat.one_pos)
  | little => exact h

theorem place_place (h : k < n) : order.place n (order.place n k) = k := by
  cases order with
  | big =>
    simp only [place]
    omega
  | little => rfl

theorem store_at (h : k < n) : store order n v m k = order.octets n v k := by
  have hcopied : store order n v m (0 + k) = order.octets n v k := copyIn_inside h
  rwa [Nat.zero_add] at hcopied

theorem toNat_lt_octets : v.toNat < 256 ^ n := by
  have hpow : 2 ^ (8 * n) = 256 ^ n := Nat.pow_mul 2 8 n
  exact hpow ▸ v.isLt

/-- Octets that make up a word in the places of an order load as that word. -/
theorem load_eq (h : ∀ i, i < n → m (order.place n i) = BitVec.ofNat 8 (v.toNat / 256 ^ i)) :
    load order n m = v := by
  have hloaded := loadLE_of_octets (m := fun i => m (order.place n i)) (a := 0) (v := v.toNat)
    fun i hi => by rw [Nat.zero_add]; exact h i hi
  rw [load, hloaded, Nat.mod_eq_of_lt toNat_lt_octets, BitVec.ofNat_toNat, BitVec.setWidth_eq]

theorem load_store : load order n (store order n v m) = v := by
  refine load_eq fun i hi => ?_
  rw [store_at (place_lt hi), octets, place_place hi]

/-- The octets of `map` from the lowest on name the places of the declared order. -/
def IsSwapMap (declared : ByteOrder) (n : Nat) (map : BitVec (8 * n)) : Prop :=
  ∀ i, i < n → map.toNat / 256 ^ i % 256 = declared.place n i

instance (map : BitVec (8 * n)) : Decidable (IsSwapMap declared n map) :=
  inferInstanceAs (Decidable (∀ i, i < n → _))

theorem IsSwapMap.stored (h : IsSwapMap declared n v) (hk : k < n) :
    (store host n v m k).toNat = declared.place n (host.place n k) := by
  rw [store_at hk, octets, BitVec.toNat_ofNat]
  exact h _ (place_lt hk)

/-- Octets taken from the places that a stored swap map names load as the source does in
the declared order, whatever the order of the memory. -/
theorem load_swapped (source : Memory)
    (h : ∀ k, k < n → m k = source (declared.place n (host.place n k))) :
    load host n m = load declared n source := by
  rw [load, load, loadLE_congr]
  intro i _ hi
  have hin : i < n := by omega
  exact (h _ (place_lt hin)).trans (by rw [place_place hin])

/-! ## Words of one, two and four octets -/

/-- A word with its lowest octet put behind it. -/
theorem toNat_append_octet {w : Nat} (high : BitVec w) (low : Octet) :
    (high ++ low).toNat = low.toNat + 256 * high.toNat := by
  rw [BitVec.toNat_append, ← Nat.shiftLeft_add_eq_or_of_lt low.isLt, Nat.shiftLeft_eq]
  omega

theorem load_toNat (n : Nat) (m : Memory) :
    (load order n m).toNat = loadLE (fun i => m (order.place n i)) 0 n := by
  rw [load, BitVec.toNat_ofNat, Nat.mod_eq_of_lt]
  rw [Nat.pow_mul]
  exact loadLE_lt _ 0 n

theorem load_one (order : ByteOrder) (m : Memory) : load order 1 m = m 0 := by
  apply BitVec.eq_of_toNat_eq
  cases order <;> simp [load_toNat, loadLE, place]

theorem load_two_big (m : Memory) : load .big 2 m = m 0 ++ m 1 := by
  apply BitVec.eq_of_toNat_eq
  simp [load_toNat, loadLE, place, toNat_append_octet]

theorem load_two_little (m : Memory) : load .little 2 m = m 1 ++ m 0 := by
  apply BitVec.eq_of_toNat_eq
  simp [load_toNat, loadLE, place, toNat_append_octet]

theorem load_four_big (m : Memory) : load .big 4 m = m 0 ++ m 1 ++ m 2 ++ m 3 := by
  apply BitVec.eq_of_toNat_eq
  simp [load_toNat, loadLE, place, toNat_append_octet]

theorem load_four_little (m : Memory) : load .little 4 m = m 3 ++ m 2 ++ m 1 ++ m 0 := by
  apply BitVec.eq_of_toNat_eq
  simp [load_toNat, loadLE, place, toNat_append_octet]

end ByteOrder
end Nos3.Base
