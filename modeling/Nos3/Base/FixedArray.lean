import Nos3.Base.FileImage
import Mathlib.Algebra.Group.Nat.Defs

/-!
# Arrays of a fixed size

A buffer carries its size, so a write can neither grow nor shrink it. Reads and
writes name an offset and a length and give nothing where they would leave the
array, which is where the program they model has no meaning.
-/
namespace Nos3.Base.FixedArray
open FileImage (window window_full)

universe u
variable {α : Type u} {n : Nat}

structure Buffer (α : Type u) (n : Nat) where
  cells : List α
  length_cells : cells.length = n
  deriving DecidableEq

def Buffer.replicate (n : Nat) (a : α) : Buffer α n := ⟨List.replicate n a, by simp⟩

/-- `count` cells from `offset` on, when they are all there. -/
def readAt (cells : List α) (offset count : Nat) : Option (List α) :=
  if offset + count ≤ cells.length then some (window cells offset count) else none

def patch (cells : List α) (offset : Nat) (new : List α) : List α :=
  cells.take offset ++ new ++ cells.drop (offset + new.length)

def Buffer.write (buffer : Buffer α n) (offset : Nat) (new : List α) :
    Option (Buffer α n) :=
  if h : offset + new.length ≤ n then
    some ⟨patch buffer.cells offset new, by
      have hlen := buffer.length_cells
      simp only [patch, List.length_append, List.length_take, List.length_drop]
      omega⟩
  else none

theorem readAt_eq_some {cells : List α} {offset count : Nat} (h : offset + count ≤ cells.length) :
    readAt cells offset count = some (window cells offset count) := if_pos h

theorem readAt_cases {cells : List α} {offset count : Nat} {found : List α}
    (h : readAt cells offset count = some found) :
    offset + count ≤ cells.length ∧ found = window cells offset count := by
  rw [readAt] at h
  split at h
  · cases h
    exact ⟨‹_›, rfl⟩
  · cases h

theorem readAt_length {cells : List α} {offset count : Nat} {found : List α}
    (h : readAt cells offset count = some found) : found.length = count := by
  obtain ⟨hle, rfl⟩ := readAt_cases h
  exact window_full hle

theorem Buffer.write_cases {buffer result : Buffer α n} {offset : Nat} {new : List α}
    (h : buffer.write offset new = some result) :
    offset + new.length ≤ n ∧ result.cells = patch buffer.cells offset new := by
  rw [Buffer.write] at h
  split at h
  · cases h
    exact ⟨‹_›, rfl⟩
  · cases h

theorem Buffer.exists_write (buffer : Buffer α n) {offset : Nat} {new : List α}
    (h : offset + new.length ≤ n) :
    ∃ result, buffer.write offset new = some result ∧
      result.cells = patch buffer.cells offset new := by
  rw [Buffer.write, dif_pos h]
  exact ⟨_, rfl, rfl⟩

theorem patch_length {cells new : List α} {offset : Nat} (h : offset + new.length ≤ cells.length) :
    (patch cells offset new).length = cells.length := by
  simp only [patch, List.length_append, List.length_take, List.length_drop]
  omega

/-- What was written is read back. -/
theorem window_patch_same {cells new : List α} {offset : Nat}
    (h : offset + new.length ≤ cells.length) :
    window (patch cells offset new) offset new.length = new := by
  have hpre : (cells.take offset).length = offset := by
    rw [List.length_take]
    omega
  rw [window, patch, List.append_assoc, List.drop_left' hpre, List.take_left' rfl]

/-- A part that ends before the write keeps its cells. -/
theorem window_patch_before {cells new : List α} {offset start count : Nat}
    (hbefore : start + count ≤ offset) (h : offset + new.length ≤ cells.length) :
    window (patch cells offset new) start count = window cells start count := by
  rw [window, window, patch, List.append_assoc,
    List.drop_append_of_le_length (by rw [List.length_take]; omega),
    List.take_append_of_le_length (by rw [List.length_drop, List.length_take]; omega),
    List.drop_take, List.take_take, Nat.min_eq_left (by omega)]

theorem patch_append (front back new : List α) :
    patch (front ++ back) front.length new = front ++ new ++ back.drop new.length := by
  rw [patch, List.take_left' rfl, ← List.drop_drop, List.drop_left' rfl]

end Nos3.Base.FixedArray

/-!
## Writing through a counter

Cells are written one after the other at the place a counter of `w` bits names. Up to
`2 ^ w` the writes are one write of all the cells; from there on they start over, and
the cells behind are never reached.
-/
namespace Nos3.Base.FixedArray
open FileImage (window)

universe u
variable {α : Type u} {n w : Nat}

/-- A place outside the buffer keeps nothing. -/
def Buffer.put (buffer : Buffer α n) (i : Nat) (a : α) : Buffer α n :=
  ⟨buffer.cells.set i a, by rw [List.length_set, buffer.length_cells]⟩

/-- The buffer and the counter behind the last cell. -/
def Buffer.putAll (buffer : Buffer α n) (count : BitVec w) : List α → Buffer α n × BitVec w
  | [] => (buffer, count)
  | a :: rest => (buffer.put count.toNat a).putAll (count + 1#w) rest

@[simp] theorem Buffer.putAll_nil (buffer : Buffer α n) (count : BitVec w) :
    buffer.putAll count [] = (buffer, count) := rfl

theorem Buffer.putAll_append (buffer : Buffer α n) (count : BitVec w) (front back : List α) :
    buffer.putAll count (front ++ back) =
      (buffer.putAll count front).1.putAll (buffer.putAll count front).2 back := by
  induction front generalizing buffer count with
  | nil => rfl
  | cons a front ih => exact ih _ _

/-- Cells that no counter value names keep what they hold. -/
theorem Buffer.putAll_beyond (buffer : Buffer α n) (count : BitVec w) (new : List α) {i : Nat}
    (h : 2 ^ w ≤ i) : (buffer.putAll count new).1.cells[i]? = buffer.cells[i]? := by
  induction new generalizing buffer count with
  | nil => rfl
  | cons a rest ih =>
    have hcount := count.isLt
    rw [Buffer.putAll, ih, Buffer.put, List.getElem?_set_ne (by omega)]

theorem patch_cons {cells rest : List α} {offset : Nat} {a : α}
    (h : offset + 1 + rest.length ≤ cells.length) :
    patch (cells.set offset a) (offset + 1) rest = patch cells offset (a :: rest) := by
  rw [patch, patch, List.take_succ_eq_append_getElem (by rw [List.length_set]; omega),
    List.getElem_set_self, List.take_set, List.set_eq_of_length_le (by rw [List.length_take]; omega),
    List.drop_set_of_lt (by omega), List.length_cons, Nat.add_assoc, Nat.add_comm 1]
  simp only [List.append_assoc, List.cons_append, List.nil_append]

/-- As long as the counter does not overflow the cells are written in one piece. -/
theorem Buffer.putAll_fits (buffer : Buffer α n) (count : BitVec w) {new : List α}
    (hcount : count.toNat + new.length ≤ 2 ^ w) (hroom : count.toNat + new.length ≤ n) :
    (buffer.putAll count new).1.cells = patch buffer.cells count.toNat new := by
  induction new generalizing buffer count with
  | nil => simp [patch]
  | cons a rest ih =>
    have hlen := buffer.length_cells
    rw [List.length_cons] at hcount hroom
    cases hrest : rest with
    | nil =>
      have hone : patch (buffer.cells.set count.toNat a) (count.toNat + 1) [] =
          patch buffer.cells count.toNat [a] :=
        patch_cons (by rw [List.length_nil]; omega)
      rw [← hone, Buffer.putAll, Buffer.putAll_nil, Buffer.put, patch, List.append_nil,
        List.length_nil, Nat.add_zero, List.take_append_drop]
    | cons b back =>
      have hsucc : (count + 1#w).toNat = count.toNat + 1 := by
        rw [hrest, List.length_cons] at hcount
        have hwidth : 0 < w := by
          by_contra hzero
          obtain rfl : w = 0 := by omega
          omega
        rw [BitVec.toNat_add, BitVec.toNat_one hwidth, Nat.mod_eq_of_lt (by omega)]
      rw [Buffer.putAll, ← hrest, ih _ _ (by omega) (by omega), hsucc, Buffer.put,
        patch_cons (by omega)]

end Nos3.Base.FixedArray
