import Nos3.Base.FixedArray
import Mathlib.Data.List.GetD

/-!
# A ring buffer in an array

The queue of `count` cells that starts at `start` continues at cell 0 behind the
last one. Blocks are read and written in at most two pieces; a write behind the
queue appends to it, and a read takes a prefix off.
-/
namespace Nos3.Base.RingBuffer
open FileImage (window)
open FixedArray (patch)

universe u
variable {α : Type u}

/-- The cell `i` places behind `start`, for `i` up to the size. -/
def wrapIndex (size start i : Nat) : Nat :=
  if start + i < size then start + i else start + i - size

/-- `count` cells from `start` on, in two pieces if they go past the end. -/
def readWrapped (cells : List α) (start count : Nat) : List α :=
  if count < cells.length - start then window cells start count
  else window cells start (cells.length - start) ++ window cells 0 (count - (cells.length - start))

def writeWrapped (cells : List α) (stop : Nat) (new : List α) : List α :=
  if new.length < cells.length - stop then patch cells stop new
  else patch (patch cells stop (new.take (cells.length - stop))) 0 (new.drop (cells.length - stop))

theorem wrapIndex_lt {size start i : Nat} (hstart : start < size) (hi : i ≤ size) :
    wrapIndex size start i < size := by
  unfold wrapIndex
  split <;> omega

theorem wrapIndex_add {size start i j : Nat} (hstart : start < size) (hij : i + j ≤ size) :
    wrapIndex size (wrapIndex size start i) j = wrapIndex size start (i + j) := by
  unfold wrapIndex
  split <;> split <;> split <;> omega

theorem readWrapped_length {cells : List α} {start count : Nat} (hcount : count ≤ cells.length) :
    (readWrapped cells start count).length = count := by
  unfold readWrapped
  split
  · rw [FileImage.window_length]
    omega
  · rw [List.length_append, FileImage.window_length, FileImage.window_length]
    omega

theorem readWrapped_single {cells : List α} {start : Nat} (hstart : start < cells.length) :
    readWrapped cells start 1 = window cells start 1 := by
  unfold readWrapped
  split
  · rfl
  · have hone : cells.length - start = 1 := by omega
    rw [hone]
    simp [window]

theorem writeWrapped_length {cells new : List α} {stop : Nat} (hstop : stop ≤ cells.length)
    (hnew : new.length ≤ cells.length) : (writeWrapped cells stop new).length = cells.length := by
  unfold writeWrapped
  split
  · exact FixedArray.patch_length (by omega)
  · have hfirst : (patch cells stop (new.take (cells.length - stop))).length = cells.length :=
      FixedArray.patch_length (by rw [List.length_take]; omega)
    rw [FixedArray.patch_length (by rw [List.length_drop]; omega), hfirst]

theorem writeWrapped_single {cells : List α} {stop : Nat} (hstop : stop < cells.length) (x : α) :
    writeWrapped cells stop [x] = patch cells stop [x] := by
  unfold writeWrapped
  split
  · rfl
  · have hone : cells.length - stop = 1 := by
      have hlast : ¬[x].length < cells.length - stop := by assumption
      rw [List.length_singleton] at hlast
      omega
    rw [hone]
    simp [patch]

section Contents
variable [Inhabited α] {cells new : List α} {start count : Nat}

/-- The queue, oldest cell first. -/
def contents (cells : List α) (start count : Nat) : List α :=
  (List.range count).map fun i => cells.getD (wrapIndex cells.length start i) default

@[simp] theorem contents_length (cells : List α) (start count : Nat) :
    (contents cells start count).length = count := by simp [contents]

theorem getElem_contents {i : Nat} (hi : i < (contents cells start count).length) :
    (contents cells start count)[i] = cells.getD (wrapIndex cells.length start i) default := by
  simp [contents]

/-- A prefix of the queue and what is left of it. -/
theorem contents_split (hstart : start < cells.length) {k : Nat}
    (hcount : k + count ≤ cells.length) :
    contents cells start (k + count) =
      contents cells start k ++ contents cells (wrapIndex cells.length start k) count := by
  apply List.ext_getElem
  · simp
  · intro i hi hi'
    have hlt : i < k + count := by simpa using hi
    rw [getElem_contents]
    by_cases hfront : i < k
    · rw [List.getElem_append_left (by simpa using hfront), getElem_contents]
    · rw [List.getElem_append_right (by simpa using Nat.le_of_not_lt hfront), getElem_contents,
        contents_length, wrapIndex_add hstart (by omega), Nat.add_sub_cancel' (by omega)]

theorem getD_window {data : List α} {offset n i : Nat} (hi : i < n) :
    (window data offset n).getD i default = data.getD (offset + i) default := by
  simp [window, List.getD_eq_getElem?_getD, hi]

/-- Reading a block gives the cells of the queue. -/
theorem readWrapped_eq (hstart : start ≤ cells.length) (hcount : count ≤ cells.length) :
    readWrapped cells start count = contents cells start count := by
  have hlength : (readWrapped cells start count).length = count := readWrapped_length hcount
  apply List.ext_getElem
  · rw [hlength, contents_length]
  · intro i hi hi'
    have hlt : i < count := by simpa using hi'
    rw [getElem_contents, ← List.getD_eq_getElem _ default hi]
    unfold readWrapped wrapIndex
    split
    · rw [getD_window hlt, if_pos (by omega)]
    · by_cases hfront : i < cells.length - start
      · rw [List.getD_append _ _ _ _ (by rw [FileImage.window_length]; omega), getD_window hfront,
          if_pos (by omega)]
      · have hback : (window cells start (cells.length - start)).length = cells.length - start := by
          rw [FileImage.window_length]
          omega
        rw [List.getD_append_right _ _ _ _ (by omega), hback, getD_window (by omega),
          if_neg (by omega), Nat.zero_add]
        congr 1
        omega

/-! ## Writing -/

theorem getD_patch {offset i : Nat} (h : offset + new.length ≤ cells.length) :
    (patch cells offset new).getD i default =
      if offset ≤ i ∧ i < offset + new.length then new.getD (i - offset) default
      else cells.getD i default := by
  have hpre : (cells.take offset).length = offset := by
    rw [List.length_take]
    omega
  unfold patch
  rw [List.append_assoc]
  by_cases hlow : i < offset
  · rw [List.getD_append _ _ _ _ (by omega), if_neg (by omega)]
    simp [List.getD_eq_getElem?_getD, hlow]
  · rw [List.getD_append_right _ _ _ _ (by omega), hpre]
    by_cases hhigh : i < offset + new.length
    · rw [List.getD_append _ _ _ _ (by omega), if_pos (by omega)]
    · rw [List.getD_append_right _ _ _ _ (by omega), if_neg (by omega)]
      simp only [List.getD_eq_getElem?_getD, List.getElem?_drop]
      congr 2
      omega

theorem getD_writeWrapped {stop i : Nat} (hstop : stop ≤ cells.length)
    (hnew : new.length ≤ cells.length) :
    (writeWrapped cells stop new).getD i default =
      if stop ≤ i ∧ i < stop + new.length ∧ i < cells.length then new.getD (i - stop) default
      else if i + cells.length < stop + new.length then
        new.getD (i + cells.length - stop) default
      else cells.getD i default := by
  unfold writeWrapped
  split
  · rw [getD_patch (by omega)]
    split
    · rw [if_pos (by omega)]
    · rw [if_neg (by omega), if_neg (by omega)]
  · have htake : (new.take (cells.length - stop)).length = cells.length - stop := by
      rw [List.length_take]
      omega
    have hfirst : (patch cells stop (new.take (cells.length - stop))).length = cells.length :=
      FixedArray.patch_length (by omega)
    have hdrop := List.length_drop (l := new) (i := cells.length - stop)
    rw [getD_patch (by omega), getD_patch (by omega), hdrop, htake]
    by_cases hback : i + cells.length < stop + new.length
    · rw [if_pos (by omega), if_neg (by omega), if_pos hback]
      simp only [List.getD_eq_getElem?_getD, List.getElem?_drop]
      congr 2
      omega
    · rw [if_neg (by omega), if_neg hback]
      by_cases hin : stop ≤ i ∧ i < cells.length
      · rw [if_pos (by omega), if_pos (by omega)]
        simp only [List.getD_eq_getElem?_getD]
        rw [List.getElem?_take_of_lt (by omega)]
      · rw [if_neg (by omega), if_neg (by omega)]

/-- A block written behind the queue is appended to it. -/
theorem contents_write (hstart : start < cells.length)
    (hroom : count + new.length ≤ cells.length) :
    contents (writeWrapped cells (wrapIndex cells.length start count) new) start
      (count + new.length) = contents cells start count ++ new := by
  have hstop := wrapIndex_lt hstart (Nat.le_trans (Nat.le_add_right _ _) hroom)
  have hlength : (writeWrapped cells (wrapIndex cells.length start count) new).length =
      cells.length := writeWrapped_length (Nat.le_of_lt hstop) (by omega)
  apply List.ext_getElem
  · simp
  · intro i hi hi'
    have hlt : i < count + new.length := by simpa using hi
    rw [getElem_contents, getD_writeWrapped (Nat.le_of_lt hstop) (by omega), hlength]
    unfold wrapIndex
    by_cases hfront : i < count
    · -- an old cell is not written to
      rw [List.getElem_append_left (by simpa using hfront), getElem_contents]
      unfold wrapIndex
      split <;> split <;> (rw [if_neg (by omega), if_neg (by omega)])
    · have hbound : i - count < new.length := by omega
      rw [List.getElem_append_right (by simpa using Nat.le_of_not_lt hfront)]
      simp only [contents_length]
      rw [← List.getD_eq_getElem _ default hbound]
      split <;> split
      · rw [if_pos (by omega)]
        congr 1
        omega
      · rw [if_neg (by omega), if_pos (by omega)]
        congr 1
        omega
      · omega
      · rw [if_pos (by omega)]
        congr 1
        omega

/-! ## One cell at a time -/

theorem contents_push (hstart : start < cells.length) (hroom : count < cells.length) (x : α) :
    contents (patch cells (wrapIndex cells.length start count) [x]) start (count + 1) =
      contents cells start count ++ [x] := by
  rw [← writeWrapped_single (wrapIndex_lt hstart (Nat.le_of_lt hroom))]
  exact contents_write hstart hroom

/-- A cell written to a full ring takes the place of the oldest one. -/
theorem contents_overwrite (hstart : start < cells.length) (x : α) :
    contents (patch cells start [x]) (wrapIndex cells.length start 1) cells.length =
      (contents cells start cells.length).tail ++ [x] := by
  obtain ⟨n, hn⟩ := Nat.exists_eq_succ_of_ne_zero (Nat.ne_of_gt (Nat.zero_lt_of_lt hstart))
  have hsplit := contents_split hstart (show 1 + n ≤ cells.length by omega)
  have hback : wrapIndex cells.length (wrapIndex cells.length start 1) n = start := by
    rw [wrapIndex_add hstart (by omega)]
    unfold wrapIndex
    split <;> omega
  have hpush := contents_push (wrapIndex_lt hstart (show 1 ≤ cells.length by omega))
    (show n < cells.length by omega) x
  rw [hback, ← Nat.succ_eq_add_one, ← hn] at hpush
  rw [hpush]
  rw [Nat.add_comm, ← Nat.succ_eq_add_one, ← hn] at hsplit
  rw [hsplit]
  simp [contents]

end Contents

end Nos3.Base.RingBuffer
