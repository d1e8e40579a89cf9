import Nos3.Cf.Source.Transaction

/-!
# File operations (the `CF_Wrapped` functions of cf_utils.c and the calls below them)

Each call asks `fileOps` whether the operating system carries it out; if so, the
file behaves as a byte file with 32-bit positions. A result of `none` is a
negative return value.
-/
namespace Nos3.Cf
open Nos3.Base.FileImage

def fileSizeLimit : Nat := 2 ^ 32

/-- Largest position `OS_lseek` can return, plus one. -/
def lseekResultLimit : Nat := 2 ^ 31

def nextFileOp (w : World) : Bool × World :=
  (w.fileOps 0, { w with fileOps := fun n => w.fileOps (n + 1) })

def World.setFile (w : World) (f : OpenFile) : World := { w with t := { w.t with fd := some f } }

/-- `CF_WrappedLseek` with `OS_SEEK_SET`. -/
def wrappedLseek (w : World) (offset : Nat) : Option Nat × World :=
  let (ok, w) := nextFileOp w
  match w.t.fd with
  | some f => if ok then (some offset, w.setFile { f with file := f.file.seek offset }) else (none, w)
  | none => (none, w)

/-- The seek that file access skips where `cached_pos` says it is not needed. -/
def seekFrom (w : World) (cachedPos offset : Nat) : Bool × World :=
  if cachedPos ≠ offset then
    let (status, w) := wrappedLseek w offset
    (status == some offset, w)
  else (true, w)

/-- `CF_WrappedLseek` with offset 0 and `OS_SEEK_END`. -/
def wrappedLseekEnd (w : World) : Option Nat × World :=
  let (ok, w) := nextFileOp w
  match w.t.fd with
  | some f =>
    let size := f.file.data.length
    if ok && decide (size < lseekResultLimit) then
      (some size, w.setFile { f with file := f.file.seek size })
    else (none, w)
  | none => (none, w)

def wrappedRead (w : World) (readSize : Nat) : Option (List Octet) × World :=
  let (ok, w) := nextFileOp w
  match w.t.fd with
  | some f =>
    if ok then
      let (octets, file) := f.file.read readSize
      (some octets, w.setFile { f with file := file })
    else (none, w)
  | none => (none, w)

def wrappedWrite (w : World) (octets : List Octet) : Option Nat × World :=
  let (ok, w) := nextFileOp w
  match w.t.fd with
  | some f =>
    if ok && decide (f.file.pos + octets.length < fileSizeLimit) then
      (some octets.length, w.setFile { f with file := f.file.write octets })
    else (none, w)
  | none => (none, w)

def setFileContent (w : World) (name : Filename) (content : Option (List Octet)) : World :=
  { w with files := fun n => if n = name then content else w.files n }

def wrappedClose (w : World) : World :=
  match w.t.fd with
  | some f => { setFileContent w f.name (some f.file.data) with t := { w.t with fd := none } }
  | none => w

/-- `CF_WrappedOpenCreate` with `OS_FILE_FLAG_CREATE | OS_FILE_FLAG_TRUNCATE`. -/
def wrappedCreate (w : World) (fname : Filename) : Bool × World :=
  let (ok, w) := nextFileOp w
  if ok then (true, w.setFile ⟨fname, ⟨[], 0⟩⟩) else (false, { w with t := { w.t with fd := none } })

/-- `CF_WrappedOpenCreate` with `OS_FILE_FLAG_NONE`. -/
def wrappedOpen (w : World) (fname : Filename) : Bool × World :=
  let (ok, w) := nextFileOp w
  match w.files fname with
  | some data =>
    if ok then (true, w.setFile ⟨fname, ⟨data, 0⟩⟩)
    else (false, { w with t := { w.t with fd := none } })
  | none => (false, { w with t := { w.t with fd := none } })

/-- `OS_FileOpenCheck`: whether the file is already open, which counts as a
refusal. -/
def fileOpenCheck (w : World) : Bool × World :=
  let (ok, w) := nextFileOp w
  (!ok, w)

def osMv (w : World) (src dst : Filename) : Bool × World :=
  let (ok, w) := nextFileOp w
  match w.files src with
  | some data =>
    if ok then (true, setFileContent (setFileContent w src none) dst (some data)) else (false, w)
  | none => (false, w)

def osRemove (w : World) (fname : Filename) : World :=
  let (ok, w) := nextFileOp w
  if ok then setFileContent w fname none else w

theorem wrappedClose_frame (w : World) :
    ∃ files fd, wrappedClose w = { w with files := files, t.fd := fd } := by
  unfold wrappedClose
  cases w.t.fd with
  | some f => exact ⟨_, _, rfl⟩
  | none => exact ⟨w.files, w.t.fd, rfl⟩

theorem osRemove_frame (w : World) (fname : Filename) :
    ∃ fileOps files, osRemove w fname = { w with fileOps := fileOps, files := files } := by
  simp only [osRemove, nextFileOp]
  by_cases hop : w.fileOps 0 = true
  · simp only [hop, ↓reduceIte]
    exact ⟨_, _, rfl⟩
  · simp only [hop, Bool.false_eq_true, ↓reduceIte]
    exact ⟨_, _, rfl⟩

end Nos3.Cf

/-!
## What the file operations do

One lemma for each operation: what it returns and how it leaves the descriptor,
where it succeeds and where it does not.
-/
namespace Nos3.Cf
open Nos3.Base.FileImage

/-- The answers after the next `m` ones. -/
def Answers.skip (answers : Answers) (m : Nat) : Answers := fun n => answers (n + m)

def OpenFile.at (f : OpenFile) (pos : Nat) : OpenFile := { f with file := { f.file with pos := pos } }

@[simp] theorem OpenFile.at_name (f : OpenFile) (pos : Nat) : (f.at pos).name = f.name := rfl

@[simp] theorem OpenFile.at_data (f : OpenFile) (pos : Nat) :
    (f.at pos).file.data = f.file.data := rfl

@[simp] theorem OpenFile.at_pos (f : OpenFile) (pos : Nat) : (f.at pos).file.pos = pos := rfl

@[simp] theorem OpenFile.at_at (f : OpenFile) (pos pos' : Nat) : (f.at pos).at pos' = f.at pos' := rfl

@[simp] theorem OpenFile.at_self (f : OpenFile) : f.at f.file.pos = f := rfl

/-- The world after one more file operation that leaves the descriptor as `fd`. -/
def World.afterFileOp (w : World) (fd : Option OpenFile) : World :=
  { w with fileOps := w.fileOps.skip 1, t.fd := fd }

@[simp] theorem World.afterFileOp_fd (w : World) (fd : Option OpenFile) :
    (w.afterFileOp fd).t.fd = fd := rfl

theorem wrappedLseek_cases (w : World) (offset : Nat) :
    (∃ f, w.t.fd = some f ∧ w.fileOps 0 = true ∧
      wrappedLseek w offset = (some offset, w.afterFileOp (some (f.at offset)))) ∨
    (w.fileOps 0 = true → w.t.fd = none) ∧
      wrappedLseek w offset = (none, w.afterFileOp w.t.fd) := by
  simp only [wrappedLseek, nextFileOp]
  cases hfd : w.t.fd with
  | none =>
    refine .inr ⟨fun _ => rfl, ?_⟩
    simp only [World.afterFileOp, ← hfd]
    rfl
  | some f =>
    by_cases hop : w.fileOps 0 = true
    · exact .inl ⟨f, rfl, hop, by simp only [hop, ↓reduceIte]; rfl⟩
    · refine .inr ⟨fun h => absurd h hop, ?_⟩
      simp only [hop, Bool.false_eq_true, ↓reduceIte, World.afterFileOp, ← hfd]
      rfl

theorem wrappedRead_cases (w : World) (n : Nat) :
    (∃ f, w.t.fd = some f ∧ w.fileOps 0 = true ∧
      wrappedRead w n = (some (window f.file.data f.file.pos n),
        w.afterFileOp (some (f.at (f.file.pos + (window f.file.data f.file.pos n).length))))) ∨
    (w.fileOps 0 = true → w.t.fd = none) ∧ wrappedRead w n = (none, w.afterFileOp w.t.fd) := by
  simp only [wrappedRead, nextFileOp]
  cases hfd : w.t.fd with
  | none =>
    refine .inr ⟨fun _ => rfl, ?_⟩
    simp only [World.afterFileOp, ← hfd]
    rfl
  | some f =>
    by_cases hop : w.fileOps 0 = true
    · exact .inl ⟨f, rfl, hop, by simp only [hop, ↓reduceIte]; rfl⟩
    · refine .inr ⟨fun h => absurd h hop, ?_⟩
      simp only [hop, Bool.false_eq_true, ↓reduceIte, World.afterFileOp, ← hfd]
      rfl

theorem wrappedLseekEnd_cases {w : World} {f : OpenFile} (hfd : w.t.fd = some f) :
    (f.file.data.length < lseekResultLimit ∧ wrappedLseekEnd w =
      (some f.file.data.length, w.afterFileOp (some (f.at f.file.data.length)))) ∨
    wrappedLseekEnd w = (none, w.afterFileOp w.t.fd) := by
  simp only [wrappedLseekEnd, nextFileOp, hfd]
  by_cases hop : w.fileOps 0 = true ∧ f.file.data.length < lseekResultLimit
  · exact .inl ⟨hop.2, by simp only [hop.1, hop.2, decide_true, Bool.and_self, ↓reduceIte]; rfl⟩
  · have hno : (w.fileOps 0 && decide (f.file.data.length < lseekResultLimit)) = false := by
      simpa using hop
    refine .inr ?_
    simp only [hno, Bool.false_eq_true, ↓reduceIte, World.afterFileOp, ← hfd]
    rfl

theorem fileOpenCheck_eq (w : World) :
    fileOpenCheck w = (!w.fileOps 0, w.afterFileOp w.t.fd) := rfl

theorem wrappedOpen_cases (w : World) (fname : Filename) :
    (∃ data, wrappedOpen w fname = (true, w.afterFileOp (some ⟨fname, ⟨data, 0⟩⟩))) ∨
    wrappedOpen w fname = (false, w.afterFileOp none) := by
  simp only [wrappedOpen, nextFileOp]
  cases w.files fname with
  | none => exact .inr rfl
  | some data =>
    by_cases hop : w.fileOps 0 = true
    · exact .inl ⟨data, by simp only [hop, ↓reduceIte]; rfl⟩
    · exact .inr (by simp only [hop, Bool.false_eq_true, ↓reduceIte]; rfl)

/-- Where a file operation at `offset` takes place: the descriptor's own position
if `cached_pos` says so. -/
def accessPos (cachedPos offset pos : Nat) : Nat := if cachedPos = offset then pos else offset

/-- Only the descriptor moves, and only where the seek succeeds. -/
theorem seekFrom_cases (w : World) (cachedPos offset : Nat) :
    (∃ f m, w.t.fd = some f ∧ seekFrom w cachedPos offset = (true, { w with
      fileOps := w.fileOps.skip m
      t.fd := some (f.at (accessPos cachedPos offset f.file.pos)) })) ∨
    (w.t.fd = none ∧ seekFrom w cachedPos offset = (true, w)) ∨
    ((w.fileOps 0 = true → w.t.fd = none) ∧
      seekFrom w cachedPos offset = (false, w.afterFileOp w.t.fd)) := by
  by_cases h : cachedPos = offset
  · have hskip : seekFrom w cachedPos offset = (true, w) := by simp [seekFrom, h]
    cases hfd : w.t.fd with
    | none => exact .inr (.inl ⟨rfl, hskip⟩)
    | some f =>
      refine .inl ⟨f, 0, rfl, ?_⟩
      rw [hskip, accessPos, if_pos h, OpenFile.at_self, ← hfd]
      rfl
  · simp only [seekFrom, ne_eq, h, not_false_eq_true, ↓reduceIte, accessPos]
    rcases wrappedLseek_cases w offset with ⟨f, hfd, _, heq⟩ | ⟨hreason, heq⟩
    · exact .inl ⟨f, 1, hfd, by simp [heq, World.afterFileOp]⟩
    · exact .inr (.inr ⟨hreason, by simp [heq]⟩)

end Nos3.Cf
