import Nos3.Base.Transition
import Mathlib.Logic.Function.Basic

/-!
# Background file dumps

`cfe_fs_api.c`: the queue of `CFE_FS_BackgroundFileDumpRequest` and the slices of
`CFE_FS_RunBackgroundFileDump`. What the calls for the k-th accepted request come to is given
by the k-th job: each record is asked for and written once, so that this leaves nothing out.
-/
namespace Nos3.Fs
open Nos3.Base.Transition (Machine)
open Function (update)

def CFE_FS_MAX_BACKGROUND_FILE_WRITES : Nat := 4
def CFE_FS_BACKGROUND_CREDIT_PER_SECOND : BitVec 32 := 10000
def CFE_FS_BACKGROUND_MAX_CREDIT : BitVec 32 := 10000

/-- The size of a `CFE_FS_Header_t`. -/
def sizeofHeader : Nat := 64

inductive WriteEvent
  | complete
  | createError
  | headerWriteError
  | recordWriteError
  deriving DecidableEq

/-- What the task does to the file, and what it tells the requestor. -/
inductive Output
  | create (ok : Bool)
  | writeHeader (ok : Bool)
  | write (recordNum : Nat) (data : List (BitVec 8)) (ok : Bool)
  | close
  | event (event : WriteEvent) (recordNum fileSize : Nat)

structure Job where
  createOk : Bool
  headerOk : Bool
  getData : Nat → Bool × List (BitVec 8)
  writeOk : Nat → Bool

/-- `CFE_FS_CurrentFileState_t`, with the outputs so far. -/
structure CurrentFile where
  fd : Bool
  credit : BitVec 32
  recordNum : Nat
  fileSize : Nat
  trace : List Output

/-- `CFE_FS_BackgroundFileDumpState_t`, the flags of the requestors, and the requests that were
accepted, which the code does not keep. -/
structure FileDump (ι : Type) where
  requestCount : BitVec 32
  completeCount : BitVec 32
  entries : Fin CFE_FS_MAX_BACKGROUND_FILE_WRITES → Option ι
  current : CurrentFile
  isPending : ι → Bool
  accepted : List ι
  completed : Nat

def FileDump.initial (ι : Type) : FileDump ι :=
  ⟨0, 0, fun _ => none, ⟨false, 0, 0, 0, []⟩, fun _ => false, [], 0⟩

theorem entry_lt (count : BitVec 32) :
    (count &&& 3).toNat < CFE_FS_MAX_BACKGROUND_FILE_WRITES := by
  rw [BitVec.toNat_and]
  exact Nat.and_lt_two_pow (n := 2) _ (by decide)

def entryIndex (count : BitVec 32) : Fin CFE_FS_MAX_BACKGROUND_FILE_WRITES :=
  ⟨(count &&& 3).toNat, entry_lt count⟩

/-- What a request is checked for. -/
structure MetaData where
  isNull : Bool
  hasGetter : Bool
  hasEvent : Bool
  fileNameEmpty : Bool

inductive RequestStatus
  | success
  | badArgument
  | invalidPath
  | alreadyPending
  deriving DecidableEq

section Operations
variable {ι : Type} [DecidableEq ι]

/-- `CFE_FS_BackgroundFileDumpRequest` -/
def backgroundFileDumpRequest (data : ι → MetaData) (requestor : ι) (s : FileDump ι) :
    RequestStatus × FileDump ι :=
  if (data requestor).isNull then (.badArgument, s)
  else if (data requestor).hasGetter = false ∨ (data requestor).hasEvent = false then
    (.badArgument, s)
  else if (data requestor).fileNameEmpty then (.invalidPath, s)
  else if s.isPending requestor then (.alreadyPending, s)
  else
    let pendingRequestCount := s.requestCount + 1
    if pendingRequestCount =
        s.completeCount + BitVec.ofNat 32 CFE_FS_MAX_BACKGROUND_FILE_WRITES then
      (.alreadyPending, s)
    else
      (.success,
        { s with
          entries := update s.entries (entryIndex s.requestCount) (some requestor)
          isPending := update s.isPending requestor true
          requestCount := pendingRequestCount
          accepted := s.accepted ++ [requestor] })

/-- The first slice of a request: the file is created. -/
def openFile (job : Job) (f : CurrentFile) : CurrentFile :=
  if job.createOk then
    if job.headerOk then
      { f with
        fd := true
        fileSize := sizeofHeader
        credit := f.credit - BitVec.ofNat 32 sizeofHeader
        recordNum := 0
        trace := f.trace ++ [.create true, .writeHeader true] }
    else
      { f with
        fd := false
        trace := f.trace ++ [.create true, .writeHeader false, .close,
          .event .headerWriteError f.recordNum f.fileSize] }
  else { f with fd := false, trace := f.trace ++ [.create false, .event .createError 0 0] }

/-- The loop over the records, with whether the last one was reached. Each round takes one unit
of fuel; the result is missing where it runs out. -/
def writeRecords (job : Job) : Nat → Bool → CurrentFile → Option (Bool × CurrentFile)
  | fuel, isEOF, f =>
    if f.fd = true ∧ 0 < f.credit.toInt ∧ isEOF = false then
      match fuel with
      | 0 => none
      | fuel + 1 =>
        let (isEOF, data) := job.getData f.recordNum
        if 0 < data.length then
          let f := { f with credit := f.credit - BitVec.ofNat 32 data.length }
          if job.writeOk f.recordNum then
            writeRecords job fuel isEOF
              { f with
                fileSize := f.fileSize + data.length
                recordNum := f.recordNum + 1
                trace := f.trace ++ [.write f.recordNum data true] }
          else
            some (isEOF,
              { f with
                fd := false
                trace := f.trace ++ [.write f.recordNum data false, .close,
                  .event .recordWriteError f.recordNum f.fileSize] })
        else writeRecords job fuel isEOF { f with recordNum := f.recordNum + 1 }
    else some (isEOF, f)

def addCredit (elapsedTime credit : BitVec 32) : BitVec 32 :=
  let credit := credit + elapsedTime * CFE_FS_BACKGROUND_CREDIT_PER_SECOND / 1000
  if CFE_FS_BACKGROUND_MAX_CREDIT.toInt < credit.toInt then CFE_FS_BACKGROUND_MAX_CREDIT
  else credit

/-- The end of a slice: a complete file is closed. -/
def closeFile (isEOF : Bool) (f : CurrentFile) : CurrentFile :=
  if isEOF then
    { f with
      fd := false
      trace := f.trace ++ [.close, .event .complete f.recordNum f.fileSize] }
  else f

/-- `CFE_FS_RunBackgroundFileDump` -/
def runBackgroundFileDump (jobs : Nat → Job) (elapsedTime : BitVec 32) (fuel : Nat)
    (s : FileDump ι) : Option (FileDump ι) :=
  let f := { s.current with credit := addCredit elapsedTime s.current.credit }
  if s.completeCount = s.requestCount then some { s with current := f }
  else
    match s.entries (entryIndex s.completeCount) with
    | none => none
    | some requestor =>
      let job := jobs s.completed
      let f := if f.fd = false ∧ s.isPending requestor = true then openFile job f else f
      match writeRecords job fuel false f with
      | none => none
      | some (isEOF, f) =>
        let f := closeFile isEOF f
        if f.fd = false then
          some
            { s with
              current := f
              entries := update s.entries (entryIndex s.completeCount) none
              completeCount := s.completeCount + 1
              isPending := update s.isPending requestor false
              completed := s.completed + 1 }
        else some { s with current := f }

inductive DumpCall (ι : Type)
  | request (requestor : ι)
  | run (elapsedTime : BitVec 32) (fuel : Nat)

def dumpMachine (ι : Type) [DecidableEq ι] (data : ι → MetaData) (jobs : Nat → Job) :
    Machine (FileDump ι) (DumpCall ι) where
  start s := s = FileDump.initial ι
  next s call :=
    match call with
    | .request requestor => some (backgroundFileDumpRequest data requestor s).2
    | .run elapsedTime fuel => runBackgroundFileDump jobs elapsedTime fuel s

end Operations

end Nos3.Fs
