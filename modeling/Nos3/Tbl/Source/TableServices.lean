import Nos3.Base.BigEndian
import Nos3.Base.FixedArray
import Nos3.Base.Transition
import Mathlib.Data.Fin.Basic
import Mathlib.Logic.Function.Basic

/-!
# Table services

The load path of `cfe_tbl_internal.c`, `cfe_tbl_api.c` and `cfe_tbl_task_cmds.c` over tables that
are registered: loads by an application and by command, validation, activation, update, abort,
and the addresses that applications hold. A step is missing where the code leaves its arrays.
-/
namespace Nos3.Tbl
open Nos3.Base.BigEndian (Octet)
open Nos3.Base.FixedArray (patch)
open Nos3.Base.Transition (Machine)

def CFE_PLATFORM_TBL_MAX_NUM_TABLES : Nat := 128
def CFE_PLATFORM_TBL_MAX_NUM_HANDLES : Nat := 256
def CFE_PLATFORM_TBL_MAX_SIMULTANEOUS_LOADS : Nat := 4
def CFE_PLATFORM_TBL_MAX_NUM_VALIDATIONS : Nat := 10

inductive Status
  | success
  | infoUpdated
  | infoNoUpdatePending
  | infoTableLocked
  | infoNoValidationPending
  | warnPartialLoad
  | warnShortFile
  | errInvalidHandle
  | errNoAccess
  | errUnregistered
  | errNeverLoaded
  | errDumpOnly
  | errLoadInProgress
  | errNoBufferAvail
  | errIllegalSrcType
  | errAccess
  | errFileForWrongTable
  | errFileTooLarge
  | errLoadIncomplete
  | errPartialLoad
  | validation (code : Int)
  deriving DecidableEq

/-- The codes below zero. -/
def Status.isError : Status → Bool
  | .success | .infoUpdated | .infoNoUpdatePending | .infoTableLocked
  | .infoNoValidationPending | .warnPartialLoad | .warnShortFile => false
  | .validation code => code < 0
  | _ => true

structure DataSource where
  name : String
  fileCreateTimeSecs : Nat
  fileCreateTimeSubSecs : Nat
  deriving DecidableEq

/-- `CFE_TBL_LoadBuff_t`. The image is the part of the buffer that its table has: `Size` octets. -/
structure LoadBuff where
  image : List Octet
  source : DataSource
  crc : Nat
  taken : Bool
  validated : Bool
  deriving DecidableEq

structure AccessDescriptor where
  appId : Nat
  regIndex : Nat
  usedFlag : Bool
  lockFlag : Bool
  updated : Bool
  bufferIndex : Fin 2
  deriving DecidableEq

/-- `CFE_TBL_RegistryRec_t`, with the handles linked from `HeadOfAccessList` as a list. -/
structure RegistryRec where
  ownerAppId : Option Nat
  name : String
  size : Nat
  buffers : Fin 2 → LoadBuff
  validationFuncPtr : Option (List Octet → Int)
  accessList : List Nat
  loadInProgress : Option Nat
  validateActiveIndex : Option Nat
  validateInactiveIndex : Option Nat
  tableLoadedOnce : Bool
  loadPending : Bool
  dumpOnly : Bool
  doubleBuffered : Bool
  userDefAddr : Bool
  activeBufferIndex : Fin 2
  lastFileLoaded : String

inductive ValidationState
  | free
  | pending
  | performed
  deriving DecidableEq

structure ValidationResult where
  state : ValidationState
  result : Int
  crcOfTable : Nat
  activeBuffer : Bool
  tableName : String
  deriving DecidableEq

/-- `CFE_TBL_Global`; the arrays have the lengths of the platform's constants. -/
structure Global where
  registry : Nat → RegistryRec
  loadBuffs : Nat → LoadBuff
  handles : Nat → AccessDescriptor
  validationResults : Nat → ValidationResult
  tableTaskAppId : Nat

def Global.setRec (s : Global) (r : Nat) (t : RegistryRec) : Global :=
  { s with registry := Function.update s.registry r t }

def Global.setBuff (s : Global) (i : Nat) (b : LoadBuff) : Global :=
  { s with loadBuffs := Function.update s.loadBuffs i b }

/-- A `CFE_TBL_LoadBuff_t` pointer: one of a table's own buffers, or a common one. -/
inductive BufferRef
  | dedicated (i : Fin 2)
  | shared (i : Nat)
  deriving DecidableEq

def Global.buffer (s : Global) (r : Nat) : BufferRef → LoadBuff
  | .dedicated i => (s.registry r).buffers i
  | .shared i => s.loadBuffs i

def Global.setBuffer (s : Global) (r : Nat) (ref : BufferRef) (b : LoadBuff) : Global :=
  match ref with
  | .dedicated i =>
    s.setRec r { s.registry r with buffers := Function.update (s.registry r).buffers i b }
  | .shared i => s.setBuff i b

/-! ## Access -/

/-- `CFE_TBL_ValidateAccess`, with the checks of the handle and of the caller's rights. -/
def validateAccess (s : Global) (handle app : Nat) : Status :=
  if handle ≥ CFE_PLATFORM_TBL_MAX_NUM_HANDLES then .errInvalidHandle
  else if (s.handles handle).usedFlag = false then .errInvalidHandle
  else if app = (s.handles handle).appId then .success
  else if app = s.tableTaskAppId then .success
  else .errNoAccess

/-- `CFE_TBL_FindTableInRegistry` -/
def findTableInRegistry (s : Global) (name : String) : Option Nat :=
  (List.range CFE_PLATFORM_TBL_MAX_NUM_TABLES).find? fun i =>
    (s.registry i).ownerAppId.isSome && (s.registry i).name == name

/-! ## Working buffers -/

/-- `CFE_TBL_GetWorkingBuffer`: no reference where no buffer is available. -/
def getWorkingBuffer (r : Nat) (calledByApp : Bool) (s : Global) : Option BufferRef × Global :=
  let t := s.registry r
  match t.loadInProgress with
  | some i =>
    (some (if t.doubleBuffered then .dedicated (1 - t.activeBufferIndex) else .shared i), s)
  | none =>
    if t.tableLoadedOnce = false ∧ calledByApp = true then
      (some (.dedicated (if t.doubleBuffered then t.activeBufferIndex else 0)), s)
    else
      let active := (t.buffers t.activeBufferIndex).image
      if t.doubleBuffered then
        let inactive := 1 - t.activeBufferIndex
        if t.accessList.any fun h =>
            (s.handles h).bufferIndex == inactive && (s.handles h).lockFlag then (none, s)
        else
          let buffers := Function.update t.buffers inactive
            { t.buffers inactive with image := active }
          (some (.dedicated inactive),
            s.setRec r { t with loadInProgress := some inactive.val, buffers := buffers })
      else
        match (List.range CFE_PLATFORM_TBL_MAX_SIMULTANEOUS_LOADS).find? fun i =>
            !(s.loadBuffs i).taken with
        | none => (none, s)
        | some i =>
          (some (.shared i), (s.setRec r { t with loadInProgress := some i }).setBuff i
            { s.loadBuffs i with taken := true, image := active })

/-- The buffer that the load in progress of a table fills. -/
def RegistryRec.working (t : RegistryRec) : Option BufferRef :=
  t.loadInProgress.map fun i =>
    if t.doubleBuffered then .dedicated (1 - t.activeBufferIndex) else .shared i

def startDedicated (s : Global) (r : Nat) (b : LoadBuff) : Global :=
  let t := s.registry r
  s.setRec r { t with
    loadInProgress := some (1 - t.activeBufferIndex).val
    buffers := Function.update t.buffers (1 - t.activeBufferIndex) b }

def startShared (s : Global) (r i : Nat) (b : LoadBuff) : Global :=
  (s.setRec r { s.registry r with loadInProgress := some i }).setBuff i b

/-- The common buffer of a load is free again. -/
def freeBuff (s : Global) : Option Nat → Global
  | some i => s.setBuff i { s.loadBuffs i with taken := false }
  | none => s

/-! ## Loading -/

/-- A table file whose headers were read. The offset and the length are `uint32`. -/
structure TableFile where
  fileName : String
  tableName : String
  offset : Nat
  numBytes : Nat
  timeSeconds : Nat
  timeSubSeconds : Nat
  data : List Octet
  deriving DecidableEq

/-- `Offset + NumBytes` -/
def TableFile.loadEnd (file : TableFile) : Nat := (file.offset + file.numBytes) % 2 ^ 32

/-- The octets that `OS_read` puts into the working buffer, when they are inside it. -/
def TableFile.readInto (file : TableFile) (image : List Octet) : Option (List Octet) :=
  let read := file.data.take file.numBytes
  if file.offset + read.length ≤ image.length then some (patch image file.offset read) else none

def TableFile.source (file : TableFile) : DataSource :=
  ⟨file.fileName, file.timeSeconds, file.timeSubSeconds⟩

section Load
variable (calculateCRC : List Octet → Nat)

def LoadBuff.fill (b : LoadBuff) (image : List Octet) (source : DataSource) : LoadBuff :=
  { b with image := image, source := source, crc := calculateCRC image }

/-- `CFE_TBL_LoadFromFile` behind the opening of the file. -/
def loadFromFile (t : RegistryRec) (file : TableFile) (b : LoadBuff) : Option (Status × LoadBuff) :=
  if file.tableName ≠ t.name then some (.errFileForWrongTable, b)
  else if file.loadEnd > t.size then some (.errFileTooLarge, b)
  else
    let status : Status :=
      if file.offset > 0 then .warnPartialLoad
      else if file.numBytes < t.size then .warnShortFile
      else .success
    (file.readInto b.image).map fun image =>
      if file.data.length < file.numBytes then (.errLoadIncomplete, { b with image := image })
      else if file.data.length > file.numBytes then (.errFileTooLarge, { b with image := image })
      else (status, b.fill calculateCRC image file.source)

/-- What `CFE_TBL_Load` is given. A file that cannot be opened or whose headers are refused is
`none`; the memory at an address is named by the text the code makes of it. -/
inductive Source
  | file (file : Option TableFile)
  | address (name : String) (data : List Octet)
  | illegal
  deriving DecidableEq

/-- The working buffer of `CFE_TBL_Load` behind the switch over the source. -/
def loadSource (t : RegistryRec) (src : Source) (b : LoadBuff) : Option (Status × LoadBuff) :=
  match src with
  | .file none => some (.errAccess, b)
  | .file (some file) =>
    (loadFromFile calculateCRC t file b).map fun loaded =>
      if loaded.1 = .warnPartialLoad ∧ t.tableLoadedOnce = false then (.errPartialLoad, loaded.2)
      else loaded
  | .address name data =>
    if t.size ≤ data.length then
      some (.success, b.fill calculateCRC (data.take t.size) ⟨name, 0, 0⟩)
    else none
  | .illegal => some (.errIllegalSrcType, b)

/-- The check of what was loaded; an image that is refused is wiped out. -/
def validateLoaded (t : RegistryRec) (loaded : Status × LoadBuff) : Status × LoadBuff :=
  if loaded.1.isError then loaded
  else
    match t.validationFuncPtr with
    | none => loaded
    | some validationFunc =>
      let code := validationFunc loaded.2.image
      if code = 0 then (.success, loaded.2)
      else (.validation (if code > 0 then -1 else code),
        { loaded.2 with image := List.replicate t.size 0 })

/-- `CFE_TBL_NotifyTblUsersOfUpdate` -/
def notifyTblUsersOfUpdate (r : Nat) (s : Global) : Global :=
  { s.setRec r { s.registry r with
      loadInProgress := none, loadPending := false, tableLoadedOnce := true } with
    handles := fun h =>
      if h ∈ (s.registry r).accessList then { s.handles h with updated := true }
      else s.handles h }

/-- The update of a double buffered table: the inactive buffer is the active one. -/
def swapBuffers (r : Nat) (active : Fin 2) (s : Global) : Global :=
  let t := s.registry r
  s.setRec r { t with
    activeBufferIndex := active, lastFileLoaded := (t.buffers active).source.name }

/-- The update of a single buffered table: a copy of the common buffer, which is free again. -/
def copyBuffer (r i : Nat) (s : Global) : Global :=
  let t := s.registry r
  let b := s.loadBuffs i
  let buffers := Function.update t.buffers 0
    { t.buffers 0 with image := b.image, source := b.source, crc := b.crc }
  (s.setRec r { t with buffers := buffers, lastFileLoaded := b.source.name }).setBuff i
    { b with taken := false }

/-- `CFE_TBL_UpdateInternal` without the copy to the critical data store. -/
def updateInternal (r : Nat) (s : Global) : Status × Global :=
  let t := s.registry r
  match t.loadInProgress with
  | none => (.infoNoUpdatePending, s)
  | some i =>
    if t.loadPending = false then (.infoNoUpdatePending, s)
    else if t.doubleBuffered then
      (.success, notifyTblUsersOfUpdate r (swapBuffers r (Fin.ofNat 2 i) s))
    else if t.accessList.any fun h => (s.handles h).lockFlag then (.infoTableLocked, s)
    else (.success, notifyTblUsersOfUpdate r (copyBuffer r i s))

/-- The working buffer is free for another attempt. -/
def releaseWorkingBuffer (r : Nat) (s : Global) : Global :=
  let t := s.registry r
  let s := if t.doubleBuffered = false ∧ t.tableLoadedOnce = true then freeBuff s t.loadInProgress
    else s
  s.setRec r { t with loadInProgress := none }

def setLoadPending (r : Nat) (s : Global) : Global :=
  s.setRec r { s.registry r with loadPending := true }

def setLastFileLoaded (r : Nat) (name : String) (s : Global) : Global :=
  s.setRec r { s.registry r with lastFileLoaded := name }

/-- The end of `CFE_TBL_Load`, with the working buffer as it was loaded and checked. -/
def finishLoad (r : Nat) (ref : BufferRef) (checked : Status × LoadBuff) (s : Global) :
    Status × Global :=
  let s := s.setBuffer r ref checked.2
  if checked.1.isError then (checked.1, releaseWorkingBuffer r s)
  else if (s.registry r).tableLoadedOnce then
    updateInternal r (setLoadPending r s)
  else (.success, notifyTblUsersOfUpdate r (setLastFileLoaded r checked.2.source.name s))

/-- The one load of a dump-only table whose address its owner defines. -/
def defineAddress (r : Nat) (src : Source) (s : Global) : Option (Status × Global) :=
  match src with
  | .address name data =>
    let t := s.registry r
    some (.success, s.setRec r { t with
      buffers := Function.update t.buffers 0
        { t.buffers 0 with image := data, source := ⟨name, 0, 0⟩ }
      tableLoadedOnce := true })
  | _ => none

/-- `CFE_TBL_Load` -/
def load (handle app : Nat) (src : Source) (s : Global) : Option (Status × Global) :=
  if validateAccess s handle app ≠ .success then some (validateAccess s handle app, s)
  else
    let r := (s.handles handle).regIndex
    let t := s.registry r
    if t.dumpOnly then
      if t.userDefAddr = false ∨ t.tableLoadedOnce = true then some (.errDumpOnly, s)
      else defineAddress r src s
    else if t.loadInProgress.isSome then some (.errLoadInProgress, s)
    else
      match getWorkingBuffer r true s with
      | (none, s) => some (.errNoBufferAvail, s)
      | (some ref, s) =>
        (loadSource calculateCRC t src (s.buffer r ref)).map fun loaded =>
          finishLoad r ref (validateLoaded t loaded) s

/-- `CFE_TBL_Update` -/
def update (handle app : Nat) (s : Global) : Status × Global :=
  if validateAccess s handle app ≠ .success then (validateAccess s handle app, s)
  else updateInternal (s.handles handle).regIndex s

/-! ## Commands, with whether the command counter goes up -/

/-- The working buffer of `CFE_TBL_LoadCmd` behind the reading of the file. -/
def loadCmdBuffer (t : RegistryRec) (file : TableFile) (b : LoadBuff) : Option (Bool × LoadBuff) :=
  (file.readInto b.image).map fun image =>
    if file.data.length = file.numBytes then
      (true, { b.fill calculateCRC image file.source with
        validated := t.validationFuncPtr.isNone })
    else (false, { b with image := image })

/-- `CFE_TBL_LoadCmd` of a file that was opened and whose headers were read, if it was. -/
def loadCmd (file : Option TableFile) (s : Global) : Option (Bool × Global) :=
  match file with
  | none => some (false, s)
  | some file =>
    match findTableInRegistry s file.tableName with
    | none => some (false, s)
    | some r =>
      let t := s.registry r
      if t.dumpOnly then some (false, s)
      else if t.loadPending then some (false, s)
      else if (t.tableLoadedOnce = true ∨ file.offset = 0) ∧ file.numBytes > 0 ∧
          file.loadEnd ≤ t.size then
        match getWorkingBuffer r false s with
        | (none, s) => some (false, s)
        | (some ref, s) =>
          (loadCmdBuffer calculateCRC t file (s.buffer r ref)).map fun loaded =>
            (loaded.1, s.setBuffer r ref loaded.2)
      else some (false, s)

inductive BufferSelect
  | inactive
  | active
  | illegal
  deriving DecidableEq

/-- The image that `CFE_TBL_ValidateCmd` is to have checked. -/
def validationData (t : RegistryRec) (s : Global) : BufferSelect → Option (List Octet)
  | .active => some (t.buffers t.activeBufferIndex).image
  | .inactive =>
    if t.doubleBuffered then some (t.buffers (1 - t.activeBufferIndex)).image
    else t.loadInProgress.map fun i => (s.loadBuffs i).image
  | .illegal => none

def Global.setResult (s : Global) (v : Nat) (result : ValidationResult) : Global :=
  { s with validationResults := Function.update s.validationResults v result }

/-- `CFE_TBL_ValidateCmd` -/
def validateCmd (name : String) (select : BufferSelect) (s : Global) : Bool × Global :=
  match findTableInRegistry s name with
  | none => (false, s)
  | some r =>
    let t := s.registry r
    match validationData t s select with
    | none => (false, s)
    | some image =>
      match (List.range CFE_PLATFORM_TBL_MAX_NUM_VALIDATIONS).find? fun v =>
          decide ((s.validationResults v).state = .free) with
      | none => (false, s)
      | some v =>
        let active := decide (select = .active)
        if t.validationFuncPtr.isSome then
          (true, (s.setResult v ⟨.pending, 0, calculateCRC image, active, name⟩).setRec r
            (if active then { t with validateActiveIndex := some v }
            else { t with validateInactiveIndex := some v }))
        else (true, s.setResult v ⟨.performed, 0, calculateCRC image, active, name⟩)

end Load

def validationPerformed (s : Global) (v : Nat) (code : Int) : Global :=
  s.setResult v { s.validationResults v with state := .performed, result := code }

/-- The inactive buffer that `CFE_TBL_Validate` takes. Without a load there is no common buffer
at that index. -/
def inactiveBuffer (t : RegistryRec) : Option BufferRef :=
  if t.doubleBuffered then some (.dedicated (1 - t.activeBufferIndex))
  else t.loadInProgress.map .shared

/-- `CFE_TBL_Validate` -/
def validate (handle app : Nat) (s : Global) : Option (Status × Global) :=
  if validateAccess s handle app ≠ .success then some (validateAccess s handle app, s)
  else
    let r := (s.handles handle).regIndex
    let t := s.registry r
    match t.validateInactiveIndex, t.validateActiveIndex with
    | some v, _ =>
      match inactiveBuffer t, t.validationFuncPtr with
      | some ref, some validationFunc =>
        let b := s.buffer r ref
        let code := validationFunc b.image
        let s := validationPerformed s v code
        let s := if code = 0 then s.setBuffer r ref { b with validated := true } else s
        some (.success, s.setRec r { s.registry r with validateInactiveIndex := none })
      | _, _ => none
    | none, some v =>
      t.validationFuncPtr.map fun validationFunc =>
        let b := t.buffers (if t.doubleBuffered then t.activeBufferIndex else 0)
        let s := validationPerformed s v (validationFunc b.image)
        (.success, s.setRec r { s.registry r with validateActiveIndex := none })
    | none, none => some (.infoNoValidationPending, s)

/-- `CFE_TBL_ActivateCmd` -/
def activateCmd (name : String) (s : Global) : Bool × Global :=
  match findTableInRegistry s name with
  | none => (false, s)
  | some r =>
    let t := s.registry r
    if t.dumpOnly then (false, s)
    else
      match t.loadInProgress with
      | none => (false, s)
      | some i =>
        let b := if t.doubleBuffered then t.buffers (1 - t.activeBufferIndex) else s.loadBuffs i
        if b.validated then (true, setLoadPending r s) else (false, s)

/-- `CFE_TBL_AbortLoad` -/
def abortLoad (r : Nat) (s : Global) : Global :=
  let t := s.registry r
  let s := if t.doubleBuffered = false then freeBuff s t.loadInProgress else s
  s.setRec r { t with loadInProgress := none, loadPending := false }

/-- `CFE_TBL_AbortLoadCmd` -/
def abortLoadCmd (name : String) (s : Global) : Bool × Global :=
  match findTableInRegistry s name with
  | none => (false, s)
  | some r =>
    let t := s.registry r
    if t.loadInProgress.isSome ∧ t.dumpOnly = false then (true, abortLoad r s) else (false, s)

/-- The part of `CFE_TBL_GetHkData` that frees the first validation that was performed. -/
def reportValidation (s : Global) : Global :=
  match (List.range CFE_PLATFORM_TBL_MAX_NUM_VALIDATIONS).find? fun v =>
      decide ((s.validationResults v).state = .performed) with
  | none => s
  | some v => s.setResult v ⟨.free, 0, 0, false, ""⟩

/-! ## Addresses -/

/-- `CFE_TBL_GetNextNotification` -/
def getNextNotification (handle : Nat) (s : Global) : Status :=
  let d := s.handles handle
  if (s.registry d.regIndex).tableLoadedOnce = false then .errNeverLoaded
  else if d.updated then .infoUpdated
  else .success

def Global.setHandle (s : Global) (handle : Nat) (d : AccessDescriptor) : Global :=
  { s with handles := Function.update s.handles handle d }

/-- `CFE_TBL_GetAddress`, with the buffer whose address the caller is given. -/
def getAddress (handle app : Nat) (s : Global) : Status × Option (Fin 2) × Global :=
  if validateAccess s handle app ≠ .success then (validateAccess s handle app, none, s)
  else
    let d := s.handles handle
    let t := s.registry d.regIndex
    if t.ownerAppId = none then (.errUnregistered, none, s)
    else
      (getNextNotification handle s, some t.activeBufferIndex, s.setHandle handle
        { d with lockFlag := true, bufferIndex := t.activeBufferIndex, updated := false })

/-- `CFE_TBL_ReleaseAddress` -/
def releaseAddress (handle app : Nat) (s : Global) : Status × Global :=
  if validateAccess s handle app ≠ .success then (validateAccess s handle app, s)
  else
    (getNextNotification handle s, s.setHandle handle { s.handles handle with lockFlag := false })

/-! ## Runs -/

inductive Call
  | load (handle app : Nat) (src : Source)
  | update (handle app : Nat)
  | loadCmd (file : Option TableFile)
  | validateCmd (name : String) (select : BufferSelect)
  | validate (handle app : Nat)
  | activateCmd (name : String)
  | abortLoadCmd (name : String)
  | reportValidation
  | getAddress (handle app : Nat)
  | releaseAddress (handle app : Nat)

def Call.next (calculateCRC : List Octet → Nat) (s : Global) : Call → Option Global
  | .load handle app src => (Tbl.load calculateCRC handle app src s).map Prod.snd
  | .update handle app => some (Tbl.update handle app s).2
  | .loadCmd file => (Tbl.loadCmd calculateCRC file s).map Prod.snd
  | .validateCmd name select => some (Tbl.validateCmd calculateCRC name select s).2
  | .validate handle app => (Tbl.validate handle app s).map Prod.snd
  | .activateCmd name => some (Tbl.activateCmd name s).2
  | .abortLoadCmd name => some (Tbl.abortLoadCmd name s).2
  | .reportValidation => some (Tbl.reportValidation s)
  | .getAddress handle app => some (Tbl.getAddress handle app s).2.2
  | .releaseAddress handle app => some (Tbl.releaseAddress handle app s).2

def runCalls (calculateCRC : List Octet → Nat) (calls : List Call) (s : Global) : Option Global :=
  calls.foldlM (fun s call => call.next calculateCRC s) s

/-- The tables as `CFE_TBL_Register` and `CFE_TBL_Share` leave them, before any load: only tables
that are dumped only count as loaded. -/
structure Registered (s : Global) : Prop where
  handles : ∀ h r, h ∈ (s.registry r).accessList ↔
    (s.handles h).usedFlag = true ∧ (s.handles h).regIndex = r
  unlocked : ∀ h, (s.handles h).lockFlag = false
  noLoad : ∀ r, (s.registry r).loadInProgress = none ∧ (s.registry r).loadPending = false
  firstBuffer : ∀ r, (s.registry r).activeBufferIndex = 0
  notLoaded : ∀ r, (s.registry r).dumpOnly = false → (s.registry r).tableLoadedOnce = false
  free : ∀ i, (s.loadBuffs i).taken = false

/-- The calls of all applications and all commands, in any order. -/
def machine (calculateCRC : List Octet → Nat) : Machine Global Call where
  start := Registered
  next s call := call.next calculateCRC s

end Nos3.Tbl
