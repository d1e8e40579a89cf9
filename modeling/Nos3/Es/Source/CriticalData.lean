import Nos3.Es.Source.GenericPool

/-!
# Critical data store

A registry of named blocks in a pool. The pool lies in memory that survives a
processor reset, behind a copy of the registry. The copy is written as a whole,
the descriptors of the pool one by one; after a reset both are read back.
-/
namespace Nos3.Es
open Nos3.Base.BigEndian (Octet)
open Nos3.Base.ByteMemory
open Nos3.Base.Program

def CDS_MAX_NUM_ENTRIES : Nat := 512
def CDS_MAX_FULL_NAME_LEN : Nat := 40
def OS_MAX_API_NAME : Nat := 20
def CDS_BLOCK_HEADER_SIZE : Nat := 4
def CDS_ABS_MAX_BLOCK_SIZE : Nat := 2 ^ 30 - CDS_BLOCK_HEADER_SIZE
def CDS_REG_SIZE_OFFSET : Nat := 8
def CDS_REG_OFFSET : Nat := 12

/-- The header holds a signature, the number of entries and 72 octets for each entry. -/
def CDS_POOL_OFFSET : Nat := CDS_REG_OFFSET + CDS_MAX_NUM_ENTRIES * 72

/-- Header and trailer, which is a signature of 8 octets. -/
def CDS_RESERVED_MIN_SIZE : Nat := CDS_POOL_OFFSET + 8

def CDS_MEM_POOL_DEF_SIZE : BlockSizeList where
  sizes := [80000, 32768, 16384, 8192, 4096, 2048, 1024, 512, 256, 160, 128, 96, 64, 48, 32, 16, 8]
  length_le := by decide
  small := by decide

instance : NeZero CDS_MAX_NUM_ENTRIES := ⟨by decide⟩

/-! ## Resource ids -/

def RESOURCEID_MAX : Nat := 0xffff
def RESOURCEID_UNDEFINED : Nat := 0
def CDSBLOCKID_BASE : Nat := 0x150000

/-- `a - b` in a `uint32` -/
def uint32Sub (a b : Nat) : Nat := (a + (2 ^ 32 - b)) % 2 ^ 32

def resourceIdGetBase (id : Nat) : Nat := id - id % (RESOURCEID_MAX + 1)

def resourceIdGetSerial (id : Nat) : Nat := id % (RESOURCEID_MAX + 1)

def resourceIdToIndex (id baseValue tableSize : Nat) [NeZero tableSize] : Option (Fin tableSize) :=
  if RESOURCEID_MAX < uint32Sub id baseValue then none
  else some (Fin.ofNat tableSize (uint32Sub id baseValue))

def nextSerial (tableSize serial : Nat) : Nat :=
  if RESOURCEID_MAX ≤ serial + 1 then (serial + 1) % tableSize else serial + 1

/-- The loop of `CFE_ResourceId_FindNext`. -/
def findNextFrom (tableSize : Nat) (checkFunc : Nat → Bool) (resourceType : Nat) : Nat → Nat → Nat
  | 0, _ => RESOURCEID_UNDEFINED
  | count + 1, serial =>
    if checkFunc (resourceType + nextSerial tableSize serial) = true then
      findNextFrom tableSize checkFunc resourceType count (nextSerial tableSize serial)
    else resourceType + nextSerial tableSize serial

/-- The first id behind `startId` that is not taken. -/
def resourceIdFindNext (startId tableSize : Nat) (checkFunc : Nat → Bool) : Nat :=
  findNextFrom tableSize checkFunc (resourceIdGetBase startId) tableSize
    (resourceIdGetSerial startId)

/-! ## The data -/

/-- A name as the callers form it, the names of application and block with a dot between
them: it fits an entry. -/
structure CdsName where
  chars : List Octet
  fits : chars.length < CDS_MAX_FULL_NAME_LEN
  deriving DecidableEq

structure CdsRegRec where
  blockId : Nat
  blockOffset : Nat
  blockSize : Nat
  name : CdsName
  table : Bool
  deriving DecidableEq

def CdsRegRec.Used (entry : CdsRegRec) : Prop := entry.blockId ≠ RESOURCEID_UNDEFINED

instance (entry : CdsRegRec) : Decidable entry.Used := inferInstanceAs (Decidable (_ ≠ _))

/-- An entry with all octets zero. -/
def clearedEntry : CdsRegRec := ⟨0, 0, 0, ⟨[], by decide⟩, false⟩

abbrev CdsRegistry := Fin CDS_MAX_NUM_ENTRIES → CdsRegRec

/-- `registrySize`, `persisted` and the memory of the pool survive a reset; the sizes of
header and pool keep the three apart. -/
structure CdsInstance where
  pool : Pool
  dataSize : Nat
  lastCdsBlockId : Nat
  registry : CdsRegistry
  registrySize : Nat
  persisted : CdsRegistry

inductive CdsError where
  | invalidSize
  | noResourceIdsAvailable
  | errNameNotFound
  | wrongType
  | ownerActive
  | resourceIdNotValid
  | accessError
  | blockCrc
  | invalid
  | pool (error : PoolError)
  deriving DecidableEq

/-- Whether the platform reads and writes the store at an offset without an error; a write
that fails changes nothing. -/
structure Psp where
  read : Nat → Bool
  write : Nat → Bool

def Psp.ok : Psp := ⟨fun _ => true, fun _ => true⟩

def CDS_ACCESS_ERROR : Int := 0xc4000013 - 2 ^ 32

/-- The pool reads and writes descriptors through the cache, which has one status for every
error. -/
def Psp.access (psp : Psp) : Access where
  retrieve offset := if psp.read offset = true then none else some CDS_ACCESS_ERROR
  commit offset := if psp.write offset = true then none else some CDS_ACCESS_ERROR

def onPool {α : Type} (routine : Routine PoolError Pool α) : Routine CdsError CdsInstance α :=
  fun s => ((routine s.pool).1.mapError .pool, { s with pool := (routine s.pool).2 })

/-! ## The registry -/

def CdsInstance.setEntry (s : CdsInstance) (i : Fin CDS_MAX_NUM_ENTRIES) (entry : CdsRegRec) :
    CdsInstance :=
  { s with registry := Function.update s.registry i entry }

def cdsHandleToIndex (blockId : Nat) : Option (Fin CDS_MAX_NUM_ENTRIES) :=
  resourceIdToIndex blockId CDSBLOCKID_BASE CDS_MAX_NUM_ENTRIES

/-- An id whose entry cannot be located counts as taken. -/
def checkCDSHandleSlotUsed (registry : CdsRegistry) (checkId : Nat) : Bool :=
  (cdsHandleToIndex checkId).elim true fun i => decide (registry i).Used

def locateCDSBlockRecordByName (registry : CdsRegistry) (name : CdsName) :
    Option (Fin CDS_MAX_NUM_ENTRIES) :=
  (List.finRange CDS_MAX_NUM_ENTRIES).find? fun i =>
    decide ((registry i).Used ∧ name = (registry i).name)

def updateCDSRegistry (psp : Psp) : Routine CdsError CdsInstance Unit :=
  if psp.write CDS_REG_OFFSET = true then Routine.modify fun s => { s with persisted := s.registry }
  else Routine.fail .accessError

/-! ## Registration -/

/-- The entry's block is returned if it has another size. -/
def freeOldBlock (psp : Psp) (i : Fin CDS_MAX_NUM_ENTRIES) (newBlockSize : Nat) :
    Routine CdsError CdsInstance Unit := do
  let s ← Routine.get
  if (s.registry i).blockOffset ≠ 0 ∧ newBlockSize ≠ (s.registry i).blockSize then do
    let _ ← onPool (genPoolPutBlock psp.access (s.registry i).blockOffset)
    Routine.modify fun s => s.setEntry i { s.registry i with blockOffset := 0, blockSize := 0 }
  else return ()

/-- An entry without a block gets one; the result says whether it did. -/
def getNewBlock (psp : Psp) (i : Fin CDS_MAX_NUM_ENTRIES) (newBlockSize : Nat) :
    Routine CdsError CdsInstance Bool := do
  let s ← Routine.get
  if (s.registry i).blockOffset = 0 then do
    let found ← Routine.lift ((genPoolGetBlock psp.access s.pool newBlockSize).mapError .pool)
    Routine.modify fun s => { s with pool := found.2 }.setEntry i { s.registry i with
      blockOffset := found.1, blockSize := newBlockSize }
    return true
  else return false

/-- What a registration fills into a new entry. -/
structure NewEntry where
  pendingId : Nat
  name : CdsName
  criticalTbl : Bool

def fillEntry (i : Fin CDS_MAX_NUM_ENTRIES) (new : NewEntry) (s : CdsInstance) : CdsInstance :=
  s.setEntry i { s.registry i with
    blockId := new.pendingId, name := new.name, table := new.criticalTbl }

/-- `CFE_ES_RegisterCDSEx` once it has an entry; returns whether the block was there before. -/
def registerEntry (psp : Psp) (i : Fin CDS_MAX_NUM_ENTRIES) (new : Option NewEntry)
    (newBlockSize : Nat) : Routine CdsError CdsInstance Bool := do
  freeOldBlock psp i newBlockSize
  let isNewOffset ← getNewBlock psp i newBlockSize
  Routine.modify fun s => new.elim s fun new => fillEntry i new s
  if isNewOffset = true then do
    updateCDSRegistry psp
    return false
  else return true

/-- `ok true` is the status for a block that was there before; `handle` is what is stored
for the caller. -/
structure Registered where
  status : Except CdsError Bool
  handle : Option Nat

/-- The entry of a free id, cleared. -/
def takeEntry (i : Fin CDS_MAX_NUM_ENTRIES) (pendingId : Nat) (s : CdsInstance) : CdsInstance :=
  { s with lastCdsBlockId := pendingId }.setEntry i clearedEntry

def pendingBlockId (s : CdsInstance) : Nat :=
  resourceIdFindNext s.lastCdsBlockId CDS_MAX_NUM_ENTRIES (checkCDSHandleSlotUsed s.registry)

/-- A name that has an entry keeps it, with another block if the size differs. -/
def registerCDSEx (psp : Psp) (userBlockSize : Nat) (name : CdsName) (criticalTbl : Bool)
    (s : CdsInstance) : Registered × CdsInstance :=
  if userBlockSize = 0 ∨ CDS_ABS_MAX_BLOCK_SIZE < userBlockSize then (⟨.error .invalidSize, none⟩, s)
  else
    match locateCDSBlockRecordByName s.registry name with
    | some i =>
      let result := registerEntry psp i none (userBlockSize + CDS_BLOCK_HEADER_SIZE) s
      (⟨result.1, some (s.registry i).blockId⟩, result.2)
    | none =>
      match cdsHandleToIndex (pendingBlockId s) with
      | some i =>
        let result := registerEntry psp i (some ⟨pendingBlockId s, name, criticalTbl⟩)
          (userBlockSize + CDS_BLOCK_HEADER_SIZE) (takeEntry i (pendingBlockId s) s)
        (⟨result.1, some (pendingBlockId s)⟩, result.2)
      | none => (⟨.error .noResourceIdsAvailable, some RESOURCEID_UNDEFINED⟩, s)

/-! ## Deletion -/

/-- What stands in front of the dot. -/
def ownerName (name : CdsName) : List Octet :=
  (name.chars.take (OS_MAX_API_NAME - 1)).takeWhile fun c => decide (c ≠ 0x2e)

/-- `activeApp` tells whether an application is running. -/
def deleteCDS (psp : Psp) (activeApp : List Octet → Bool) (name : CdsName)
    (calledByTblServices : Bool) : Routine CdsError CdsInstance Unit := do
  let s ← Routine.get
  match locateCDSBlockRecordByName s.registry name with
  | none => Routine.fail .errNameNotFound
  | some i =>
    if (s.registry i).table ≠ calledByTblServices then Routine.fail .wrongType
    else if activeApp (ownerName (s.registry i).name) = true then Routine.fail .ownerActive
    else do
      let _ ← onPool (genPoolPutBlock psp.access (s.registry i).blockOffset)
      Routine.modify fun s => s.setEntry i { s.registry i with blockId := RESOURCEID_UNDEFINED }
      updateCDSRegistry psp

/-! ## Reading and writing -/

/-- The checksum of a block. -/
abbrev Crc := List Octet → BitVec 32

/-- The entry of a handle, once the descriptor of its block agrees with it. -/
def checkedEntry (psp : Psp) (s : CdsInstance) (handle : Nat) : Except CdsError CdsRegRec := do
  let i ← (cdsHandleToIndex handle).elim (.error .resourceIdNotValid) .ok
  if (s.registry i).blockId ≠ handle then .error .resourceIdNotValid
  else do
    let blockSize ← (genPoolGetBlockSize psp.access s.pool (s.registry i).blockOffset).mapError .pool
    if blockSize ≤ CDS_BLOCK_HEADER_SIZE ∨ blockSize ≠ (s.registry i).blockSize then
      .error .invalidSize
    else return s.registry i

def CdsRegRec.userSize (entry : CdsRegRec) : Nat := entry.blockSize - CDS_BLOCK_HEADER_SIZE

/-- The first octets of a buffer. -/
def octetsOf (data : Nat → Octet) (count : Nat) : List Octet := (List.range count).map data

def writeToCDS (psp : Psp) (offset : Nat) (write : Memory → Memory) :
    Routine CdsError CdsInstance Unit :=
  if psp.write offset = true then
    Routine.modify fun s => { s with pool := { s.pool with memory := write s.pool.memory } }
  else Routine.fail .accessError

def cdsBlockWrite (psp : Psp) (crc : Crc) (handle : Nat) (data : Nat → Octet) :
    Routine CdsError CdsInstance Unit := do
  let s ← Routine.get
  let entry ← Routine.lift (checkedEntry psp s handle)
  writeToCDS psp entry.blockOffset fun m =>
    storeLE m entry.blockOffset CDS_BLOCK_HEADER_SIZE (crc (octetsOf data entry.userSize)).toNat
  writeToCDS psp (entry.blockOffset + CDS_BLOCK_HEADER_SIZE) fun m =>
    copyIn m (entry.blockOffset + CDS_BLOCK_HEADER_SIZE) entry.userSize data

/-- The data of a block whose checksum agrees. -/
def blockData (crc : Crc) (m : Memory) (entry : CdsRegRec) : Except CdsError (List Octet) :=
  if (crc (copyOut m (entry.blockOffset + CDS_BLOCK_HEADER_SIZE) entry.userSize)).toNat ≠
      loadLE m entry.blockOffset CDS_BLOCK_HEADER_SIZE then .error .blockCrc
  else .ok (copyOut m (entry.blockOffset + CDS_BLOCK_HEADER_SIZE) entry.userSize)

def cdsBlockRead (psp : Psp) (crc : Crc) (s : CdsInstance) (handle : Nat) :
    Except CdsError (List Octet) := do
  let entry ← checkedEntry psp s handle
  if psp.read entry.blockOffset = false ∨
      psp.read (entry.blockOffset + CDS_BLOCK_HEADER_SIZE) = false then .error .accessError
  else blockData crc s.pool.memory entry

/-! ## Start and reset -/

/-- The octets `numBlocks` blocks of the smallest size take. -/
def genPoolCalcMinSize (list : BlockSizeList) (numBlocks : Nat) : Nat :=
  numBlocks * (list.sizes.tail.foldl min (list.sizes.headD 0) + GENERIC_POOL_DESCRIPTOR_SIZE)

def createCDSPool (cdsPoolSize startOffset : Nat) : Except CdsError GenPoolRecord :=
  if cdsPoolSize < genPoolCalcMinSize CDS_MEM_POOL_DEF_SIZE 1 then .error .invalidSize
  else (genPoolInitialize startOffset cdsPoolSize 4 CDS_MEM_POOL_DEF_SIZE).mapError .pool

/-- The scan of the pool runs for at most as many rounds as `fuel`. -/
def rebuildCDSPool (psp : Psp) (fuel : Nat) (s : CdsInstance) :
    Option (Except CdsError Unit × CdsInstance) :=
  match createCDSPool s.dataSize CDS_POOL_OFFSET with
  | .error e => some (.error e, s)
  | .ok record => (genPoolRebuild psp.access fuel ⟨record, s.pool.memory⟩).map fun result =>
      (result.1.mapError fun _ => .accessError, { s with pool := result.2 })

def rebuildCDS (psp : Psp) (fuel : Nat) (s : CdsInstance) :
    Option (Except CdsError Unit × CdsInstance) :=
  if psp.read CDS_REG_SIZE_OFFSET = false ∨ s.registrySize ≠ CDS_MAX_NUM_ENTRIES then
    some (.error .invalid, s)
  else if psp.read CDS_REG_OFFSET = false then some (.error .invalid, s)
  else rebuildCDSPool psp fuel { s with registry := s.persisted }

/-- What `CFE_ES_CDS_EarlyInit` does with the store it finds. -/
def restoreCDS (psp : Psp) (fuel : Nat) (s : CdsInstance) :
    Option (Except CdsError Unit × CdsInstance) :=
  rebuildCDS psp fuel { s with lastCdsBlockId := CDSBLOCKID_BASE }

/-- The size the platform has for the store, cut to a multiple of 4. -/
def cdsTotalSize (platformSize : BitVec 32) : Nat := (platformSize &&& 0xfffffffc).toNat

def cdsDataSize (platformSize : BitVec 32) : Nat := cdsTotalSize platformSize - CDS_RESERVED_MIN_SIZE

def cdsMinRequiredSize : Nat :=
  CDS_RESERVED_MIN_SIZE + genPoolCalcMinSize CDS_MEM_POOL_DEF_SIZE CDS_MAX_NUM_ENTRIES

/-- What `CFE_ES_CDS_EarlyInit` leaves where it finds no valid store: memory cleared, no
blocks and no entries. -/
def emptyCDS (dataSize : Nat) (record : GenPoolRecord) (m : Memory) : CdsInstance where
  pool := ⟨record, m⟩
  dataSize := dataSize
  lastCdsBlockId := CDSBLOCKID_BASE
  registry _ := clearedEntry
  registrySize := CDS_MAX_NUM_ENTRIES
  persisted _ := clearedEntry

end Nos3.Es
