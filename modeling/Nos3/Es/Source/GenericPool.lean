import Nos3.Base.BlockPool
import Nos3.Base.BubbleSort
import Nos3.Base.ByteMemory
import Nos3.Base.Program
import Mathlib.Logic.Function.Basic

/-!
# Generic memory pool

Blocks of a few sizes, each behind a descriptor that lies in the pool memory
itself. Blocks that were returned are kept in one list a size, linked through the
descriptors; new blocks are created behind the last one. Offsets and sizes are
`size_t`, so they wrap around at `2 ^ 64`.
-/
namespace Nos3.Es
open Nos3.Base.Alignment
open Nos3.Base.BubbleSort
open Nos3.Base.ByteMemory
open Nos3.Base.Program

def GENERIC_POOL_DESCRIPTOR_SIZE : Nat := 24
def POOL_MAX_BUCKETS : Nat := 17
def CHECK_PATTERN : Nat := 0x5a5a
def MEMORY_ALLOCATED : Nat := 0xaaaa
def MEMORY_DEALLOCATED : Nat := 0xdddd

/-- A value stored in a `size_t`. -/
def sizeT (value : Nat) : Nat := value % 2 ^ 64

/-- `a - b` in a `size_t` -/
def sizeSub (a b : Nat) : Nat := sizeT (a + (2 ^ 64 - b))

/-- `a - b` in a `uint16` -/
def uint16Sub (a b : Nat) : Nat := (a + (2 ^ 16 - b)) % 2 ^ 16

/-! ## The data -/

structure GenPoolBD where
  checkBits : Nat
  allocated : Nat
  actualSize : Nat
  nextOffset : Nat
  deriving DecidableEq

structure GenPoolBucket where
  blockSize : Nat
  firstOffset : Nat
  allocationCount : BitVec 32
  releaseCount : BitVec 32
  recycleCount : BitVec 32
  deriving DecidableEq

structure GenPoolRecord where
  poolTotalSize : Nat
  poolMaxOffset : Nat
  alignMask : Nat
  tailPosition : Nat
  allocationCount : BitVec 32
  validationErrorCount : BitVec 32
  numBuckets : Nat
  buckets : Fin POOL_MAX_BUCKETS → GenPoolBucket
  numBuckets_le : numBuckets ≤ POOL_MAX_BUCKETS

/-- The record and the memory it manages. -/
structure Pool where
  record : GenPoolRecord
  memory : Memory

/-- The return codes; `access` are those of the storage. -/
inductive PoolError where
  | badArgument
  | bufferNotInPool
  | errMemBlockSize
  | poolBlockInvalid
  | access (status : Int)
  deriving DecidableEq

/-- What the retrieve and commit functions return for an offset other than success; a
commit that fails changes nothing. -/
structure Access where
  retrieve : Nat → Option Int
  commit : Nat → Option Int

/-- A storage without errors, such as memory-mapped pools have. -/
def Access.direct : Access := ⟨fun _ => none, fun _ => none⟩

/-- The descriptor as it lies in memory; four octets behind `Allocated` are padding. -/
def loadBD (m : Memory) (offset : Nat) : GenPoolBD :=
  ⟨loadLE m offset 2, loadLE m (offset + 2) 2, loadLE m (offset + 8) 8, loadLE m (offset + 16) 8⟩

def storeBD (m : Memory) (offset : Nat) (bd : GenPoolBD) : Memory :=
  let m := storeLE m offset 2 bd.checkBits
  let m := storeLE m (offset + 2) 2 bd.allocated
  let m := storeLE m (offset + 8) 8 bd.actualSize
  storeLE m (offset + 16) 8 bd.nextOffset

def retrieve (io : Access) (s : Pool) (offset : Nat) : Except PoolError GenPoolBD :=
  match io.retrieve offset with
  | some status => .error (.access status)
  | none => .ok (loadBD s.memory offset)

def commit (io : Access) (s : Pool) (offset : Nat) (bd : GenPoolBD) : Except PoolError Pool :=
  match io.commit offset with
  | some status => .error (.access status)
  | none => .ok { s with memory := storeBD s.memory offset bd }

def GenPoolRecord.setBucket (p : GenPoolRecord) (i : Fin POOL_MAX_BUCKETS)
    (bucket : GenPoolBucket) : GenPoolRecord :=
  { p with buckets := Function.update p.buckets i bucket }

/-! ## Buckets -/

/-- The id is the inverted index, so that it is zero if no bucket is large enough. -/
def genPoolFindBucket (p : GenPoolRecord) (reqSize : Nat) : Nat :=
  p.numBuckets - ((List.finRange POOL_MAX_BUCKETS).take p.numBuckets).findIdx
    fun i => decide (reqSize ≤ (p.buckets i).blockSize)

def genPoolGetBucketState (p : GenPoolRecord) (bucketId : Nat) : Option (Fin POOL_MAX_BUCKETS) :=
  if h : uint16Sub p.numBuckets bucketId < p.numBuckets then
    some ⟨uint16Sub p.numBuckets bucketId, h.trans_le p.numBuckets_le⟩
  else none

/-- A bucket id for which there is no bucket is an error of the functions that get a block. -/
def bucketForId (p : GenPoolRecord) (bucketId : Nat) : Except PoolError (Fin POOL_MAX_BUCKETS) :=
  (genPoolGetBucketState p bucketId).elim (.error .bufferNotInPool) .ok

/-- The descriptor of a block lies in front of it. -/
def descOffset (blockOffset : Nat) : Nat := sizeSub blockOffset GENERIC_POOL_DESCRIPTOR_SIZE

/-! ## Get -/

/-- The first block is taken off the list of a bucket. -/
def GenPoolRecord.recycled (p : GenPoolRecord) (i : Fin POOL_MAX_BUCKETS) (nextOffset : Nat) :
    GenPoolRecord :=
  p.setBucket i { p.buckets i with
    firstOffset := nextOffset
    recycleCount := (p.buckets i).recycleCount + 1 }

/-- Takes the block that was returned last. -/
def genPoolRecyclePoolBlock (io : Access) (s : Pool) (bucketId newSize : Nat) :
    Except PoolError (Nat × Pool) := do
  let i ← bucketForId s.record bucketId
  if (s.record.buckets i).recycleCount = (s.record.buckets i).releaseCount ∨
      (s.record.buckets i).firstOffset = 0 then .error .bufferNotInPool
  else do
    let bd ← retrieve io s (descOffset (s.record.buckets i).firstOffset)
    if bd.checkBits ≠ CHECK_PATTERN ∨ uint16Sub bd.allocated MEMORY_DEALLOCATED ≠ bucketId then
      .error .bufferNotInPool
    else do
      let s' ← commit io s (descOffset (s.record.buckets i).firstOffset) { bd with
        allocated := (MEMORY_ALLOCATED + bucketId) % 2 ^ 16
        actualSize := newSize
        nextOffset := 0 }
      return ((s.record.buckets i).firstOffset,
        { s' with record := s.record.recycled i bd.nextOffset })

/-- The offset of the user block behind the tail. -/
def nextBlockOffset (p : GenPoolRecord) : Nat :=
  alignUp 64 (sizeT (p.tailPosition + GENERIC_POOL_DESCRIPTOR_SIZE)) p.alignMask

/-- The tail behind one more block of a bucket. -/
def GenPoolRecord.extended (p : GenPoolRecord) (i : Fin POOL_MAX_BUCKETS) : GenPoolRecord :=
  { p with
    tailPosition := sizeT (nextBlockOffset p + (p.buckets i).blockSize)
    allocationCount := p.allocationCount + 1
    buckets := Function.update p.buckets i { p.buckets i with
      allocationCount := (p.buckets i).allocationCount + 1 } }

def genPoolCreatePoolBlock (io : Access) (s : Pool) (bucketId newSize : Nat) :
    Except PoolError (Nat × Pool) := do
  let i ← bucketForId s.record bucketId
  if s.record.poolMaxOffset < sizeT (nextBlockOffset s.record + (s.record.buckets i).blockSize) then
    .error .errMemBlockSize
  else do
    let _ ← retrieve io s (descOffset (nextBlockOffset s.record))
    let s' ← commit io s (descOffset (nextBlockOffset s.record))
      ⟨CHECK_PATTERN, (MEMORY_ALLOCATED + bucketId) % 2 ^ 16, newSize, 0⟩
    return (nextBlockOffset s.record, { s' with record := s.record.extended i })

def genPoolGetBlock (io : Access) (s : Pool) (reqSize : Nat) : Except PoolError (Nat × Pool) :=
  let bucketId := genPoolFindBucket s.record reqSize
  if bucketId = 0 then .error .errMemBlockSize
  else
    match genPoolRecyclePoolBlock io s bucketId reqSize with
    | .ok result => .ok result
    | .error _ => genPoolCreatePoolBlock io s bucketId reqSize

/-! ## Size and put -/

/-- The check both functions make of the descriptor of a block in use. -/
def blockInUse (p : GenPoolRecord) (bd : GenPoolBD) : Option (Fin POOL_MAX_BUCKETS) := do
  let i ← genPoolGetBucketState p (uint16Sub bd.allocated MEMORY_ALLOCATED)
  if bd.checkBits ≠ CHECK_PATTERN ∨ bd.actualSize = 0 ∨ (p.buckets i).blockSize < bd.actualSize
  then none
  else some i

def genPoolGetBlockSize (io : Access) (s : Pool) (blockOffset : Nat) : Except PoolError Nat :=
  if s.record.tailPosition ≤ blockOffset ∨ blockOffset < GENERIC_POOL_DESCRIPTOR_SIZE then
    .error .bufferNotInPool
  else do
    let bd ← retrieve io s (descOffset blockOffset)
    (blockInUse s.record bd).elim (.error .poolBlockInvalid) fun _ => .ok bd.actualSize

/-- A block is put in front of the list of a bucket. -/
def GenPoolRecord.released (p : GenPoolRecord) (i : Fin POOL_MAX_BUCKETS) (offset : Nat) :
    GenPoolRecord :=
  p.setBucket i { p.buckets i with
    firstOffset := offset
    releaseCount := (p.buckets i).releaseCount + 1 }

/-- Returns the size the block was requested with. -/
def genPoolPutBlock (io : Access) (blockOffset : Nat) : Routine PoolError Pool Nat := do
  let s ← Routine.get
  if s.record.tailPosition ≤ blockOffset ∨ blockOffset < GENERIC_POOL_DESCRIPTOR_SIZE then
    Routine.fail .bufferNotInPool
  else do
    let bd ← Routine.lift (retrieve io s (descOffset blockOffset))
    (blockInUse s.record bd).elim
      (do
        Routine.modify fun s => { s with record := { s.record with
          validationErrorCount := s.record.validationErrorCount + 1 } }
        Routine.fail .poolBlockInvalid)
      fun i => do
        let s' ← Routine.lift (commit io s (descOffset blockOffset) { bd with
          allocated := (MEMORY_DEALLOCATED + uint16Sub bd.allocated MEMORY_ALLOCATED) % 2 ^ 16
          nextOffset := (s.record.buckets i).firstOffset })
        Routine.modify fun _ => { s' with record := s.record.released i blockOffset }
        return bd.actualSize

/-! ## Initialisation and rebuild -/

/-- Block sizes a pool has buckets for. -/
structure BlockSizeList where
  sizes : List Nat
  length_le : sizes.length ≤ POOL_MAX_BUCKETS
  small : ∀ size ∈ sizes, size < 2 ^ 64

/-- The alignment as a mask. -/
def alignMaskOf (alignSize : Nat) : Nat := if alignSize ≤ 1 then 0 else alignSize - 1

/-- A record without blocks; the sizes are those of `list`, sorted. -/
def initialRecord (startOffset poolSize alignSize : Nat) (list : BlockSizeList)
    (sorted : List Nat) : GenPoolRecord where
  poolTotalSize := poolSize
  poolMaxOffset := sizeT (poolSize + startOffset)
  alignMask := alignMaskOf alignSize
  tailPosition := startOffset
  allocationCount := 0
  validationErrorCount := 0
  numBuckets := list.sizes.length
  buckets i := ⟨sorted.getD i 0, 0, 0, 0, 0⟩
  numBuckets_le := list.length_le

def genPoolInitialize (startOffset poolSize alignSize : Nat) (list : BlockSizeList) :
    Except PoolError GenPoolRecord :=
  if alignMaskOf alignSize &&& alignSize ≠ 0 then .error .badArgument
  else if (bubbleSort list.sizes).getD 0 0 = 0 then .error .errMemBlockSize
  else .ok (initialRecord startOffset poolSize alignSize list (bubbleSort list.sizes))

/-- The bucket a descriptor belongs to and whether its block was returned. -/
def scanned (p : GenPoolRecord) (bd : GenPoolBD) : Option (Fin POOL_MAX_BUCKETS × Bool) :=
  if bd.checkBits = CHECK_PATTERN then
    match genPoolGetBucketState p (uint16Sub bd.allocated MEMORY_DEALLOCATED) with
    | some i => some (i, true)
    | none =>
      (genPoolGetBucketState p (uint16Sub bd.allocated MEMORY_ALLOCATED)).map fun i => (i, false)
  else none

/-- How the scan ends: the status it returns and the state it leaves. -/
abbrev RebuildEnd := Except PoolError Unit × Pool

def orBreak {α : Type} (s : Pool) (result : Except PoolError α) : Except RebuildEnd α :=
  result.mapError fun e => (.error e, s)

/-- The block behind the tail belongs to bucket `i` and was returned. -/
def GenPoolRecord.foundReturned (p : GenPoolRecord) (i : Fin POOL_MAX_BUCKETS) : GenPoolRecord :=
  (p.extended i).released i (nextBlockOffset p)

/-- One round of the scan; its `error` leaves the loop. -/
def rebuildRound (io : Access) (s : Pool) : Except RebuildEnd Pool :=
  if s.record.poolMaxOffset < nextBlockOffset s.record then .error (.ok (), s)
  else do
    let bd ← orBreak s (retrieve io s (descOffset (nextBlockOffset s.record)))
    let found ← (scanned s.record bd).elim (.error (.ok (), s)) .ok
    if (s.record.buckets found.1).blockSize < bd.actualSize then .error (.ok (), s)
    else if found.2 = true then do
      let s' ← orBreak { s with record := s.record.foundReturned found.1 }
        (commit io s (descOffset (nextBlockOffset s.record)) { bd with
          nextOffset := (s.record.buckets found.1).firstOffset })
      return { s' with record := s.record.foundReturned found.1 }
    else return { s with record := s.record.extended found.1 }

/-- The scan, for at most as many rounds as `fuel`. -/
def genPoolRebuild (io : Access) : Nat → Pool → Option RebuildEnd
  | 0, _ => none
  | fuel + 1, s =>
    match rebuildRound io s with
    | .error result => some result
    | .ok s' => genPoolRebuild io fuel s'

end Nos3.Es
