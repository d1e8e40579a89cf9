import Nos3.Es.Source.GenericPool
import Nos3.Base.BlockPool
import Mathlib.Data.BitVec
import Mathlib.Data.List.Pairwise

/-!
# Rules of the generic pool

The blocks a pool has created, those in use and those returned, and what the
record and the descriptors say about them. One lemma for each operation says how
the two lists change; none of them changes what is stored in a block in use.
-/
namespace Nos3.Es
open Nos3.Base.Alignment
open Nos3.Base.BubbleSort
open Nos3.Base.ByteMemory
open Nos3.Base.FreeChain
open Nos3.Base.Tiling

/-! ## Descriptors in memory -/

structure GenPoolBD.Valid (bd : GenPoolBD) : Prop where
  checkBits : bd.checkBits < 2 ^ 16
  allocated : bd.allocated < 2 ^ 16
  actualSize : bd.actualSize < 2 ^ 64
  nextOffset : bd.nextOffset < 2 ^ 64

theorem octets_uint16 : 256 ^ 2 = 2 ^ 16 := rfl

theorem octets_sizeT : 256 ^ 8 = 2 ^ 64 := rfl

theorem loadBD_congr {m m' : Memory} {a : Nat} (h : SameOn m m' a GENERIC_POOL_DESCRIPTOR_SIZE) :
    loadBD m a = loadBD m' a := by
  have hpart : ∀ k n, k + n ≤ GENERIC_POOL_DESCRIPTOR_SIZE → SameOn m m' (a + k) n :=
    fun k n hk => h.mono (by omega) (by omega)
  have hcheck : loadLE m a 2 = loadLE m' a 2 := loadLE_congr (hpart 0 2 (by decide))
  rw [loadBD, loadBD, hcheck, loadLE_congr (hpart 2 2 (by decide)),
    loadLE_congr (hpart 8 8 (by decide)), loadLE_congr (hpart 16 8 (by decide))]

theorem storeBD_sameOn {m : Memory} {a b n : Nat} {bd : GenPoolBD}
    (h : b + n ≤ a ∨ a + GENERIC_POOL_DESCRIPTOR_SIZE ≤ b) : SameOn (storeBD m a bd) m b n := by
  have hpart : ∀ (m : Memory) (k w v : Nat), k + w ≤ GENERIC_POOL_DESCRIPTOR_SIZE →
      SameOn (storeLE m (a + k) w v) m b n := fun m k w v hk => copyIn_sameOn (by omega)
  unfold storeBD
  refine (hpart _ 16 8 _ (by decide)).trans ?_
  refine (hpart _ 8 8 _ (by decide)).trans ?_
  refine (hpart _ 2 2 _ (by decide)).trans ?_
  exact hpart _ 0 2 _ (by decide)

theorem loadBD_storeBD {m : Memory} {a : Nat} {bd : GenPoolBD} (h : bd.Valid) :
    loadBD (storeBD m a bd) a = bd := by
  have hcheck : loadLE (storeBD m a bd) a 2 = bd.checkBits := by
    unfold storeBD
    rw [loadLE_storeLE_other (by omega), loadLE_storeLE_other (by omega),
      loadLE_storeLE_other (by omega), loadLE_storeLE, octets_uint16,
      Nat.mod_eq_of_lt h.checkBits]
  have hallocated : loadLE (storeBD m a bd) (a + 2) 2 = bd.allocated := by
    unfold storeBD
    rw [loadLE_storeLE_other (by omega), loadLE_storeLE_other (by omega), loadLE_storeLE,
      octets_uint16, Nat.mod_eq_of_lt h.allocated]
  have hactual : loadLE (storeBD m a bd) (a + 8) 8 = bd.actualSize := by
    unfold storeBD
    rw [loadLE_storeLE_other (by omega), loadLE_storeLE, octets_sizeT,
      Nat.mod_eq_of_lt h.actualSize]
  have hnext : loadLE (storeBD m a bd) (a + 16) 8 = bd.nextOffset := by
    unfold storeBD
    rw [loadLE_storeLE, octets_sizeT, Nat.mod_eq_of_lt h.nextOffset]
  rw [loadBD, hcheck, hallocated, hactual, hnext]

/-! ## Buckets -/

section Update
variable {p : GenPoolRecord} {i j : Fin POOL_MAX_BUCKETS} {bucket : GenPoolBucket}

@[simp] theorem setBucket_same : (p.setBucket i bucket).buckets i = bucket :=
  Function.update_self ..

theorem setBucket_other (h : j ≠ i) : (p.setBucket i bucket).buckets j = p.buckets j :=
  Function.update_of_ne h ..

@[simp] theorem extended_same : (p.extended i).buckets i =
    { p.buckets i with allocationCount := (p.buckets i).allocationCount + 1 } :=
  Function.update_self ..

theorem extended_other (h : j ≠ i) : (p.extended i).buckets j = p.buckets j :=
  Function.update_of_ne h ..

end Update

/-- The id of a bucket. -/
def bucketId (p : GenPoolRecord) (i : Fin POOL_MAX_BUCKETS) : Nat := p.numBuckets - i

section Buckets
variable {p : GenPoolRecord} {i : Fin POOL_MAX_BUCKETS} (hi : i.val < p.numBuckets)
include hi

theorem bucketId_pos : 0 < bucketId p i := Nat.sub_pos_of_lt hi

omit hi in
theorem bucketId_le : bucketId p i ≤ POOL_MAX_BUCKETS := (Nat.sub_le _ _).trans p.numBuckets_le

omit hi in
theorem flag_bucketId {flag : Nat} (h : flag + POOL_MAX_BUCKETS < 2 ^ 16) :
    (flag + bucketId p i) % 2 ^ 16 = flag + bucketId p i :=
  Nat.mod_eq_of_lt ((Nat.add_le_add_left bucketId_le flag).trans_lt h)

theorem getBucketState_bucketId : genPoolGetBucketState p (bucketId p i) = some i := by
  have hcount := p.numBuckets_le
  have hindex : uint16Sub p.numBuckets (bucketId p i) = i := by
    unfold uint16Sub bucketId
    unfold POOL_MAX_BUCKETS at hcount
    omega
  have hlt : uint16Sub p.numBuckets (bucketId p i) < p.numBuckets := by
    rw [hindex]
    exact hi
  rw [genPoolGetBucketState, dif_pos hlt]
  exact congrArg some (Fin.ext hindex)

theorem bucketForId_bucketId : bucketForId p (bucketId p i) = .ok i := by
  rw [bucketForId, getBucketState_bucketId hi]
  rfl

/-- The id is what is left of the flag of a block in use. -/
theorem uint16Sub_allocated :
    uint16Sub (MEMORY_ALLOCATED + bucketId p i) MEMORY_ALLOCATED = bucketId p i := by
  have hle := bucketId_le (p := p) (i := i)
  unfold uint16Sub MEMORY_ALLOCATED
  unfold POOL_MAX_BUCKETS at hle
  omega

theorem uint16Sub_deallocated :
    uint16Sub (MEMORY_DEALLOCATED + bucketId p i) MEMORY_DEALLOCATED = bucketId p i := by
  have hle := bucketId_le (p := p) (i := i)
  unfold uint16Sub MEMORY_DEALLOCATED
  unfold POOL_MAX_BUCKETS at hle
  omega

/-- The flag of a returned block is that of no block in use. -/
theorem getBucketState_deallocated :
    genPoolGetBucketState p (uint16Sub (MEMORY_DEALLOCATED + bucketId p i) MEMORY_ALLOCATED) =
      none := by
  have hle := bucketId_le (p := p) (i := i)
  have hcount := p.numBuckets_le
  refine dif_neg ?_
  unfold uint16Sub MEMORY_DEALLOCATED MEMORY_ALLOCATED
  unfold POOL_MAX_BUCKETS at hle hcount
  omega

theorem getBucketState_allocated :
    genPoolGetBucketState p (uint16Sub (MEMORY_ALLOCATED + bucketId p i) MEMORY_DEALLOCATED) =
      none := by
  have hle := bucketId_le (p := p) (i := i)
  have hcount := p.numBuckets_le
  refine dif_neg ?_
  unfold uint16Sub MEMORY_DEALLOCATED MEMORY_ALLOCATED
  unfold POOL_MAX_BUCKETS at hle hcount
  omega

end Buckets

/-- The bucket found for a request is large enough. -/
theorem findBucket_cases (p : GenPoolRecord) (reqSize : Nat) :
    genPoolFindBucket p reqSize = 0 ∨ ∃ i : Fin POOL_MAX_BUCKETS, i.val < p.numBuckets ∧
      genPoolFindBucket p reqSize = bucketId p i ∧ reqSize ≤ (p.buckets i).blockSize := by
  have hcount := p.numBuckets_le
  obtain ⟨indices, hindices⟩ : ∃ l, l = (List.finRange POOL_MAX_BUCKETS).take p.numBuckets :=
    ⟨_, rfl⟩
  have hlength : indices.length = p.numBuckets := by
    rw [hindices, List.length_take, List.length_finRange]
    omega
  rw [genPoolFindBucket, ← hindices]
  by_cases hfound : indices.findIdx (fun i => decide (reqSize ≤ (p.buckets i).blockSize)) <
      indices.length
  · right
    have hlarge := List.findIdx_getElem (w := hfound)
    have hindex := hlength ▸ hfound
    refine ⟨_, ?_, ?_, of_decide_eq_true hlarge⟩
    · subst hindices
      rw [List.getElem_take, List.getElem_finRange]
      exact hindex
    · subst hindices
      rw [bucketId, List.getElem_take, List.getElem_finRange]
      rfl
  · left
    omega

end Nos3.Es

/-!
## The blocks of a pool

Blocks lie one behind the other, each behind its descriptor. `PoolInv` says what
record and memory hold for the blocks in use and the blocks returned, the latter
in the order in which they were returned, newest first.
-/
namespace Nos3.Es
open Nos3.Base.Alignment
open Nos3.Base.ByteMemory
open Nos3.Base.FreeChain
open Nos3.Base.Tiling

/-- What stays the same from a block's creation on. -/
structure Slot where
  offset : Nat
  bucket : Fin POOL_MAX_BUCKETS
  deriving DecidableEq

/-- A block and the size it was requested with. -/
structure Block extends Slot where
  size : Nat
  deriving DecidableEq

/-! ## The configuration -/

/-- Both records have the same limits and block sizes. -/
structure GenPoolRecord.SameConfig (p p' : GenPoolRecord) : Prop where
  maxOffset : p'.poolMaxOffset = p.poolMaxOffset
  mask : p'.alignMask = p.alignMask
  numBuckets : p'.numBuckets = p.numBuckets
  blockSize : ∀ i, (p'.buckets i).blockSize = (p.buckets i).blockSize

/-- No offset of a block in the pool is too large for a `size_t`. -/
def GenPoolRecord.Fits (p : GenPoolRecord) : Prop := ∀ i,
  p.poolMaxOffset + GENERIC_POOL_DESCRIPTOR_SIZE + p.alignMask + (p.buckets i).blockSize < 2 ^ 64

def Slot.len (p : GenPoolRecord) (b : Slot) : Nat := (p.buckets b.bucket).blockSize

/-- The offset of a block behind `t`. -/
def placeBehind (p : GenPoolRecord) (t : Nat) : Nat :=
  alignUp 64 (sizeT (t + GENERIC_POOL_DESCRIPTOR_SIZE)) p.alignMask

section Config
variable {p p' p'' : GenPoolRecord}

theorem GenPoolRecord.SameConfig.refl (p : GenPoolRecord) : p.SameConfig p :=
  ⟨rfl, rfl, rfl, fun _ => rfl⟩

theorem GenPoolRecord.SameConfig.symm (h : p.SameConfig p') : p'.SameConfig p :=
  ⟨h.maxOffset.symm, h.mask.symm, h.numBuckets.symm, fun i => (h.blockSize i).symm⟩

theorem GenPoolRecord.SameConfig.trans (h : p.SameConfig p') (h' : p'.SameConfig p'') :
    p.SameConfig p'' :=
  ⟨h'.maxOffset.trans h.maxOffset, h'.mask.trans h.mask, h'.numBuckets.trans h.numBuckets,
    fun i => (h'.blockSize i).trans (h.blockSize i)⟩

theorem GenPoolRecord.SameConfig.setBucket {i : Fin POOL_MAX_BUCKETS} {bucket : GenPoolBucket}
    (h : bucket.blockSize = (p.buckets i).blockSize) : p.SameConfig (p.setBucket i bucket) := by
  refine ⟨rfl, rfl, rfl, fun j => ?_⟩
  by_cases hj : j = i
  · subst hj
    rw [setBucket_same, h]
  · rw [setBucket_other hj]

theorem GenPoolRecord.SameConfig.extended (p : GenPoolRecord) (i : Fin POOL_MAX_BUCKETS) :
    p.SameConfig (p.extended i) := by
  refine ⟨rfl, rfl, rfl, fun j => ?_⟩
  by_cases hj : j = i
  · subst hj
    rw [extended_same]
  · rw [extended_other hj]

variable (h : p.SameConfig p')
include h

theorem GenPoolRecord.SameConfig.fits (hfits : p.Fits) : p'.Fits := fun i => by
  rw [h.maxOffset, h.mask, h.blockSize]
  exact hfits i

theorem GenPoolRecord.SameConfig.len (b : Slot) : b.len p' = b.len p := h.blockSize b.bucket

theorem GenPoolRecord.SameConfig.place (t : Nat) : placeBehind p' t = placeBehind p t := by
  rw [placeBehind, h.mask, placeBehind]

theorem GenPoolRecord.SameConfig.id (i : Fin POOL_MAX_BUCKETS) : bucketId p' i = bucketId p i := by
  rw [bucketId, h.numBuckets, bucketId]

end Config

/-- A block is placed behind a descriptor and at most the alignment further. -/
theorem GenPoolRecord.Fits.place {p : GenPoolRecord} (h : p.Fits) {t : Nat}
    (ht : t ≤ p.poolMaxOffset) : t + GENERIC_POOL_DESCRIPTOR_SIZE ≤ placeBehind p t ∧
      placeBehind p t ≤ t + GENERIC_POOL_DESCRIPTOR_SIZE + p.alignMask := by
  have hfits := h ⟨0, by decide⟩
  have hsmall : t + GENERIC_POOL_DESCRIPTOR_SIZE < 2 ^ 64 := by omega
  have hsum : t + GENERIC_POOL_DESCRIPTOR_SIZE + p.alignMask < 2 ^ 64 := by omega
  rw [placeBehind, sizeT, Nat.mod_eq_of_lt hsmall]
  exact ⟨le_alignUp hsum, alignUp_le hsum⟩

/-! ## The layout -/

/-- The blocks fill the pool up to the tail. -/
def Laid (p : GenPoolRecord) (start : Nat) (blocks : List Block) : Prop :=
  ∃ slots : List Slot, slots.Perm (blocks.map Block.toSlot) ∧
    Tiled (placeBehind p) p.poolMaxOffset Slot.offset (Slot.len p) start slots p.tailPosition

section Layout
variable {p p' : GenPoolRecord} {start : Nat} {blocks blocks' : List Block}

theorem Laid.of_perm (h : Laid p start blocks)
    (hperm : (blocks.map Block.toSlot).Perm (blocks'.map Block.toSlot)) : Laid p start blocks' := by
  obtain ⟨slots, hslots, htiled⟩ := h
  exact ⟨slots, hslots.trans hperm, htiled⟩

theorem Laid.of_config (h : Laid p start blocks) (hconfig : p.SameConfig p')
    (htail : p'.tailPosition = p.tailPosition) : Laid p' start blocks := by
  obtain ⟨slots, hslots, htiled⟩ := h
  refine ⟨slots, hslots, ?_⟩
  rw [htail, hconfig.maxOffset]
  exact htiled.congr (fun t => (hconfig.place t).symm) (fun _ => rfl) fun b => (hconfig.len b).symm

/-- One more block behind the tail. -/
theorem Laid.extend (h : Laid p start blocks) {b : Block} (hoffset : b.offset = nextBlockOffset p)
    (hfits : p.Fits) (htail : p.tailPosition ≤ p.poolMaxOffset)
    (hroom : sizeT (nextBlockOffset p + (p.buckets b.bucket).blockSize) ≤ p.poolMaxOffset) :
    Laid (p.extended b.bucket) start (b :: blocks) := by
  obtain ⟨slots, hslots, htiled⟩ := h
  have hconfig := GenPoolRecord.SameConfig.extended p b.bucket
  have hplace := (hfits.place htail).2
  have hsize : nextBlockOffset p + (p.buckets b.bucket).blockSize < 2 ^ 64 := by
    have hfit := hfits b.bucket
    have hnext : nextBlockOffset p = placeBehind p p.tailPosition := rfl
    omega
  have hend : sizeT (nextBlockOffset p + (p.buckets b.bucket).blockSize) =
      nextBlockOffset p + (p.buckets b.bucket).blockSize := Nat.mod_eq_of_lt hsize
  refine ⟨slots ++ [b.toSlot], ?_, ?_⟩
  · rw [List.map_cons]
    exact (List.perm_append_singleton _ _).trans (hslots.cons _)
  · rw [tiled_concat]
    refine ⟨p.tailPosition, ?_, hoffset, ?_, ?_⟩
    · exact htiled.congr (fun t => (hconfig.place t).symm) (fun _ => rfl)
        fun b => (hconfig.len b).symm
    · rw [hconfig.len]
      change b.offset + (p.buckets b.bucket).blockSize ≤ p.poolMaxOffset
      omega
    · rw [hconfig.len]
      change b.offset + (p.buckets b.bucket).blockSize = sizeT _
      rw [hend, hoffset]

variable (hfits : p.Fits) (hstart : start ≤ p.poolMaxOffset)
include hfits hstart

theorem Laid.tail (h : Laid p start blocks) :
    start ≤ p.tailPosition ∧ p.tailPosition ≤ p.poolMaxOffset := by
  obtain ⟨slots, -, htiled⟩ := h
  exact htiled.le_stop (fun t ht => (hfits.place ht).1) hstart

theorem Laid.length_le (h : Laid p start blocks) :
    start + GENERIC_POOL_DESCRIPTOR_SIZE * blocks.length ≤ p.poolMaxOffset := by
  have htail := (h.tail hfits hstart).2
  obtain ⟨slots, hslots, htiled⟩ := h
  have hlength := htiled.length_le (fun t ht => (hfits.place ht).1) hstart
  rw [hslots.length_eq, List.length_map] at hlength
  exact hlength.trans htail

theorem Laid.inside (h : Laid p start blocks) {b : Block} (hb : b ∈ blocks) :
    start + GENERIC_POOL_DESCRIPTOR_SIZE ≤ b.offset ∧
      b.offset + b.len p ≤ p.tailPosition := by
  obtain ⟨slots, hslots, htiled⟩ := h
  exact htiled.inside (fun t ht => (hfits.place ht).1) hstart
    (hslots.mem_iff.mpr (List.mem_map_of_mem hb))

theorem Laid.placed (h : Laid p start blocks) {b : Block} (hb : b ∈ blocks) :
    ∃ t, t ≤ p.poolMaxOffset ∧ b.offset = placeBehind p t := by
  obtain ⟨slots, hslots, htiled⟩ := h
  exact htiled.placed (fun t ht => (hfits.place ht).1) hstart
    (hslots.mem_iff.mpr (List.mem_map_of_mem hb))

theorem Laid.apart (h : Laid p start blocks) : blocks.Pairwise fun b c =>
    Apart GENERIC_POOL_DESCRIPTOR_SIZE Slot.offset (Slot.len p) b.toSlot c.toSlot := by
  obtain ⟨slots, hslots, htiled⟩ := h
  have hslotsApart := htiled.pairwise (fun t ht => (hfits.place ht).1) hstart
  exact List.pairwise_map.mp
    ((hslots.pairwise_iff Apart.symm).mp hslotsApart)

/-- Two different blocks of the pool. -/
theorem Laid.apart_of_ne (h : Laid p start blocks) {b c : Block} (hb : b ∈ blocks)
    (hc : c ∈ blocks) (hne : b ≠ c) :
    Apart GENERIC_POOL_DESCRIPTOR_SIZE Slot.offset (Slot.len p) b.toSlot c.toSlot := by
  have hsymm : Std.Symm fun b c : Block =>
      Apart GENERIC_POOL_DESCRIPTOR_SIZE Slot.offset (Slot.len p) b.toSlot c.toSlot :=
    ⟨fun _ _ => Apart.symm⟩
  exact (h.apart hfits hstart).forall hb hc hne

/-- A descriptor written for one block leaves the others' descriptors and all contents alone. -/
theorem Laid.storeBD_other {b : Block} (h : Laid p start (b :: blocks)) (m : Memory)
    (bd : GenPoolBD) : ∀ c ∈ blocks,
      SameOn m (storeBD m (b.offset - GENERIC_POOL_DESCRIPTOR_SIZE) bd)
        (c.offset - GENERIC_POOL_DESCRIPTOR_SIZE) GENERIC_POOL_DESCRIPTOR_SIZE ∧
      SameOn m (storeBD m (b.offset - GENERIC_POOL_DESCRIPTOR_SIZE) bd) c.offset (c.len p) := by
  intro c hc
  have hb := (h.inside hfits hstart List.mem_cons_self).1
  have hcInside := (h.inside hfits hstart (List.mem_cons_of_mem b hc)).1
  have happart := (List.pairwise_cons.mp (h.apart hfits hstart)).1 c hc
  unfold Apart at happart
  exact ⟨(storeBD_sameOn (by omega)).symm, (storeBD_sameOn (by omega)).symm⟩

theorem Laid.storeBD_own {b : Block} (h : Laid p start (b :: blocks)) (m : Memory)
    (bd : GenPoolBD) :
    SameOn m (storeBD m (b.offset - GENERIC_POOL_DESCRIPTOR_SIZE) bd) b.offset (b.len p) := by
  have hb := (h.inside hfits hstart List.mem_cons_self).1
  exact (storeBD_sameOn (by omega)).symm

theorem Laid.storeBD_beyond {b : Block} (h : Laid p start (b :: blocks)) (m : Memory)
    (bd : GenPoolBD) {a : Nat} (ha : p.tailPosition ≤ a) :
    storeBD m (b.offset - GENERIC_POOL_DESCRIPTOR_SIZE) bd a = m a := by
  have hb := h.inside hfits hstart List.mem_cons_self
  have hsame : SameOn (storeBD m (b.offset - GENERIC_POOL_DESCRIPTOR_SIZE) bd) m a 1 :=
    storeBD_sameOn (by omega)
  exact hsame a (Nat.le_refl a) (Nat.lt_succ_self a)

end Layout

end Nos3.Es
