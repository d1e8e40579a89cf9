import Nos3.Es.Guarantees.PoolSafety
import Nos3.Es.Source.PoolScan

/-!
# Rebuilding a pool

The record of a pool over a zeroed memory area is lost and rebuilt from the
memory alone. The scan ends at the old tail and finds every block, in use or
returned, unless a sum of the pool's limits is too large for a `size_t`.
-/
namespace Nos3.Es
open Nos3.Base.ByteMemory
open Nos3.Base.FreeChain
open Nos3.Base.Program
open Nos3.Base.Transition

/-- The area of the pool holds zeros. -/
def ZeroedArea (config : PoolConfig) (m : Memory) : Prop :=
  ∀ a, config.startOffset ≤ a → a < config.poolSize + config.startOffset → m a = 0

/-- What a rebuilt pool has in common with the one that was lost. -/
structure Rebuilt (r : PoolRun) (s' : Pool) : Prop where
  tail : s'.record.tailPosition = r.pool.record.tailPosition
  allocated : ∀ i, (s'.record.buckets i).allocationCount =
    (r.pool.record.buckets i).allocationCount
  free : ∀ i, (s'.record.buckets i).releaseCount - (s'.record.buckets i).recycleCount =
    (r.pool.record.buckets i).releaseCount - (r.pool.record.buckets i).recycleCount
  lists : ∀ i, ∃ l l' : List Block,
    Chain (fun b : Block => b.offset) (nextReturned r.pool.memory)
      (r.pool.record.buckets i).firstOffset l ∧
    Chain (fun b : Block => b.offset) (nextReturned s'.memory)
      (s'.record.buckets i).firstOffset l' ∧
    l'.Perm l
  sizes : ∀ b ∈ r.held, genPoolGetBlockSize .direct r.pool b.offset = .ok b.size ∧
    genPoolGetBlockSize .direct s' b.offset = .ok b.size
  contents : ∀ b ∈ r.held, SameOn r.pool.memory s'.memory b.offset (b.len r.pool.record)

/-- Two states of a pool with the same blocks. -/
theorem Rebuilt.of_inv {start : Nat} {r : PoolRun} {s' : Pool} {held' returned' : List Block}
    (h : PoolInv start r.pool r.held r.returned) (h' : PoolInv start s' held' returned')
    (hheld : held'.Perm r.held) (hreturned : returned'.Perm r.returned)
    (htail : s'.record.tailPosition = r.pool.record.tailPosition)
    (hkept : Kept r.pool s' (r.held ++ r.returned)) : Rebuilt r s' := by
  have hlists : ∀ i, (ofBucket i returned').Perm (ofBucket i r.returned) :=
    fun i => hreturned.filter _
  refine ⟨htail, fun i => ?_, fun i => ?_, fun i => ?_, fun b hb => ?_, fun b hb => ?_⟩
  · rw [h.allocated i, h'.allocated i, ofBucket_append, ofBucket_append, List.length_append,
      List.length_append, (hlists i).length_eq,
      (show (ofBucket i held').Perm (ofBucket i r.held) from hheld.filter _).length_eq]
  · rw [h.released i, h'.released i, (hlists i).length_eq, BitVec.add_comm, BitVec.add_sub_cancel,
      BitVec.add_comm, BitVec.add_sub_cancel]
  · exact ⟨_, _, h.chain i, h'.chain i, hlists i⟩
  · exact ⟨genPoolGetBlockSize_held h hb, genPoolGetBlockSize_held h' (hheld.mem_iff.mpr hb)⟩
  · exact hkept.contents b (List.mem_append_left _ hb)

theorem poolMachine_blank {config : PoolConfig} (hwrap : config.NoWrap) {m : Memory}
    (hzero : ZeroedArea config m) {r : PoolRun}
    (h : (poolMachine config m).Reaches WellUsed r) : RunInv config r ∧ Blank r.pool := by
  induction h with
  | start hstart =>
    refine ⟨RunInv.start hwrap hstart, ?_⟩
    obtain ⟨p, hp, rfl⟩ := hstart
    have hfresh := genPoolInitialize_ok hp
    intro a hlow hhigh
    refine hzero a ?_ ?_
    · rw [← hfresh.tail]
      exact hlow
    · rw [← (hfresh.fits hwrap).2]
      exact hhigh
  | @step s s' command _ hused hnext ih =>
    obtain ⟨hinv, hblank⟩ := ih
    obtain ⟨hinv', htail, hbeyond⟩ := poolMachine_step hinv hused hnext
    refine ⟨hinv', fun a hlow hhigh => ?_⟩
    obtain ⟨p, hp, hconfig⟩ := hinv.config
    obtain ⟨p', hp', hconfig'⟩ := hinv'.config
    have hmax : s'.pool.record.poolMaxOffset = s.pool.record.poolMaxOffset := by
      cases hp.symm.trans hp'
      rw [hconfig.maxOffset, hconfig'.maxOffset]
    rw [hbeyond a hlow]
    exact hblank a (htail.trans hlow) (hmax ▸ hhigh)

/-- In every state of a run over a zeroed area, initialisation and scan end and give back
the pool. -/
theorem pool_rebuilt {config : PoolConfig} (hwrap : config.NoWrap) {m : Memory}
    (hzero : ZeroedArea config m) {r : PoolRun}
    (h : (poolMachine config m).Reaches WellUsed r) :
    ∃ p fuel s', config.create = .ok p ∧
      genPoolRebuild .direct fuel ⟨p, r.pool.memory⟩ = some (.ok (), s') ∧ Rebuilt r s' := by
  obtain ⟨hinv, hblank⟩ := poolMachine_blank hwrap hzero h
  obtain ⟨p, hp, hconfig⟩ := hinv.config
  have hfresh := genPoolInitialize_ok hp
  obtain ⟨fuel, s', held', returned', hrun, hinv', hheld, hreturned, htail, hkept⟩ :=
    hinv.pool.rebuild hblank (hfresh.inv hwrap r.pool.memory) hconfig hfresh.tail
  exact ⟨p, fuel, s', hp, hrun, .of_inv hinv.pool hinv' hheld hreturned htail hkept⟩

/-- A pool with a block in use and one returned. -/
theorem pool_rebuilt_two_blocks : ∃ r, (poolMachine (singleConfig 4) blankMemory).Reaches WellUsed r ∧
    (r.held.map fun b => b.offset) = [24] ∧ (r.returned.map fun b => b.offset) = [52] ∧
    ∃ p fuel s', (singleConfig 4).create = .ok p ∧
      genPoolRebuild .direct fuel ⟨p, r.pool.memory⟩ = some (.ok (), s') ∧ Rebuilt r s' := by
  obtain ⟨r, hreach, hblocks⟩ := Machine.exists_reaches WellUsed
    (fun r : PoolRun => decide ((r.held.map fun b => b.offset) = [24] ∧
      (r.returned.map fun b => b.offset) = [52]))
    (singleConfig_start 4 (by decide))
    [.get .direct 4, .get .direct 2, .put .direct 52, .write 24 4 fun _ => 255]
    (by decide +kernel)
  obtain ⟨hheld, hreturned⟩ := of_decide_eq_true hblocks
  exact ⟨r, hreach, hheld, hreturned,
    pool_rebuilt (singleConfig_noWrap (by decide)) (fun _ _ _ => rfl) hreach⟩

/-! ## A scan that does not end -/

/-- Blocks of `2 ^ 64 - 24` octets: the tail behind the first is where it was before. -/
def wrappingSize : Fin (2 ^ 64) := Fin.ofNat _ (2 ^ 64 - 24)

/-- The record during the scan: it differs in its counts only. -/
structure Wrapping (p : GenPoolRecord) : Prop where
  config : (singleRecord wrappingSize).SameConfig p
  tail : p.tailPosition = 0

theorem Wrapping.round {s : Pool} (h : Wrapping s.record)
    (hdesc : loadBD s.memory 0 = ⟨CHECK_PATTERN, MEMORY_ALLOCATED + 1, 8, 0⟩) :
    ∃ s', rebuildRound .direct s = .ok s' ∧ Wrapping s'.record ∧ s'.memory = s.memory := by
  have hnext : nextBlockOffset s.record = 24 := by
    rw [nextBlockOffset, h.tail, h.config.mask]
    decide +kernel
  have hmax : s.record.poolMaxOffset = 64 := h.config.maxOffset
  have hsize : (s.record.buckets ⟨0, by decide⟩).blockSize = 2 ^ 64 - 24 := h.config.blockSize _
  have hcount : s.record.numBuckets = 1 := h.config.numBuckets
  have hscanned : scanned s.record ⟨CHECK_PATTERN, MEMORY_ALLOCATED + 1, 8, 0⟩ =
      some (⟨0, by decide⟩, false) := by
    have hdeallocated : genPoolGetBucketState s.record
        (uint16Sub (MEMORY_ALLOCATED + 1) MEMORY_DEALLOCATED) = none := by
      refine dif_neg ?_
      rw [hcount]
      decide
    have hindex : uint16Sub s.record.numBuckets
        (uint16Sub (MEMORY_ALLOCATED + 1) MEMORY_ALLOCATED) = 0 := by
      rw [hcount]
      decide
    have hallocated : genPoolGetBucketState s.record
        (uint16Sub (MEMORY_ALLOCATED + 1) MEMORY_ALLOCATED) = some ⟨0, by decide⟩ := by
      rw [genPoolGetBucketState, dif_pos (by rw [hindex, hcount]; decide)]
      exact congrArg some (Fin.ext hindex)
    rw [scanned, if_pos rfl, hdeallocated, hallocated]
    rfl
  have hretrieve : orBreak s (retrieve .direct s (descOffset 24)) =
      .ok ⟨CHECK_PATTERN, MEMORY_ALLOCATED + 1, 8, 0⟩ := by
    rw [show descOffset 24 = 0 by decide +kernel, ← hdesc]
    rfl
  refine ⟨{ s with record := s.record.extended ⟨0, by decide⟩ }, ?_, ⟨?_, ?_⟩, rfl⟩
  · rw [rebuildRound, hnext, hmax, if_neg (by decide), hretrieve, ok_bind, hscanned,
      Option.elim_some, ok_bind, hsize, if_neg (by decide), if_neg (by decide)]
    rfl
  · exact h.config.trans (.extended _ _)
  · change sizeT (nextBlockOffset s.record + (s.record.buckets ⟨0, by decide⟩).blockSize) = 0
    rw [hnext, hsize]
    decide +kernel

theorem Wrapping.endless {s : Pool} (h : Wrapping s.record)
    (hdesc : loadBD s.memory 0 = ⟨CHECK_PATTERN, MEMORY_ALLOCATED + 1, 8, 0⟩) (fuel : Nat) :
    genPoolRebuild .direct fuel s = none := by
  induction fuel generalizing s with
  | zero => rfl
  | succ fuel ih =>
    obtain ⟨s', hround, hs', hmemory⟩ := h.round hdesc
    rw [genPoolRebuild, hround]
    exact ih hs' (hmemory ▸ hdesc)

/-- With blocks of `2 ^ 64 - 24` octets, after one get the scan of the rebuild never ends. -/
theorem pool_rebuild_endless : ∃ r,
    (poolMachine (singleConfig wrappingSize) blankMemory).Reaches WellUsed r ∧
      ∀ p, (singleConfig wrappingSize).create = .ok p →
        ∀ fuel, genPoolRebuild .direct fuel ⟨p, r.pool.memory⟩ = none := by
  obtain ⟨r, hreach, hdesc⟩ := Machine.exists_reaches WellUsed
    (fun r : PoolRun => decide (loadBD r.pool.memory 0 =
      ⟨CHECK_PATTERN, MEMORY_ALLOCATED + 1, 8, 0⟩))
    (singleConfig_start wrappingSize (by decide)) [.get .direct 8] (by decide +kernel)
  refine ⟨r, hreach, fun p hp fuel => ?_⟩
  have hsame : (singleConfig wrappingSize).create = .ok (singleRecord wrappingSize) :=
    singleConfig_create (by decide)
  cases hp.symm.trans hsame
  have hwrapping : Wrapping (singleRecord wrappingSize) := ⟨.refl _, rfl⟩
  exact Wrapping.endless (s := ⟨_, r.pool.memory⟩) hwrapping (of_decide_eq_true hdesc) fuel

end Nos3.Es
