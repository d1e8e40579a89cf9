import Nos3.Es.Source.PoolOperations
import Nos3.Base.Transition

/-!
# Safety of the generic pool

Any sequence of gets, puts of blocks in use and writes inside blocks in use, on a
storage that may fail. As long as no sum of the pool's limits is too large for a
`size_t`, blocks do not overlap and lie in the pool, the free lists are exact and
a second put is rejected.
-/
namespace Nos3.Es
open Nos3.Base.Alignment
open Nos3.Base.BigEndian (Octet)
open Nos3.Base.BubbleSort
open Nos3.Base.ByteMemory
open Nos3.Base.FreeChain
open Nos3.Base.Program
open Nos3.Base.Tiling
open Nos3.Base.Transition

/-! ## Runs -/

/-- A pool with the blocks handed out and not returned, and the blocks returned and not
handed out again. -/
structure PoolRun where
  pool : Pool
  held : List Block
  returned : List Block

inductive PoolCommand where
  | get (io : Access) (reqSize : Nat)
  | put (io : Access) (blockOffset : Nat)
  | write (offset count : Nat) (data : Nat → Octet)

/-- The arguments of `CFE_ES_GenPoolInitialize`. -/
structure PoolConfig where
  startOffset : Nat
  poolSize : Nat
  alignSize : Nat
  list : BlockSizeList

def PoolConfig.create (config : PoolConfig) : Except PoolError GenPoolRecord :=
  genPoolInitialize config.startOffset config.poolSize config.alignSize config.list

def PoolConfig.NoWrap (config : PoolConfig) : Prop :=
  Nos3.Es.NoWrap config.startOffset config.poolSize config.alignSize config.list

/-- The runs from a successful initialisation over memory `m`. -/
def poolMachine (config : PoolConfig) (m : Memory) : Machine PoolRun PoolCommand where
  start r := ∃ p, config.create = .ok p ∧ r = ⟨⟨p, m⟩, [], []⟩
  next r command :=
    match command with
    | .get io reqSize =>
      match genPoolGetBlock io r.pool reqSize with
      | .error _ => some r
      | .ok (offset, pool) => (requestBucket r.pool.record reqSize).map fun i =>
          ⟨pool, ⟨⟨offset, i⟩, reqSize⟩ :: r.held, without offset r.returned⟩
    | .put io offset =>
      match genPoolPutBlock io offset r.pool with
      | (.error _, pool) => some { r with pool := pool }
      | (.ok _, pool) => (r.held.find? fun b => decide (b.offset = offset)).map fun b =>
          ⟨pool, without offset r.held, b :: r.returned⟩
    | .write offset count data =>
      some { r with pool := { r.pool with memory := copyIn r.pool.memory offset count data } }

/-- Requests are not empty, blocks in use are put, and writes stay inside one of them. -/
def WellUsed (r : PoolRun) : PoolCommand → Prop
  | .get _ reqSize => 0 < reqSize
  | .put _ offset => ∃ b ∈ r.held, b.offset = offset
  | .write offset count _ => ∃ b ∈ r.held,
      b.offset ≤ offset ∧ offset + count ≤ b.offset + b.len r.pool.record

/-! ## What holds in every state -/

/-- The invariant of runs. -/
structure RunInv (config : PoolConfig) (r : PoolRun) : Prop where
  pool : PoolInv config.startOffset r.pool r.held r.returned
  config : ∃ p, config.create = .ok p ∧ p.SameConfig r.pool.record

theorem PoolInv.find_held {start : Nat} {s : Pool} {held returned : List Block}
    (h : PoolInv start s held returned) {b : Block} (hb : b ∈ held) :
    held.find? (fun c => decide (c.offset = b.offset)) = some b := by
  obtain ⟨before, after, rfl⟩ := List.append_of_mem hb
  have hsplit : before ++ b :: after ++ returned = before ++ b :: (after ++ returned) :=
    List.append_assoc _ _ _
  have hbefore := h.split_offsets hsplit
  rw [List.find?_append, List.find?_eq_none.mpr (by simpa using hbefore), Option.none_or,
    List.find?_cons_of_pos (by simp)]

theorem RunInv.start {config : PoolConfig} (hwrap : config.NoWrap) {m : Memory} {r : PoolRun}
    (h : (poolMachine config m).start r) : RunInv config r := by
  obtain ⟨p, hp, rfl⟩ := h
  exact ⟨(genPoolInitialize_ok hp).inv hwrap m, p, hp, .refl p⟩

theorem RunInv.of_config {config : PoolConfig} {r r' : PoolRun} (h : RunInv config r)
    (hpool : PoolInv config.startOffset r'.pool r'.held r'.returned)
    (hconfig : r.pool.record.SameConfig r'.pool.record) : RunInv config r' := by
  obtain ⟨p, hp, hsame⟩ := h.config
  exact ⟨hpool, p, hp, hsame.trans hconfig⟩

/-- What one command leaves of the pool. -/
theorem poolMachine_step {config : PoolConfig} {m : Memory} {r r' : PoolRun}
    {command : PoolCommand} (h : RunInv config r) (hused : WellUsed r command)
    (hnext : (poolMachine config m).next r command = some r') :
    RunInv config r' ∧ r.pool.record.tailPosition ≤ r'.pool.record.tailPosition ∧
      ∀ a, r'.pool.record.tailPosition ≤ a → r'.pool.memory a = r.pool.memory a := by
  have hsame : ∀ r'' : PoolRun, r''.pool = r.pool →
      r.pool.record.tailPosition ≤ r''.pool.record.tailPosition ∧
        ∀ a, r''.pool.record.tailPosition ≤ a → r''.pool.memory a = r.pool.memory a :=
    fun r'' heq => heq ▸ ⟨Nat.le_refl _, fun _ _ => rfl⟩
  cases command with
  | get io reqSize =>
    change (match genPoolGetBlock io r.pool reqSize with
      | .error _ => some r
      | .ok (offset, pool) => (requestBucket r.pool.record reqSize).map fun i =>
          (⟨pool, ⟨⟨offset, i⟩, reqSize⟩ :: r.held, without offset r.returned⟩ : PoolRun)) =
        some r' at hnext
    rcases genPoolGetBlock_result h.pool io hused with
      ⟨⟨e, herror⟩, -⟩ | ⟨b, s', hok, hsize, hbucket, hinv, hkept⟩
    · rw [herror] at hnext
      cases hnext
      exact ⟨h, hsame r rfl⟩
    · rw [hok, hbucket] at hnext
      cases hnext
      have hb : (⟨⟨b.offset, b.bucket⟩, reqSize⟩ : Block) = b := by rw [← hsize]
      exact ⟨h.of_config (hb ▸ hinv) hkept.config, hkept.tail, hkept.beyond⟩
  | put io offset =>
    obtain ⟨b, hb, rfl⟩ := hused
    change (match genPoolPutBlock io b.offset r.pool with
      | (.error _, pool) => some { r with pool := pool }
      | (.ok _, pool) => (r.held.find? fun c => decide (c.offset = b.offset)).map fun c =>
          (⟨pool, without b.offset r.held, c :: r.returned⟩ : PoolRun)) = some r' at hnext
    rcases genPoolPutBlock_held h.pool io hb with
      ⟨⟨e, herror⟩, -⟩ | ⟨s', hok, -, hinv, hkept⟩
    · rw [herror] at hnext
      cases hnext
      exact ⟨h, hsame r rfl⟩
    · rw [hok, h.pool.find_held hb] at hnext
      cases hnext
      exact ⟨h.of_config hinv hkept.config, hkept.tail, hkept.beyond⟩
  | write offset count data =>
    obtain ⟨b, hb, hlow, hhigh⟩ := hused
    cases hnext
    have hmem := List.mem_append_left r.returned hb
    refine ⟨h.of_config (h.pool.write hmem hlow hhigh data) (.refl _), Nat.le_refl _,
      fun a ha => copyIn_outside (.inr ?_)⟩
    have hinside := (h.pool.inside hmem).2
    have htail : r.pool.record.tailPosition ≤ a := ha
    omega

theorem poolMachine_inv {config : PoolConfig} (hwrap : config.NoWrap) {m : Memory} {r : PoolRun}
    (h : (poolMachine config m).Reaches WellUsed r) : RunInv config r :=
  h.invariant (fun _ hstart => RunInv.start hwrap hstart)
    fun _ _ _ hinv hused hnext => (poolMachine_step hinv hused hnext).1

/-! ## Safety -/

def Pool.errorCounted (s : Pool) : Pool :=
  { s with record := { s.record with
    validationErrorCount := s.record.validationErrorCount + 1 } }

/-- The octets of a block and of a descriptor. -/
def Block.octets (p : GenPoolRecord) (b : Block) (a : Nat) : Prop :=
  b.offset ≤ a ∧ a < b.offset + b.len p

def Block.descOctets (b : Block) (a : Nat) : Prop :=
  b.offset - GENERIC_POOL_DESCRIPTOR_SIZE ≤ a ∧ a < b.offset

/-- What the pool guarantees to those who use its blocks. -/
structure PoolSafe (config : PoolConfig) (r : PoolRun) : Prop where
  apart : r.held.Pairwise fun b c => ∀ a, ¬(b.octets r.pool.record a ∧ c.octets r.pool.record a)
  descriptors : ∀ b ∈ r.held, ∀ c ∈ r.held ++ r.returned, ∀ a,
    ¬(b.octets r.pool.record a ∧ c.descOctets a)
  aligned : ∀ b ∈ r.held, config.alignSize ≠ 0 → config.alignSize ∣ b.offset
  large : ∀ b ∈ r.held, b.size ≤ b.len r.pool.record
  inside : ∀ b ∈ r.held, config.startOffset ≤ b.offset ∧
    b.offset + b.len r.pool.record ≤ r.pool.record.poolMaxOffset
  freeLists : ∀ i, ∃ l : List Block,
    Chain (fun b : Block => b.offset) (nextReturned r.pool.memory)
      (r.pool.record.buckets i).firstOffset l ∧
    (l.map fun b => b.offset).Nodup ∧ ∀ b, b ∈ l ↔ b ∈ r.returned ∧ b.bucket = i
  secondPut : ∀ b ∈ r.returned, ∀ io, (∃ e, (genPoolPutBlock io b.offset r.pool).1 = .error e) ∧
    ((genPoolPutBlock io b.offset r.pool).2 = r.pool ∨
      (genPoolPutBlock io b.offset r.pool).2 = r.pool.errorCounted)
  counts : ∀ i, (r.pool.record.buckets i).allocationCount =
    BitVec.ofNat 32 (ofBucket i r.held).length +
      ((r.pool.record.buckets i).releaseCount - (r.pool.record.buckets i).recycleCount)

section Safety
variable {start : Nat} {s : Pool} {held returned : List Block}

theorem PoolInv.octets_apart (h : PoolInv start s held returned) :
    held.Pairwise fun b c => ∀ a, ¬(b.octets s.record a ∧ c.octets s.record a) := by
  have happart := (List.pairwise_append.mp (h.laid.apart h.fits h.start_le)).1
  refine happart.imp fun {b c} hbc a => ?_
  unfold Apart at hbc
  rintro ⟨⟨hbLow, hbHigh⟩, hcLow, hcHigh⟩
  omega

theorem PoolInv.descriptors_apart (h : PoolInv start s held returned) {b c : Block}
    (hb : b ∈ held ++ returned) (hc : c ∈ held ++ returned) (a : Nat) :
    ¬(b.octets s.record a ∧ c.descOctets a) := by
  rintro ⟨⟨hbLow, hbHigh⟩, hcLow, hcHigh⟩
  have hbInside := (h.inside hb).1
  have hcInside := (h.inside hc).1
  by_cases hsame : b = c
  · subst hsame
    omega
  · have happart := h.laid.apart_of_ne h.fits h.start_le hb hc hsame
    unfold Apart at happart
    omega

theorem PoolInv.aligned (h : PoolInv start s held returned) {alignSize : Nat}
    (hpos : alignSize ≠ 0) (hmask : s.record.alignMask = alignSize - 1)
    (hpower : (alignSize - 1) &&& alignSize = 0) {b : Block} (hb : b ∈ held ++ returned) :
    alignSize ∣ b.offset := by
  obtain ⟨t, ht, hoffset⟩ := h.laid.placed h.fits h.start_le hb
  have hfits := h.fits b.bucket
  have hsmall : t + GENERIC_POOL_DESCRIPTOR_SIZE < 2 ^ 64 := by omega
  rw [hoffset, placeBehind, sizeT, Nat.mod_eq_of_lt hsmall, hmask]
  exact dvd_alignUp (Nat.pos_of_ne_zero hpos) hpower (by omega)

theorem PoolInv.freeList (h : PoolInv start s held returned) (i : Fin POOL_MAX_BUCKETS) :
    ∃ l : List Block, Chain (fun b : Block => b.offset) (nextReturned s.memory)
        (s.record.buckets i).firstOffset l ∧
      (l.map fun b => b.offset).Nodup ∧ ∀ b, b ∈ l ↔ b ∈ returned ∧ b.bucket = i := by
  refine ⟨ofBucket i returned, h.chain i, ?_, fun b => mem_ofBucket⟩
  have hreturned := (List.pairwise_append.mp h.offsets).2.1
  exact List.pairwise_map.mpr (hreturned.sublist List.filter_sublist)

theorem PoolInv.secondPut (h : PoolInv start s held returned) {b : Block} (hb : b ∈ returned)
    (io : Access) : (∃ e, (genPoolPutBlock io b.offset s).1 = .error e) ∧
      ((genPoolPutBlock io b.offset s).2 = s ∨
        (genPoolPutBlock io b.offset s).2 = s.errorCounted) := by
  rcases genPoolPutBlock_returned h io hb with ⟨⟨e, herror⟩, -⟩ | herror
  · rw [herror]
    exact ⟨⟨e, rfl⟩, .inl rfl⟩
  · rw [herror]
    exact ⟨⟨_, rfl⟩, .inr rfl⟩

theorem PoolInv.counts (h : PoolInv start s held returned) (i : Fin POOL_MAX_BUCKETS) :
    (s.record.buckets i).allocationCount = BitVec.ofNat 32 (ofBucket i held).length +
      ((s.record.buckets i).releaseCount - (s.record.buckets i).recycleCount) := by
  rw [h.allocated i, h.released i, ofBucket_append, List.length_append, BitVec.ofNat_add,
    BitVec.add_comm (s.record.buckets i).recycleCount, BitVec.add_sub_cancel]

end Safety

/-- In every run of gets, puts of blocks in use and writes inside them, on any storage,
the pool is safe, unless a sum of its limits is too large for a `size_t`. -/
theorem pool_safe {config : PoolConfig} (hwrap : config.NoWrap) {m : Memory} {r : PoolRun}
    (h : (poolMachine config m).Reaches WellUsed r) : PoolSafe config r := by
  obtain ⟨hpool, p, hp, hconfig⟩ := poolMachine_inv hwrap h
  have hfresh := genPoolInitialize_ok hp
  have hheld : ∀ b ∈ r.held, b ∈ r.held ++ r.returned := fun b hb => List.mem_append_left _ hb
  refine ⟨hpool.octets_apart, fun b hb c hc => hpool.descriptors_apart (hheld b hb) hc,
    fun b hb hpos => ?_, fun b hb => (hpool.bucket (hheld b hb)).2.2, fun b hb => ?_,
    hpool.freeList, fun b hb => hpool.secondPut hb, hpool.counts⟩
  · exact hpool.aligned hpos (hconfig.mask.trans hfresh.mask) hfresh.power (hheld b hb)
  · have hinside := hpool.inside (hheld b hb)
    have htail := hpool.tail.2
    exact ⟨by omega, by omega⟩

/-! ## Pools with one block size -/

instance (r : PoolRun) (command : PoolCommand) : Decidable (WellUsed r command) :=
  match command with
  | .get _ reqSize => inferInstanceAs (Decidable (0 < reqSize))
  | .put _ offset => inferInstanceAs (Decidable (∃ b ∈ r.held, b.offset = offset))
  | .write offset count _ => inferInstanceAs (Decidable (∃ b ∈ r.held,
      b.offset ≤ offset ∧ offset + count ≤ b.offset + b.len r.pool.record))

/-- 64 octets, aligned to 4, for blocks of one size. -/
def singleConfig (size : Fin (2 ^ 64)) : PoolConfig where
  startOffset := 0
  poolSize := 64
  alignSize := 4
  list := ⟨[size], by change 1 ≤ POOL_MAX_BUCKETS; decide,
    fun _ hn => List.mem_singleton.mp hn ▸ size.isLt⟩

def singleRecord (size : Fin (2 ^ 64)) : GenPoolRecord :=
  initialRecord 0 64 4 (singleConfig size).list [size.val]

theorem singleConfig_create {size : Fin (2 ^ 64)} (h : size.val ≠ 0) :
    (singleConfig size).create = .ok (singleRecord size) := by
  have hsort : bubbleSort (singleConfig size).list.sizes = [size.val] :=
    bubbleSort_eq (.refl _) (List.pairwise_singleton ..)
  have hzero : ¬ [size.val].getD 0 0 = 0 := h
  unfold PoolConfig.create genPoolInitialize
  have hpower : ¬(alignMaskOf (singleConfig size).alignSize &&& (singleConfig size).alignSize ≠ 0) := by
    change ¬(alignMaskOf 4 &&& 4 ≠ 0)
    decide
  rw [hsort, if_neg hpower, if_neg hzero]
  rfl

theorem singleConfig_noWrap {size : Fin (2 ^ 64)} (h : size.val + 91 < 2 ^ 64) :
    (singleConfig size).NoWrap := by
  intro n hn
  obtain rfl : n = size.val := List.mem_singleton.mp hn
  change 0 + 64 + 24 + (4 - 1) + size.val < 2 ^ 64
  omega

def blankMemory : Memory := fun _ => 0

theorem singleConfig_start (size : Fin (2 ^ 64)) (h : size.val ≠ 0) :
    (poolMachine (singleConfig size) blankMemory).start
      ⟨⟨singleRecord size, blankMemory⟩, [], []⟩ :=
  ⟨_, singleConfig_create h, rfl⟩

/-- Two blocks are got, the first is returned and got again. -/
theorem pool_safe_recycled : ∃ r,
    (poolMachine (singleConfig 16) blankMemory).Reaches WellUsed r ∧
      (r.held.map fun b => b.offset) = [24] ∧ PoolSafe (singleConfig 16) r := by
  obtain ⟨r, hreach, hheld⟩ := Machine.exists_reaches WellUsed
    (fun r : PoolRun => decide ((r.held.map fun b => b.offset) = [24]))
    (singleConfig_start 16 (by decide))
    [.get .direct 8, .put .direct 24, .get .direct 16, .write 24 16 fun _ => 255]
    (by decide +kernel)
  exact ⟨r, hreach, of_decide_eq_true hheld,
    pool_safe (singleConfig_noWrap (by decide)) hreach⟩

/-- With blocks of `2 ^ 64 - 24` octets a pool of 64 octets gives out the same block twice;
and a second put of a block is counted. -/
theorem pool_not_safe :
    (∃ r, (poolMachine (singleConfig (Fin.ofNat _ (2 ^ 64 - 24))) blankMemory).Reaches WellUsed r ∧
      (r.held.map fun b => b.offset) = [24, 24]) ∧
    (∃ r, (poolMachine (singleConfig 16) blankMemory).Reaches WellUsed r ∧
      ∃ b ∈ r.returned, (genPoolPutBlock .direct b.offset r.pool).2.record.validationErrorCount ≠
        r.pool.record.validationErrorCount) := by
  constructor
  · obtain ⟨r, hreach, hheld⟩ := Machine.exists_reaches WellUsed
      (fun r : PoolRun => decide ((r.held.map fun b => b.offset) = [24, 24]))
      (singleConfig_start (Fin.ofNat _ (2 ^ 64 - 24)) (by decide))
      [.get .direct 8, .get .direct 8] (by decide +kernel)
    exact ⟨r, hreach, of_decide_eq_true hheld⟩
  · obtain ⟨r, hreach, hcount⟩ := Machine.exists_reaches WellUsed
      (fun r : PoolRun => decide (∃ b ∈ r.returned,
        (genPoolPutBlock .direct b.offset r.pool).2.record.validationErrorCount ≠
          r.pool.record.validationErrorCount))
      (singleConfig_start 16 (by decide))
      [.get .direct 8, .put .direct 24] (by decide +kernel)
    exact ⟨r, hreach, of_decide_eq_true hcount⟩

end Nos3.Es
