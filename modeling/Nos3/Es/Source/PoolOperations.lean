import Nos3.Es.Source.PoolBlocks
import Nos3.Base.Program

/-!
# What the pool operations do

The invariant of a pool and, for each operation, the change it makes to the blocks
in use and the blocks returned.
-/
namespace Nos3.Es
open Nos3.Base.Alignment
open Nos3.Base.ByteMemory
open Nos3.Base.FreeChain
open Nos3.Base.Tiling

/-- The descriptor of a block. -/
def Block.desc (b : Block) (m : Memory) : GenPoolBD :=
  loadBD m (b.offset - GENERIC_POOL_DESCRIPTOR_SIZE)

/-- What the descriptor of a block says. -/
structure Described (p : GenPoolRecord) (m : Memory) (flag : Nat) (b : Block) : Prop where
  checkBits : (b.desc m).checkBits = CHECK_PATTERN
  allocated : (b.desc m).allocated = flag + bucketId p b.bucket
  actualSize : (b.desc m).actualSize = b.size
  bucket : b.bucket.val < p.numBuckets
  size_pos : 0 < b.size
  size_le : b.size ≤ b.len p

/-- The link of a returned block. -/
def nextReturned (m : Memory) (offset : Nat) : Nat :=
  (loadBD m (offset - GENERIC_POOL_DESCRIPTOR_SIZE)).nextOffset

def ofBucket (i : Fin POOL_MAX_BUCKETS) (blocks : List Block) : List Block :=
  blocks.filter fun b => decide (b.bucket = i)

structure PoolInv (start : Nat) (s : Pool) (held returned : List Block) : Prop where
  fits : s.record.Fits
  start_le : start ≤ s.record.poolMaxOffset
  laid : Laid s.record start (held ++ returned)
  inUse : ∀ b ∈ held, Described s.record s.memory MEMORY_ALLOCATED b
  free : ∀ b ∈ returned, Described s.record s.memory MEMORY_DEALLOCATED b
  chain : ∀ i, Chain (fun b : Block => b.offset) (nextReturned s.memory)
    (s.record.buckets i).firstOffset (ofBucket i returned)
  released : ∀ i, (s.record.buckets i).releaseCount =
    (s.record.buckets i).recycleCount + BitVec.ofNat 32 (ofBucket i returned).length
  allocated : ∀ i, (s.record.buckets i).allocationCount =
    BitVec.ofNat 32 (ofBucket i (held ++ returned)).length

/-- What an operation leaves as it was: the limits, what is stored in the blocks and what
lies behind the tail. -/
structure Kept (s s' : Pool) (blocks : List Block) : Prop where
  config : s.record.SameConfig s'.record
  tail : s.record.tailPosition ≤ s'.record.tailPosition
  contents : ∀ c ∈ blocks, SameOn s.memory s'.memory c.offset (c.len s.record)
  beyond : ∀ a, s'.record.tailPosition ≤ a → s'.memory a = s.memory a

theorem Described.congr {p p' : GenPoolRecord} {m m' : Memory} {flag : Nat} {b : Block}
    (h : Described p m flag b) (hconfig : p.SameConfig p')
    (hsame : SameOn m m' (b.offset - GENERIC_POOL_DESCRIPTOR_SIZE) GENERIC_POOL_DESCRIPTOR_SIZE) :
    Described p' m' flag b := by
  have hdesc : b.desc m' = b.desc m := (loadBD_congr hsame).symm
  refine ⟨?_, ?_, ?_, ?_, h.size_pos, ?_⟩
  · rw [hdesc, h.checkBits]
  · rw [hdesc, h.allocated, hconfig.id]
  · rw [hdesc, h.actualSize]
  · rw [hconfig.numBuckets]
    exact h.bucket
  · rw [hconfig.len]
    exact h.size_le

theorem ofBucket_append (i : Fin POOL_MAX_BUCKETS) (l l' : List Block) :
    ofBucket i (l ++ l') = ofBucket i l ++ ofBucket i l' := List.filter_append ..

theorem ofBucket_cons_same {i : Fin POOL_MAX_BUCKETS} {b : Block} (h : b.bucket = i)
    (l : List Block) : ofBucket i (b :: l) = b :: ofBucket i l :=
  List.filter_cons_of_pos (decide_eq_true h)

theorem ofBucket_cons_other {i : Fin POOL_MAX_BUCKETS} {b : Block} (h : b.bucket ≠ i)
    (l : List Block) : ofBucket i (b :: l) = ofBucket i l :=
  List.filter_cons_of_neg (by simpa using h)

theorem mem_ofBucket {i : Fin POOL_MAX_BUCKETS} {b : Block} {l : List Block} :
    b ∈ ofBucket i l ↔ b ∈ l ∧ b.bucket = i := by
  rw [ofBucket, List.mem_filter, decide_eq_true_eq]

section Facts
variable {start : Nat} {s : Pool} {held returned : List Block}

theorem PoolInv.tail (h : PoolInv start s held returned) :
    start ≤ s.record.tailPosition ∧ s.record.tailPosition ≤ s.record.poolMaxOffset :=
  h.laid.tail h.fits h.start_le

theorem PoolInv.inside (h : PoolInv start s held returned) {b : Block}
    (hb : b ∈ held ++ returned) : start + GENERIC_POOL_DESCRIPTOR_SIZE ≤ b.offset ∧
      b.offset + b.len s.record ≤ s.record.tailPosition :=
  h.laid.inside h.fits h.start_le hb

theorem PoolInv.bucket (h : PoolInv start s held returned) {b : Block}
    (hb : b ∈ held ++ returned) : b.bucket.val < s.record.numBuckets ∧ 0 < b.size ∧
      b.size ≤ b.len s.record := by
  rcases List.mem_append.mp hb with hb | hb
  · exact ⟨(h.inUse b hb).bucket, (h.inUse b hb).size_pos, (h.inUse b hb).size_le⟩
  · exact ⟨(h.free b hb).bucket, (h.free b hb).size_pos, (h.free b hb).size_le⟩

/-- A block lies in front of the tail. -/
theorem PoolInv.offset_lt (h : PoolInv start s held returned) {b : Block}
    (hb : b ∈ held ++ returned) : b.offset < s.record.tailPosition ∧
      GENERIC_POOL_DESCRIPTOR_SIZE ≤ b.offset ∧ s.record.tailPosition < 2 ^ 64 := by
  obtain ⟨hlow, hhigh⟩ := h.inside hb
  obtain ⟨-, hpos, hle⟩ := h.bucket hb
  have htail := h.tail.2
  have hfits := h.fits b.bucket
  exact ⟨by omega, by omega, by omega⟩

theorem PoolInv.desc_eq (h : PoolInv start s held returned) {b : Block}
    (hb : b ∈ held ++ returned) :
    descOffset b.offset = b.offset - GENERIC_POOL_DESCRIPTOR_SIZE := by
  obtain ⟨hlt, hge, htail⟩ := h.offset_lt hb
  unfold descOffset sizeSub sizeT
  unfold GENERIC_POOL_DESCRIPTOR_SIZE at hge ⊢
  omega

/-- The offsets of the blocks differ. -/
theorem PoolInv.offsets (h : PoolInv start s held returned) :
    (held ++ returned).Pairwise fun b c => b.offset ≠ c.offset := by
  refine (h.laid.apart h.fits h.start_le).imp fun {b c} happart heq => ?_
  unfold Apart at happart
  have hgap : 0 < GENERIC_POOL_DESCRIPTOR_SIZE := by decide
  omega

theorem PoolInv.firstOffset_lt (h : PoolInv start s held returned) (i : Fin POOL_MAX_BUCKETS) :
    (s.record.buckets i).firstOffset < 2 ^ 64 := by
  have hchain := h.chain i
  cases hlist : ofBucket i returned with
  | nil =>
    rw [hlist] at hchain
    rw [show (s.record.buckets i).firstOffset = 0 from hchain]
    exact Nat.two_pow_pos 64
  | cons b rest =>
    rw [hlist] at hchain
    have hb : b ∈ returned := (mem_ofBucket.mp (hlist ▸ List.mem_cons_self)).1
    obtain ⟨hlt, -, htail⟩ := h.offset_lt (List.mem_append_right held hb)
    rw [hchain.1]
    exact hlt.trans htail

/-- Where the list of a bucket is not empty, its first block was returned last. -/
theorem PoolInv.first (h : PoolInv start s held returned) {i : Fin POOL_MAX_BUCKETS}
    (hfirst : (s.record.buckets i).firstOffset ≠ 0) : ∃ older b newer,
      returned = newer ++ b :: older ∧ b.bucket = i ∧ (∀ c ∈ newer, c.bucket ≠ i) ∧
        (s.record.buckets i).firstOffset = b.offset ∧
        Chain (fun b : Block => b.offset) (nextReturned s.memory) (nextReturned s.memory b.offset)
          (ofBucket i older) := by
  obtain ⟨b, rest, hlist, hb, hrest⟩ := (h.chain i).head hfirst
  obtain ⟨newer, older, rfl, hnewer, hbucket, hfilter⟩ := List.filter_eq_cons_iff.mp hlist
  refine ⟨older, b, newer, rfl, of_decide_eq_true hbucket, fun c hc hcBucket => ?_, hb, ?_⟩
  · exact hnewer c hc (decide_eq_true hcBucket)
  · rw [ofBucket, hfilter, ← hb]
    exact hrest

theorem ofBucket_skip {i : Fin POOL_MAX_BUCKETS} {newer : List Block}
    (h : ∀ c ∈ newer, c.bucket ≠ i) : ofBucket i newer = [] :=
  List.filter_eq_nil_iff.mpr fun c hc => by simpa using h c hc

end Facts

theorem ofBucket_length_of_perm {l l' : List Block} (i : Fin POOL_MAX_BUCKETS)
    (h : (l.map Block.toSlot).Perm (l'.map Block.toSlot)) :
    (ofBucket i l).length = (ofBucket i l').length := by
  have hcount : ∀ l : List Block, (ofBucket i l).length =
      (l.map Block.toSlot).countP fun b => decide (b.bucket = i) := by
    intro l
    rw [List.countP_map, ofBucket, List.countP_eq_length_filter]
    rfl
  rw [hcount, hcount, h.countP_eq]

/-! ## One descriptor is written -/

section Write
variable {p : GenPoolRecord} {start : Nat} {m : Memory} {b : Block} {others : List Block}
  (hlaid : Laid p start (b :: others)) (hfits : p.Fits) (hstart : start ≤ p.poolMaxOffset)
include hlaid hfits hstart

theorem Described.write_other {flag : Nat} {c : Block} (h : Described p m flag c)
    (hc : c ∈ others) (bd : GenPoolBD) {p' : GenPoolRecord} (hconfig : p.SameConfig p') :
    Described p' (storeBD m (b.offset - GENERIC_POOL_DESCRIPTOR_SIZE) bd) flag c :=
  h.congr hconfig (hlaid.storeBD_other hfits hstart m bd c hc).1

theorem nextReturned_write_other {c : Block} (hc : c ∈ others) (bd : GenPoolBD) :
    nextReturned (storeBD m (b.offset - GENERIC_POOL_DESCRIPTOR_SIZE) bd) c.offset =
      nextReturned m c.offset :=
  congrArg GenPoolBD.nextOffset (loadBD_congr (hlaid.storeBD_other hfits hstart m bd c hc).1).symm

theorem Kept.of_write (bd : GenPoolBD) {record p' : GenPoolRecord} (hconfig : record.SameConfig p')
    (hp : p.SameConfig p') (htail : record.tailPosition ≤ p'.tailPosition)
    (hbeyond : p'.tailPosition = p.tailPosition) {blocks : List Block}
    (hblocks : ∀ c ∈ blocks, c.toSlot = b.toSlot ∨ c ∈ others) :
    Kept ⟨record, m⟩ ⟨p', storeBD m (b.offset - GENERIC_POOL_DESCRIPTOR_SIZE) bd⟩ blocks := by
  refine ⟨hconfig, htail, fun c hc => ?_, fun a ha => ?_⟩
  · have hlen : c.len record = c.len p := (hconfig.len c.toSlot).symm.trans (hp.len c.toSlot)
    rw [hlen]
    rcases hblocks c hc with hsame | hother
    · rw [hsame]
      exact hlaid.storeBD_own hfits hstart m bd
    · exact (hlaid.storeBD_other hfits hstart m bd c hother).2
  · exact hlaid.storeBD_beyond hfits hstart m bd (hbeyond ▸ ha)

end Write

theorem Described.write {p : GenPoolRecord} (m : Memory) {b : Block} (flag next : Nat)
    (hflag : flag + POOL_MAX_BUCKETS < 2 ^ 16) (hnext : next < 2 ^ 64)
    (hbucket : b.bucket.val < p.numBuckets) (hpos : 0 < b.size) (hle : b.size ≤ b.len p)
    (hsmall : b.len p < 2 ^ 64) :
    let bd : GenPoolBD := ⟨CHECK_PATTERN, flag + bucketId p b.bucket, b.size, next⟩
    let m' := storeBD m (b.offset - GENERIC_POOL_DESCRIPTOR_SIZE) bd
    Described p m' flag b ∧ nextReturned m' b.offset = next := by
  have hid := bucketId_le (p := p) (i := b.bucket)
  have hvalid : GenPoolBD.Valid ⟨CHECK_PATTERN, flag + bucketId p b.bucket, b.size, next⟩ :=
    ⟨show CHECK_PATTERN < 2 ^ 16 by decide, by dsimp only; omega, by dsimp only; omega, hnext⟩
  have hload := loadBD_storeBD (m := m) (a := b.offset - GENERIC_POOL_DESCRIPTOR_SIZE) hvalid
  refine ⟨⟨?_, ?_, ?_, hbucket, hpos, hle⟩, ?_⟩
  · exact congrArg GenPoolBD.checkBits hload
  · exact congrArg GenPoolBD.allocated hload
  · exact congrArg GenPoolBD.actualSize hload
  · exact congrArg GenPoolBD.nextOffset hload

/-! ## Recycling -/

section Operations
variable {start : Nat} {s : Pool} {held returned : List Block}

theorem PoolInv.len_lt (h : PoolInv start s held returned) (b : Slot) : b.len s.record < 2 ^ 64 := by
  have hfits := h.fits b.bucket
  unfold Slot.len
  omega

theorem PoolInv.recycle {newer older : List Block} {b : Block}
    (h : PoolInv start s held (newer ++ b :: older)) {size : Nat} (hpos : 0 < size)
    (hle : size ≤ b.len s.record) (hnewer : ∀ c ∈ newer, c.bucket ≠ b.bucket)
    (hchain : Chain (fun b : Block => b.offset) (nextReturned s.memory)
      (nextReturned s.memory b.offset) (ofBucket b.bucket older)) :
    let s' : Pool := ⟨s.record.recycled b.bucket (nextReturned s.memory b.offset),
      storeBD s.memory (b.offset - GENERIC_POOL_DESCRIPTOR_SIZE)
        ⟨CHECK_PATTERN, MEMORY_ALLOCATED + bucketId s.record b.bucket, size, 0⟩⟩
    PoolInv start s' ({ b with size := size } :: held) (newer ++ older) ∧
      Kept s s' (held ++ (newer ++ b :: older)) := by
  intro s'
  have hconfig : s.record.SameConfig s'.record := .setBucket rfl
  have hperm : (held ++ (newer ++ b :: older)).Perm (b :: (held ++ (newer ++ older))) := by
    rw [← List.append_assoc, ← List.append_assoc]
    exact List.perm_middle
  have hslots : ((held ++ (newer ++ b :: older)).map Block.toSlot).Perm
      (({ b with size := size } :: (held ++ (newer ++ older))).map Block.toSlot) :=
    hperm.map Block.toSlot
  have hlaid := h.laid.of_perm hslots
  have hmem : b ∈ held ++ (newer ++ b :: older) := hperm.mem_iff.mpr List.mem_cons_self
  obtain ⟨hdescribed, -⟩ := Described.write s.memory (b := { b with size := size })
    MEMORY_ALLOCATED 0 (by decide) (by decide) (h.bucket hmem).1 hpos hle (h.len_lt b.toSlot)
  have hothers : ∀ c, c ∈ held ∨ c ∈ newer ++ older → c ∈ held ++ (newer ++ older) :=
    fun c hc => List.mem_append.mpr hc
  have hfree : ∀ c ∈ newer ++ older, c ∈ newer ++ b :: older := fun c hc => by
    rcases List.mem_append.mp hc with hc | hc
    · exact List.mem_append_left _ hc
    · exact List.mem_append_right _ (List.mem_cons_of_mem b hc)
  refine ⟨⟨hconfig.fits h.fits, hconfig.maxOffset ▸ h.start_le, ?_, ?_, ?_, ?_, ?_, ?_⟩, ?_⟩
  · exact hlaid.of_config hconfig rfl
  · intro c hc
    rcases List.mem_cons.mp hc with rfl | hc
    · exact hdescribed.congr hconfig (.refl _ _ _)
    · exact (h.inUse c hc).write_other hlaid h.fits h.start_le (hothers c (.inl hc)) _ hconfig
  · intro c hc
    exact (h.free c (hfree c hc)).write_other hlaid h.fits h.start_le (hothers c (.inr hc)) _ hconfig
  · intro j
    have hnext : ∀ c ∈ ofBucket j (newer ++ older), nextReturned s.memory c.offset =
        nextReturned s'.memory c.offset := fun c hc =>
      (nextReturned_write_other hlaid h.fits h.start_le
        (hothers c (.inr (mem_ofBucket.mp hc).1)) _).symm
    by_cases hj : j = b.bucket
    · subst hj
      rw [show s'.record.buckets b.bucket = _ from setBucket_same]
      rw [ofBucket_append, ofBucket_skip hnewer, List.nil_append] at hnext ⊢
      exact hchain.congr hnext
    · rw [show s'.record.buckets j = _ from setBucket_other hj]
      have hold := h.chain j
      rw [ofBucket_append, ofBucket_cons_other (Ne.symm hj), ← ofBucket_append] at hold
      exact hold.congr hnext
  · intro j
    have hold := h.released j
    by_cases hj : j = b.bucket
    · subst hj
      rw [show s'.record.buckets b.bucket = _ from setBucket_same]
      dsimp only
      rw [hold, ofBucket_append, ofBucket_append, ofBucket_cons_same rfl, ofBucket_skip hnewer,
        List.nil_append, List.nil_append, List.length_cons, BitVec.ofNat_add,
        BitVec.add_comm (BitVec.ofNat 32 _) 1#32, ← BitVec.add_assoc]
      rfl
    · rw [show s'.record.buckets j = _ from setBucket_other hj, hold, ofBucket_append,
        ofBucket_append, ofBucket_cons_other (Ne.symm hj)]
  · intro j
    have hold := h.allocated j
    have hcount : (s'.record.buckets j).allocationCount = (s.record.buckets j).allocationCount := by
      by_cases hj : j = b.bucket
      · subst hj
        rw [show s'.record.buckets b.bucket = _ from setBucket_same]
      · rw [show s'.record.buckets j = _ from setBucket_other hj]
    rw [hcount, hold, ofBucket_length_of_perm j hslots]
    rfl
  · refine Kept.of_write hlaid h.fits h.start_le _ hconfig hconfig (Nat.le_refl _) rfl fun c hc => ?_
    rcases List.mem_cons.mp (hperm.mem_iff.mp hc) with rfl | hc
    · exact .inl rfl
    · exact .inr hc

/-! ## Returning -/

/-- One more block in a bucket's list. -/
theorem released_count {release recycle : BitVec 32} {n : Nat}
    (h : release = recycle + BitVec.ofNat 32 n) :
    release + 1 = recycle + BitVec.ofNat 32 (n + 1) := by
  rw [h, BitVec.ofNat_add, BitVec.add_assoc]
  rfl

theorem PoolInv.release {before after : List Block} {b : Block}
    (h : PoolInv start s (before ++ b :: after) returned) :
    let s' : Pool := ⟨s.record.released b.bucket b.offset,
      storeBD s.memory (b.offset - GENERIC_POOL_DESCRIPTOR_SIZE)
        ⟨CHECK_PATTERN, MEMORY_DEALLOCATED + bucketId s.record b.bucket, b.size,
          (s.record.buckets b.bucket).firstOffset⟩⟩
    PoolInv start s' (before ++ after) (b :: returned) ∧
      Kept s s' (before ++ b :: after ++ returned) := by
  intro s'
  have hconfig : s.record.SameConfig s'.record := .setBucket rfl
  have hperm : (before ++ b :: after ++ returned).Perm (b :: (before ++ after ++ returned)) := by
    rw [List.append_assoc, List.append_assoc]
    exact List.perm_middle
  have hlaid := h.laid.of_perm (hperm.map Block.toSlot)
  have hmem : b ∈ before ++ b :: after ++ returned := hperm.mem_iff.mpr List.mem_cons_self
  have hheld : ∀ c ∈ before ++ after, c ∈ before ++ b :: after := fun c hc => by
    rcases List.mem_append.mp hc with hc | hc
    · exact List.mem_append_left _ hc
    · exact List.mem_append_right _ (List.mem_cons_of_mem b hc)
  have hback : (before ++ after ++ b :: returned).Perm (b :: (before ++ after ++ returned)) :=
    List.perm_middle
  obtain ⟨hdescribed, hlink⟩ := Described.write s.memory (b := b) MEMORY_DEALLOCATED
    (s.record.buckets b.bucket).firstOffset (by decide) (h.firstOffset_lt b.bucket)
    (h.bucket hmem).1 (h.bucket hmem).2.1 (h.bucket hmem).2.2 (h.len_lt b.toSlot)
  have hnext : ∀ c ∈ returned, nextReturned s.memory c.offset = nextReturned s'.memory c.offset :=
    fun c hc => (nextReturned_write_other hlaid h.fits h.start_le
      (List.mem_append_right _ hc) _).symm
  refine ⟨⟨hconfig.fits h.fits, hconfig.maxOffset ▸ h.start_le, ?_, ?_, ?_, ?_, ?_, ?_⟩, ?_⟩
  · exact (hlaid.of_config hconfig rfl).of_perm (hback.symm.map Block.toSlot)
  · intro c hc
    exact (h.inUse c (hheld c hc)).write_other hlaid h.fits h.start_le
      (List.mem_append_left _ hc) _ hconfig
  · intro c hc
    rcases List.mem_cons.mp hc with rfl | hc
    · exact hdescribed.congr hconfig (.refl _ _ _)
    · exact (h.free c hc).write_other hlaid h.fits h.start_le (List.mem_append_right _ hc) _ hconfig
  · intro j
    by_cases hj : j = b.bucket
    · subst hj
      rw [show s'.record.buckets b.bucket = _ from setBucket_same, ofBucket_cons_same rfl]
      exact (h.chain b.bucket).push (fun c hc => hnext c (mem_ofBucket.mp hc).1) hlink
    · rw [show s'.record.buckets j = _ from setBucket_other hj, ofBucket_cons_other (Ne.symm hj)]
      exact (h.chain j).congr fun c hc => hnext c (mem_ofBucket.mp hc).1
  · intro j
    by_cases hj : j = b.bucket
    · subst hj
      rw [show s'.record.buckets b.bucket = _ from setBucket_same, ofBucket_cons_same rfl]
      exact released_count (h.released b.bucket)
    · rw [show s'.record.buckets j = _ from setBucket_other hj, ofBucket_cons_other (Ne.symm hj)]
      exact h.released j
  · intro j
    have hcount : (s'.record.buckets j).allocationCount = (s.record.buckets j).allocationCount := by
      by_cases hj : j = b.bucket
      · subst hj
        rw [show s'.record.buckets b.bucket = _ from setBucket_same]
      · rw [show s'.record.buckets j = _ from setBucket_other hj]
    rw [hcount, h.allocated j,
      ofBucket_length_of_perm j ((hperm.trans hback.symm).map Block.toSlot)]
  · refine Kept.of_write hlaid h.fits h.start_le _ hconfig hconfig (Nat.le_refl _) rfl fun c hc => ?_
    rcases List.mem_cons.mp (hperm.mem_iff.mp hc) with rfl | hc
    · exact .inl rfl
    · exact .inr hc

/-! ## Creating -/

/-- Nothing but descriptors is looked at. -/
theorem PoolInv.of_memory {p : GenPoolRecord} {m m' : Memory}
    (h : PoolInv start ⟨p, m⟩ held returned)
    (hsame : ∀ c ∈ held ++ returned,
      SameOn m m' (c.offset - GENERIC_POOL_DESCRIPTOR_SIZE) GENERIC_POOL_DESCRIPTOR_SIZE) :
    PoolInv start ⟨p, m'⟩ held returned := by
  have hnext : ∀ c ∈ returned, nextReturned m c.offset = nextReturned m' c.offset := fun c hc =>
    congrArg GenPoolBD.nextOffset (loadBD_congr (hsame c (List.mem_append_right _ hc)))
  refine ⟨h.fits, h.start_le, h.laid, fun c hc => ?_, fun c hc => ?_, fun i => ?_, h.released,
    h.allocated⟩
  · exact (h.inUse c hc).congr (.refl p) (hsame c (List.mem_append_left _ hc))
  · exact (h.free c hc).congr (.refl p) (hsame c (List.mem_append_right _ hc))
  · exact (h.chain i).congr fun c hc => hnext c (mem_ofBucket.mp hc).1

/-- Where a block of a bucket can be created. -/
structure Creatable (s : Pool) (flag : Nat) (b : Block) : Prop where
  offset : b.offset = nextBlockOffset s.record
  room : sizeT (nextBlockOffset s.record + b.len s.record) ≤ s.record.poolMaxOffset
  described : Described s.record s.memory flag b

section Extend
variable {flag : Nat} {b : Block} (h : PoolInv start s held returned) (hb : Creatable s flag b)
include h hb

theorem PoolInv.extend_laid :
    Laid (s.record.extended b.bucket) start (b :: (held ++ returned)) :=
  h.laid.extend hb.offset h.fits h.tail.2 hb.room

omit hb in
theorem PoolInv.extend_config {flag : Nat} {c : Block} (hc : Described s.record s.memory flag c) :
    Described (s.record.extended b.bucket) s.memory flag c :=
  hc.congr (.extended _ _) (.refl _ _ _)

omit hb in
theorem PoolInv.extend_allocated (j : Fin POOL_MAX_BUCKETS) :
    ((s.record.extended b.bucket).buckets j).allocationCount =
      BitVec.ofNat 32 (ofBucket j (b :: (held ++ returned))).length := by
  by_cases hj : j = b.bucket
  · subst hj
    rw [extended_same, ofBucket_cons_same rfl, List.length_cons, BitVec.ofNat_add]
    exact congrArg (· + 1) (h.allocated b.bucket)
  · rw [extended_other hj, ofBucket_cons_other (Ne.symm hj)]
    exact h.allocated j

end Extend

theorem PoolInv.extend {b : Block} (h : PoolInv start s held returned)
    (hb : Creatable s MEMORY_ALLOCATED b) :
    PoolInv start ⟨s.record.extended b.bucket, s.memory⟩ (b :: held) returned := by
  have hconfig := GenPoolRecord.SameConfig.extended s.record b.bucket
  have hbucket : ∀ j, ((s.record.extended b.bucket).buckets j).firstOffset =
      (s.record.buckets j).firstOffset ∧ ((s.record.extended b.bucket).buckets j).releaseCount =
      (s.record.buckets j).releaseCount ∧ ((s.record.extended b.bucket).buckets j).recycleCount =
      (s.record.buckets j).recycleCount := by
    intro j
    by_cases hj : j = b.bucket
    · subst hj
      rw [extended_same]
      exact ⟨rfl, rfl, rfl⟩
    · rw [extended_other hj]
      exact ⟨rfl, rfl, rfl⟩
  refine ⟨hconfig.fits h.fits, hconfig.maxOffset ▸ h.start_le, h.extend_laid hb, fun c hc => ?_,
    fun c hc => h.extend_config (h.free c hc), fun j => ?_, fun j => ?_, h.extend_allocated⟩
  · rcases List.mem_cons.mp hc with rfl | hc
    · exact h.extend_config hb.described
    · exact h.extend_config (h.inUse c hc)
  · rw [(hbucket j).1]
    exact h.chain j
  · rw [(hbucket j).2.1, (hbucket j).2.2]
    exact h.released j

/-- A block that was returned before, as the scan finds it. -/
theorem PoolInv.extend_returned {b : Block} (h : PoolInv start s held returned)
    (hb : Creatable s MEMORY_DEALLOCATED b)
    (hlink : nextReturned s.memory b.offset = (s.record.buckets b.bucket).firstOffset) :
    PoolInv start ⟨(s.record.extended b.bucket).released b.bucket b.offset, s.memory⟩ held
      (b :: returned) := by
  have hextended := GenPoolRecord.SameConfig.extended s.record b.bucket
  have hreleased : (s.record.extended b.bucket).SameConfig
      ((s.record.extended b.bucket).released b.bucket b.offset) := .setBucket rfl
  have hconfig := hextended.trans hreleased
  have hback : (held ++ b :: returned).Perm (b :: (held ++ returned)) := List.perm_middle
  have hbucket : ∀ j, j ≠ b.bucket →
      ((s.record.extended b.bucket).released b.bucket b.offset).buckets j = s.record.buckets j :=
    fun j hj => (setBucket_other hj).trans (extended_other hj)
  have hown : ((s.record.extended b.bucket).released b.bucket b.offset).buckets b.bucket =
      { s.record.buckets b.bucket with
        allocationCount := (s.record.buckets b.bucket).allocationCount + 1
        firstOffset := b.offset
        releaseCount := (s.record.buckets b.bucket).releaseCount + 1 } := by
    refine setBucket_same.trans ?_
    rw [extended_same]
  refine ⟨hconfig.fits h.fits, hconfig.maxOffset ▸ h.start_le, ?_, fun c hc => ?_, fun c hc => ?_,
    fun j => ?_, fun j => ?_, fun j => ?_⟩
  · exact ((h.extend_laid hb).of_config hreleased rfl).of_perm (hback.symm.map Block.toSlot)
  · exact (h.extend_config (h.inUse c hc)).congr hreleased (.refl _ _ _)
  · rcases List.mem_cons.mp hc with rfl | hc
    · exact (h.extend_config hb.described).congr hreleased (.refl _ _ _)
    · exact (h.extend_config (h.free c hc)).congr hreleased (.refl _ _ _)
  · by_cases hj : j = b.bucket
    · subst hj
      rw [show _ = _ from hown, ofBucket_cons_same rfl]
      exact (h.chain b.bucket).push (fun _ _ => rfl) hlink
    · rw [show _ = _ from hbucket j hj, ofBucket_cons_other (Ne.symm hj)]
      exact h.chain j
  · by_cases hj : j = b.bucket
    · subst hj
      rw [show _ = _ from hown, ofBucket_cons_same rfl]
      exact released_count (h.released b.bucket)
    · rw [show _ = _ from hbucket j hj, ofBucket_cons_other (Ne.symm hj)]
      exact h.released j
  · have hcount : (((s.record.extended b.bucket).released b.bucket b.offset).buckets j).allocationCount =
        ((s.record.extended b.bucket).buckets j).allocationCount := by
      by_cases hj : j = b.bucket
      · subst hj
        rw [hown, extended_same]
      · rw [hbucket j hj, extended_other hj]
    rw [show _ = _ from hcount, h.extend_allocated j,
      ofBucket_length_of_perm j (hback.map Block.toSlot)]

end Operations

end Nos3.Es

/-!
## Calls of the generic pool

Each function of the pool on a state that meets the invariant: the errors it can
return and what it leaves, or the change of the blocks it makes.
-/
namespace Nos3.Es
open Nos3.Base.Alignment
open Nos3.Base.BubbleSort
open Nos3.Base.ByteMemory
open Nos3.Base.FreeChain
open Nos3.Base.Program
open Nos3.Base.Tiling

/-- Some access of the storage fails. -/
def Access.Fails (io : Access) : Prop :=
  ∃ offset, io.retrieve offset ≠ none ∨ io.commit offset ≠ none

theorem Access.direct_not_fails : ¬ Access.direct.Fails := fun ⟨_, h⟩ => h.elim (· rfl) (· rfl)

/-- A bucket has a block to recycle. -/
def Recyclable (p : GenPoolRecord) (i : Fin POOL_MAX_BUCKETS) : Prop :=
  (p.buckets i).recycleCount ≠ (p.buckets i).releaseCount ∧ (p.buckets i).firstOffset ≠ 0

/-- There is room for one more block of a bucket. -/
def HasRoom (p : GenPoolRecord) (i : Fin POOL_MAX_BUCKETS) : Prop :=
  sizeT (nextBlockOffset p + (p.buckets i).blockSize) ≤ p.poolMaxOffset

/-- The bucket a request is served from. -/
def requestBucket (p : GenPoolRecord) (reqSize : Nat) : Option (Fin POOL_MAX_BUCKETS) :=
  genPoolGetBucketState p (genPoolFindBucket p reqSize)

/-- A block can be had for a request. -/
def Available (p : GenPoolRecord) (reqSize : Nat) : Prop :=
  ∃ i, requestBucket p reqSize = some i ∧ (Recyclable p i ∨ HasRoom p i)

/-- The blocks but the one at an offset. -/
def without (offset : Nat) (blocks : List Block) : List Block :=
  blocks.eraseP fun c => decide (c.offset = offset)

theorem without_split {before after : List Block} {b : Block}
    (h : ∀ c ∈ before, c.offset ≠ b.offset) :
    without b.offset (before ++ b :: after) = before ++ after := by
  rw [without, List.eraseP_append_right _ (by simpa using h),
    List.eraseP_cons_of_pos (by simp)]

theorem without_absent {blocks : List Block} {offset : Nat} (h : ∀ c ∈ blocks, c.offset ≠ offset) :
    without offset blocks = blocks :=
  List.eraseP_of_forall_not (by simpa using h)

theorem retrieve_result (io : Access) (s : Pool) (offset : Nat) :
    ((∃ e, retrieve io s offset = .error e) ∧ io.Fails) ∨
      retrieve io s offset = .ok (loadBD s.memory offset) := by
  rcases hio : io.retrieve offset with _ | status
  · right
    rw [retrieve, hio]
  · left
    refine ⟨⟨.access status, ?_⟩, offset, .inl (by rw [hio]; nofun)⟩
    rw [retrieve, hio]

theorem commit_result (io : Access) (s : Pool) (offset : Nat) (bd : GenPoolBD) :
    ((∃ e, commit io s offset bd = .error e) ∧ io.Fails) ∨
      commit io s offset bd = .ok { s with memory := storeBD s.memory offset bd } := by
  rcases hio : io.commit offset with _ | status
  · right
    rw [commit, hio]
  · left
    refine ⟨⟨.access status, ?_⟩, offset, .inr (by rw [hio]; nofun)⟩
    rw [commit, hio]

section Calls
variable {start : Nat} {s : Pool} {held returned : List Block}

theorem PoolInv.split_offsets (h : PoolInv start s held returned) {before after : List Block}
    {b : Block} (hsplit : held ++ returned = before ++ b :: after) :
    ∀ c ∈ before, c.offset ≠ b.offset := by
  have hoffsets := h.offsets
  rw [hsplit] at hoffsets
  exact fun c hc => (List.pairwise_append.mp hoffsets).2.2 c hc b List.mem_cons_self

/-! ## Get -/

theorem genPoolRecyclePoolBlock_result (h : PoolInv start s held returned) (io : Access)
    {i : Fin POOL_MAX_BUCKETS} {size : Nat} (hpos : 0 < size)
    (hi : i.val < s.record.numBuckets) (hle : size ≤ (s.record.buckets i).blockSize) :
    ((∃ e, genPoolRecyclePoolBlock io s (bucketId s.record i) size = .error e) ∧
        (io.Fails ∨ ¬ Recyclable s.record i)) ∨
      ∃ b s', genPoolRecyclePoolBlock io s (bucketId s.record i) size = .ok (b.offset, s') ∧
        b.size = size ∧ b.bucket = i ∧ PoolInv start s' (b :: held) (without b.offset returned) ∧
        Kept s s' (held ++ returned) := by
  unfold genPoolRecyclePoolBlock
  rw [bucketForId_bucketId hi, ok_bind]
  by_cases hempty : (s.record.buckets i).recycleCount = (s.record.buckets i).releaseCount ∨
      (s.record.buckets i).firstOffset = 0
  · rw [if_pos hempty]
    refine .inl ⟨⟨_, rfl⟩, .inr fun hrecyclable => ?_⟩
    exact hempty.elim hrecyclable.1 hrecyclable.2
  rw [if_neg hempty]
  obtain ⟨older, b, newer, rfl, rfl, hnewer, hfirst, hchain⟩ :=
    h.first fun hzero => hempty (.inr hzero)
  have hb : b ∈ newer ++ b :: older := List.mem_append_right _ List.mem_cons_self
  have hdescribed := h.free b hb
  rw [hfirst, h.desc_eq (List.mem_append_right held hb)]
  rcases retrieve_result io s (b.offset - GENERIC_POOL_DESCRIPTOR_SIZE) with
    ⟨⟨e, herror⟩, hfails⟩ | hretrieve
  · rw [herror]
    exact .inl ⟨⟨e, rfl⟩, .inl hfails⟩
  rw [hretrieve, ok_bind]
  have hflag : ¬((b.desc s.memory).checkBits ≠ CHECK_PATTERN ∨
      uint16Sub (b.desc s.memory).allocated MEMORY_DEALLOCATED ≠ bucketId s.record b.bucket) := by
    rw [hdescribed.checkBits, hdescribed.allocated, uint16Sub_deallocated hi]
    exact fun hne => hne.elim (· rfl) (· rfl)
  rw [show loadBD s.memory (b.offset - GENERIC_POOL_DESCRIPTOR_SIZE) = b.desc s.memory from rfl,
    if_neg hflag, flag_bucketId (by decide), hdescribed.checkBits]
  rcases commit_result io s (b.offset - GENERIC_POOL_DESCRIPTOR_SIZE)
    ⟨CHECK_PATTERN, MEMORY_ALLOCATED + bucketId s.record b.bucket, size, 0⟩ with
    ⟨⟨e, herror⟩, hfails⟩ | hcommit
  · rw [herror]
    exact .inl ⟨⟨e, rfl⟩, .inl hfails⟩
  rw [hcommit, ok_bind]
  have hbefore : ∀ c ∈ newer, c.offset ≠ b.offset := by
    have hsplit : held ++ (newer ++ b :: older) = (held ++ newer) ++ b :: older :=
      (List.append_assoc _ _ _).symm
    exact fun c hc => h.split_offsets hsplit c (List.mem_append_right held hc)
  obtain ⟨hinv, hkept⟩ := h.recycle hpos hle hnewer hchain
  refine .inr ⟨{ b with size := size }, _, rfl, rfl, rfl, ?_, hkept⟩
  rw [without_split hbefore]
  exact hinv

theorem genPoolCreatePoolBlock_result (h : PoolInv start s held returned) (io : Access)
    {i : Fin POOL_MAX_BUCKETS} {size : Nat} (hpos : 0 < size)
    (hi : i.val < s.record.numBuckets) (hle : size ≤ (s.record.buckets i).blockSize) :
    ((∃ e, genPoolCreatePoolBlock io s (bucketId s.record i) size = .error e) ∧
        (io.Fails ∨ ¬ HasRoom s.record i)) ∨
      ∃ b s', genPoolCreatePoolBlock io s (bucketId s.record i) size = .ok (b.offset, s') ∧
        b.size = size ∧ b.bucket = i ∧ PoolInv start s' (b :: held) (without b.offset returned) ∧
        Kept s s' (held ++ returned) := by
  unfold genPoolCreatePoolBlock
  rw [bucketForId_bucketId hi, ok_bind]
  by_cases hroom : HasRoom s.record i
  swap
  · rw [if_pos (Nat.lt_of_not_le hroom)]
    exact .inl ⟨⟨_, rfl⟩, .inr hroom⟩
  rw [if_neg (Nat.not_lt_of_le hroom), flag_bucketId (by decide)]
  obtain ⟨hplace, hplaceLe⟩ := h.fits.place h.tail.2
  have hnext : nextBlockOffset s.record = placeBehind s.record s.record.tailPosition := rfl
  have hfit := h.fits i
  have htailLe := h.tail.2
  have hdesc : descOffset (nextBlockOffset s.record) =
      nextBlockOffset s.record - GENERIC_POOL_DESCRIPTOR_SIZE := by
    unfold descOffset sizeSub sizeT
    unfold GENERIC_POOL_DESCRIPTOR_SIZE at hplace hplaceLe hfit ⊢
    omega
  rw [hdesc]
  rcases retrieve_result io s (nextBlockOffset s.record - GENERIC_POOL_DESCRIPTOR_SIZE) with
    ⟨⟨e, herror⟩, hfails⟩ | hretrieve
  · rw [herror]
    exact .inl ⟨⟨e, rfl⟩, .inl hfails⟩
  rw [hretrieve, ok_bind]
  rcases commit_result io s (nextBlockOffset s.record - GENERIC_POOL_DESCRIPTOR_SIZE)
    ⟨CHECK_PATTERN, MEMORY_ALLOCATED + bucketId s.record i, size, 0⟩ with
    ⟨⟨e, herror⟩, hfails⟩ | hcommit
  · rw [herror]
    exact .inl ⟨⟨e, rfl⟩, .inl hfails⟩
  rw [hcommit, ok_bind]
  obtain ⟨b, hb⟩ : ∃ b : Block, b = ⟨⟨nextBlockOffset s.record, i⟩, size⟩ := ⟨_, rfl⟩
  have hoffset : b.offset = nextBlockOffset s.record := by rw [hb]
  have hbucket : b.bucket = i := by rw [hb]
  have hsize : b.size = size := by rw [hb]
  have hlen : b.len s.record = (s.record.buckets i).blockSize := by rw [Slot.len, hbucket]
  obtain ⟨m, hm⟩ : ∃ m, m = storeBD s.memory (nextBlockOffset s.record -
      GENERIC_POOL_DESCRIPTOR_SIZE) ⟨CHECK_PATTERN, MEMORY_ALLOCATED + bucketId s.record i, size, 0⟩ :=
    ⟨_, rfl⟩
  -- the descriptor lies behind the tail
  have hbehind : ∀ a n, a + n ≤ s.record.tailPosition → SameOn s.memory m a n :=
    fun a n ha => hm ▸ (storeBD_sameOn (by omega)).symm
  have hmemory : PoolInv start ⟨s.record, m⟩ held returned := h.of_memory fun c hc => by
    have hinside := h.inside hc
    exact hbehind _ _ (by omega)
  obtain ⟨hdescribed, -⟩ := Described.write (p := s.record) s.memory (b := b) MEMORY_ALLOCATED 0
    (by decide) (by decide) (hbucket ▸ hi) (hsize ▸ hpos) (by rw [hsize, hlen]; exact hle)
    (h.len_lt b.toSlot)
  rw [hbucket, hsize, hoffset, ← hm] at hdescribed
  have hcreatable : Creatable ⟨s.record, m⟩ MEMORY_ALLOCATED b :=
    ⟨hoffset, by rw [hlen]; exact hroom, hdescribed⟩
  have hinv := hmemory.extend hcreatable
  have habsent : ∀ c ∈ returned, c.offset ≠ b.offset := fun c hc => by
    have hlt := (h.offset_lt (List.mem_append_right held hc)).1
    omega
  rw [hbucket] at hinv
  refine .inr ⟨b, ⟨s.record.extended i, m⟩, by rw [hoffset, hm]; rfl, hsize, hbucket, ?_, ?_⟩
  · rw [without_absent habsent]
    exact hinv
  have hend : sizeT (nextBlockOffset s.record + (s.record.buckets i).blockSize) =
      nextBlockOffset s.record + (s.record.buckets i).blockSize :=
    Nat.mod_eq_of_lt (by omega)
  refine ⟨.extended _ _, ?_, fun c hc => hbehind _ _ (h.inside hc).2, fun a ha => ?_⟩
  · change s.record.tailPosition ≤ sizeT _
    omega
  · have hnew : sizeT (nextBlockOffset s.record + (s.record.buckets i).blockSize) ≤ a := ha
    have hsame : SameOn m s.memory a 1 := hm ▸ storeBD_sameOn (by omega)
    exact hsame a (Nat.le_refl a) (Nat.lt_succ_self a)

/-- A request is served with a block of the bucket found for it, or nothing changes. -/
theorem genPoolGetBlock_result (h : PoolInv start s held returned) (io : Access) {reqSize : Nat}
    (hpos : 0 < reqSize) :
    ((∃ e, genPoolGetBlock io s reqSize = .error e) ∧ (io.Fails ∨ ¬ Available s.record reqSize)) ∨
      ∃ b s', genPoolGetBlock io s reqSize = .ok (b.offset, s') ∧ b.size = reqSize ∧
        requestBucket s.record reqSize = some b.bucket ∧
        PoolInv start s' (b :: held) (without b.offset returned) ∧
        Kept s s' (held ++ returned) := by
  unfold genPoolGetBlock
  rcases findBucket_cases s.record reqSize with hnone | ⟨i, hi, hfind, hle⟩
  · rw [if_pos hnone]
    refine .inl ⟨⟨_, rfl⟩, .inr ?_⟩
    rintro ⟨i, hi, -⟩
    rw [requestBucket, hnone] at hi
    have hcount := s.record.numBuckets_le
    unfold genPoolGetBucketState uint16Sub at hi
    unfold POOL_MAX_BUCKETS at hcount
    rw [dif_neg (by omega)] at hi
    cases hi
  have hpositive := bucketId_pos hi
  have hrequest : requestBucket s.record reqSize = some i := by
    rw [requestBucket, hfind, getBucketState_bucketId hi]
  rw [if_neg (by omega), hfind]
  rcases genPoolRecyclePoolBlock_result h io hpos hi hle with
    ⟨⟨e, herror⟩, hwhy⟩ | ⟨b, s', hok, hsize, hbucket, hinv, hkept⟩
  swap
  · rw [hok]
    exact .inr ⟨b, s', rfl, hsize, hbucket ▸ hrequest, hinv, hkept⟩
  rw [herror]
  rcases genPoolCreatePoolBlock_result h io hpos hi hle with
    ⟨⟨e', herror'⟩, hwhy'⟩ | ⟨b, s', hok, hsize, hbucket, hinv, hkept⟩
  swap
  · exact .inr ⟨b, s', hok, hsize, hbucket ▸ hrequest, hinv, hkept⟩
  refine .inl ⟨⟨e', herror'⟩, ?_⟩
  rcases hwhy with hfails | hrecyclable
  · exact .inl hfails
  rcases hwhy' with hfails | hroom
  · exact .inl hfails
  refine .inr ?_
  rintro ⟨j, hj, hcan⟩
  obtain rfl : i = j := Option.some.inj (hrequest.symm.trans hj)
  exact hcan.elim hrecyclable hroom

/-! ## Size and put -/

/-- Offsets of blocks pass the bounds of the pool. -/
theorem PoolInv.bounds (h : PoolInv start s held returned) {b : Block}
    (hb : b ∈ held ++ returned) : ¬(s.record.tailPosition ≤ b.offset ∨
      b.offset < GENERIC_POOL_DESCRIPTOR_SIZE) := by
  obtain ⟨hlt, hge, -⟩ := h.offset_lt hb
  omega

theorem blockInUse_held (h : PoolInv start s held returned) {b : Block} (hb : b ∈ held) :
    blockInUse s.record (b.desc s.memory) = some b.bucket := by
  have hdescribed := h.inUse b hb
  unfold blockInUse
  rw [hdescribed.allocated, uint16Sub_allocated hdescribed.bucket,
    getBucketState_bucketId hdescribed.bucket, hdescribed.checkBits, hdescribed.actualSize,
    Option.bind_eq_bind, Option.bind_some]
  refine if_neg fun hbad => ?_
  have hpos := hdescribed.size_pos
  have hle : b.size ≤ (s.record.buckets b.bucket).blockSize := hdescribed.size_le
  rcases hbad with hcheck | hzero | hlarge
  · exact hcheck rfl
  · omega
  · omega

theorem blockInUse_returned (h : PoolInv start s held returned) {b : Block} (hb : b ∈ returned) :
    blockInUse s.record (b.desc s.memory) = none := by
  have hdescribed := h.free b hb
  unfold blockInUse
  rw [hdescribed.allocated, getBucketState_deallocated hdescribed.bucket, Option.bind_eq_bind,
    Option.bind_none]

theorem genPoolGetBlockSize_held (h : PoolInv start s held returned) {b : Block} (hb : b ∈ held) :
    genPoolGetBlockSize .direct s b.offset = .ok b.size := by
  have hmem := List.mem_append_left returned hb
  have hsize := (h.inUse b hb).actualSize
  have hretrieve : retrieve .direct s (b.offset - GENERIC_POOL_DESCRIPTOR_SIZE) =
      .ok (b.desc s.memory) := rfl
  rw [genPoolGetBlockSize, if_neg (h.bounds hmem), h.desc_eq hmem, hretrieve, ok_bind,
    blockInUse_held h hb, Option.elim_some, hsize]

/-- A block in use is returned, or the storage fails and nothing changes. -/
theorem genPoolPutBlock_held (h : PoolInv start s held returned) (io : Access) {b : Block}
    (hb : b ∈ held) :
    ((∃ e, genPoolPutBlock io b.offset s = (.error e, s)) ∧ io.Fails) ∨
      ∃ s', genPoolPutBlock io b.offset s = (.ok b.size, s') ∧
        s'.record = s.record.released b.bucket b.offset ∧
        PoolInv start s' (without b.offset held) (b :: returned) ∧
        Kept s s' (held ++ returned) := by
  have hmem := List.mem_append_left returned hb
  have hdescribed := h.inUse b hb
  rw [genPoolPutBlock, get_bind, if_neg (h.bounds hmem), h.desc_eq hmem]
  rcases retrieve_result io s (b.offset - GENERIC_POOL_DESCRIPTOR_SIZE) with
    ⟨⟨e, herror⟩, hfails⟩ | hretrieve
  · rw [lift_bind_error herror]
    exact .inl ⟨⟨e, rfl⟩, hfails⟩
  rw [lift_bind hretrieve]
  rw [show loadBD s.memory (b.offset - GENERIC_POOL_DESCRIPTOR_SIZE) = b.desc s.memory from rfl,
    blockInUse_held h hb, Option.elim_some, hdescribed.checkBits, hdescribed.allocated,
    hdescribed.actualSize, uint16Sub_allocated hdescribed.bucket, flag_bucketId (by decide)]
  rcases commit_result io s (b.offset - GENERIC_POOL_DESCRIPTOR_SIZE)
    ⟨CHECK_PATTERN, MEMORY_DEALLOCATED + bucketId s.record b.bucket, b.size,
      (s.record.buckets b.bucket).firstOffset⟩ with ⟨⟨e, herror⟩, hfails⟩ | hcommit
  · rw [lift_bind_error herror]
    exact .inl ⟨⟨e, rfl⟩, hfails⟩
  rw [lift_bind hcommit, modify_bind]
  obtain ⟨before, after, rfl⟩ := List.append_of_mem hb
  have hsplit : before ++ b :: after ++ returned = before ++ b :: (after ++ returned) :=
    List.append_assoc _ _ _
  have hbefore := h.split_offsets hsplit
  obtain ⟨hinv, hkept⟩ := h.release
  refine .inr ⟨_, rfl, rfl, ?_, hkept⟩
  rw [without_split hbefore]
  exact hinv

/-- A block that was returned is not returned again; only the error is counted. -/
theorem genPoolPutBlock_returned (h : PoolInv start s held returned) (io : Access) {b : Block}
    (hb : b ∈ returned) :
    ((∃ e, genPoolPutBlock io b.offset s = (.error e, s)) ∧ io.Fails) ∨
      genPoolPutBlock io b.offset s = (.error .poolBlockInvalid, { s with record := { s.record with
        validationErrorCount := s.record.validationErrorCount + 1 } }) := by
  have hmem := List.mem_append_right held hb
  rw [genPoolPutBlock, get_bind, if_neg (h.bounds hmem), h.desc_eq hmem]
  rcases retrieve_result io s (b.offset - GENERIC_POOL_DESCRIPTOR_SIZE) with
    ⟨⟨e, herror⟩, hfails⟩ | hretrieve
  · rw [lift_bind_error herror]
    exact .inl ⟨⟨e, rfl⟩, hfails⟩
  right
  rw [lift_bind hretrieve]
  rw [show loadBD s.memory (b.offset - GENERIC_POOL_DESCRIPTOR_SIZE) = b.desc s.memory from rfl,
    blockInUse_returned h hb, Option.elim_none, modify_bind]
  rfl

/-! ## Writing into a block -/

/-- What is written inside a block changes no descriptor. -/
theorem PoolInv.write (h : PoolInv start s held returned) {b : Block} (hb : b ∈ held ++ returned)
    {a n : Nat} (hlow : b.offset ≤ a) (hhigh : a + n ≤ b.offset + b.len s.record)
    (data : Nat → Nos3.Base.BigEndian.Octet) :
    PoolInv start { s with memory := copyIn s.memory a n data } held returned := by
  refine h.of_memory fun c hc => (copyIn_sameOn ?_).symm
  have hbInside := (h.inside hb).1
  have hcInside := (h.inside hc).1
  by_cases hsame : c = b
  · subst hsame
    omega
  · have happart := h.laid.apart_of_ne h.fits h.start_le hc hb hsame
    unfold Apart at happart
    omega

end Calls

/-! ## Initialisation -/

/-- No sum of the pool's limits is too large for a `size_t`. -/
def NoWrap (startOffset poolSize alignSize : Nat) (list : BlockSizeList) : Prop :=
  ∀ size ∈ list.sizes,
    startOffset + poolSize + GENERIC_POOL_DESCRIPTOR_SIZE + (alignSize - 1) + size < 2 ^ 64

/-- The record of a pool without blocks. -/
structure Fresh (startOffset poolSize alignSize : Nat) (list : BlockSizeList)
    (p : GenPoolRecord) : Prop where
  maxOffset : p.poolMaxOffset = sizeT (poolSize + startOffset)
  mask : p.alignMask = alignSize - 1
  power : (alignSize - 1) &&& alignSize = 0
  tail : p.tailPosition = startOffset
  nonempty : list.sizes ≠ []
  buckets : ∀ i, p.buckets i = ⟨(bubbleSort list.sizes).getD i 0, 0, 0, 0, 0⟩

section Fresh
variable {startOffset poolSize alignSize : Nat} {list : BlockSizeList} {p : GenPoolRecord}

theorem genPoolInitialize_ok
    (h : genPoolInitialize startOffset poolSize alignSize list = .ok p) :
    Fresh startOffset poolSize alignSize list p := by
  have hmask : alignMaskOf alignSize = alignSize - 1 := by
    unfold alignMaskOf
    split <;> omega
  unfold genPoolInitialize at h
  by_cases hpower : alignMaskOf alignSize &&& alignSize ≠ 0
  · rw [if_pos hpower] at h
    cases h
  rw [if_neg hpower] at h
  by_cases hzero : (bubbleSort list.sizes).getD 0 0 = 0
  · rw [if_pos hzero] at h
    cases h
  rw [if_neg hzero] at h
  cases h
  refine ⟨rfl, hmask, hmask ▸ not_not.mp hpower, rfl, fun hnil => hzero ?_, fun _ => rfl⟩
  have hempty : bubbleSort list.sizes = [] :=
    List.eq_nil_of_length_eq_zero ((bubbleSort_length _).trans (by rw [hnil]; rfl))
  rw [hempty]
  rfl

/-- A block size of the list, or 0 for the buckets that are not used. -/
theorem Fresh.size (h : Fresh startOffset poolSize alignSize list p) (i : Fin POOL_MAX_BUCKETS) :
    (p.buckets i).blockSize ∈ list.sizes ∨ (p.buckets i).blockSize = 0 := by
  rw [h.buckets]
  dsimp only
  by_cases hi : i.val < (bubbleSort list.sizes).length
  · left
    rw [List.getD_eq_getElem _ _ hi]
    exact (bubbleSort_perm _).mem_iff.mp (List.getElem_mem hi)
  · right
    rw [List.getD_eq_default _ _ (Nat.le_of_not_lt hi)]

theorem Fresh.fits (h : Fresh startOffset poolSize alignSize list p)
    (hwrap : NoWrap startOffset poolSize alignSize list) :
    p.Fits ∧ p.poolMaxOffset = poolSize + startOffset := by
  obtain ⟨size, hsize⟩ := List.exists_mem_of_ne_nil _ h.nonempty
  have hany := hwrap size hsize
  have hmax : p.poolMaxOffset = poolSize + startOffset := by
    rw [h.maxOffset]
    exact Nat.mod_eq_of_lt (by omega)
  refine ⟨fun i => ?_, hmax⟩
  rw [hmax, h.mask]
  rcases h.size i with hmem | hzero
  · have hthis := hwrap _ hmem
    omega
  · omega

theorem Fresh.inv (h : Fresh startOffset poolSize alignSize list p)
    (hwrap : NoWrap startOffset poolSize alignSize list) (m : Memory) :
    PoolInv startOffset ⟨p, m⟩ [] [] := by
  obtain ⟨hfits, hmax⟩ := h.fits hwrap
  refine ⟨hfits, by change startOffset ≤ p.poolMaxOffset; omega, ⟨[], .nil, h.tail.symm⟩, nofun,
    nofun, fun i => ?_, fun i => ?_, fun i => ?_⟩
  · rw [h.buckets]
    exact rfl
  · rw [h.buckets]
    rfl
  · rw [h.buckets]
    rfl

end Fresh

end Nos3.Es
