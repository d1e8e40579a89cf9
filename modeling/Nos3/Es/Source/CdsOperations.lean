import Nos3.Es.Source.CdsRegistry

/-!
# What the store does to its pool and registry

The functions of the store on a storage without errors, each with what it keeps
of the relation between entries and blocks.
-/
namespace Nos3.Es
open Nos3.Base.BigEndian (Octet)
open Nos3.Base.ByteMemory
open Nos3.Base.Program
open Nos3.Base.Tiling

/-- The pool of a store; it began empty over zeros. -/
structure AreaInv (dataSize : Nat) (s : Pool) (held returned : List Block) : Prop where
  pool : PoolInv CDS_POOL_OFFSET s held returned
  blank : Blank s
  config : ∃ p, createCDSPool dataSize CDS_POOL_OFFSET = .ok p ∧ p.SameConfig s.record
  small : dataSize < 2 ^ 32

theorem createCDSPool_ok {cdsPoolSize startOffset : Nat} {p : GenPoolRecord}
    (h : createCDSPool cdsPoolSize startOffset = .ok p) :
    Fresh startOffset cdsPoolSize 4 CDS_MEM_POOL_DEF_SIZE p := by
  unfold createCDSPool at h
  split at h
  · cases h
  · rcases hinit : genPoolInitialize startOffset cdsPoolSize 4 CDS_MEM_POOL_DEF_SIZE with e | p'
    · rw [hinit] at h
      cases h
    · rw [hinit] at h
      cases h
      exact genPoolInitialize_ok hinit

theorem cdsPool_noWrap {dataSize : Nat} (h : dataSize < 2 ^ 32) :
    NoWrap CDS_POOL_OFFSET dataSize 4 CDS_MEM_POOL_DEF_SIZE := by
  intro size hsize
  have hall : ∀ size ∈ CDS_MEM_POOL_DEF_SIZE.sizes, size ≤ 80000 := by decide
  have hle := hall size hsize
  change 36876 + dataSize + 24 + 3 + size < 2 ^ 64
  omega

section Area
variable {dataSize : Nat} {s : Pool} {held returned : List Block}

theorem AreaInv.max (h : AreaInv dataSize s held returned) :
    s.record.poolMaxOffset = dataSize + CDS_POOL_OFFSET := by
  obtain ⟨p, hp, hconfig⟩ := h.config
  rw [hconfig.maxOffset]
  exact ((createCDSPool_ok hp).fits (cdsPool_noWrap h.small)).2

theorem AreaInv.next (h : AreaInv dataSize s held returned) {s' : Pool}
    {held' returned' blocks : List Block} (hinv : PoolInv CDS_POOL_OFFSET s' held' returned')
    (hkept : Kept s s' blocks) : AreaInv dataSize s' held' returned' := by
  obtain ⟨p, hp, hconfig⟩ := h.config
  refine ⟨hinv, fun a hlow hhigh => ?_, ⟨p, hp, hconfig.trans hkept.config⟩, h.small⟩
  rw [hkept.beyond a hlow]
  exact h.blank a (hkept.tail.trans hlow) (hkept.config.maxOffset ▸ hhigh)

/-- What is stored in a block in use stays. -/
theorem AreaInv.kept_used (h : AreaInv dataSize s held returned) {s' : Pool}
    (hkept : Kept s s' (held ++ returned)) {b : Block} (hb : b ∈ held) :
    SameOn s.memory s'.memory b.offset b.size := by
  have hmem := List.mem_append_left returned hb
  have hsize := (h.pool.bucket hmem).2.2
  exact (hkept.contents b hmem).mono (Nat.le_refl _) (by omega)

theorem mem_without {offset : Nat} {blocks : List Block} {b : Block} (hb : b ∈ blocks)
    (hne : b.offset ≠ offset) : b ∈ without offset blocks :=
  (List.mem_eraseP_of_neg (by simpa using hne)).mpr hb

/-! ## Get and put -/

/-- A block is got, or there is none. -/
theorem AreaInv.get (h : AreaInv dataSize s held returned) {reqSize : Nat} (hpos : 0 < reqSize) :
    (∃ e, genPoolGetBlock .direct s reqSize = .error e ∧ ¬ Available s.record reqSize) ∨
      ∃ b s', genPoolGetBlock .direct s reqSize = .ok (b.offset, s') ∧ b.size = reqSize ∧
        requestBucket s'.record reqSize = some b.bucket ∧ (∀ c ∈ held, c.offset ≠ b.offset) ∧
        AreaInv dataSize s' (b :: held) (without b.offset returned) ∧
        ∀ crc registry written, EntriesOk crc s held registry written →
          EntriesOk crc s' (b :: held) registry written := by
  rcases genPoolGetBlock_result h.pool .direct hpos with
    ⟨⟨e, herror⟩, hwhy⟩ | ⟨b, s', hok, hsize, hbucket, hinv, hkept⟩
  · exact .inl ⟨e, herror, hwhy.resolve_left Access.direct_not_fails⟩
  refine .inr ⟨b, s', hok, hsize, ?_, fun c hc => ?_, h.next hinv hkept,
    fun crc registry written hentries => ?_⟩
  · rw [requestBucket_congr hkept.config]
    exact hbucket
  · have hoffsets := hinv.offsets
    rw [List.cons_append] at hoffsets
    exact ((List.pairwise_cons.mp hoffsets).1 c (List.mem_append_left _ hc)).symm
  · exact hentries.move hkept.config fun _ c _ hc =>
      ⟨List.mem_cons_of_mem b hc.mem, h.kept_used hkept hc.mem⟩

/-- A block in use is returned. -/
theorem AreaInv.put (h : AreaInv dataSize s held returned) {b : Block} (hb : b ∈ held) :
    ∃ s', genPoolPutBlock .direct b.offset s = (.ok b.size, s') ∧
      s'.record = s.record.released b.bucket b.offset ∧
      AreaInv dataSize s' (without b.offset held) (b :: returned) ∧
      ∀ crc registry written, EntriesOk crc s held registry written →
        (∀ i, (registry i).Used → (registry i).blockOffset ≠ b.offset) →
          EntriesOk crc s' (without b.offset held) registry written := by
  rcases genPoolPutBlock_held h.pool .direct hb with ⟨-, hfails⟩ | ⟨s', hok, hrecord, hinv, hkept⟩
  · exact absurd hfails Access.direct_not_fails
  refine ⟨s', hok, hrecord, h.next hinv hkept, fun crc registry written hentries hothers => ?_⟩
  refine hentries.move hkept.config fun i c hi hc => ⟨mem_without hc.mem ?_, ?_⟩
  · rw [hc.offset]
    exact hothers i hi
  · exact h.kept_used hkept hc.mem

/-! ## A block for another size -/

/-- A block for the new size can be had where one of the old size is returned first: both
sizes use the same blocks, or one was returned earlier, or there is room for one more. -/
def Served (p : GenPoolRecord) (oldSize newSize : Nat) : Prop :=
  ∃ i ∈ requestBucket p newSize,
    requestBucket p oldSize = some i ∨ Recyclable p i ∨ HasRoom p i

theorem AreaInv.recyclable (h : AreaInv dataSize s held returned) {b : Block} (hb : b ∈ returned) :
    Recyclable s.record b.bucket := by
  have hmem : b ∈ ofBucket b.bucket returned := mem_ofBucket.mpr ⟨hb, rfl⟩
  constructor
  · have hlength := h.pool.laid.length_le h.pool.fits h.pool.start_le
    have hsmall := h.small
    rw [h.max] at hlength
    have hpos := List.length_pos_of_mem hmem
    have hfilter : (ofBucket b.bucket returned).length ≤ returned.length := List.length_filter_le ..
    rw [List.length_append] at hlength
    unfold GENERIC_POOL_DESCRIPTOR_SIZE CDS_POOL_OFFSET CDS_REG_OFFSET CDS_MAX_NUM_ENTRIES at hlength
    have hcount : BitVec.ofNat 32 (ofBucket b.bucket returned).length ≠ 0 := fun hzero => by
      have hmod := congrArg BitVec.toNat hzero
      rw [BitVec.toNat_ofNat, Nat.mod_eq_of_lt (by omega)] at hmod
      change _ = 0 at hmod
      omega
    rw [h.pool.released]
    exact fun hsame => hcount (BitVec.self_eq_add_right.mp hsame)
  · intro hzero
    have hchain := h.pool.chain b.bucket
    rw [hzero] at hchain
    rw [hchain.eq_nil fun c hc => ?_] at hmem
    · cases hmem
    · have hoffset := (h.pool.offset_lt
        (List.mem_append_right held (mem_ofBucket.mp hc).1)).2.1
      unfold GENERIC_POOL_DESCRIPTOR_SIZE at hoffset
      omega

theorem Served.available {p : GenPoolRecord} {oldSize newSize : Nat} (h : Served p oldSize newSize)
    {s' : Pool} {held' returned' : List Block} {b : Block}
    (harea : AreaInv dataSize s' held' (b :: returned'))
    (hrecord : s'.record = p.released b.bucket b.offset)
    (hbucket : requestBucket p oldSize = some b.bucket) : Available s'.record newSize := by
  obtain ⟨i, hi, hcan⟩ := h
  have hconfig : p.SameConfig s'.record := by
    rw [hrecord]
    exact .setBucket rfl
  refine ⟨i, by rw [requestBucket_congr hconfig]; exact hi, ?_⟩
  by_cases hsame : i = b.bucket
  · rw [hsame]
    exact .inl (harea.recyclable List.mem_cons_self)
  have hother : s'.record.buckets i = p.buckets i := by
    rw [hrecord]
    exact setBucket_other hsame
  rcases hcan with hold | hrecyclable | hroom
  · exact absurd (Option.some.inj (hold.symm.trans hbucket)) hsame
  · left
    rw [Recyclable, hother]
    exact hrecyclable
  · right
    rw [HasRoom, hother, hconfig.maxOffset, hrecord]
    exact hroom

end Area

/-! ## The store -/

/-- The invariant of a store. -/
structure StoreInv (crc : Crc) (s : CdsInstance) (written : Written)
    (held returned : List Block) : Prop where
  area : AreaInv s.dataSize s.pool held returned
  entries : EntriesOk crc s.pool held s.registry written
  persisted : ∀ i, (s.persisted i).Used ∨ (s.registry i).Used → s.persisted i = s.registry i
  registrySize : s.registrySize = CDS_MAX_NUM_ENTRIES
  lastId : Issued s.lastCdsBlockId

theorem onPool_bind {α β : Type} {routine : Routine PoolError Pool α}
    {next : α → Routine CdsError CdsInstance β} {s : CdsInstance} {a : α} {pool : Pool}
    (h : routine s.pool = (.ok a, pool)) :
    (onPool routine >>= next) s = next a { s with pool := pool } := by
  rw [bind_def, onPool, h]
  rfl

/-! ## Registration -/

/-- What an entry holds once it has its block. -/
def CdsRegRec.withBlock (entry : CdsRegRec) (offset size : Nat) (new : Option NewEntry) :
    CdsRegRec :=
  new.elim { entry with blockOffset := offset, blockSize := size } fun new =>
    ⟨new.pendingId, offset, size, new.name, new.criticalTbl⟩

/-- A registration that got a block. -/
def CdsInstance.entered (s : CdsInstance) (pool : Pool) (i : Fin CDS_MAX_NUM_ENTRIES)
    (entry : CdsRegRec) : CdsInstance :=
  { s with
    pool := pool
    registry := Function.update s.registry i entry
    persisted := Function.update s.registry i entry }

section Register
variable {s mid : CdsInstance} {i : Fin CDS_MAX_NUM_ENTRIES} {size : Nat}

theorem freeOldBlock_skip (h : (s.registry i).blockOffset = 0 ∨ size = (s.registry i).blockSize) :
    freeOldBlock .ok i size s = (.ok (), s) := by
  rw [freeOldBlock, get_bind, if_neg (by tauto)]
  rfl

theorem registerEntry_skip (h : freeOldBlock .ok i size s = (.ok (), mid))
    (hempty : (mid.registry i).blockOffset = 0) (new : Option NewEntry) :
    registerEntry .ok i new size s = registerEntry .ok i new size mid := by
  rw [registerEntry, bind_def, h, bind_def, freeOldBlock_skip (.inl hempty)]

theorem registerEntry_same (h : (s.registry i).blockOffset ≠ 0)
    (hsize : size = (s.registry i).blockSize) :
    registerEntry .ok i none size s = (.ok true, s) := by
  have hget : getNewBlock .ok i size s = (.ok false, s) := by
    rw [getNewBlock, get_bind, if_neg h]
    rfl
  rw [registerEntry, bind_def, freeOldBlock_skip (.inr hsize)]
  dsimp only
  rw [bind_def, hget]
  rfl

theorem registerEntry_error (hempty : (s.registry i).blockOffset = 0) {e : PoolError}
    (hget : genPoolGetBlock .direct s.pool size = .error e) (new : Option NewEntry) :
    registerEntry .ok i new size s = (.error (.pool e), s) := by
  have hnew : getNewBlock .ok i size s = (.error (.pool e), s) := by
    rw [getNewBlock, get_bind, if_pos hempty, Psp.ok_access, hget]
    rfl
  rw [registerEntry, bind_def, freeOldBlock_skip (.inl hempty)]
  dsimp only
  rw [bind_def, hnew]

theorem registerEntry_ok (hempty : (s.registry i).blockOffset = 0) {offset : Nat} {pool : Pool}
    (hget : genPoolGetBlock .direct s.pool size = .ok (offset, pool)) (new : Option NewEntry) :
    registerEntry .ok i new size s = (.ok false,
      s.entered pool i ((s.registry i).withBlock offset size new)) := by
  have hnew : getNewBlock .ok i size s = (.ok true, { s with pool := pool }.setEntry i
      { s.registry i with blockOffset := offset, blockSize := size }) := by
    rw [getNewBlock, get_bind, if_pos hempty, Psp.ok_access, hget]
    rfl
  rw [registerEntry, bind_def, freeOldBlock_skip (.inl hempty)]
  dsimp only
  rw [bind_def, hnew]
  dsimp only
  rw [modify_bind, if_pos rfl]
  cases new with
  | none => rfl
  | some new =>
    have hfill : fillEntry i new ({ s with pool := pool }.setEntry i
        { s.registry i with blockOffset := offset, blockSize := size }) =
        { s with pool := pool }.setEntry i ((s.registry i).withBlock offset size (some new)) := by
      unfold fillEntry CdsInstance.setEntry CdsRegRec.withBlock
      dsimp only
      rw [Function.update_self, Function.update_idem]
      rfl
    rw [Option.elim_some, hfill]
    rfl

end Register

/-- A block is got for an entry that has none. -/
theorem AreaInv.get_entry {crc : Crc} {dataSize : Nat} {s : Pool} {held returned : List Block}
    {registry : CdsRegistry} {written : Written} {i : Fin CDS_MAX_NUM_ENTRIES}
    (h : AreaInv dataSize s held returned)
    (hentries : EntriesOk crc s held (Function.update registry i clearedEntry) written)
    {size : Nat} (hsize : CDS_BLOCK_HEADER_SIZE < size) :
    (∃ e, genPoolGetBlock .direct s size = .error e ∧ ¬ Available s.record size) ∨
      ∃ b s', genPoolGetBlock .direct s size = .ok (b.offset, s') ∧
        AreaInv dataSize s' (b :: held) (without b.offset returned) ∧
        ∀ entry, cdsHandleToIndex entry.blockId = some i → entry.blockOffset = b.offset →
          entry.blockSize = size →
          (∀ j, j ≠ i → (registry j).Used → (registry j).name ≠ entry.name) →
          EntriesOk crc s' (b :: held) (Function.update registry i entry)
            (Function.update written i none) := by
  rcases h.get (Nat.zero_lt_of_lt hsize) with
    herror | ⟨b, s', hok, hbsize, hbucket, hfresh, harea, hmove⟩
  · exact .inl herror
  refine .inr ⟨b, s', hok, harea, fun entry hid hoffset hentrySize hname => ?_⟩
  have hfree : ¬(Function.update registry i clearedEntry i).Used := by
    rw [Function.update_self]
    decide
  have hb : Refers s'.record (b :: held) entry b :=
    ⟨List.mem_cons_self, hoffset.symm, hbsize.trans hentrySize.symm, hbsize ▸ hbucket,
      hbsize ▸ hsize⟩
  have hadded := (hmove crc _ written hentries).add hfree hb hid (fun j hj => ?_) fun j hj => ?_
  · rw [Function.update_idem] at hadded
    exact hadded
  · obtain ⟨c, hc⟩ := hentries.refers j hj
    rw [← hc.offset, hoffset]
    exact hfresh c hc.mem
  · by_cases hji : j = i
    · rw [hji] at hj
      exact absurd hj hfree
    · rw [Function.update_of_ne hji] at hj ⊢
      exact hname j hji hj

/-- A new block holds nothing that was written to its entry. -/
def afterRegister (written : Written) (result : Registered) : Written :=
  match result.status with
  | .ok false =>
    (result.handle.bind cdsHandleToIndex).elim written fun i => Function.update written i none
  | _ => written

/-- Where a registration changes the size of an entry, there is a block for the new size. -/
def ResizeServed (s : CdsInstance) (userBlockSize : Nat) (name : CdsName) : Prop :=
  ∀ i ∈ locateCDSBlockRecordByName s.registry name,
    0 < userBlockSize → userBlockSize ≤ CDS_ABS_MAX_BLOCK_SIZE →
    userBlockSize + CDS_BLOCK_HEADER_SIZE ≠ (s.registry i).blockSize →
    Served s.pool.record (s.registry i).blockSize (userBlockSize + CDS_BLOCK_HEADER_SIZE)

section Store
variable {crc : Crc} {s : CdsInstance} {written : Written} {held returned : List Block}
  {i : Fin CDS_MAX_NUM_ENTRIES}

theorem StoreInv.offset_pos (h : StoreInv crc s written held returned) {b : Block}
    (hb : Refers s.pool.record held (s.registry i) b) : (s.registry i).blockOffset ≠ 0 := by
  have hoffset := (h.area.pool.offset_lt (List.mem_append_left returned hb.mem)).2.1
  rw [← hb.offset]
  unfold GENERIC_POOL_DESCRIPTOR_SIZE at hoffset
  omega

/-- The block of an entry is returned, the entry counting as free. -/
theorem StoreInv.put_entry (h : StoreInv crc s written held returned)
    (hused : (s.registry i).Used) {b : Block} (hb : Refers s.pool.record held (s.registry i) b) :
    ∃ pool, genPoolPutBlock .direct (s.registry i).blockOffset s.pool = (.ok b.size, pool) ∧
      pool.record = s.pool.record.released b.bucket b.offset ∧
      AreaInv s.dataSize pool (without b.offset held) (b :: returned) ∧
      EntriesOk crc pool (without b.offset held) (Function.update s.registry i clearedEntry)
        written := by
  obtain ⟨pool, hput, hrecord, harea, hmove⟩ := h.area.put hb.mem
  rw [hb.offset] at hput
  refine ⟨pool, hput, hrecord, harea, hmove crc _ written (h.entries.drop (by decide)) ?_⟩
  intro j hj
  by_cases hji : j = i
  · rw [hji, Function.update_self] at hj
    exact absurd rfl hj
  · rw [Function.update_of_ne hji] at hj ⊢
    rw [hb.offset]
    exact h.entries.offsets j i hj hused hji

/-- What is left of the invariant once the registry was stored. -/
theorem StoreInv.entered {mid : CdsInstance} {pool : Pool} {held' returned' : List Block}
    {written' : Written} {entry : CdsRegRec} (harea : AreaInv mid.dataSize pool held' returned')
    (hentries : EntriesOk crc pool held' (Function.update mid.registry i entry) written')
    (hsize : mid.registrySize = CDS_MAX_NUM_ENTRIES) (hlast : Issued mid.lastCdsBlockId) :
    StoreInv crc (mid.entered pool i entry) written' held' returned' :=
  ⟨harea, hentries, fun _ _ => rfl, hsize, hlast⟩

/-- An entry gets a block of another size. -/
theorem StoreInv.resize (h : StoreInv crc s written held returned) (hused : (s.registry i).Used)
    {size : Nat} (hsize : CDS_BLOCK_HEADER_SIZE < size) (hne : size ≠ (s.registry i).blockSize)
    (hserved : Served s.pool.record (s.registry i).blockSize size) :
    ∃ s' held' returned', registerEntry .ok i none size s = (.ok false, s') ∧
      StoreInv crc s' (Function.update written i none) held' returned' := by
  obtain ⟨b, hb⟩ := h.entries.refers i hused
  obtain ⟨pool, hput, hrecord, harea, hentries⟩ := h.put_entry hused hb
  obtain ⟨mid, hmid⟩ : ∃ mid, mid = { s with pool := pool }.setEntry i
      { s.registry i with blockOffset := 0, blockSize := 0 } := ⟨_, rfl⟩
  have hfree : freeOldBlock .ok i size s = (.ok (), mid) := by
    rw [freeOldBlock, get_bind, if_pos ⟨h.offset_pos hb, hne⟩, Psp.ok_access, onPool_bind hput, hmid]
    rfl
  have hentry : mid.registry i = { s.registry i with blockOffset := 0, blockSize := 0 } := by
    rw [hmid]
    exact Function.update_self ..
  have hregistry : ∀ entry, Function.update mid.registry i entry =
      Function.update s.registry i entry := fun entry => by
    rw [hmid]
    exact Function.update_idem ..
  rw [← hregistry] at hentries
  have hpool : mid.pool = pool := by rw [hmid]; rfl
  have havailable : Available pool.record size :=
    hserved.available harea hrecord (hb.size ▸ hb.bucket)
  rcases harea.get_entry hentries hsize with
    ⟨e, -, hnone⟩ | ⟨b', pool', hget, harea', hadd⟩
  · exact absurd havailable hnone
  have hempty : (mid.registry i).blockOffset = 0 := by rw [hentry]
  refine ⟨mid.entered pool' i ((mid.registry i).withBlock b'.offset size none), _,
    without b'.offset (b :: returned), ?_,
    StoreInv.entered ?_ (hadd _ ?_ rfl rfl fun j hji hj => ?_) ?_ ?_⟩
  · rw [registerEntry_skip hfree hempty, registerEntry_ok hempty (hpool ▸ hget)]
  · rw [hmid]
    exact harea'
  · rw [hentry]
    exact h.entries.ids i hused
  · have hsame : mid.registry j = s.registry j := by
      rw [hmid]
      exact Function.update_of_ne hji ..
    rw [hsame] at hj ⊢
    rw [hentry]
    exact h.entries.names j i hj hused hji
  · rw [hmid]
    exact h.registrySize
  · rw [hmid]
    exact h.lastId

/-- An entry that was free gets a name and a block, or no block is left. -/
theorem StoreInv.create (h : StoreInv crc s written held returned) (hfree : ¬(s.registry i).Used)
    {pendingId : Nat} (hid : cdsHandleToIndex pendingId = some i) (hissued : Issued pendingId)
    {name : CdsName} (hname : ∀ j, (s.registry j).Used → name ≠ (s.registry j).name)
    (criticalTbl : Bool) {size : Nat} (hsize : CDS_BLOCK_HEADER_SIZE < size) :
    (∃ e, registerEntry .ok i (some ⟨pendingId, name, criticalTbl⟩) size (takeEntry i pendingId s) =
        (.error e, takeEntry i pendingId s) ∧
        StoreInv crc (takeEntry i pendingId s) written held returned) ∨
      ∃ s' held' returned', registerEntry .ok i (some ⟨pendingId, name, criticalTbl⟩) size
          (takeEntry i pendingId s) = (.ok false, s') ∧
        StoreInv crc s' (Function.update written i none) held' returned' := by
  obtain ⟨mid, hmid⟩ : ∃ mid, mid = takeEntry i pendingId s := ⟨_, rfl⟩
  obtain ⟨new, hnew⟩ : ∃ new : NewEntry, new = ⟨pendingId, name, criticalTbl⟩ := ⟨_, rfl⟩
  have hregistry : mid.registry = Function.update s.registry i clearedEntry := by
    rw [hmid]
    rfl
  have hcleared : mid.registry i = clearedEntry := by rw [hregistry, Function.update_self]
  have hempty : (mid.registry i).blockOffset = 0 := by
    rw [hcleared]
    rfl
  have hdropped : EntriesOk crc s.pool held mid.registry written := by
    rw [hregistry]
    exact h.entries.drop (by decide)
  have harea : AreaInv s.dataSize mid.pool held returned := by
    rw [hmid]
    exact h.area
  have hentries : EntriesOk crc mid.pool held (Function.update mid.registry i clearedEntry)
      written := by
    rw [hregistry, Function.update_idem, ← hregistry, hmid]
    rw [hmid] at hdropped
    exact hdropped
  rw [← hmid, ← hnew]
  rcases harea.get_entry hentries hsize with ⟨e, hget, -⟩ | ⟨b, pool, hget, harea', hadd⟩
  · refine .inl ⟨.pool e, registerEntry_error hempty hget _, ?_⟩
    refine ⟨by rw [hmid]; exact h.area, by rw [hmid] at hdropped ⊢; exact hdropped,
      fun j hj => ?_, by rw [hmid]; exact h.registrySize, by rw [hmid]; exact hissued⟩
    have hpersisted : mid.persisted = s.persisted := by rw [hmid]; rfl
    rw [hpersisted] at hj ⊢
    by_cases hji : j = i
    · subst hji
      rcases hj with hj | hj
      · exact absurd (h.persisted j (.inl hj) ▸ hj) hfree
      · rw [hcleared] at hj
        exact absurd rfl hj
    · rw [hregistry, Function.update_of_ne hji] at hj ⊢
      exact h.persisted j hj
  · refine .inr ⟨mid.entered pool i ((mid.registry i).withBlock b.offset size (some new)), _,
      without b.offset returned, registerEntry_ok hempty hget _,
      StoreInv.entered ?_ (hadd _ ?_ rfl rfl fun j hji hj => ?_) ?_ ?_⟩
    · rw [hmid]
      exact harea'
    · rw [hnew]
      exact hid
    · rw [hnew]
      rw [hregistry, Function.update_of_ne hji] at hj ⊢
      exact (hname j hj).symm
    · rw [hmid]
      exact h.registrySize
    · rw [hmid]
      exact hissued

/-- A registration keeps the invariant, unless it changes a size for which there is no block. -/
theorem StoreInv.register (h : StoreInv crc s written held returned) {userBlockSize : Nat}
    {name : CdsName} (hserved : ResizeServed s userBlockSize name) (criticalTbl : Bool) :
    ∃ held' returned', StoreInv crc (registerCDSEx .ok userBlockSize name criticalTbl s).2
      (afterRegister written (registerCDSEx .ok userBlockSize name criticalTbl s).1)
      held' returned' := by
  unfold registerCDSEx
  by_cases hbad : userBlockSize = 0 ∨ CDS_ABS_MAX_BLOCK_SIZE < userBlockSize
  · rw [if_pos hbad]
    exact ⟨held, returned, h⟩
  rw [if_neg hbad]
  have hsize : CDS_BLOCK_HEADER_SIZE < userBlockSize + CDS_BLOCK_HEADER_SIZE := by omega
  rcases hlocate : locateCDSBlockRecordByName s.registry name with _ | i
  · rcases hindex : cdsHandleToIndex (pendingBlockId s) with _ | i
    · exact ⟨held, returned, h⟩
    obtain ⟨hissued, hfree⟩ := pendingBlockId_free h.lastId hindex
    rcases h.create hfree hindex hissued (fun j hj => locate_absent hlocate hj) criticalTbl
      hsize with
      ⟨e, herror, hinv⟩ | ⟨s', held', returned', hok, hinv⟩
    · dsimp only at herror ⊢
      rw [herror]
      exact ⟨held, returned, hinv⟩
    · dsimp only at hok ⊢
      rw [hok, afterRegister]
      dsimp only
      rw [Option.bind_some, hindex, Option.elim_some]
      exact ⟨held', returned', hinv⟩
  · obtain ⟨hused, -⟩ := locate_found hlocate
    obtain ⟨b, hb⟩ := h.entries.refers i hused
    dsimp only
    by_cases hsame : userBlockSize + CDS_BLOCK_HEADER_SIZE = (s.registry i).blockSize
    · rw [registerEntry_same (h.offset_pos hb) hsame]
      exact ⟨held, returned, h⟩
    have hthis : Served s.pool.record (s.registry i).blockSize
        (userBlockSize + CDS_BLOCK_HEADER_SIZE) :=
      hserved i hlocate (by omega) (by omega) hsame
    obtain ⟨s', held', returned', hok, hinv⟩ := h.resize hused hsize hsame hthis
    rw [hok, afterRegister]
    dsimp only
    rw [Option.bind_some, h.entries.ids i hused, Option.elim_some]
    exact ⟨held', returned', hinv⟩

/-! ## Deletion -/

/-- An entry whose owner is not running can be deleted. -/
theorem StoreInv.delete (h : StoreInv crc s written held returned) (hused : (s.registry i).Used)
    {activeApp : List Octet → Bool} (howner : activeApp (ownerName (s.registry i).name) ≠ true) :
    ∃ s' held' returned', deleteCDS .ok activeApp (s.registry i).name (s.registry i).table s =
      (.ok (), s') ∧ ¬(s'.registry i).Used ∧ StoreInv crc s' written held' returned' := by
  obtain ⟨b, hb⟩ := h.entries.refers i hused
  obtain ⟨pool, hput, -, harea, hentries⟩ := h.put_entry hused hb
  have hunused : ¬({ s.registry i with blockId := RESOURCEID_UNDEFINED } : CdsRegRec).Used :=
    fun hne => hne rfl
  have hdropped := hentries.drop (i := i) hunused
  rw [Function.update_idem] at hdropped
  refine ⟨{ s with pool := pool }.entered pool i
    { s.registry i with blockId := RESOURCEID_UNDEFINED }, _, b :: returned, ?_, ?_,
    StoreInv.entered harea hdropped h.registrySize h.lastId⟩
  · rw [deleteCDS, get_bind, h.entries.locate hused]
    dsimp only
    rw [if_neg (fun hne => hne rfl), if_neg howner, Psp.ok_access, onPool_bind hput, modify_bind]
    rfl
  · change ¬(Function.update s.registry i _ i).Used
    rw [Function.update_self]
    exact hunused

/-- A deletion that is rejected changes nothing. -/
theorem StoreInv.deleteCDS (h : StoreInv crc s written held returned)
    (activeApp : List Octet → Bool) (name : CdsName) (calledByTblServices : Bool) :
    ∃ held' returned', StoreInv crc (deleteCDS .ok activeApp name calledByTblServices s).2
      written held' returned' := by
  rcases hlocate : locateCDSBlockRecordByName s.registry name with _ | i
  · rw [Nos3.Es.deleteCDS, get_bind, hlocate]
    exact ⟨held, returned, h⟩
  obtain ⟨hused, rfl⟩ := locate_found hlocate
  by_cases htable : (s.registry i).table ≠ calledByTblServices
  · rw [Nos3.Es.deleteCDS, get_bind, hlocate]
    dsimp only
    rw [if_pos htable]
    exact ⟨held, returned, h⟩
  by_cases howner : activeApp (ownerName (s.registry i).name) = true
  · rw [Nos3.Es.deleteCDS, get_bind, hlocate]
    dsimp only
    rw [if_neg htable, if_pos howner]
    exact ⟨held, returned, h⟩
  · obtain ⟨s', held', returned', hdelete, -, hinv⟩ := h.delete hused howner
    rw [← not_not.mp htable, hdelete]
    exact ⟨held', returned', hinv⟩

/-! ## Reading and writing -/

theorem checkedEntry_ok {handle : Nat} {entry : CdsRegRec}
    (h : checkedEntry .ok s handle = .ok entry) :
    ∃ i, cdsHandleToIndex handle = some i ∧ entry = s.registry i ∧ (s.registry i).Used := by
  unfold checkedEntry at h
  rcases hindex : cdsHandleToIndex handle with _ | i
  · rw [hindex] at h
    cases h
  rw [hindex, Option.elim_some, ok_bind] at h
  by_cases hid : (s.registry i).blockId ≠ handle
  · rw [if_pos hid] at h
    cases h
  rw [if_neg hid] at h
  obtain ⟨blockSize, -, hchecked⟩ := bind_eq_ok.mp h
  refine ⟨i, rfl, ?_, ?_⟩
  · split at hchecked
    · cases hchecked
    · cases hchecked
      rfl
  · unfold CdsRegRec.Used
    rw [not_not.mp hid]
    exact cdsHandleToIndex_used hindex

theorem StoreInv.checkedEntry (h : StoreInv crc s written held returned)
    (hused : (s.registry i).Used) :
    checkedEntry .ok s (s.registry i).blockId = .ok (s.registry i) := by
  obtain ⟨b, hb⟩ := h.entries.refers i hused
  have hsize : genPoolGetBlockSize .direct s.pool (s.registry i).blockOffset =
      .ok (s.registry i).blockSize := by
    rw [← hb.offset, ← hb.size]
    exact genPoolGetBlockSize_held h.area.pool hb.mem
  have hlarge : ¬((s.registry i).blockSize ≤ CDS_BLOCK_HEADER_SIZE ∨
      (s.registry i).blockSize ≠ (s.registry i).blockSize) := by
    rw [← hb.size]
    exact fun hor => hor.elim (Nat.not_le_of_lt hb.large) fun hne => hne rfl
  unfold Nos3.Es.checkedEntry
  rw [h.entries.ids i hused, Option.elim_some, ok_bind, if_neg (fun hne => hne rfl),
    Psp.ok_access, hsize]
  change (if _ then _ else _) = _
  rw [if_neg hlarge]
  rfl

/-- What was written to an entry is read back. -/
theorem StoreInv.read (h : StoreInv crc s written held returned) (hused : (s.registry i).Used)
    {bytes : List Octet} (hbytes : written i = some bytes) :
    cdsBlockRead .ok crc s (s.registry i).blockId = .ok bytes := by
  have hstored := h.entries.contents i hused bytes hbytes
  unfold cdsBlockRead
  rw [h.checkedEntry hused, ok_bind, if_neg (by simp [Psp.ok]), blockData, hstored.data,
    hstored.header, if_neg (fun hne => hne rfl)]

/-- The memory with new data in the block of an entry. -/
def writtenMemory (crc : Crc) (m : Memory) (entry : CdsRegRec) (data : Nat → Octet) : Memory :=
  copyIn (storeLE m entry.blockOffset CDS_BLOCK_HEADER_SIZE
    (crc (octetsOf data entry.userSize)).toNat)
    (entry.blockOffset + CDS_BLOCK_HEADER_SIZE) entry.userSize data

theorem writtenMemory_stored (m : Memory) (entry : CdsRegRec) (data : Nat → Octet) :
    Stored crc (writtenMemory crc m entry data) entry (octetsOf data entry.userSize) := by
  refine ⟨?_, copyOut_copyIn ..⟩
  have hbefore : SameOn (writtenMemory crc m entry data)
      (storeLE m entry.blockOffset CDS_BLOCK_HEADER_SIZE
        (crc (octetsOf data entry.userSize)).toNat) entry.blockOffset CDS_BLOCK_HEADER_SIZE :=
    copyIn_sameOn (.inl (Nat.le_refl _))
  rw [loadLE_congr hbefore, loadLE_storeLE]
  exact Nat.mod_eq_of_lt (crc (octetsOf data entry.userSize)).isLt

theorem writtenMemory_sameOn {m : Memory} {entry : CdsRegRec} {data : Nat → Octet} {a n : Nat}
    (hsize : CDS_BLOCK_HEADER_SIZE + entry.userSize = entry.blockSize)
    (h : a + n ≤ entry.blockOffset ∨ entry.blockOffset + entry.blockSize ≤ a) :
    SameOn m (writtenMemory crc m entry data) a n := by
  refine SameOn.symm (SameOn.trans (copyIn_sameOn ?_) (copyIn_sameOn ?_))
  · omega
  · omega

def afterWrite (s : CdsInstance) (written : Written) (handle : Nat) (data : Nat → Octet)
    (status : Except CdsError Unit) : Written :=
  match status with
  | .ok _ => (cdsHandleToIndex handle).elim written fun i =>
      Function.update written i (some (octetsOf data (s.registry i).userSize))
  | .error _ => written

theorem cdsBlockWrite_ok {handle : Nat} {entry : CdsRegRec}
    (h : checkedEntry .ok s handle = .ok entry) (data : Nat → Octet) :
    cdsBlockWrite .ok crc handle data s = (.ok (), { s with pool := { s.pool with
      memory := writtenMemory crc s.pool.memory entry data } }) := by
  rw [cdsBlockWrite, get_bind, lift_bind h]
  rfl

theorem StoreInv.write (h : StoreInv crc s written held returned) (handle : Nat)
    (data : Nat → Octet) : StoreInv crc (cdsBlockWrite .ok crc handle data s).2
      (afterWrite s written handle data (cdsBlockWrite .ok crc handle data s).1) held returned := by
  rcases hchecked : Nos3.Es.checkedEntry .ok s handle with e | entry
  · rw [cdsBlockWrite, get_bind, lift_bind_error hchecked]
    exact h
  obtain ⟨i, hindex, rfl, hused⟩ := checkedEntry_ok hchecked
  rw [cdsBlockWrite_ok hchecked, afterWrite]
  dsimp only
  rw [hindex, Option.elim_some]
  obtain ⟨b, hb⟩ := h.entries.refers i hused
  have hmem := List.mem_append_left returned hb.mem
  have hlarge := hb.blockSize_pos
  have hoffset := hb.offset
  have hsize := hb.size
  have hlen := (h.area.pool.bucket hmem).2.2
  obtain ⟨s', hs'⟩ : ∃ s' : Pool, s' = { s.pool with
    memory := writtenMemory crc s.pool.memory (s.registry i) data } := ⟨_, rfl⟩
  have hinv : PoolInv CDS_POOL_OFFSET s' held returned := by
    have hheader := h.area.pool.write hmem (a := (s.registry i).blockOffset)
      (n := CDS_BLOCK_HEADER_SIZE) (by omega) (by omega) fun k =>
        BitVec.ofNat 8 ((crc (octetsOf data (s.registry i).userSize)).toNat / 256 ^ k)
    rw [hs']
    exact hheader.write hmem (by omega) (by change _ ≤ b.offset + b.len s.pool.record; omega) data
  have hkept : Kept s.pool s' [] := by
    rw [hs']
    refine ⟨.refl _, Nat.le_refl _, nofun, fun a ha => ?_⟩
    have hinside := (h.area.pool.inside hmem).2
    have htail : s.pool.record.tailPosition ≤ a := ha
    have hsame : SameOn s.pool.memory
        (writtenMemory crc s.pool.memory (s.registry i) data) a 1 :=
      writtenMemory_sameOn hlarge (.inr (by omega))
    exact (hsame a (Nat.le_refl a) (Nat.lt_succ_self a)).symm
  rw [← hs']
  refine ⟨h.area.next hinv hkept, h.entries.write hkept.config (fun j c hne hj hc => ?_) ?_,
    h.persisted, h.registrySize, h.lastId⟩
  · have hother : c ≠ b := fun heq => by
      have hoffsets := h.entries.offsets j i hj hused hne
      rw [← hc.offset, heq, hb.offset] at hoffsets
      exact hoffsets rfl
    have happart := h.area.pool.laid.apart_of_ne h.area.pool.fits h.area.pool.start_le
      (List.mem_append_left returned hc.mem) hmem hother
    have hcLen := (h.area.pool.bucket (List.mem_append_left returned hc.mem)).2.2
    unfold Apart at happart
    rw [hs']
    exact writtenMemory_sameOn hlarge (by omega)
  · rw [hs']
    exact writtenMemory_stored _ _ _

/-! ## Reset -/

/-- Registry and pool are back after a reset. -/
theorem StoreInv.restore (h : StoreInv crc s written held returned) :
    ∃ fuel s' held' returned', restoreCDS .ok fuel s = some (.ok (), s') ∧
      StoreInv crc s' written held' returned' := by
  obtain ⟨p, hp, hconfig⟩ := h.area.config
  have hfresh := createCDSPool_ok hp
  obtain ⟨fuel, pool, held', returned', hrun, hinv, hheld, -, -, hkept⟩ :=
    h.area.pool.rebuild h.area.blank (hfresh.inv (cdsPool_noWrap h.area.small) s.pool.memory)
      hconfig hfresh.tail
  refine ⟨fuel, { s with
    pool := pool, lastCdsBlockId := CDSBLOCKID_BASE, registry := s.persisted }, held', returned', ?_,
    h.area.next hinv hkept, ?_, fun _ _ => rfl, h.registrySize, .base⟩
  · have hsize : ¬(Psp.ok.read CDS_REG_SIZE_OFFSET = false ∨
        s.registrySize ≠ CDS_MAX_NUM_ENTRIES) := by
      rw [h.registrySize]
      exact fun hor => hor.elim nofun fun hne => hne rfl
    rw [restoreCDS, rebuildCDS, if_neg hsize, if_neg nofun, rebuildCDSPool, hp]
    dsimp only
    rw [Psp.ok_access, hrun]
    rfl
  · refine (h.entries.sub fun j hj => h.persisted j (.inl hj)).move hkept.config
      fun j c hj hc => ⟨hheld.mem_iff.mpr hc.mem, h.area.kept_used hkept hc.mem⟩

theorem restoreCDS_eq {psp : Psp} {fuel fuel' : Nat} {result result' : Except CdsError Unit × CdsInstance}
    (h : restoreCDS psp fuel s = some result) (h' : restoreCDS psp fuel' s = some result') :
    result = result' := by
  unfold restoreCDS rebuildCDS at h h'
  split at h
  · rename_i hsize
    rw [if_pos hsize] at h'
    exact Option.some.inj (h.symm.trans h')
  rename_i hsize
  rw [if_neg hsize] at h'
  split at h
  · rename_i hread
    rw [if_pos hread] at h'
    exact Option.some.inj (h.symm.trans h')
  rename_i hread
  rw [if_neg hread] at h'
  unfold rebuildCDSPool at h h'
  split at h
  · rename_i hpool
    rw [hpool] at h'
    exact Option.some.inj (h.symm.trans h')
  · rename_i hpool
    rw [hpool] at h'
    obtain ⟨last, hlast, rfl⟩ := Option.map_eq_some_iff.mp h
    obtain ⟨last', hlast', rfl⟩ := Option.map_eq_some_iff.mp h'
    rw [genPoolRebuild_eq hlast hlast']

end Store

end Nos3.Es
