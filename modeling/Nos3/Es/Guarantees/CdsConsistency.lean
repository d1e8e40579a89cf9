import Nos3.Base.Transition
import Nos3.Es.Source.CdsOperations

/-!
# The critical data store over resets

Registrations, deletions and writes in any order, with resets between them, on a
platform whose reads and writes succeed. Registry and pool agree and what was
written is read back, as long as an entry whose size is changed gets a block.
-/
namespace Nos3.Es
open Nos3.Base.BigEndian (Octet)
open Nos3.Base.BubbleSort
open Nos3.Base.ByteMemory
open Nos3.Base.Program
open Nos3.Base.Transition

/-- The store and what was last written to each entry since it got its block. -/
structure CdsRun where
  cds : CdsInstance
  written : Written

inductive CdsCommand where
  | register (userBlockSize : Nat) (name : CdsName) (criticalTbl : Bool)
  | delete (activeApp : List Octet → Bool) (name : CdsName) (calledByTblServices : Bool)
  | write (handle : Nat) (data : Nat → Octet)
  | reset (fuel : Nat)

/-- The runs from a cleared store. -/
def cdsMachine (crc : Crc) (platformSize : BitVec 32) : Machine CdsRun CdsCommand where
  start r := cdsMinRequiredSize ≤ cdsTotalSize platformSize ∧
    ∃ p m, createCDSPool (cdsDataSize platformSize) CDS_POOL_OFFSET = .ok p ∧
      (∀ a, CDS_POOL_OFFSET ≤ a → a < cdsDataSize platformSize + CDS_POOL_OFFSET → m a = 0) ∧
      r = ⟨emptyCDS (cdsDataSize platformSize) p m, fun _ => none⟩
  next r command :=
    match command with
    | .register userBlockSize name criticalTbl =>
      let result := registerCDSEx .ok userBlockSize name criticalTbl r.cds
      some ⟨result.2, afterRegister r.written result.1⟩
    | .delete activeApp name calledByTblServices =>
      some { r with cds := (deleteCDS .ok activeApp name calledByTblServices r.cds).2 }
    | .write handle data =>
      let result := cdsBlockWrite .ok crc handle data r.cds
      some ⟨result.2, afterWrite r.cds r.written handle data result.1⟩
    | .reset fuel => (restoreCDS .ok fuel r.cds).map fun result => { r with cds := result.2 }

/-- A registration that changes the size of an entry finds a block for it. -/
def ResizesServed (r : CdsRun) : CdsCommand → Prop
  | .register userBlockSize name _ => ResizeServed r.cds userBlockSize name
  | .delete .. => True
  | .write .. => True
  | .reset _ => True

/-- What the store guarantees of its entries. -/
structure CdsConsistent (crc : Crc) (r : CdsRun) : Prop where
  allocated : ∀ i, (r.cds.registry i).Used →
    genPoolGetBlockSize .direct r.cds.pool (r.cds.registry i).blockOffset =
      .ok (r.cds.registry i).blockSize
  apart : ∀ i j, (r.cds.registry i).Used → (r.cds.registry j).Used → i ≠ j →
    (r.cds.registry i).blockOffset ≠ (r.cds.registry j).blockOffset
  deletable : ∀ i, (r.cds.registry i).Used → ∀ activeApp : List Octet → Bool,
    activeApp (ownerName (r.cds.registry i).name) ≠ true →
    ∃ s', deleteCDS .ok activeApp (r.cds.registry i).name (r.cds.registry i).table r.cds =
      (.ok (), s') ∧ ¬(s'.registry i).Used
  readBack : ∀ i, (r.cds.registry i).Used → ∀ bytes, r.written i = some bytes →
    cdsBlockRead .ok crc r.cds (r.cds.registry i).blockId = .ok bytes
  restorable : ∃ fuel s', restoreCDS .ok fuel r.cds = some (.ok (), s')

/-- The invariant of runs. -/
def CdsInv (crc : Crc) (r : CdsRun) : Prop :=
  ∃ held returned, StoreInv crc r.cds r.written held returned

theorem cdsTotalSize_lt (platformSize : BitVec 32) : cdsTotalSize platformSize < 2 ^ 32 :=
  BitVec.isLt _

theorem CdsInv.start {crc : Crc} {platformSize : BitVec 32} {r : CdsRun}
    (h : (cdsMachine crc platformSize).start r) : CdsInv crc r := by
  obtain ⟨-, p, m, hp, hzero, rfl⟩ := h
  have hsmall : cdsDataSize platformSize < 2 ^ 32 :=
    (Nat.sub_le _ _).trans_lt (cdsTotalSize_lt platformSize)
  have hfresh := createCDSPool_ok hp
  obtain ⟨hfits, hmax⟩ := hfresh.fits (cdsPool_noWrap hsmall)
  have hunused : ∀ i, ¬((emptyCDS (cdsDataSize platformSize) p m).registry i).Used :=
    fun _ hused => hused rfl
  refine ⟨[], [], ⟨hfresh.inv (cdsPool_noWrap hsmall) m, fun a hlow hhigh => ?_,
    ⟨p, hp, .refl p⟩, hsmall⟩, ⟨?_, ?_, ?_, ?_, ?_⟩, fun _ _ => rfl, rfl, .base⟩
  · refine hzero a ?_ ?_
    · rw [← hfresh.tail]
      exact hlow
    · rw [← hmax]
      exact hhigh
  · exact fun i hi => absurd hi (hunused i)
  · exact fun i hi => absurd hi (hunused i)
  · exact fun i _ hi => absurd hi (hunused i)
  · exact fun i _ hi => absurd hi (hunused i)
  · exact fun i hi => absurd hi (hunused i)

theorem CdsInv.step {crc : Crc} {platformSize : BitVec 32} {r r' : CdsRun} {command : CdsCommand}
    (h : CdsInv crc r) (hserved : ResizesServed r command)
    (hnext : (cdsMachine crc platformSize).next r command = some r') : CdsInv crc r' := by
  obtain ⟨held, returned, hinv⟩ := h
  cases command with
  | register userBlockSize name criticalTbl =>
    rw [← Option.some.inj hnext]
    have hregister := hinv.register hserved criticalTbl
    obtain ⟨result, hresult⟩ : ∃ x, x = registerCDSEx .ok userBlockSize name criticalTbl r.cds :=
      ⟨_, rfl⟩
    rw [← hresult] at hregister ⊢
    exact hregister
  | delete activeApp name calledByTblServices =>
    rw [← Option.some.inj hnext]
    have hdelete := hinv.deleteCDS activeApp name calledByTblServices
    obtain ⟨result, hresult⟩ : ∃ x, x = deleteCDS .ok activeApp name calledByTblServices r.cds :=
      ⟨_, rfl⟩
    rw [← hresult] at hdelete ⊢
    exact hdelete
  | write handle data =>
    rw [← Option.some.inj hnext]
    have hwrite := hinv.write handle data
    -- neither the goal nor the invariant needs what the write computes
    obtain ⟨result, hresult⟩ : ∃ x, x = cdsBlockWrite .ok crc handle data r.cds := ⟨_, rfl⟩
    rw [← hresult] at hwrite ⊢
    exact ⟨held, returned, hwrite⟩
  | reset fuel =>
    obtain ⟨result, hresult, rfl⟩ := Option.map_eq_some_iff.mp hnext
    obtain ⟨fuel', s', held', returned', hrestore, hinv'⟩ := hinv.restore
    obtain rfl := restoreCDS_eq hrestore hresult
    exact ⟨held', returned', hinv'⟩

theorem StoreInv.consistent {crc : Crc} {r : CdsRun} {held returned : List Block}
    (h : StoreInv crc r.cds r.written held returned) : CdsConsistent crc r := by
  refine ⟨fun i hi => ?_, h.entries.offsets, fun i hi activeApp howner => ?_,
    fun i hi bytes hbytes => h.read hi hbytes, ?_⟩
  · obtain ⟨b, hb⟩ := h.entries.refers i hi
    rw [← hb.offset, ← hb.size]
    exact genPoolGetBlockSize_held h.area.pool hb.mem
  · obtain ⟨s', -, -, hdelete, hfree, -⟩ := h.delete hi howner
    exact ⟨s', hdelete, hfree⟩
  · obtain ⟨fuel, s', -, -, hrestore, -⟩ := h.restore
    exact ⟨fuel, s', hrestore⟩

/-- In every run, with resets between any two calls, the store is consistent, unless an
entry whose size was changed did not get a block. -/
theorem cds_consistent {crc : Crc} {platformSize : BitVec 32} {r : CdsRun}
    (h : (cdsMachine crc platformSize).Reaches ResizesServed r) : CdsConsistent crc r := by
  obtain ⟨held, returned, hinv⟩ : CdsInv crc r :=
    h.invariant (fun _ hstart => CdsInv.start hstart) fun _ _ _ hinv hserved hnext =>
      hinv.step hserved hnext
  exact hinv.consistent

/-! ## A store of 64 KiB -/

def smallRecord : GenPoolRecord :=
  initialRecord CDS_POOL_OFFSET 28652 4 CDS_MEM_POOL_DEF_SIZE
    [8, 16, 32, 48, 64, 96, 128, 160, 256, 512, 1024, 2048, 4096, 8192, 16384, 32768, 80000]

theorem smallRecord_created : createCDSPool 28652 CDS_POOL_OFFSET = .ok smallRecord := by
  have hsort : bubbleSort CDS_MEM_POOL_DEF_SIZE.sizes = [8, 16, 32, 48, 64, 96, 128, 160, 256, 512,
      1024, 2048, 4096, 8192, 16384, 32768, 80000] :=
    bubbleSort_eq (List.reverse_perm CDS_MEM_POOL_DEF_SIZE.sizes) (by decide)
  rw [createCDSPool, if_neg (by decide), genPoolInitialize, hsort, if_neg (by decide),
    if_neg (by decide)]
  rfl

def smallRun : CdsRun := ⟨emptyCDS 28652 smallRecord fun _ => 0, fun _ => none⟩

theorem smallRun_start (crc : Crc) : (cdsMachine crc 65536).start smallRun := by
  have hsize : cdsDataSize 65536 = 28652 := by decide
  refine ⟨by decide, smallRecord, fun _ => 0, ?_, fun _ _ _ => rfl, ?_⟩
  · rw [hsize]
    exact smallRecord_created
  · rw [hsize]
    rfl

/-- `A.x` -/
def blockName : CdsName := ⟨[0x41, 0x2e, 0x78], by decide⟩

instance (p : GenPoolRecord) (i : Fin POOL_MAX_BUCKETS) : Decidable (Recyclable p i) :=
  inferInstanceAs (Decidable (_ ∧ _))

instance (p : GenPoolRecord) (i : Fin POOL_MAX_BUCKETS) : Decidable (HasRoom p i) :=
  inferInstanceAs (Decidable (_ ≤ _))

instance (p : GenPoolRecord) (oldSize newSize : Nat) : Decidable (Served p oldSize newSize) :=
  inferInstanceAs (Decidable (∃ i ∈ requestBucket p newSize, _ ∨ _ ∨ _))

instance (s : CdsInstance) (userBlockSize : Nat) (name : CdsName) :
    Decidable (ResizeServed s userBlockSize name) :=
  inferInstanceAs (Decidable (∀ i ∈ locateCDSBlockRecordByName s.registry name, _ → _ → _ → _))

instance (r : CdsRun) (command : CdsCommand) : Decidable (ResizesServed r command) :=
  match command with
  | .register userBlockSize name _ =>
    inferInstanceAs (Decidable (ResizeServed r.cds userBlockSize name))
  | .delete .. => .isTrue trivial
  | .write .. => .isTrue trivial
  | .reset _ => .isTrue trivial

/-- An entry is written, gets a larger block, is written again and survives a reset. -/
theorem cds_consistent_resized : ∃ r, (cdsMachine (fun _ => 7) 65536).Reaches ResizesServed r ∧
    (r.cds.registry 1).Used ∧ (r.cds.registry 1).blockSize = 16 ∧ r.written 1 ≠ none ∧
    CdsConsistent (fun _ => 7) r := by
  obtain ⟨r, hreach, hentry⟩ := Machine.exists_reaches ResizesServed
    (fun r : CdsRun => decide ((r.cds.registry 1).Used ∧ (r.cds.registry 1).blockSize = 16 ∧
      r.written 1 ≠ none))
    (smallRun_start fun _ => 7)
    [.register 4 blockName false, .write (CDSBLOCKID_BASE + 1) fun _ => 1,
      .register 12 blockName false, .write (CDSBLOCKID_BASE + 1) fun _ => 2, .reset 4]
    (by decide +kernel)
  obtain ⟨hused, hsize, hwritten⟩ := of_decide_eq_true hentry
  exact ⟨r, hreach, hused, hsize, hwritten, cds_consistent hreach⟩

/-- An entry whose size is changed to more than the largest block size is left without a
block, and still in use. -/
theorem cds_inconsistent : ∃ r, (cdsMachine (fun _ => 0) 65536).Reachable r ∧
    ¬CdsConsistent (fun _ => 0) r := by
  obtain ⟨r, hreach, hentry⟩ := Machine.exists_reaches (fun _ _ => True)
    (fun r : CdsRun => decide ((r.cds.registry 1).Used ∧ (r.cds.registry 1).blockOffset = 0))
    (smallRun_start fun _ => 0)
    [.register 4 blockName false, .register 100000 blockName false]
    (by decide +kernel)
  obtain ⟨hused, hoffset⟩ := of_decide_eq_true hentry
  refine ⟨r, hreach, fun h => ?_⟩
  have hallocated := h.allocated 1 hused
  rw [hoffset, genPoolGetBlockSize, if_pos (.inr (by decide))] at hallocated
  cases hallocated

end Nos3.Es
