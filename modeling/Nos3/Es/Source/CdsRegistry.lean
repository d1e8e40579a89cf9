import Nos3.Es.Source.CriticalData
import Nos3.Es.Source.PoolScan

/-!
# The registry and the blocks of the pool

Every entry in use refers to a block in use that was got for its size, and
different entries to different blocks. The relation is kept by what the pool does
to other blocks, and by entries freed and entered.
-/
namespace Nos3.Es
open Nos3.Base.BigEndian (Octet)
open Nos3.Base.ByteMemory
open Nos3.Base.Program

theorem Psp.ok_access : Psp.ok.access = .direct := rfl

/-! ## Ids -/

theorem cdsHandleToIndex_undefined : cdsHandleToIndex RESOURCEID_UNDEFINED = none := by
  decide +kernel

theorem cdsHandleToIndex_used {id : Nat} {i : Fin CDS_MAX_NUM_ENTRIES}
    (h : cdsHandleToIndex id = some i) : id ≠ RESOURCEID_UNDEFINED := by
  rintro rfl
  rw [cdsHandleToIndex_undefined] at h
  cases h

/-- The ids issued so far end in a serial number. -/
def Issued (id : Nat) : Prop := ∃ serial, serial < RESOURCEID_MAX ∧ id = CDSBLOCKID_BASE + serial

theorem Issued.base : Issued CDSBLOCKID_BASE := ⟨0, by decide, rfl⟩

theorem nextSerial_lt (serial : Nat) : nextSerial CDS_MAX_NUM_ENTRIES serial < RESOURCEID_MAX := by
  unfold nextSerial RESOURCEID_MAX CDS_MAX_NUM_ENTRIES
  split
  · omega
  · omega

theorem findNextFrom_cases (checkFunc : Nat → Bool) (resourceType count serial : Nat) :
    findNextFrom CDS_MAX_NUM_ENTRIES checkFunc resourceType count serial = RESOURCEID_UNDEFINED ∨
      ∃ found, found < RESOURCEID_MAX ∧ checkFunc (resourceType + found) ≠ true ∧
        findNextFrom CDS_MAX_NUM_ENTRIES checkFunc resourceType count serial =
          resourceType + found := by
  induction count generalizing serial with
  | zero => exact .inl rfl
  | succ count ih =>
    rw [findNextFrom]
    by_cases htaken :
        checkFunc (resourceType + nextSerial CDS_MAX_NUM_ENTRIES serial) = true
    · rw [if_pos htaken]
      exact ih _
    · rw [if_neg htaken]
      exact .inr ⟨_, nextSerial_lt serial, htaken, rfl⟩

theorem Issued.getBase {id : Nat} (h : Issued id) : resourceIdGetBase id = CDSBLOCKID_BASE := by
  obtain ⟨serial, hserial, rfl⟩ := h
  unfold resourceIdGetBase
  unfold RESOURCEID_MAX at hserial ⊢
  unfold CDSBLOCKID_BASE
  omega

/-- The entry of the id found next is free. -/
theorem pendingBlockId_free {s : CdsInstance} (hlast : Issued s.lastCdsBlockId)
    {i : Fin CDS_MAX_NUM_ENTRIES} (h : cdsHandleToIndex (pendingBlockId s) = some i) :
    Issued (pendingBlockId s) ∧ ¬(s.registry i).Used := by
  rcases findNextFrom_cases (checkCDSHandleSlotUsed s.registry)
    (resourceIdGetBase s.lastCdsBlockId) CDS_MAX_NUM_ENTRIES
    (resourceIdGetSerial s.lastCdsBlockId) with hnone | ⟨found, hfound, hcheck, hresult⟩
  · exact absurd hnone (cdsHandleToIndex_used h)
  rw [hlast.getBase] at hcheck hresult
  have hpending : pendingBlockId s = CDSBLOCKID_BASE + found := by
    rw [pendingBlockId, resourceIdFindNext, hlast.getBase]
    exact hresult
  refine ⟨⟨found, hfound, hpending⟩, fun hused => hcheck ?_⟩
  rw [checkCDSHandleSlotUsed, ← hpending, h, Option.elim_some]
  exact decide_eq_true hused

/-! ## Names -/

section Names
variable {registry : CdsRegistry} {name : CdsName} {i : Fin CDS_MAX_NUM_ENTRIES}

theorem locate_found (h : locateCDSBlockRecordByName registry name = some i) :
    (registry i).Used ∧ name = (registry i).name := by
  unfold locateCDSBlockRecordByName at h
  have hfound := List.find?_some h
  exact of_decide_eq_true hfound

theorem locate_absent (h : locateCDSBlockRecordByName registry name = none)
    (hused : (registry i).Used) : name ≠ (registry i).name := by
  unfold locateCDSBlockRecordByName at h
  have hall := List.find?_eq_none.mp h i (List.mem_finRange i)
  exact fun hname => hall (decide_eq_true ⟨hused, hname⟩)

end Names

/-! ## Entries and blocks -/

/-- The block of an entry, from the bucket its size is served from. -/
structure Refers (p : GenPoolRecord) (held : List Block) (entry : CdsRegRec) (b : Block) : Prop where
  mem : b ∈ held
  offset : b.offset = entry.blockOffset
  size : b.size = entry.blockSize
  bucket : requestBucket p b.size = some b.bucket
  large : CDS_BLOCK_HEADER_SIZE < b.size

/-- A block holds these octets behind their checksum. -/
structure Stored (crc : Crc) (m : Memory) (entry : CdsRegRec) (bytes : List Octet) : Prop where
  header : loadLE m entry.blockOffset CDS_BLOCK_HEADER_SIZE = (crc bytes).toNat
  data : copyOut m (entry.blockOffset + CDS_BLOCK_HEADER_SIZE) entry.userSize = bytes

/-- What was written to each entry last. -/
abbrev Written := Fin CDS_MAX_NUM_ENTRIES → Option (List Octet)

structure EntriesOk (crc : Crc) (s : Pool) (held : List Block) (registry : CdsRegistry)
    (written : Written) : Prop where
  refers : ∀ i, (registry i).Used → ∃ b, Refers s.record held (registry i) b
  ids : ∀ i, (registry i).Used → cdsHandleToIndex (registry i).blockId = some i
  offsets : ∀ i j, (registry i).Used → (registry j).Used → i ≠ j →
    (registry i).blockOffset ≠ (registry j).blockOffset
  names : ∀ i j, (registry i).Used → (registry j).Used → i ≠ j →
    (registry i).name ≠ (registry j).name
  contents : ∀ i, (registry i).Used → ∀ bytes, written i = some bytes →
    Stored crc s.memory (registry i) bytes

theorem requestBucket_congr {p p' : GenPoolRecord} (h : p.SameConfig p') (reqSize : Nat) :
    requestBucket p' reqSize = requestBucket p reqSize := by
  unfold requestBucket genPoolGetBucketState genPoolFindBucket
  simp only [h.numBuckets, h.blockSize]

section Entries
variable {crc : Crc} {s s' : Pool} {held held' returned : List Block} {registry : CdsRegistry}
  {written : Written} {i : Fin CDS_MAX_NUM_ENTRIES} {entry : CdsRegRec} {b : Block}

theorem Refers.blockSize_pos (h : Refers s.record held entry b) :
    CDS_BLOCK_HEADER_SIZE + entry.userSize = entry.blockSize := by
  have hlarge := h.large
  have hsize := h.size
  unfold CdsRegRec.userSize
  omega

theorem Stored.congr {m m' : Memory} {bytes : List Octet} (h : Stored crc m entry bytes)
    (hlarge : CDS_BLOCK_HEADER_SIZE + entry.userSize = entry.blockSize)
    (hsame : SameOn m m' entry.blockOffset entry.blockSize) : Stored crc m' entry bytes := by
  refine ⟨?_, ?_⟩
  · rw [← loadLE_congr (hsame.mono (Nat.le_refl _) (by omega))]
    exact h.header
  · rw [← copyOut_congr (hsame.mono (Nat.le_add_right _ _) (by omega))]
    exact h.data

/-- The pool changed, but not the blocks the entries refer to. -/
theorem EntriesOk.move (h : EntriesOk crc s held registry written)
    (hconfig : s.record.SameConfig s'.record)
    (hheld : ∀ i b, (registry i).Used → Refers s.record held (registry i) b → b ∈ held' ∧
      SameOn s.memory s'.memory b.offset b.size) :
    EntriesOk crc s' held' registry written := by
  refine ⟨fun i hi => ?_, h.ids, h.offsets, h.names, fun i hi bytes hbytes => ?_⟩
  · obtain ⟨b, hb⟩ := h.refers i hi
    refine ⟨b, (hheld i b hi hb).1, hb.offset, hb.size, ?_, hb.large⟩
    rw [requestBucket_congr hconfig]
    exact hb.bucket
  · obtain ⟨b, hb⟩ := h.refers i hi
    have hsame := (hheld i b hi hb).2
    rw [hb.offset, hb.size] at hsame
    exact (h.contents i hi bytes hbytes).congr hb.blockSize_pos hsame

/-- One block is written anew. -/
theorem EntriesOk.write (h : EntriesOk crc s held registry written) {bytes : List Octet}
    (hconfig : s.record.SameConfig s'.record)
    (hothers : ∀ j b, j ≠ i → (registry j).Used → Refers s.record held (registry j) b →
      SameOn s.memory s'.memory b.offset b.size)
    (hnew : Stored crc s'.memory (registry i) bytes) :
    EntriesOk crc s' held registry (Function.update written i (some bytes)) := by
  refine ⟨fun j hj => ?_, h.ids, h.offsets, h.names, fun j hj bytes' hbytes => ?_⟩
  · obtain ⟨b, hb⟩ := h.refers j hj
    refine ⟨b, hb.mem, hb.offset, hb.size, ?_, hb.large⟩
    rw [requestBucket_congr hconfig]
    exact hb.bucket
  · by_cases hji : j = i
    · rw [hji, Function.update_self] at hbytes
      cases hbytes
      rw [hji]
      exact hnew
    · rw [Function.update_of_ne hji] at hbytes
      obtain ⟨b, hb⟩ := h.refers j hj
      have hsame := hothers j b hji hj hb
      rw [hb.offset, hb.size] at hsame
      exact (h.contents j hj bytes' hbytes).congr hb.blockSize_pos hsame

/-- Some entries are in use no more. -/
theorem EntriesOk.sub (h : EntriesOk crc s held registry written) {registry' : CdsRegistry}
    (hsub : ∀ i, (registry' i).Used → registry' i = registry i) :
    EntriesOk crc s held registry' written := by
  have hused : ∀ i, (registry' i).Used → (registry i).Used := fun i hi => hsub i hi ▸ hi
  refine ⟨fun i hi => ?_, fun i hi => ?_, fun i j hi hj hne => ?_, fun i j hi hj hne => ?_,
    fun i hi => ?_⟩
  · rw [hsub i hi]
    exact h.refers i (hused i hi)
  · rw [hsub i hi]
    exact h.ids i (hused i hi)
  · rw [hsub i hi, hsub j hj]
    exact h.offsets i j (hused i hi) (hused j hj) hne
  · rw [hsub i hi, hsub j hj]
    exact h.names i j (hused i hi) (hused j hj) hne
  · rw [hsub i hi]
    exact h.contents i (hused i hi)

theorem EntriesOk.drop (h : EntriesOk crc s held registry written) (hunused : ¬entry.Used) :
    EntriesOk crc s held (Function.update registry i entry) written := by
  refine h.sub fun j hj => ?_
  by_cases hji : j = i
  · subst hji
    rw [Function.update_self] at hj
    exact absurd hj hunused
  · rw [Function.update_of_ne hji]

/-- A free entry gets a block of its own. -/
theorem EntriesOk.add (h : EntriesOk crc s held registry written) (hfree : ¬(registry i).Used)
    (hb : Refers s.record held entry b) (hid : cdsHandleToIndex entry.blockId = some i)
    (hoffset : ∀ j, (registry j).Used → (registry j).blockOffset ≠ entry.blockOffset)
    (hname : ∀ j, (registry j).Used → (registry j).name ≠ entry.name) :
    EntriesOk crc s held (Function.update registry i entry) (Function.update written i none) := by
  have hother : ∀ j, j ≠ i → Function.update registry i entry j = registry j :=
    fun j hj => Function.update_of_ne hj ..
  have hself : Function.update registry i entry i = entry := Function.update_self ..
  refine ⟨fun j hj => ?_, fun j hj => ?_, fun j k hj hk hne => ?_, fun j k hj hk hne => ?_,
    fun j hj bytes hbytes => ?_⟩
  · by_cases hji : j = i
    · rw [hji, hself]
      exact ⟨b, hb⟩
    · rw [hother j hji] at hj ⊢
      exact h.refers j hj
  · by_cases hji : j = i
    · rw [hji, hself]
      exact hid
    · rw [hother j hji] at hj ⊢
      exact h.ids j hj
  · by_cases hji : j = i
    · have hki : k ≠ i := fun hki => hne (hji.trans hki.symm)
      rw [hother k hki] at hk ⊢
      rw [hji, hself]
      exact (hoffset k hk).symm
    · rw [hother j hji] at hj ⊢
      by_cases hki : k = i
      · rw [hki, hself]
        exact hoffset j hj
      · rw [hother k hki] at hk ⊢
        exact h.offsets j k hj hk hne
  · by_cases hji : j = i
    · have hki : k ≠ i := fun hki => hne (hji.trans hki.symm)
      rw [hother k hki] at hk ⊢
      rw [hji, hself]
      exact (hname k hk).symm
    · rw [hother j hji] at hj ⊢
      by_cases hki : k = i
      · rw [hki, hself]
        exact hname j hj
      · rw [hother k hki] at hk ⊢
        exact h.names j k hj hk hne
  · by_cases hji : j = i
    · rw [hji, Function.update_self] at hbytes
      cases hbytes
    · rw [Function.update_of_ne hji] at hbytes
      rw [hother j hji] at hj ⊢
      exact h.contents j hj bytes hbytes

/-- The name of an entry in use locates it. -/
theorem EntriesOk.locate (h : EntriesOk crc s held registry written) (hi : (registry i).Used) :
    locateCDSBlockRecordByName registry (registry i).name = some i := by
  rcases hfound : locateCDSBlockRecordByName registry (registry i).name with _ | j
  · exact absurd rfl (locate_absent hfound hi)
  · obtain ⟨hj, hname⟩ := locate_found hfound
    by_cases hne : i = j
    · rw [hne]
    · exact absurd hname (h.names i j hi hj hne)

end Entries

end Nos3.Es
