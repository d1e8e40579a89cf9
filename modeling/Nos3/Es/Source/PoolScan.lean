import Nos3.Es.Source.PoolOperations
import Mathlib.Data.List.Perm.Basic

/-!
# The scan that rebuilds a pool

Each round finds the block behind the tail by its descriptor and enters it into
the record as the pool once did. The scan ends at the first place where there is
no room or no valid descriptor.
-/
namespace Nos3.Es
open Nos3.Base.Alignment
open Nos3.Base.ByteMemory
open Nos3.Base.FreeChain
open Nos3.Base.Program
open Nos3.Base.Tiling

/-- The flag of a block that was returned or is in use. -/
def flagOf (returned : Bool) : Nat := if returned = true then MEMORY_DEALLOCATED else MEMORY_ALLOCATED

theorem scanned_described {p : GenPoolRecord} {m : Memory} {b : Block} {r : Bool}
    (h : Described p m (flagOf r) b) : scanned p (b.desc m) = some (b.bucket, r) := by
  rw [scanned, if_pos h.checkBits, h.allocated]
  cases r with
  | true =>
    rw [show flagOf true = MEMORY_DEALLOCATED from rfl, uint16Sub_deallocated h.bucket,
      getBucketState_bucketId h.bucket]
  | false =>
    rw [show flagOf false = MEMORY_ALLOCATED from rfl, getBucketState_allocated h.bucket,
      uint16Sub_allocated h.bucket, getBucketState_bucketId h.bucket]
    rfl

/-- There is no block behind `stop`. -/
def ScanEnd (p : GenPoolRecord) (m : Memory) (stop : Nat) : Prop :=
  p.poolMaxOffset < placeBehind p stop ∨
    scanned p (loadBD m (placeBehind p stop - GENERIC_POOL_DESCRIPTOR_SIZE)) = none

section Rounds
variable {start : Nat} {s : Pool} {held returned : List Block}

theorem PoolInv.nextDesc (h : PoolInv start s held returned) :
    descOffset (nextBlockOffset s.record) =
        nextBlockOffset s.record - GENERIC_POOL_DESCRIPTOR_SIZE ∧
      s.record.tailPosition + GENERIC_POOL_DESCRIPTOR_SIZE ≤ nextBlockOffset s.record := by
  obtain ⟨hplace, hplaceLe⟩ := h.fits.place h.tail.2
  have hnext : nextBlockOffset s.record = placeBehind s.record s.record.tailPosition := rfl
  have hfit := h.fits ⟨0, by decide⟩
  have htail := h.tail.2
  refine ⟨?_, hplace⟩
  unfold descOffset sizeSub sizeT
  unfold GENERIC_POOL_DESCRIPTOR_SIZE at hplace hplaceLe hfit ⊢
  omega

theorem rebuildRound_end (h : PoolInv start s held returned)
    (hend : ScanEnd s.record s.memory s.record.tailPosition) :
    rebuildRound .direct s = .error (.ok (), s) := by
  rw [rebuildRound]
  by_cases hroom : s.record.poolMaxOffset < nextBlockOffset s.record
  · rw [if_pos hroom]
  rw [if_neg hroom, h.nextDesc.1]
  rcases hend with hmax | hnone
  · exact absurd hmax hroom
  have hretrieve : orBreak s (retrieve .direct s
      (nextBlockOffset s.record - GENERIC_POOL_DESCRIPTOR_SIZE)) =
      .ok (loadBD s.memory (nextBlockOffset s.record - GENERIC_POOL_DESCRIPTOR_SIZE)) := rfl
  have hscanned : scanned s.record
      (loadBD s.memory (nextBlockOffset s.record - GENERIC_POOL_DESCRIPTOR_SIZE)) = none := hnone
  rw [hretrieve, ok_bind, hscanned, Option.elim_none, error_bind]

/-- What a round does to the memory. -/
def OnlyDesc (b : Block) (m m' : Memory) : Prop := ∀ a n,
  a + n ≤ b.offset - GENERIC_POOL_DESCRIPTOR_SIZE ∨ b.offset ≤ a → SameOn m m' a n

/-- A round enters the block it finds. -/
theorem rebuildRound_block (h : PoolInv start s held returned) {b : Block} {r : Bool}
    (hoffset : b.offset = nextBlockOffset s.record)
    (hroom : b.offset + b.len s.record ≤ s.record.poolMaxOffset)
    (hdescribed : Described s.record s.memory (flagOf r) b) :
    ∃ s', rebuildRound .direct s = .ok s' ∧
      PoolInv start s' (if r = true then held else b :: held)
        (if r = true then b :: returned else returned) ∧
      s'.record.tailPosition = b.offset + b.len s.record ∧ s.record.SameConfig s'.record ∧
      OnlyDesc b s.memory s'.memory := by
  obtain ⟨hdesc, hplace⟩ := h.nextDesc
  have hfits := h.fits b.bucket
  have hlen : b.len s.record = (s.record.buckets b.bucket).blockSize := rfl
  have hend : sizeT (nextBlockOffset s.record + b.len s.record) = b.offset + b.len s.record := by
    rw [hoffset]
    exact Nat.mod_eq_of_lt (by omega)
  have hretrieve : orBreak s (retrieve .direct s
      (nextBlockOffset s.record - GENERIC_POOL_DESCRIPTOR_SIZE)) = .ok (b.desc s.memory) := by
    rw [← hoffset]
    rfl
  have hsize : ¬ (s.record.buckets b.bucket).blockSize < (b.desc s.memory).actualSize := by
    rw [hdescribed.actualSize]
    exact Nat.not_lt_of_le hdescribed.size_le
  rw [rebuildRound, if_neg (by omega), hdesc, hretrieve, ok_bind, scanned_described hdescribed,
    Option.elim_some, ok_bind, if_neg hsize]
  cases r with
  | false =>
    have hcreatable : Creatable s MEMORY_ALLOCATED b := ⟨hoffset, hend ▸ hroom, hdescribed⟩
    exact ⟨_, rfl, h.extend hcreatable, hend, .extended _ _, fun _ _ _ => .refl _ _ _⟩
  | true =>
    obtain ⟨m, hm⟩ : ∃ m, m = storeBD s.memory (b.offset - GENERIC_POOL_DESCRIPTOR_SIZE)
        ⟨CHECK_PATTERN, MEMORY_DEALLOCATED + bucketId s.record b.bucket, b.size,
          (s.record.buckets b.bucket).firstOffset⟩ := ⟨_, rfl⟩
    have hcommit : orBreak { s with record := s.record.foundReturned b.bucket }
        (commit .direct s (nextBlockOffset s.record - GENERIC_POOL_DESCRIPTOR_SIZE)
          ⟨CHECK_PATTERN, MEMORY_DEALLOCATED + bucketId s.record b.bucket, b.size,
            (s.record.buckets b.bucket).firstOffset⟩) = .ok { s with memory := m } := by
      rw [hm, hoffset]
      rfl
    have hallocated : (b.desc s.memory).allocated =
      MEMORY_DEALLOCATED + bucketId s.record b.bucket := hdescribed.allocated
    rw [if_pos rfl, hdescribed.checkBits, hallocated, hdescribed.actualSize, hcommit, ok_bind]
    have honly : OnlyDesc b s.memory m := fun a n ha => hm ▸ (storeBD_sameOn (by omega)).symm
    have hmemory : PoolInv start ⟨s.record, m⟩ held returned := h.of_memory fun c hc => by
      have hinside := h.inside hc
      exact honly _ _ (.inl (by omega))
    obtain ⟨hnew, hlink⟩ := Described.write s.memory (b := b) MEMORY_DEALLOCATED
      (s.record.buckets b.bucket).firstOffset (by decide) (h.firstOffset_lt b.bucket)
      hdescribed.bucket hdescribed.size_pos hdescribed.size_le (h.len_lt b.toSlot)
    rw [← hm] at hnew hlink
    have hcreatable : Creatable ⟨s.record, m⟩ MEMORY_DEALLOCATED b := ⟨hoffset, hend ▸ hroom, hnew⟩
    have hinv := hmemory.extend_returned hcreatable hlink
    refine ⟨⟨s.record.foundReturned b.bucket, m⟩, rfl, ?_, hend, ?_, honly⟩
    · rw [GenPoolRecord.foundReturned, ← hoffset]
      exact hinv
    · exact (GenPoolRecord.SameConfig.extended s.record b.bucket).trans (.setBucket rfl)

end Rounds

/-! ## The whole scan -/

theorem scanned_congr {p p' : GenPoolRecord} (h : p.SameConfig p') (bd : GenPoolBD) :
    scanned p' bd = scanned p bd := by
  have hstate : ∀ id, genPoolGetBucketState p' id = genPoolGetBucketState p id := by
    intro id
    unfold genPoolGetBucketState
    simp only [h.numBuckets]
  rw [scanned, hstate, hstate, scanned]

theorem ScanEnd.congr {p p' : GenPoolRecord} {m m' : Memory} {stop : Nat} (h : ScanEnd p m stop)
    (hconfig : p.SameConfig p') (hsame : SameOn m m'
      (placeBehind p stop - GENERIC_POOL_DESCRIPTOR_SIZE) GENERIC_POOL_DESCRIPTOR_SIZE) :
    ScanEnd p' m' stop := by
  unfold ScanEnd
  rw [hconfig.place, hconfig.maxOffset, ← loadBD_congr hsame]
  exact h.imp_right fun hnone => (scanned_congr hconfig _).trans hnone

/-- The blocks the scan has not reached, each with whether it was returned. -/
structure Ahead (s : Pool) (rest : List (Block × Bool)) (stop : Nat) : Prop where
  tiled : Tiled (placeBehind s.record) s.record.poolMaxOffset (fun b => b.1.offset)
    (fun b => b.1.len s.record) s.record.tailPosition rest stop
  described : ∀ b ∈ rest, Described s.record s.memory (flagOf b.2) b.1
  atEnd : ScanEnd s.record s.memory stop

def heldOf (rest : List (Block × Bool)) : List Block :=
  (rest.filter fun b => !b.2).map Prod.fst

def returnedOf (rest : List (Block × Bool)) : List Block :=
  (rest.filter fun b => b.2).map Prod.fst

section Scan
variable {start stop : Nat} {s : Pool} {held returned : List Block}

/-- What is ahead after a round. -/
theorem Ahead.tail {b : Block} {r : Bool} {rest : List (Block × Bool)} {s' : Pool}
    (h : Ahead s ((b, r) :: rest) stop) (hfits : s.record.Fits)
    (htail : s'.record.tailPosition = b.offset + b.len s.record)
    (hconfig : s.record.SameConfig s'.record) (honly : OnlyDesc b s.memory s'.memory) :
    Ahead s' rest stop := by
  obtain ⟨-, hbound, htiled⟩ := h.tiled
  have hgap : ∀ t, t ≤ s.record.poolMaxOffset →
      t + GENERIC_POOL_DESCRIPTOR_SIZE ≤ placeBehind s.record t := fun t ht => (hfits.place ht).1
  refine ⟨?_, fun c hc => ?_, ?_⟩
  · rw [htail, hconfig.maxOffset]
    exact htiled.congr (fun t => (hconfig.place t).symm) (fun _ => rfl)
      fun c => (hconfig.len c.1.toSlot).symm
  · have hinside := (htiled.inside hgap hbound hc).1
    dsimp only at hinside
    exact (h.described c (List.mem_cons_of_mem _ hc)).congr hconfig (honly _ _ (.inr (by omega)))
  · obtain ⟨hle, hstop⟩ := htiled.le_stop hgap hbound
    have hplace := hgap stop hstop
    dsimp only at hle
    exact h.atEnd.congr hconfig (honly _ _ (.inr (by omega)))

/-- The scan enters all blocks that are ahead and ends behind the last. -/
theorem genPoolRebuild_ahead (rest : List (Block × Bool)) (h : PoolInv start s held returned)
    (hahead : Ahead s rest stop) :
    ∃ s', genPoolRebuild .direct (rest.length + 1) s = some (.ok (), s') ∧
      PoolInv start s' ((heldOf rest).reverse ++ held) ((returnedOf rest).reverse ++ returned) ∧
      s'.record.tailPosition = stop ∧ s.record.SameConfig s'.record ∧
      ∀ a n, (∀ b ∈ rest, a + n ≤ b.1.offset - GENERIC_POOL_DESCRIPTOR_SIZE ∨ b.1.offset ≤ a) →
        SameOn s.memory s'.memory a n := by
  induction rest generalizing s held returned with
  | nil =>
    have htail : s.record.tailPosition = stop := hahead.tiled
    have hround := rebuildRound_end h (htail ▸ hahead.atEnd)
    refine ⟨s, ?_, h, htail, .refl _, fun a n _ => .refl _ a n⟩
    rw [List.length_nil, genPoolRebuild, hround]
  | cons b rest ih =>
    obtain ⟨b, r⟩ := b
    obtain ⟨hoffset, hroom, -⟩ := hahead.tiled
    obtain ⟨mid, hround, hinv, htail, hconfig, honly⟩ :=
      rebuildRound_block h hoffset hroom (hahead.described (b, r) List.mem_cons_self)
    obtain ⟨s', hrun, hfinal, hstop, hconfig', hframe⟩ :=
      ih hinv (hahead.tail h.fits htail hconfig honly)
    refine ⟨s', ?_, ?_, hstop, hconfig.trans hconfig', fun a n houtside => ?_⟩
    · rw [List.length_cons, genPoolRebuild, hround]
      exact hrun
    · cases r with
      | false =>
        rw [show heldOf ((b, false) :: rest) = b :: heldOf rest from rfl,
          show returnedOf ((b, false) :: rest) = returnedOf rest from rfl, List.reverse_cons,
          List.append_assoc]
        exact hfinal
      | true =>
        rw [show heldOf ((b, true) :: rest) = heldOf rest from rfl,
          show returnedOf ((b, true) :: rest) = b :: returnedOf rest from rfl, List.reverse_cons,
          List.append_assoc]
        exact hfinal
    · exact (honly a n (houtside (b, r) List.mem_cons_self)).trans
        (hframe a n fun c hc => houtside c (List.mem_cons_of_mem _ hc))

end Scan

/-- The fuel does not matter as long as the scan ends. -/
theorem genPoolRebuild_eq {io : Access} {fuel fuel' : Nat} {s : Pool} {result result' : RebuildEnd}
    (h : genPoolRebuild io fuel s = some result) (h' : genPoolRebuild io fuel' s = some result') :
    result = result' := by
  induction fuel generalizing fuel' s with
  | zero => cases h
  | succ fuel ih =>
    cases fuel' with
    | zero => cases h'
    | succ fuel' =>
      rw [genPoolRebuild] at h h'
      rcases hround : rebuildRound io s with last | mid
      · rw [hround] at h h'
        exact Option.some.inj (h.symm.trans h')
      · rw [hround] at h h'
        exact ih h h'

/-! ## Rebuilding a pool -/

/-- Both kinds of blocks in one list. -/
def flagged (held returned : List Block) : List (Block × Bool) :=
  held.map (fun b => (b, false)) ++ returned.map fun b => (b, true)

theorem heldOf_flagged (held returned : List Block) : heldOf (flagged held returned) = held := by
  have hreturned : (returned.map fun b => (b, true)).filter (fun b => !b.2) = [] :=
    List.filter_eq_nil_iff.mpr (by simp)
  have hheld : (held.map fun b => (b, false)).filter (fun b => !b.2) =
      held.map fun b => (b, false) := List.filter_eq_self.mpr (by simp)
  rw [heldOf, flagged, List.filter_append, hreturned, hheld, List.append_nil, List.map_map]
  exact List.map_id held

theorem returnedOf_flagged (held returned : List Block) :
    returnedOf (flagged held returned) = returned := by
  have hheld : (held.map fun b => (b, false)).filter (fun b => b.2) = [] :=
    List.filter_eq_nil_iff.mpr (by simp)
  have hreturned : (returned.map fun b => (b, true)).filter (fun b => b.2) =
      returned.map fun b => (b, true) := List.filter_eq_self.mpr (by simp)
  rw [returnedOf, flagged, List.filter_append, hheld, hreturned, List.nil_append, List.map_map]
  exact List.map_id returned

theorem mem_flagged {held returned : List Block} {b : Block × Bool}
    (h : b ∈ flagged held returned) :
    (b.1 ∈ held ∧ b.2 = false) ∨ (b.1 ∈ returned ∧ b.2 = true) := by
  rcases List.mem_append.mp h with h | h
  · obtain ⟨c, hc, rfl⟩ := List.mem_map.mp h
    exact .inl ⟨hc, rfl⟩
  · obtain ⟨c, hc, rfl⟩ := List.mem_map.mp h
    exact .inr ⟨hc, rfl⟩

/-- Nothing was ever written behind the tail. -/
def Blank (s : Pool) : Prop :=
  ∀ a, s.record.tailPosition ≤ a → a < s.record.poolMaxOffset → s.memory a = 0

section Rebuild
variable {start : Nat} {s : Pool} {held returned : List Block}

theorem PoolInv.scanEnd (h : PoolInv start s held returned) (hblank : Blank s) :
    ScanEnd s.record s.memory s.record.tailPosition := by
  by_cases hroom : s.record.poolMaxOffset < placeBehind s.record s.record.tailPosition
  · exact .inl hroom
  right
  have hplace := (h.fits.place h.tail.2).1
  have hzero : (loadBD s.memory (placeBehind s.record s.record.tailPosition -
      GENERIC_POOL_DESCRIPTOR_SIZE)).checkBits = 0 := by
    refine loadLE_zero fun a hlow hhigh => hblank a (by omega) ?_
    unfold GENERIC_POOL_DESCRIPTOR_SIZE at hlow hhigh hplace
    omega
  rw [scanned, hzero, if_neg (by decide)]

/-- The blocks of a pool in the order in which they lie in memory. -/
theorem PoolInv.ahead (h : PoolInv start s held returned) (hblank : Blank s)
    {p : GenPoolRecord} (hconfig : p.SameConfig s.record) (htail : p.tailPosition = start) :
    ∃ rest, rest.Perm (flagged held returned) ∧
      Ahead ⟨p, s.memory⟩ rest s.record.tailPosition := by
  obtain ⟨slots, hslots, htiled⟩ := h.laid
  have hflat : (held ++ returned).map Block.toSlot =
      (flagged held returned).map fun b => b.1.toSlot := by
    rw [flagged, List.map_append, List.map_append, List.map_map, List.map_map]
    rfl
  obtain ⟨rest, rfl, hrest⟩ : ∃ rest : List (Block × Bool),
      slots = rest.map (fun b => b.1.toSlot) ∧ rest.Perm (flagged held returned) := by
    have hlift := congrFun (congrFun (List.eq_map_comp_perm fun b : Block × Bool => b.1.toSlot)
      slots) (flagged held returned)
    obtain ⟨rest, hmap, hperm⟩ := hlift.mpr (hflat ▸ hslots)
    exact ⟨rest, hmap, hperm⟩
  refine ⟨rest, hrest, ?_, fun b hb => ?_, ?_⟩
  · rw [htail, ← hconfig.maxOffset]
    exact (tiled_map.mp htiled).congr hconfig.place (fun _ => rfl) fun b => hconfig.len b.1.toSlot
  · rcases mem_flagged (hrest.mem_iff.mp hb) with ⟨hheld, hflag⟩ | ⟨hreturned, hflag⟩
    · rw [hflag]
      exact (h.inUse b.1 hheld).congr hconfig.symm (.refl _ _ _)
    · rw [hflag]
      exact (h.free b.1 hreturned).congr hconfig.symm (.refl _ _ _)
  · exact (h.scanEnd hblank).congr hconfig.symm (.refl _ _ _)

/-- A scan over the memory of a pool from a record without blocks finds its blocks. -/
theorem PoolInv.rebuild (h : PoolInv start s held returned) (hblank : Blank s)
    {p : GenPoolRecord} (hp : PoolInv start ⟨p, s.memory⟩ [] [])
    (hconfig : p.SameConfig s.record) (htail : p.tailPosition = start) :
    ∃ fuel s' held' returned', genPoolRebuild .direct fuel ⟨p, s.memory⟩ = some (.ok (), s') ∧
      PoolInv start s' held' returned' ∧ held'.Perm held ∧ returned'.Perm returned ∧
      s'.record.tailPosition = s.record.tailPosition ∧ Kept s s' (held ++ returned) := by
  obtain ⟨rest, hrest, hahead⟩ := h.ahead hblank hconfig htail
  obtain ⟨s', hrun, hinv, hstop, hconfig', hframe⟩ := genPoolRebuild_ahead rest hp hahead
  have hheld : (heldOf rest).Perm held := by
    have hperm := (hrest.filter fun b => !b.2).map Prod.fst
    rwa [← heldOf, ← heldOf, heldOf_flagged] at hperm
  have hreturned : (returnedOf rest).Perm returned := by
    have hperm := (hrest.filter fun b => b.2).map Prod.fst
    rwa [← returnedOf, ← returnedOf, returnedOf_flagged] at hperm
  rw [List.append_nil, List.append_nil] at hinv
  have hmem : ∀ b ∈ rest, b.1 ∈ held ++ returned := fun b hb => by
    rcases mem_flagged (hrest.mem_iff.mp hb) with ⟨hb, -⟩ | ⟨hb, -⟩
    · exact List.mem_append_left _ hb
    · exact List.mem_append_right _ hb
  refine ⟨rest.length + 1, s', _, _, hrun, hinv, (List.reverse_perm _).trans hheld,
    (List.reverse_perm _).trans hreturned, hstop, ⟨hconfig.symm.trans hconfig', hstop.ge, ?_, ?_⟩⟩
  · intro c hc
    refine hframe _ _ fun b hb => ?_
    by_cases hsame : c = b.1
    · right
      rw [hsame]
    · have happart := h.laid.apart_of_ne h.fits h.start_le hc (hmem b hb) hsame
      unfold Apart at happart
      omega
  · intro a ha
    refine (hframe a 1 (fun b hb => .inr ?_) a (Nat.le_refl a) (Nat.lt_succ_self a)).symm
    have hlt := (h.offset_lt (hmem b hb)).1
    omega

end Rebuild

end Nos3.Es
