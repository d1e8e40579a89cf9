import Nos3.Es.Source.CriticalData
import Mathlib.Algebra.GroupWithZero.Nat
import Mathlib.Data.List.Nodup
import Mathlib.Data.Nat.ModEq
import Mathlib.Data.Fintype.EquivFin

/-!
# Allocation of resource ids

The id of a resource holds the type of the resource and a serial number; the serial
number modulo the size of a table is the slot of the resource in it. The search for
the next id runs through the serial numbers behind the last one, and through the
slots of the table in cyclic order.
-/
namespace Nos3.Es

/-- The ids that the loop of `CFE_ResourceId_FindNext` calls `CheckFunc` with. -/
def examinedFrom (tableSize : Nat) (checkFunc : Nat → Bool) (resourceType : Nat) :
    Nat → Nat → List Nat
  | 0, _ => []
  | count + 1, serial =>
    let serial := nextSerial tableSize serial
    (resourceType + serial) ::
      if checkFunc (resourceType + serial) = true then
        examinedFrom tableSize checkFunc resourceType count serial
      else []

def resourceIdExamined (startId tableSize : Nat) (checkFunc : Nat → Bool) : List Nat :=
  examinedFrom tableSize checkFunc (resourceIdGetBase startId) tableSize
    (resourceIdGetSerial startId)

/-- The serial number comes to its maximum in a search. -/
def SerialWraps (startId tableSize : Nat) (checkFunc : Nat → Bool) : Prop :=
  RESOURCEID_MAX ≤
    resourceIdGetSerial startId + (resourceIdExamined startId tableSize checkFunc).length

instance (startId tableSize : Nat) (checkFunc : Nat → Bool) :
    Decidable (SerialWraps startId tableSize checkFunc) := inferInstanceAs (Decidable (_ ≤ _))

/-- The allocations from an id on, each of which starts at the last id and does not wrap.
One that finds no id leaves the last id as it is; slots may be taken and given back
between two allocations. -/
inductive Allocated (tableSize firstId : Nat) : Nat → List Nat → Prop
  | none : Allocated tableSize firstId firstId []
  | next {lastId : Nat} {issued : List Nat} (checkFunc : Nat → Bool)
      (before : Allocated tableSize firstId lastId issued)
      (found : resourceIdFindNext lastId tableSize checkFunc ≠ RESOURCEID_UNDEFINED)
      (nowrap : ¬ SerialWraps lastId tableSize checkFunc) :
      Allocated tableSize firstId (resourceIdFindNext lastId tableSize checkFunc)
        (resourceIdFindNext lastId tableSize checkFunc :: issued)

variable {tableSize resourceType count serial startId firstId lastId : Nat}
  {checkFunc : Nat → Bool} {issued : List Nat}

/-! ## Base and serial number -/

/-- What `resourceIdGetBase` returns. -/
def IsBase (resourceType : Nat) : Prop := resourceType % (RESOURCEID_MAX + 1) = 0

theorem resourceIdGetBase_isBase (id : Nat) : IsBase (resourceIdGetBase id) := by
  unfold IsBase resourceIdGetBase RESOURCEID_MAX
  omega

theorem resourceIdGetBase_add (hbase : IsBase resourceType) (hserial : serial ≤ RESOURCEID_MAX) :
    resourceIdGetBase (resourceType + serial) = resourceType := by
  unfold IsBase at hbase
  unfold resourceIdGetBase
  unfold RESOURCEID_MAX at *
  omega

theorem resourceIdGetSerial_add (hbase : IsBase resourceType) (hserial : serial ≤ RESOURCEID_MAX) :
    resourceIdGetSerial (resourceType + serial) = serial := by
  unfold IsBase at hbase
  unfold resourceIdGetSerial
  unfold RESOURCEID_MAX at *
  omega

theorem resourceIdToIndex_add [NeZero tableSize] (hbase : IsBase resourceType)
    (hlt : resourceType < 2 ^ 32) (hserial : serial ≤ RESOURCEID_MAX) :
    resourceIdToIndex (resourceType + serial) resourceType tableSize =
      some (Fin.ofNat tableSize serial) := by
  have hsub : uint32Sub (resourceType + serial) resourceType = serial := by
    unfold IsBase at hbase
    unfold uint32Sub
    unfold RESOURCEID_MAX at *
    omega
  rw [resourceIdToIndex, hsub, if_neg (Nat.not_lt.mpr hserial)]

theorem nextSerial_mod (tableSize serial : Nat) :
    nextSerial tableSize serial % tableSize = (serial + 1) % tableSize := by
  unfold nextSerial
  split
  · exact Nat.mod_mod _ _
  · rfl

theorem nextSerial_lt_max (hpos : 0 < tableSize) (hsize : tableSize < RESOURCEID_MAX)
    (serial : Nat) : nextSerial tableSize serial < RESOURCEID_MAX := by
  unfold nextSerial
  split
  · exact (Nat.mod_lt _ hpos).trans hsize
  · exact Nat.not_le.mp ‹_›

/-! ## One search -/

/-- The `n`th id examined is of the slot `n` places behind the start. -/
theorem examinedFrom_get (hpos : 0 < tableSize) (hsize : tableSize < RESOURCEID_MAX) {n id : Nat}
    (h : (examinedFrom tableSize checkFunc resourceType count serial)[n]? = some id) :
    ∃ found, found < RESOURCEID_MAX ∧ id = resourceType + found ∧
      found % tableSize = (serial + 1 + n) % tableSize := by
  induction count generalizing serial n with
  | zero => cases h
  | succ count ih =>
    rw [examinedFrom] at h
    cases n with
    | zero =>
      exact ⟨_, nextSerial_lt_max hpos hsize serial, (Option.some.inj h).symm,
        nextSerial_mod tableSize serial⟩
    | succ n =>
      rw [List.getElem?_cons_succ] at h
      split at h
      case isFalse => cases h
      case isTrue =>
        obtain ⟨found, hfound, hid, hmod⟩ := ih h
        refine ⟨found, hfound, hid, hmod.trans ?_⟩
        rw [Nat.add_assoc, Nat.add_mod, nextSerial_mod, ← Nat.add_mod]
        congr 1
        omega

theorem examinedFrom_length_le (tableSize : Nat) (checkFunc : Nat → Bool)
    (resourceType count serial : Nat) :
    (examinedFrom tableSize checkFunc resourceType count serial).length ≤ count := by
  induction count generalizing serial with
  | zero => exact Nat.le_refl 0
  | succ count ih =>
    rw [examinedFrom, List.length_cons]
    split
    · exact Nat.succ_le_succ (ih _)
    · exact Nat.succ_le_succ (Nat.zero_le count)

/-- The ids examined are taken, but for the last one where that is the result. -/
theorem findNextFrom_examined (tableSize : Nat) (checkFunc : Nat → Bool)
    (resourceType count serial : Nat) :
    (∃ before, examinedFrom tableSize checkFunc resourceType count serial =
        before ++ [findNextFrom tableSize checkFunc resourceType count serial] ∧
      (∀ id ∈ before, checkFunc id = true) ∧
      checkFunc (findNextFrom tableSize checkFunc resourceType count serial) = false) ∨
    (findNextFrom tableSize checkFunc resourceType count serial = RESOURCEID_UNDEFINED ∧
      (examinedFrom tableSize checkFunc resourceType count serial).length = count ∧
      ∀ id ∈ examinedFrom tableSize checkFunc resourceType count serial, checkFunc id = true) := by
  induction count generalizing serial with
  | zero => exact .inr ⟨rfl, rfl, fun _ h => absurd h List.not_mem_nil⟩
  | succ count ih =>
    rw [examinedFrom, findNextFrom]
    by_cases htaken : checkFunc (resourceType + nextSerial tableSize serial) = true
    · rw [if_pos htaken, if_pos htaken]
      rcases ih (nextSerial tableSize serial) with ⟨before, heq, hall, hfree⟩ | ⟨hnone, hlen, hall⟩
      · refine .inl ⟨_ :: before, congrArg (_ :: ·) heq, ?_, hfree⟩
        exact List.forall_mem_cons.mpr ⟨htaken, hall⟩
      · exact .inr ⟨hnone, congrArg (· + 1) hlen, List.forall_mem_cons.mpr ⟨htaken, hall⟩⟩
    · rw [if_neg htaken, if_neg htaken]
      exact .inl ⟨[], rfl, fun _ h => absurd h List.not_mem_nil, Bool.eq_false_iff.mpr htaken⟩

/-- As long as the serial number does not wrap, the id found is as far behind the start as
ids have been examined. -/
theorem findNextFrom_nowrap
    (hwrap : serial + (examinedFrom tableSize checkFunc resourceType count serial).length <
      RESOURCEID_MAX)
    (hfound : findNextFrom tableSize checkFunc resourceType count serial ≠ RESOURCEID_UNDEFINED) :
    findNextFrom tableSize checkFunc resourceType count serial =
      resourceType + (serial +
        (examinedFrom tableSize checkFunc resourceType count serial).length) := by
  induction count generalizing serial with
  | zero => exact absurd rfl hfound
  | succ count ih =>
    rw [examinedFrom, List.length_cons] at hwrap ⊢
    have hnext : nextSerial tableSize serial = serial + 1 := if_neg (by omega)
    rw [findNextFrom] at hfound ⊢
    rw [hnext] at hfound hwrap ⊢
    split
    case isTrue htaken =>
      rw [if_pos htaken] at hfound hwrap
      rw [ih (by omega) hfound]
      omega
    case isFalse htaken => rfl

/-! ## Runs -/

/-- Every id of a run has the type of the first one, and none is behind the last. -/
structure IssuedUpTo (firstId lastId : Nat) (issued : List Nat) : Prop where
  base : resourceIdGetBase lastId = resourceIdGetBase firstId
  first : firstId ≤ lastId
  all : ∀ id ∈ issued, id ≤ lastId

/-- An allocation that does not wrap finds an id behind the last one. -/
theorem findNext_nowrap (hwrap : ¬ SerialWraps lastId tableSize checkFunc)
    (hfound : resourceIdFindNext lastId tableSize checkFunc ≠ RESOURCEID_UNDEFINED) :
    lastId < resourceIdFindNext lastId tableSize checkFunc ∧
      resourceIdGetBase (resourceIdFindNext lastId tableSize checkFunc) =
        resourceIdGetBase lastId := by
  have hlt := Nat.not_le.mp hwrap
  have hresult := findNextFrom_nowrap hlt hfound
  rw [← resourceIdFindNext, ← resourceIdExamined] at hresult
  have hexamined : 0 < (resourceIdExamined lastId tableSize checkFunc).length := by
    refine Nat.pos_of_ne_zero fun hzero => ?_
    cases tableSize with
    | zero => exact hfound rfl
    | succ size => exact absurd hzero (Nat.succ_ne_zero _)
  have hparts : resourceIdGetBase lastId + resourceIdGetSerial lastId = lastId :=
    Nat.sub_add_cancel (Nat.mod_le _ _)
  rw [hresult]
  exact ⟨by omega, resourceIdGetBase_add (resourceIdGetBase_isBase _) (Nat.le_of_lt hlt)⟩

theorem Allocated.issuedUpTo (h : Allocated tableSize firstId lastId issued) :
    IssuedUpTo firstId lastId issued := by
  induction h with
  | none => exact ⟨rfl, Nat.le_refl _, fun _ h => absurd h List.not_mem_nil⟩
  | next checkFunc _ hfound hwrap ih =>
    obtain ⟨hlater, hbase⟩ := findNext_nowrap hwrap hfound
    refine ⟨hbase.trans ih.base, ih.first.trans hlater.le, ?_⟩
    exact List.forall_mem_cons.mpr ⟨Nat.le_refl _, fun id hid => (ih.all id hid).trans hlater.le⟩

/-! ## Allocation -/

/-- What a search does in a table of slots that are taken or free: it tests the slots behind
that of the start, in cyclic order and none twice, up to a free one, whose id it returns. -/
structure Allocates (startId tableSize : Nat) [NeZero tableSize] (checkFunc : Nat → Bool)
    (taken : Fin tableSize → Bool) : Prop where
  cyclic : ∀ (n id : Nat), (resourceIdExamined startId tableSize checkFunc)[n]? = some id →
    resourceIdToIndex id (resourceIdGetBase startId) tableSize =
      some (Fin.ofNat tableSize (resourceIdGetSerial startId + 1 + n))
  once : ((resourceIdExamined startId tableSize checkFunc).map fun id =>
    resourceIdToIndex id (resourceIdGetBase startId) tableSize).Nodup
  found : (∃ i, taken i = false) →
    resourceIdGetBase (resourceIdFindNext startId tableSize checkFunc) =
        resourceIdGetBase startId ∧
      resourceIdGetSerial (resourceIdFindNext startId tableSize checkFunc) < RESOURCEID_MAX ∧
      (∃ i, resourceIdToIndex (resourceIdFindNext startId tableSize checkFunc)
          (resourceIdGetBase startId) tableSize = some i ∧ taken i = false) ∧
      ∃ before, resourceIdExamined startId tableSize checkFunc =
          before ++ [resourceIdFindNext startId tableSize checkFunc] ∧
        ∀ id ∈ before, ∃ i,
          resourceIdToIndex id (resourceIdGetBase startId) tableSize = some i ∧ taken i = true
  exhausted : (∀ i, taken i = true) →
    resourceIdFindNext startId tableSize checkFunc = RESOURCEID_UNDEFINED ∧
      ∀ i, ((resourceIdExamined startId tableSize checkFunc).map fun id =>
        resourceIdToIndex id (resourceIdGetBase startId) tableSize).count (some i) = 1
  defined : resourceIdGetBase startId ≠ 0 →
    (resourceIdFindNext startId tableSize checkFunc ≠ RESOURCEID_UNDEFINED ↔ ∃ i, taken i = false)

section OneSearch
variable [NeZero tableSize] {taken : Fin tableSize → Bool}

theorem resourceIdGetBase_lt (hstart : startId < 2 ^ 32) : resourceIdGetBase startId < 2 ^ 32 :=
  (Nat.sub_le _ _).trans_lt hstart

theorem examined_get (hsize : tableSize < RESOURCEID_MAX) (hstart : startId < 2 ^ 32) {n id : Nat}
    (h : (resourceIdExamined startId tableSize checkFunc)[n]? = some id) :
    resourceIdToIndex id (resourceIdGetBase startId) tableSize =
      some (Fin.ofNat tableSize (resourceIdGetSerial startId + 1 + n)) := by
  obtain ⟨found, hfound, rfl, hmod⟩ := examinedFrom_get (Nat.pos_of_neZero tableSize) hsize h
  rw [resourceIdToIndex_add (resourceIdGetBase_isBase _) (resourceIdGetBase_lt hstart) hfound.le]
  exact congrArg some (Fin.ext hmod)

theorem ofNat_add_inj {a m n : Nat} (hm : m < tableSize) (hn : n < tableSize)
    (h : Fin.ofNat tableSize (a + m) = Fin.ofNat tableSize (a + n)) : m = n := by
  have hmod : Nat.ModEq tableSize (a + m) (a + n) := congrArg Fin.val h
  exact (Nat.ModEq.add_left_cancel' a hmod).eq_of_lt_of_lt hm hn

theorem examined_nodup (hsize : tableSize < RESOURCEID_MAX) (hstart : startId < 2 ^ 32)
    (checkFunc : Nat → Bool) :
    ((resourceIdExamined startId tableSize checkFunc).map fun id =>
      resourceIdToIndex id (resourceIdGetBase startId) tableSize).Nodup := by
  have hlen : (resourceIdExamined startId tableSize checkFunc).length ≤ tableSize :=
    examinedFrom_length_le ..
  rw [List.Nodup, List.pairwise_map, List.pairwise_iff_getElem]
  intro m n hm hn hmn heq
  rw [examined_get hsize hstart (List.getElem?_eq_getElem hm),
    examined_get hsize hstart (List.getElem?_eq_getElem hn)] at heq
  exact hmn.ne (ofNat_add_inj (hm.trans_le hlen) (hn.trans_le hlen) (Option.some.inj heq))

/-- A search that examines as many ids as there are slots comes to every slot. -/
theorem examined_mem (hsize : tableSize < RESOURCEID_MAX) (hstart : startId < 2 ^ 32)
    (hlen : (resourceIdExamined startId tableSize checkFunc).length = tableSize)
    (i : Fin tableSize) :
    ∃ id ∈ resourceIdExamined startId tableSize checkFunc,
      resourceIdToIndex id (resourceIdGetBase startId) tableSize = some i := by
  have hinj : Function.Injective fun n : Fin tableSize =>
      Fin.ofNat tableSize (resourceIdGetSerial startId + 1 + n) :=
    fun m n h => Fin.ext (ofNat_add_inj m.isLt n.isLt h)
  obtain ⟨n, rfl⟩ := Finite.surjective_of_injective hinj i
  have hn : n.val < (resourceIdExamined startId tableSize checkFunc).length :=
    n.isLt.trans_eq hlen.symm
  exact ⟨_, List.getElem_mem hn, examined_get hsize hstart (List.getElem?_eq_getElem hn)⟩

theorem resourceIdGetBase_undefined : resourceIdGetBase RESOURCEID_UNDEFINED = 0 := rfl

theorem allocates_of_index (hsize : tableSize < RESOURCEID_MAX) (hstart : startId < 2 ^ 32)
    (hcheck : ∀ id i,
      resourceIdToIndex id (resourceIdGetBase startId) tableSize = some i →
        checkFunc id = taken i) :
    Allocates startId tableSize checkFunc taken := by
  have hindex : ∀ id ∈ resourceIdExamined startId tableSize checkFunc, ∃ i,
      resourceIdToIndex id (resourceIdGetBase startId) tableSize = some i := by
    intro id hid
    obtain ⟨n, hn⟩ := List.mem_iff_getElem?.mp hid
    exact ⟨_, examined_get hsize hstart hn⟩
  have hspec := findNextFrom_examined tableSize checkFunc (resourceIdGetBase startId) tableSize
    (resourceIdGetSerial startId)
  rw [← resourceIdFindNext, ← resourceIdExamined] at hspec
  have hfound : ∀ free, taken free = false →
      ∃ before, resourceIdExamined startId tableSize checkFunc =
          before ++ [resourceIdFindNext startId tableSize checkFunc] ∧
        (∀ id ∈ before, checkFunc id = true) ∧
        checkFunc (resourceIdFindNext startId tableSize checkFunc) = false := by
    intro free hfree
    rcases hspec with hspec | ⟨-, hlen, hall⟩
    · exact hspec
    · -- all slots come up in the search, and so does the free one
      obtain ⟨id, hid, hi⟩ := examined_mem hsize hstart hlen free
      exact absurd ((hcheck id free hi).symm.trans (hall id hid)) (by simp [hfree])
  have hexhausted : (∀ i, taken i = true) →
      resourceIdFindNext startId tableSize checkFunc = RESOURCEID_UNDEFINED ∧
        (resourceIdExamined startId tableSize checkFunc).length = tableSize := by
    intro htaken
    rcases hspec with ⟨before, heq, -, hresult⟩ | ⟨hnone, hlen, -⟩
    · obtain ⟨i, hi⟩ := hindex (resourceIdFindNext startId tableSize checkFunc)
        (heq ▸ List.mem_append_right _ (List.mem_singleton.mpr rfl))
      exact absurd ((hcheck _ i hi).trans (htaken i)) (by simp [hresult])
    · exact ⟨hnone, hlen⟩
  have hserial : ∀ before, resourceIdExamined startId tableSize checkFunc =
      before ++ [resourceIdFindNext startId tableSize checkFunc] →
      ∃ serial < RESOURCEID_MAX,
        resourceIdFindNext startId tableSize checkFunc = resourceIdGetBase startId + serial := by
    intro before heq
    obtain ⟨n, hn⟩ := List.mem_iff_getElem?.mp (heq ▸ List.mem_append_right before
      (List.mem_singleton.mpr rfl) : resourceIdFindNext startId tableSize checkFunc ∈
        resourceIdExamined startId tableSize checkFunc)
    obtain ⟨serial, hserial, hid, -⟩ := examinedFrom_get (Nat.pos_of_neZero tableSize) hsize hn
    exact ⟨serial, hserial, hid⟩
  refine ⟨fun n id => examined_get hsize hstart, examined_nodup hsize hstart checkFunc, ?_, ?_, ?_⟩
  · rintro ⟨free, hfree⟩
    obtain ⟨before, heq, hbefore, hresult⟩ := hfound free hfree
    obtain ⟨serial, hlt, hid⟩ := hserial before heq
    obtain ⟨i, hi⟩ := hindex (resourceIdFindNext startId tableSize checkFunc)
      (heq ▸ List.mem_append_right _ (List.mem_singleton.mpr rfl))
    refine ⟨?_, ?_, ⟨i, hi, (hcheck _ i hi).symm.trans hresult⟩, before, heq, fun id hid => ?_⟩
    · rw [hid]
      exact resourceIdGetBase_add (resourceIdGetBase_isBase _) hlt.le
    · rw [hid, resourceIdGetSerial_add (resourceIdGetBase_isBase _) hlt.le]
      exact hlt
    · obtain ⟨j, hj⟩ := hindex id (heq ▸ List.mem_append_left _ hid)
      exact ⟨j, hj, (hcheck id j hj).symm.trans (hbefore id hid)⟩
  · intro htaken
    obtain ⟨hnone, hlen⟩ := hexhausted htaken
    refine ⟨hnone, fun i => ?_⟩
    obtain ⟨id, hid, hi⟩ := examined_mem hsize hstart hlen i
    exact List.count_eq_one_of_mem (examined_nodup hsize hstart checkFunc)
      (List.mem_map.mpr ⟨id, hid, hi⟩)
  · intro hbase
    refine ⟨fun hdefined => ?_, fun ⟨free, hfree⟩ hnone => ?_⟩
    · by_contra hno
      have htaken : ∀ i, taken i = true := fun i => by simpa using not_exists.mp hno i
      exact hdefined (hexhausted htaken).1
    · obtain ⟨before, heq, -⟩ := hfound free hfree
      obtain ⟨serial, hlt, hid⟩ := hserial before heq
      have hzero := congrArg resourceIdGetBase hid
      rw [resourceIdGetBase_add (resourceIdGetBase_isBase _) hlt.le, hnone,
        resourceIdGetBase_undefined] at hzero
      exact hbase hzero.symm

end OneSearch

/-- A search allocates whenever a slot is free, after it has been through the slots before that
one in cyclic order, and what a run of allocations without a wrap comes to next is an id
that it has not issued. -/
theorem findNext_allocates_fresh_slot [NeZero tableSize] (hsize : tableSize < RESOURCEID_MAX)
    (hstart : startId < 2 ^ 32) (checkFunc : Nat → Bool) (taken : Fin tableSize → Bool)
    (hcheck : ∀ id i,
      resourceIdToIndex id (resourceIdGetBase startId) tableSize = some i →
        checkFunc id = taken i) :
    Allocates startId tableSize checkFunc taken ∧
      ∀ firstId issued, Allocated tableSize firstId startId issued →
        resourceIdFindNext startId tableSize checkFunc ≠ RESOURCEID_UNDEFINED →
        ¬ SerialWraps startId tableSize checkFunc →
        resourceIdFindNext startId tableSize checkFunc ∉ firstId :: issued := by
  refine ⟨allocates_of_index hsize hstart hcheck, fun firstId issued hrun hfound hwrap hmem => ?_⟩
  obtain ⟨hlater, -⟩ := findNext_nowrap hwrap hfound
  have hupto := hrun.issuedUpTo
  rcases List.mem_cons.mp hmem with hfirst | hissued
  · exact absurd hupto.first (Nat.not_le.mpr (hfirst ▸ hlater))
  · exact absurd (hupto.all _ hissued) (Nat.not_le.mpr hlater)

scoped instance fourSlots : NeZero 4 := ⟨by decide⟩

/-- Of four slots the last two are taken. -/
def lastTwoTaken (id : Nat) : Bool :=
  (resourceIdToIndex id 0x20000 4).elim true fun i => decide (2 ≤ i.val)

theorem findNext_allocates_fresh_slot_of_four :
    Allocates 0x20001 4 lastTwoTaken (2 ≤ ·) ∧
      resourceIdFindNext 0x20001 4 lastTwoTaken = 0x20004 ∧ 0x20004 ∉ [0x20000, 0x20001] := by
  have hcheck : ∀ id i, resourceIdToIndex id (resourceIdGetBase 0x20001) 4 = some i →
      lastTwoTaken id = decide (2 ≤ i) := by
    intro id i h
    have hindex : resourceIdToIndex id 0x20000 4 = some i := h
    rw [lastTwoTaken, hindex, Option.elim_some]
    rfl
  have hfirst : resourceIdFindNext 0x20000 4 lastTwoTaken = 0x20001 := by decide
  have hrun := (Allocated.none : Allocated 4 0x20000 0x20000 []).next lastTwoTaken
    (by decide) (by decide)
  rw [hfirst] at hrun
  have hnext : resourceIdFindNext 0x20001 4 lastTwoTaken = 0x20004 := by decide
  have hspec := @findNext_allocates_fresh_slot 4 0x20001 _ (by decide) (by decide) lastTwoTaken
    (2 ≤ ·) hcheck
  have hfresh := hspec.2 _ _ hrun (by decide) (by decide)
  rw [hnext] at hfresh
  exact ⟨hspec.1, hnext, hfresh⟩

end Nos3.Es
