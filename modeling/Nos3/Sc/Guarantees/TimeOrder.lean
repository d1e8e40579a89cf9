import Nos3.Sc.Source.TimeIndex
import Mathlib.Algebra.Group.Nat.Defs

/-!
# The order of the time index

Where the time tags lie within half of their range, the comparison of two of them is that
of their distances from the first, and the insertion keeps the list in order. Commands of
one time stay in the order of their numbers, in which they are inserted.
-/
namespace Nos3.Sc

/-- The tag lies in the half of the range from `base` on; the tag opposite to it only where
it is not passed zero. -/
def WithinHalf (base time : BitVec 32) : Prop :=
  (time - base).toNat ≤ 2 ^ 31 ∧ ((time - base).toNat = 2 ^ 31 → base ≤ time)

theorem compareAbsTime_iff {base t u : BitVec 32} (ht : WithinHalf base t)
    (hu : WithinHalf base u) :
    compareAbsTime t u = true ↔ (u - base).toNat < (t - base).toNat := by
  obtain ⟨ht, htend⟩ := ht
  obtain ⟨hu, huend⟩ := hu
  rw [BitVec.le_def] at htend huend
  have hneg : CFE_TIME_NEGATIVE.toNat = 2 ^ 31 := rfl
  simp only [compareAbsTime, gt_iff_lt, BitVec.lt_def, BitVec.toNat_sub, hneg] at *
  have := t.isLt
  have := u.isLt
  have := base.isLt
  split
  · simp
    omega
  · split
    · simp
      omega
    · simp
      omega

/-- The commands of two numbers are in order: by time, and by number within one time. -/
def AtsData.Earlier (d : AtsData) (before : BitVec 32 → BitVec 32 → Prop) (m n : Nat) : Prop :=
  ∃ t u, d.cmdNumTime m = some t ∧ d.cmdNumTime n = some u ∧ (before t u ∨ t = u ∧ m < n)

/-- The order of the distances from a tag. -/
def fromBase (base t u : BitVec 32) : Prop := (t - base).toNat < (u - base).toNat

/-- All tags of the commands lie within half of the range. -/
def AtsData.Within (d : AtsData) (base : BitVec 32) : Prop :=
  ∀ i t, d.entryTime i = some t → WithinHalf base t

section Order
variable {d : AtsData} {base newCmdTime : BitVec 32} {newCmdNum : Nat}

theorem AtsData.Within.of_number (h : d.Within base) {n : Nat} {t : BitVec 32}
    (ht : d.cmdNumTime n = some t) : WithinHalf base t := by
  obtain ⟨i, -, hi⟩ := Option.bind_eq_some_iff.mp ht
  exact h i t hi

theorem AtsData.Earlier.le {m n : Nat} {t u : BitVec 32} (h : d.Earlier (fromBase base) m n)
    (ht : d.cmdNumTime m = some t) (hu : d.cmdNumTime n = some u) :
    (t - base).toNat ≤ (u - base).toNat := by
  obtain ⟨t', u', ht', hu', horder⟩ := h
  obtain rfl := Option.some.inj (ht.symm.trans ht')
  obtain rfl := Option.some.inj (hu.symm.trans hu')
  rcases horder with hlt | ⟨rfl, -⟩
  · exact Nat.le_of_lt hlt
  · exact Nat.le_refl _

theorem eq_of_distance {t u : BitVec 32} (h : (t - base).toNat = (u - base).toNat) : t = u := by
  have hsub := BitVec.eq_of_toNat_eq h
  rw [← BitVec.sub_add_cancel t base, hsub, BitVec.sub_add_cancel]

theorem insertLoop_members {list result : List Nat}
    (h : insertLoop d newCmdTime newCmdNum list = some result) :
    result.Perm (newCmdNum :: list) := by
  induction list generalizing result with
  | nil =>
    rw [← Option.some.inj h]
  | cons last before ih =>
    rw [insertLoop] at h
    obtain ⟨listCmdTime, -, h⟩ := Option.bind_eq_some_iff.mp h
    split at h
    · obtain ⟨rest, hrest, rfl⟩ := Option.map_eq_some_iff.mp h
      exact ((ih hrest).cons last).trans (List.Perm.swap newCmdNum last before)
    · rw [← Option.some.inj h]

/-- The list is walked from its last command on, so the order is the other way round. -/
theorem insertLoop_sorted (hwithin : d.Within base) (hnew : d.cmdNumTime newCmdNum = some newCmdTime)
    {reversed result : List Nat} (hnumbers : ∀ n ∈ reversed, n < newCmdNum)
    (hsorted : reversed.Pairwise fun m n => d.Earlier (fromBase base) n m)
    (h : insertLoop d newCmdTime newCmdNum reversed = some result) :
    result.Pairwise fun m n => d.Earlier (fromBase base) n m := by
  induction reversed generalizing result with
  | nil =>
    rw [← Option.some.inj h]
    exact List.pairwise_singleton _ _
  | cons last before ih =>
    obtain ⟨hlast, hbefore⟩ := List.pairwise_cons.mp hsorted
    obtain ⟨hnumber, hrestNumbers⟩ := List.forall_mem_cons.mp hnumbers
    rw [insertLoop] at h
    obtain ⟨listCmdTime, htime, h⟩ := Option.bind_eq_some_iff.mp h
    have hcompare := compareAbsTime_iff (hwithin.of_number htime) (hwithin.of_number hnew)
    split at h
    case isTrue hlater =>
      obtain ⟨rest, hrest, rfl⟩ := Option.map_eq_some_iff.mp h
      apply List.pairwise_cons.mpr
      constructor
      · intro n hn
        rcases List.mem_cons.mp ((insertLoop_members hrest).mem_iff.mp hn) with rfl | hold
        · exact ⟨newCmdTime, listCmdTime, hnew, htime, .inl (hcompare.mp hlater)⟩
        · exact hlast n hold
      · exact ih hrestNumbers hbefore hrest
    case isFalse hearlier =>
      rw [← Option.some.inj h]
      apply List.pairwise_cons.mpr
      refine ⟨?_, hsorted⟩
      have hend : (listCmdTime - base).toNat ≤ (newCmdTime - base).toNat :=
        Nat.not_lt.mp fun hlt => hearlier (hcompare.mpr hlt)
      intro n hn
      have hle : ∃ t, d.cmdNumTime n = some t ∧ (t - base).toNat ≤ (newCmdTime - base).toNat := by
        rcases List.mem_cons.mp hn with rfl | hold
        · exact ⟨listCmdTime, htime, hend⟩
        · obtain ⟨t, -, ht, -, -⟩ := hlast n hold
          exact ⟨t, ht, ((hlast n hold).le ht htime).trans hend⟩
      obtain ⟨t, ht, hle⟩ := hle
      refine ⟨t, newCmdTime, ht, hnew, ?_⟩
      rcases Nat.lt_or_eq_of_le hle with hlt | heq
      · exact .inl hlt
      · exact .inr ⟨eq_of_distance heq, hnumbers n hn⟩

theorem insert_sorted (hwithin : d.Within base) (htimed : d.Timed) {list result : List Nat}
    {i : CmdIndex} (hi : (d.cmdIndex i).isSome) (hnumbers : ∀ n ∈ list, n < i.val + 1)
    (hsorted : list.Pairwise (d.Earlier (fromBase base))) (h : insert d list i = some result) :
    result.Pairwise (d.Earlier (fromBase base)) ∧ result.Perm ((i.val + 1) :: list) := by
  obtain ⟨time, htime, h⟩ := Option.bind_eq_some_iff.mp h
  obtain ⟨reversed, hloop, rfl⟩ := Option.map_eq_some_iff.mp h
  have hperm := insertLoop_members hloop
  constructor
  · rw [List.pairwise_reverse]
    cases list with
    | nil =>
      rw [← Option.some.inj hloop]
      exact List.pairwise_singleton _ _
    | cons first rest =>
      obtain ⟨tag, htag⟩ := Option.isSome_iff_exists.mp (htimed i hi)
      obtain rfl := Option.some.inj (htag.symm.trans htime)
      have hnew : d.cmdNumTime (i.val + 1) = some tag := by
        rw [AtsData.cmdNumTime, atsCmdNumToIndex_succ]
        exact htag
      apply insertLoop_sorted hwithin hnew _ _ hloop
      · intro n hn
        exact hnumbers n (List.mem_reverse.mp hn)
      · rw [List.pairwise_reverse]
        exact hsorted
  · exact (List.reverse_perm _).trans (hperm.trans ((List.reverse_perm list).cons _))

/-- The loop of the build over command indices that grow. -/
theorem foldlM_insert_sorted (hwithin : d.Within base) (htimed : d.Timed)
    {indices : List CmdIndex} {list result : List Nat} (hindices : indices.Pairwise (· < ·))
    (hnumbers : ∀ n ∈ list, ∀ i ∈ indices, n < i.val + 1)
    (hsorted : list.Pairwise (d.Earlier (fromBase base)))
    (h : indices.foldlM
      (fun list i => if (d.cmdIndex i).isSome then insert d list i else some list) list
        = some result) :
    result.Pairwise (d.Earlier (fromBase base)) := by
  induction indices generalizing list with
  | nil =>
    rw [← Option.some.inj h]
    exact hsorted
  | cons i indices ih =>
    obtain ⟨hfirst, hrest⟩ := List.pairwise_cons.mp hindices
    rw [List.foldlM_cons] at h
    obtain ⟨next, hround, h⟩ := Option.bind_eq_some_iff.mp h
    split at hround
    case isTrue hused =>
      have hi : ∀ n ∈ list, n < i.val + 1 := fun n hn => hnumbers n hn i List.mem_cons_self
      obtain ⟨hnext, hperm⟩ := insert_sorted hwithin htimed hused hi hsorted hround
      apply ih hrest _ hnext h
      intro n hn j hj
      rcases List.mem_cons.mp (hperm.mem_iff.mp hn) with rfl | hold
      · exact Nat.succ_lt_succ (hfirst j hj)
      · exact hnumbers n hold j (List.mem_cons_of_mem i hj)
    case isFalse =>
      rw [← Option.some.inj hround] at h
      exact ih hrest (fun n hn j hj => hnumbers n hn j (List.mem_cons_of_mem i hj)) hsorted h

/-- The time index is in order where the tags lie within half of their range. -/
theorem buildTimeIndexTable_sorted {d' : AtsData} (hwithin : d.Within base) (htimed : d.Timed)
    (h : buildTimeIndexTable d = some d') :
    d'.timeIndex.Pairwise (d.Earlier (fromBase base)) := by
  rw [buildTimeIndexTable] at h
  obtain ⟨timeIndex, hfold, heq⟩ := Option.bind_eq_some_iff.mp h
  obtain rfl := Option.some.inj heq
  have hindices := List.pairwise_lt_finRange SC_MAX_ATS_CMDS
  exact foldlM_insert_sorted hwithin htimed hindices (fun _ hn => absurd hn List.not_mem_nil)
    List.Pairwise.nil hfold

/-- No two tags of the commands are further apart than half of the range. -/
def AtsData.CloseTags (d : AtsData) : Prop :=
  ∀ i j t u, d.entryTime i = some t → d.entryTime j = some u → t.toNat ≤ u.toNat + 2 ^ 31

/-- Close tags lie within half of the range from the smallest on. -/
theorem AtsData.CloseTags.within (h : d.CloseTags) :
    ∃ base, d.Within base ∧ ∀ i t, d.entryTime i = some t → base ≤ t := by
  classical
  by_cases htags : ∃ k i t, d.entryTime i = some t ∧ t.toNat = k
  · obtain ⟨i, base, hbase, hmin⟩ := Nat.find_spec htags
    have hsmallest (j : CmdIndex) (t : BitVec 32) (ht : d.entryTime j = some t) : base ≤ t := by
      rw [BitVec.le_def, hmin]
      exact Nat.find_min' htags ⟨j, t, ht, rfl⟩
    refine ⟨base, fun j t ht => ?_, hsmallest⟩
    have hle := hsmallest j t ht
    have hdistance : (t - base).toNat = t.toNat - base.toNat := BitVec.toNat_sub_of_le hle
    have hhalf := h j i t base ht hbase
    exact ⟨by omega, fun _ => hle⟩
  · have hnone (i : CmdIndex) (t : BitVec 32) : d.entryTime i ≠ some t :=
      fun ht => htags ⟨t.toNat, i, t, ht, rfl⟩
    exact ⟨0, fun i t ht => absurd ht (hnone i t), fun i t ht => absurd ht (hnone i t)⟩

/-- Behind the smallest tag the distances from it are in the order of the tags. -/
theorem AtsData.Earlier.plain {m n : Nat} (hbase : ∀ i t, d.entryTime i = some t → base ≤ t)
    (h : d.Earlier (fromBase base) m n) : d.Earlier (· < ·) m n := by
  have hnumber (k : Nat) (t : BitVec 32) (ht : d.cmdNumTime k = some t) :
      (t - base).toNat = t.toNat - base.toNat ∧ base.toNat ≤ t.toNat := by
    obtain ⟨i, -, hi⟩ := Option.bind_eq_some_iff.mp ht
    exact ⟨BitVec.toNat_sub_of_le (hbase i t hi), hbase i t hi⟩
  obtain ⟨t, u, ht, hu, horder⟩ := h
  refine ⟨t, u, ht, hu, horder.imp_left fun hlt => ?_⟩
  obtain ⟨htime, htbase⟩ := hnumber m t ht
  obtain ⟨hutime, hubase⟩ := hnumber n u hu
  rw [fromBase, htime, hutime] at hlt
  rw [BitVec.lt_def]
  omega

theorem buildTimeIndexTable_sorted_plain {d' : AtsData} (hclose : d.CloseTags) (htimed : d.Timed)
    (h : buildTimeIndexTable d = some d') : d'.timeIndex.Pairwise (d.Earlier (· < ·)) := by
  obtain ⟨base, hwithin, hbase⟩ := hclose.within
  apply (buildTimeIndexTable_sorted hwithin htimed h).imp
  intro m n hearlier
  exact hearlier.plain hbase

/-- The numbers of the commands in use, from the first on. -/
def AtsData.inUse (d : AtsData) : List Nat :=
  ((List.finRange SC_MAX_ATS_CMDS).filter fun i => (d.cmdIndex i).isSome).map fun i => i.val + 1

theorem buildTimeIndexTable_perm {d' : AtsData} (htimed : d.Timed)
    (h : buildTimeIndexTable d = some d') : d'.timeIndex.Perm d.inUse := by
  have hnone : d.Numbers [] := nofun
  rw [buildTimeIndexTable] at h
  rw [AtsData.inUse]
  -- the list of the indices would be evaluated
  generalize List.finRange SC_MAX_ATS_CMDS = indices at h ⊢
  obtain ⟨result, hresult, hperm⟩ := foldlM_insert_perm htimed indices hnone
  rw [hresult] at h
  obtain rfl := Option.some.inj h
  rwa [List.append_nil] at hperm

end Order

section Rebuild
variable {d d' built : AtsData}

theorem insertLoop_congr (htime : d'.entryTime = d.entryTime) (newCmdTime : BitVec 32)
    (newCmdNum : Nat) (list : List Nat) :
    insertLoop d' newCmdTime newCmdNum list = insertLoop d newCmdTime newCmdNum list := by
  induction list with
  | nil => rfl
  | cons last before ih =>
    have hlast : d'.cmdNumTime last = d.cmdNumTime last := by
      rw [AtsData.cmdNumTime, AtsData.cmdNumTime, htime]
    rw [insertLoop, insertLoop, hlast, ih]

theorem insert_congr (htime : d'.entryTime = d.entryTime) (list : List Nat) (i : CmdIndex) :
    insert d' list i = insert d list i := by
  simp only [insert, newCmdTime, htime, insertLoop_congr htime]

/-- The build reads the offsets and the time tags and nothing else, so an ATS that has them and
the built list is one the build leaves as it is. -/
theorem buildTimeIndexTable_again (h : buildTimeIndexTable d = some built)
    (htime : d'.entryTime = d.entryTime) (hindex : d'.cmdIndex = d.cmdIndex)
    (hlist : d'.timeIndex = built.timeIndex) : buildTimeIndexTable d' = some d' := by
  have hsame : (fun list i => if (d'.cmdIndex i).isSome then insert d' list i else some list) =
      fun list i => if (d.cmdIndex i).isSome then insert d list i else some list := by
    funext list i
    rw [hindex, insert_congr htime]
  rw [buildTimeIndexTable] at h ⊢
  rw [hsame]
  obtain ⟨timeIndex, hfold, heq⟩ := Option.bind_eq_some_iff.mp h
  obtain rfl := Option.some.inj heq
  have hkept : d'.timeIndex = timeIndex := hlist
  rw [hfold, Option.bind_eq_bind, Option.bind_some, ← hkept]

end Rebuild

end Nos3.Sc
