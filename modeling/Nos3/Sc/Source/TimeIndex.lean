import Nos3.Sc.Source.Tables
import Mathlib.Data.Fintype.Basic
import Mathlib.Data.Fintype.Card
import Mathlib.Data.List.FinRange

/-!
# The time index

Building the time index lists the number of every command in use once. It never
fails where the time of each of them can be read.
-/
namespace Nos3.Sc
open Function (update update_self update_of_ne)

theorem atsCmdNumToIndex_eq_some {cmdNum : Nat} {i : CmdIndex}
    (h : atsCmdNumToIndex cmdNum = some i) : cmdNum = i.val + 1 := by
  rw [atsCmdNumToIndex] at h
  split at h
  · cases h
    simp only
    omega
  · cases h

theorem atsCmdNumToIndex_succ (i : CmdIndex) : atsCmdNumToIndex (i.val + 1) = some i := by
  rw [atsCmdNumToIndex, dif_pos ⟨Nat.succ_pos _, i.isLt⟩]
  rfl

theorem AtsData.entryTime_eq {d : AtsData} {table : AtsTable} {i : CmdIndex} {o : Nat}
    (htbl : d.tbl = some table) (hindex : d.cmdIndex i = some o) :
    d.entryTime i = getAtsEntryTime table.cells o := by
  rw [AtsData.entryTime, htbl, hindex]
  rfl

/-- The commands of an ATS. -/
def AtsData.used (d : AtsData) : Finset CmdIndex :=
  Finset.univ.filter fun i => (d.cmdIndex i).isSome

theorem AtsData.mem_used {d : AtsData} {i : CmdIndex} :
    i ∈ d.used ↔ (d.cmdIndex i).isSome = true :=
  Finset.mem_filter.trans (and_iff_right (Finset.mem_univ i))

/-- Every command in use has a readable time tag. -/
def AtsData.Timed (d : AtsData) : Prop := ∀ i, (d.cmdIndex i).isSome → (d.entryTime i).isSome

/-- A list of numbers of commands in use. -/
def AtsData.Numbers (d : AtsData) (list : List Nat) : Prop :=
  ∀ cmdNum ∈ list, ∃ i : CmdIndex, cmdNum = i.val + 1 ∧ (d.cmdIndex i).isSome

theorem AtsData.Numbers.time {d : AtsData} {list : List Nat} (hlist : d.Numbers list)
    (htimed : d.Timed) {cmdNum : Nat} (h : cmdNum ∈ list) :
    ∃ time, d.cmdNumTime cmdNum = some time := by
  obtain ⟨i, rfl, hused⟩ := hlist cmdNum h
  rw [AtsData.cmdNumTime, atsCmdNumToIndex_succ]
  exact Option.isSome_iff_exists.mp (htimed i hused)

theorem insertLoop_perm {d : AtsData} (newCmdTime : BitVec 32) (newCmdNum : Nat) {list : List Nat}
    (htimes : ∀ cmdNum ∈ list, ∃ time, d.cmdNumTime cmdNum = some time) :
    ∃ result, insertLoop d newCmdTime newCmdNum list = some result ∧
      result.Perm (newCmdNum :: list) := by
  induction list with
  | nil => exact ⟨_, rfl, List.Perm.refl _⟩
  | cons last before ih =>
    obtain ⟨⟨time, htime⟩, hbefore⟩ := List.forall_mem_cons.mp htimes
    obtain ⟨result, hresult, hperm⟩ := ih hbefore
    rw [insertLoop, htime, Option.bind_eq_bind, Option.bind_some]
    split
    · rw [hresult]
      exact ⟨_, rfl, (hperm.cons last).trans (List.Perm.swap newCmdNum last before)⟩
    · exact ⟨_, rfl, List.Perm.refl _⟩

theorem insert_perm {d : AtsData} (htimed : d.Timed) {list : List Nat} (hlist : d.Numbers list)
    {i : CmdIndex} (hi : (d.cmdIndex i).isSome) :
    ∃ result, insert d list i = some result ∧ result.Perm ((i.val + 1) :: list) := by
  have htime : ∃ time, newCmdTime d list i = some time := by
    rw [newCmdTime]
    split
    · exact ⟨0, rfl⟩
    · exact Option.isSome_iff_exists.mp (htimed i hi)
  obtain ⟨time, htime⟩ := htime
  have htimes : ∀ cmdNum ∈ list.reverse, ∃ time, d.cmdNumTime cmdNum = some time :=
    fun cmdNum h => hlist.time htimed (List.mem_reverse.mp h)
  obtain ⟨result, hresult, hperm⟩ := insertLoop_perm time (i.val + 1) htimes
  rw [insert, htime, Option.bind_eq_bind, Option.bind_some, hresult]
  exact ⟨_, rfl, (List.reverse_perm _).trans (hperm.trans ((List.reverse_perm list).cons _))⟩

/-- The loop of the build over the remaining command indices. -/
theorem foldlM_insert_perm {d : AtsData} (htimed : d.Timed) (indices : List CmdIndex)
    {list : List Nat} (hlist : d.Numbers list) :
    ∃ result, indices.foldlM
        (fun list i => if (d.cmdIndex i).isSome then insert d list i else some list) list =
          some result ∧
      result.Perm ((indices.filter fun i => (d.cmdIndex i).isSome).map (fun i => i.val + 1) ++
        list) := by
  induction indices generalizing list with
  | nil => exact ⟨list, rfl, List.Perm.refl _⟩
  | cons i indices ih =>
    rw [List.foldlM_cons]
    by_cases hi : (d.cmdIndex i).isSome
    · obtain ⟨next, hnext, hperm⟩ := insert_perm htimed hlist hi
      have hnumbers : d.Numbers next := fun cmdNum h => by
        obtain rfl | h := List.mem_cons.mp (hperm.mem_iff.mp h)
        · exact ⟨i, rfl, hi⟩
        · exact hlist cmdNum h
      obtain ⟨result, hresult, hresultPerm⟩ := ih hnumbers
      rw [if_pos hi, hnext, Option.bind_eq_bind, Option.bind_some, List.filter_cons, if_pos hi]
      exact ⟨result, hresult, hresultPerm.trans
        ((hperm.append_left _).trans List.perm_middle)⟩
    · rw [if_neg hi, Option.bind_eq_bind, Option.bind_some, List.filter_cons, if_neg hi]
      exact ih hlist

theorem length_filter_finRange {n : Nat} (p : Fin n → Bool) :
    ((List.finRange n).filter p).length = (Finset.univ.filter fun i => p i).card := by
  have hnodup : ((List.finRange n).filter p).Nodup := (List.nodup_finRange n).filter p
  rw [← List.toFinset_card_of_nodup hnodup]
  refine congrArg Finset.card ?_
  ext i
  simp

/-- The built index lists the commands in use. -/
theorem buildTimeIndexTable_spec {d : AtsData} (htimed : d.Timed) :
    ∃ timeIndex, buildTimeIndexTable d = some { d with timeIndex := timeIndex } ∧
      timeIndex.length = d.used.card ∧ d.Numbers timeIndex := by
  have hnone : d.Numbers [] := nofun
  obtain ⟨result, hresult, hperm⟩ :=
    foldlM_insert_perm htimed (List.finRange SC_MAX_ATS_CMDS) hnone
  rw [List.append_nil] at hperm
  refine ⟨result, ?_, ?_, fun cmdNum h => ?_⟩
  · rw [buildTimeIndexTable, hresult]
    rfl
  · rw [hperm.length_eq, List.length_map, length_filter_finRange]
    rfl
  · obtain ⟨i, hi, rfl⟩ := List.mem_map.mp (hperm.mem_iff.mp h)
    exact ⟨i, rfl, (List.mem_filter.mp hi).2⟩

theorem AtsData.used_card_addEntry {d : AtsData} {i : CmdIndex} (h : d.cmdIndex i = none)
    (o : Nat) : (d.addEntry i o).used.card = d.used.card + 1 := by
  have hnot : i ∉ d.used := by simp [AtsData.mem_used, h]
  rw [← Finset.card_insert_of_notMem hnot]
  refine congrArg Finset.card ?_
  ext j
  rw [Finset.mem_insert, AtsData.mem_used, AtsData.mem_used]
  by_cases hj : j = i
  · subst hj
    simp [AtsData.addEntry]
  · simp [AtsData.addEntry, hj]

end Nos3.Sc

/-!
## The time index in its buffer

`SC_BuildTimeIndexTable` and `SC_Insert` on `AtsTimeIndexBuffer` itself, which has an
element for each command: entries move up one by one to make room, and each round
of the build clears one element first. The elements in use are the list that the
time index is elsewhere.
-/
namespace Nos3.Sc
open Function (update update_self update_of_ne)

/-- `AtsTimeIndexBuffer` of one ATS. -/
abbrev TimeBuffer := CmdIndex → Nat

def TimeBuffer.read (b : TimeBuffer) (k : Nat) : Option Nat :=
  if h : k < SC_MAX_ATS_CMDS then some (b ⟨k, h⟩) else none

def TimeBuffer.write (b : TimeBuffer) (k cmdNum : Nat) : Option TimeBuffer :=
  if h : k < SC_MAX_ATS_CMDS then some (update b ⟨k, h⟩ cmdNum) else none

/-- The loop of `SC_Insert`; `target` is `TimeBufIndex + 1`. -/
def shiftLoop (d : AtsData) (newCmdTime : BitVec 32) : Nat → TimeBuffer → Option (Nat × TimeBuffer)
  | 0, b => some (0, b)
  | target + 1, b => do
    let cmdNum ← b.read target
    let listCmdTime ← d.cmdNumTime cmdNum
    if compareAbsTime listCmdTime newCmdTime then
      let b ← b.write (target + 1) cmdNum
      shiftLoop d newCmdTime target b
    else some (target + 1, b)

/-- `NewCmdTime` of `SC_Insert`. -/
def timeToInsert (d : AtsData) (newCmdIndex : CmdIndex) (listLength : Nat) : Option (BitVec 32) :=
  if listLength > 0 then d.entryTime newCmdIndex else some 0

/-- `SC_Insert` -/
def insertInBuffer (d : AtsData) (newCmdIndex : CmdIndex) (listLength : Nat) (b : TimeBuffer) :
    Option TimeBuffer := do
  let newCmdTime ← timeToInsert d newCmdIndex listLength
  let (target, b) ← shiftLoop d newCmdTime listLength b
  b.write target (newCmdIndex + 1)

/-- The body of the loop of `SC_BuildTimeIndexTable`, with `ListLength`. -/
def buildRound (d : AtsData) (state : TimeBuffer × Nat) (i : CmdIndex) :
    Option (TimeBuffer × Nat) :=
  let b := update state.1 i SC_INVALID_CMD_NUMBER
  if (d.cmdIndex i).isSome then
    (insertInBuffer d i state.2 b).map fun b => (b, state.2 + 1)
  else some (b, state.2)

def buildTimeBuffer (d : AtsData) (b : TimeBuffer) : Option TimeBuffer :=
  ((List.finRange SC_MAX_ATS_CMDS).foldlM (buildRound d) (b, 0)).map Prod.fst

/-- The first elements are those of a list. -/
def TimeBuffer.Holds (b : TimeBuffer) (list : List Nat) : Prop :=
  ∀ k : CmdIndex, k.val < list.length → list[k.val]? = some (b k)

variable {d : AtsData} {b : TimeBuffer} {newCmdTime : BitVec 32} {newCmdNum : Nat}

theorem TimeBuffer.read_eq {k : Nat} (h : k < SC_MAX_ATS_CMDS) : b.read k = some (b ⟨k, h⟩) :=
  dif_pos h

theorem TimeBuffer.write_eq {k : Nat} (h : k < SC_MAX_ATS_CMDS) (cmdNum : Nat) :
    b.write k cmdNum = some (update b ⟨k, h⟩ cmdNum) := dif_pos h

theorem length_insertLoop {list result : List Nat}
    (h : insertLoop d newCmdTime newCmdNum list = some result) :
    result.length = list.length + 1 := by
  induction list generalizing result with
  | nil => rw [← Option.some.inj h]; rfl
  | cons last before ih =>
    rw [insertLoop] at h
    obtain ⟨listCmdTime, -, h⟩ := Option.bind_eq_some_iff.mp h
    split at h
    · obtain ⟨rest, hrest, rfl⟩ := Option.map_eq_some_iff.mp h
      rw [List.length_cons, List.length_cons, ih hrest]
    · rw [← Option.some.inj h]
      rfl

theorem TimeBuffer.Holds.push {b : TimeBuffer} {list : List Nat} (h : b.Holds list)
    {last : Nat} (hlast : ∀ k : CmdIndex, k.val = list.length → b k = last) :
    b.Holds (list ++ [last]) := by
  intro k hk
  rw [List.length_append, List.length_singleton] at hk
  rcases Nat.lt_succ_iff_lt_or_eq.mp hk with hbefore | heq
  · rw [List.getElem?_append_left hbefore]
    exact h k hbefore
  · rw [heq, hlast k heq, List.getElem?_concat_length]

theorem TimeBuffer.Holds.congr {b b' : TimeBuffer} {list : List Nat} (h : b.Holds list)
    (hsame : ∀ k : CmdIndex, k.val < list.length → b' k = b k) : b'.Holds list := by
  intro k hk
  rw [hsame k hk]
  exact h k hk

theorem update_index_ne {k : Nat} (hk : k < SC_MAX_ATS_CMDS) {j : CmdIndex} (h : j.val ≠ k)
    (value : Nat) : update b ⟨k, hk⟩ value j = b j :=
  update_of_ne (fun heq => h (congrArg Fin.val heq)) ..

/-- The loop moves the later entries up by one, so that the list with the new number in it
stands in the buffer once that is written at the target. -/
theorem shiftLoop_spec {reversed result : List Nat} (hroom : reversed.length < SC_MAX_ATS_CMDS)
    (hb : b.Holds reversed.reverse)
    (h : insertLoop d newCmdTime newCmdNum reversed = some result) :
    ∃ target b' final, shiftLoop d newCmdTime reversed.length b = some (target, b') ∧
      b'.write target newCmdNum = some final ∧ final.Holds result.reverse ∧
      ∀ k : CmdIndex, reversed.length < k.val → final k = b k := by
  induction reversed generalizing b result with
  | nil =>
    obtain rfl := Option.some.inj h
    have hfirst : 0 < SC_MAX_ATS_CMDS := hroom
    refine ⟨0, b, _, rfl, TimeBuffer.write_eq hfirst newCmdNum, ?_, ?_⟩
    · intro k hk
      have hzero : k = ⟨0, hfirst⟩ := Fin.ext (Nat.lt_one_iff.mp hk)
      rw [hzero, update_self]
      rfl
    · intro k hk
      exact update_index_ne hfirst (Nat.ne_of_gt hk) newCmdNum
  | cons last before ih =>
    have hnext : before.length + 1 < SC_MAX_ATS_CMDS := hroom
    have hinside : before.length < SC_MAX_ATS_CMDS := Nat.lt_of_succ_lt hnext
    rw [List.reverse_cons] at hb
    have hlast : b ⟨before.length, hinside⟩ = last := by
      have hheld := hb ⟨before.length, hinside⟩ (by simp)
      simpa using hheld.symm
    have hbefore : b.Holds before.reverse := by
      intro k hk
      have hheld := hb k (by rw [List.length_append]; exact Nat.lt_succ_of_lt hk)
      rwa [List.getElem?_append_left hk] at hheld
    rw [insertLoop] at h
    obtain ⟨listCmdTime, htime, h⟩ := Option.bind_eq_some_iff.mp h
    have hstep : shiftLoop d newCmdTime (before.length + 1) b =
        if compareAbsTime listCmdTime newCmdTime then
          (b.write (before.length + 1) last).bind (shiftLoop d newCmdTime before.length)
        else some (before.length + 1, b) := by
      simp only [shiftLoop, TimeBuffer.read_eq hinside, hlast, htime, Option.bind_eq_bind,
        Option.bind_some]
    rw [List.length_cons, hstep]
    split at h
    case isTrue hlater =>
      obtain ⟨rest, hrest, rfl⟩ := Option.map_eq_some_iff.mp h
      rw [if_pos hlater, TimeBuffer.write_eq hnext, Option.bind_some]
      have hmoved : TimeBuffer.Holds (update b ⟨before.length + 1, hnext⟩ last) before.reverse := by
        apply hbefore.congr
        intro k hk
        rw [List.length_reverse] at hk
        exact update_index_ne hnext (by omega) last
      obtain ⟨target, b', final, hloop, hwrite, hheld, hsame⟩ := ih hinside hmoved hrest
      refine ⟨target, b', final, hloop, hwrite, ?_, ?_⟩
      · rw [List.reverse_cons]
        apply hheld.push
        intro k hk
        rw [List.length_reverse, length_insertLoop hrest] at hk
        have hk' : k = ⟨before.length + 1, hnext⟩ := Fin.ext hk
        rw [hsame k (by omega), hk', update_self]
      · intro k hk
        rw [hsame k (by omega), update_index_ne hnext (by omega)]
    case isFalse hearlier =>
      obtain rfl := Option.some.inj h
      rw [if_neg hearlier]
      refine ⟨before.length + 1, b, _, rfl, TimeBuffer.write_eq hnext newCmdNum, ?_, ?_⟩
      · rw [List.reverse_cons, List.reverse_cons]
        apply TimeBuffer.Holds.push
        · apply hb.congr
          intro k hk
          rw [List.length_append, List.length_reverse, List.length_singleton] at hk
          exact update_index_ne hnext (by omega) newCmdNum
        · intro k hk
          rw [List.length_append, List.length_reverse, List.length_singleton] at hk
          have hk' : k = ⟨before.length + 1, hnext⟩ := Fin.ext hk
          rw [hk', update_self]
      · intro k hk
        exact update_index_ne hnext (by omega) newCmdNum

/-- `SC_Insert` on the buffer does what the insertion in the list does. -/
theorem insertInBuffer_spec {list result : List Nat} {i : CmdIndex}
    (hroom : list.length < SC_MAX_ATS_CMDS) (hb : b.Holds list)
    (h : insert d list i = some result) :
    ∃ final, insertInBuffer d i list.length b = some final ∧ final.Holds result ∧
      result.length = list.length + 1 ∧
      ∀ k : CmdIndex, list.length < k.val → final k = b k := by
  obtain ⟨time, htime, h⟩ := Option.bind_eq_some_iff.mp h
  obtain ⟨reversed, hloop, rfl⟩ := Option.map_eq_some_iff.mp h
  have hlength := length_insertLoop hloop
  rw [List.length_reverse] at hlength
  have hshift := shiftLoop_spec (b := b) (by rwa [List.length_reverse])
    (by rwa [List.reverse_reverse]) hloop
  rw [List.length_reverse] at hshift
  obtain ⟨target, b', final, hloop', hwrite, hheld, hsame⟩ := hshift
  have htime' : timeToInsert d i list.length = some time := by
    rw [← htime, newCmdTime, timeToInsert]
    cases list <;> rfl
  refine ⟨final, ?_, hheld, ?_, hsame⟩
  · rw [insertInBuffer, htime', Option.bind_eq_bind, Option.bind_some, hloop', Option.bind_eq_bind,
      Option.bind_some]
    exact hwrite
  · rw [List.length_reverse, hlength]

/-- The buffer holds a list, and behind it no command number in front of a place. -/
structure TimeBuffer.Ends (b : TimeBuffer) (list : List Nat) (place : Nat) : Prop where
  holds : b.Holds list
  length : list.length ≤ place
  rest : ∀ k : CmdIndex, list.length ≤ k.val → k.val < place → b k = SC_INVALID_CMD_NUMBER

/-- One round of the build, in the buffer and in the list. -/
theorem buildRound_spec {list list' : List Nat} {i : CmdIndex} (h : b.Ends list i.val)
    (hround : (if (d.cmdIndex i).isSome then insert d list i else some list) = some list') :
    ∃ b', buildRound d (b, list.length) i = some (b', list'.length) ∧ b'.Ends list' (i.val + 1) := by
  have hcleared : TimeBuffer.Ends (update b i SC_INVALID_CMD_NUMBER) list (i.val + 1) := by
    refine ⟨?_, Nat.le_succ_of_le h.length, ?_⟩
    · apply h.holds.congr
      intro k hk
      exact update_index_ne i.isLt (Nat.ne_of_lt (hk.trans_le h.length)) _
    · intro k hge hlt
      by_cases heq : k = i
      · rw [heq, update_self]
      · have hne : k.val ≠ i.val := fun hval => heq (Fin.ext hval)
        rw [update_of_ne heq]
        exact h.rest k hge (by omega)
  rw [buildRound]
  split at hround
  case isTrue hused =>
    rw [if_pos hused]
    obtain ⟨final, hinsert, hheld, hlength, hsame⟩ :=
      insertInBuffer_spec (h.length.trans_lt i.isLt) hcleared.holds hround
    refine ⟨final, ?_, hheld, ?_, ?_⟩
    · rw [hinsert, hlength]
      rfl
    · rw [hlength]
      exact Nat.succ_le_succ h.length
    · intro k hge hlt
      rw [hlength] at hge
      rw [hsame k hge]
      exact hcleared.rest k (Nat.le_of_succ_le hge) hlt
  case isFalse hunused =>
    rw [if_neg hunused]
    obtain rfl := Option.some.inj hround
    exact ⟨_, rfl, hcleared⟩

theorem finRange_places (n : Nat) :
    (List.finRange n).map Fin.val = List.range' 0 (List.finRange n).length := by
  apply List.ext_getElem <;> simp

/-- The rounds over consecutive places. -/
theorem foldlM_buildRound {indices : List CmdIndex} {place stop : Nat} {list result : List Nat}
    (hplaces : indices.map Fin.val = List.range' place indices.length)
    (hstop : stop = place + indices.length) (h : b.Ends list place)
    (hfold : indices.foldlM
      (fun list i => if (d.cmdIndex i).isSome then insert d list i else some list) list
        = some result) :
    ∃ b', indices.foldlM (buildRound d) (b, list.length) = some (b', result.length) ∧
      b'.Ends result stop := by
  induction indices generalizing b list place with
  | nil =>
    obtain rfl := Option.some.inj hfold
    rw [List.length_nil, Nat.add_zero] at hstop
    exact ⟨b, rfl, hstop ▸ h⟩
  | cons i indices ih =>
    rw [List.length_cons] at hstop
    rw [List.map_cons, List.length_cons, List.range'_succ, List.cons.injEq] at hplaces
    obtain ⟨rfl, hplaces⟩ := hplaces
    rw [List.foldlM_cons] at hfold ⊢
    obtain ⟨next, hround, hfold⟩ := Option.bind_eq_some_iff.mp hfold
    obtain ⟨b₁, hround', hends⟩ := buildRound_spec h hround
    obtain ⟨b', hrest, hends'⟩ := ih hplaces (by omega) hends hfold
    refine ⟨b', ?_, hends'⟩
    rw [hround', Option.bind_eq_bind, Option.bind_some, hrest]

/-- `SC_BuildTimeIndexTable` leaves the time index and `SC_INVALID_CMD_NUMBER` behind it in the
buffer, whatever was in it. -/
theorem buildTimeBuffer_spec {d' : AtsData} (h : buildTimeIndexTable d = some d')
    (b : TimeBuffer) :
    ∃ b', buildTimeBuffer d b = some b' ∧ b'.Ends d'.timeIndex SC_MAX_ATS_CMDS := by
  have hplaces := finRange_places SC_MAX_ATS_CMDS
  have hlength := List.length_finRange (n := SC_MAX_ATS_CMDS)
  rw [buildTimeIndexTable] at h
  rw [buildTimeBuffer]
  -- the list of the indices would be evaluated
  generalize List.finRange SC_MAX_ATS_CMDS = indices at h hplaces hlength ⊢
  obtain ⟨timeIndex, hfold, heq⟩ := Option.bind_eq_some_iff.mp h
  obtain rfl := Option.some.inj heq
  have hstart : b.Ends [] 0 :=
    ⟨nofun, Nat.le_refl 0, fun k _ hlt => absurd hlt (Nat.not_lt_zero k.val)⟩
  have hstop : SC_MAX_ATS_CMDS = 0 + indices.length := by rw [hlength, Nat.zero_add]
  obtain ⟨b', hbuild, hends⟩ := foldlM_buildRound hplaces hstop hstart hfold
  exact ⟨b', congrArg (Option.map Prod.fst) hbuild, hends⟩

end Nos3.Sc
