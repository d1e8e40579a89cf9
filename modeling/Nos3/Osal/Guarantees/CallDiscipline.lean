import Nos3.Osal.Guarantees.LockDiscipline
import Nos3.Osal.Source.IdMapRules

/-!
# Which calls keep the discipline

A call ends with the lock held exactly if it succeeded and its token keeps the
lock, and a failing call leaves an unlocked token. For each routine the
condition for this is found from the table at its first look.
-/
namespace Nos3.Osal

section

variable {limits : ObjectLimits} {state : GlobalState} {others : Others} {began : Bool}

/-- How a call leaves its token and the lock. -/
structure Outcome where
  ok : Bool
  token : Token
  world : World

def Result.outcome (result : Result) : Outcome :=
  ⟨decide (result.code = OS_SUCCESS), result.token, result.world⟩

structure Outcome.Disciplined (began : Bool) (outcome : Outcome) : Prop where
  held : outcome.world.Holds began (outcome.ok && decide outcome.token.lockMode.Keeps)
  unlocked : outcome.ok = false → outcome.token.lockMode = .none

/-! ## Tokens -/

/-! ## Opening and cancelling -/

theorem transactionInit_failed {lockMode : LockMode} {idtype : Nat} {w : World}
    (h : (initToken limits state lockMode idtype).1 ≠ OS_SUCCESS) :
    transactionInit limits state others lockMode idtype w =
      ⟨(initToken limits state lockMode idtype).1, {}, w⟩ := by
  obtain ⟨_, htoken⟩ | ⟨hok, _⟩ := initToken_cases limits state lockMode idtype
  · simp [transactionInit, htoken, h]
  · exact absurd hok h

theorem transactionInit_none {idtype : Nat} {w : World} :
    (transactionInit limits state others .none idtype w).world = w := by
  simp [transactionInit]

theorem transactionInit_token {lockMode : LockMode} {idtype : Nat} {w : World} :
    (transactionInit limits state others lockMode idtype w).token =
      (initToken limits state lockMode idtype).2 := rfl

theorem transactionInit_code {lockMode : LockMode} {idtype : Nat} {w : World} :
    (transactionInit limits state others lockMode idtype w).code =
      (initToken limits state lockMode idtype).1 := rfl

variable (others) in
/-- A transaction that began in a mode that locks: its token locks, and the lock is held. -/
theorem transactionInit_locked {lockMode : LockMode} {idtype : Nat} (table : Table)
    (hok : (initToken limits state lockMode idtype).1 = OS_SUCCESS) (hmode : lockMode ≠ .none) :
    (initToken limits state lockMode idtype).2.Locks ∧
      (transactionInit limits state others lockMode idtype { table := table }).world =
        ⟨others 0, 1, [.lock]⟩ := by
  obtain ⟨hfail, _⟩ | ⟨_, htoken, hmax⟩ := initToken_cases limits state lockMode idtype
  · exact absurd hok hfail
  · have hlocks : (initToken limits state lockMode idtype).2.Locks := by
      rw [htoken]
      exact ⟨(limits.typed idtype hmax).2, hmode⟩
    refine ⟨hlocks, ?_⟩
    simp only [transactionInit, hok, true_and, if_pos hmode, lockGlobal, if_pos hlocks]
    rfl

theorem opened_holds (turns : Nat) (table : Table) :
    World.Holds false true ⟨table, turns, [.lock]⟩ := rfl

/-- The lock is held for the token if the token's mode locks at all. -/
def World.Serves (began : Bool) (token : Token) (w : World) : Prop :=
  token.Locks ∧ w.Holds began true ∨ token.lockMode = .none ∧ w.Holds began false

theorem World.Serves.congr {token token' : Token} {w : World} (h : w.Serves began token)
    (hmode : token'.lockMode = token.lockMode) (htype : token'.objType = token.objType) :
    w.Serves began token' := by
  simpa only [World.Serves, Token.Locks, hmode, htype] using h

variable (others) in
theorem transactionInit_serves {lockMode : LockMode} {idtype : Nat} (table : Table)
    (hok : (initToken limits state lockMode idtype).1 = OS_SUCCESS) :
    (transactionInit limits state others lockMode idtype { table := table }).world.Serves false
      (initToken limits state lockMode idtype).2 := by
  by_cases hmode : lockMode = .none
  · subst hmode
    refine .inr ⟨?_, by rw [transactionInit_none]; rfl⟩
    obtain ⟨hf, _⟩ | ⟨_, htoken, _⟩ := initToken_cases limits state .none idtype
    · exact absurd hok hf
    · rw [htoken]
  · obtain ⟨hlocks, hworld⟩ :=
      transactionInit_locked others table hok hmode
    exact .inl ⟨hlocks, by rw [hworld]; rfl⟩

theorem transactionCancel_disciplined {result : Result} (hfail : result.code ≠ OS_SUCCESS)
    (h : result.world.Serves began result.token) :
    (transactionCancel result).outcome.Disciplined began := by
  obtain ⟨ht, hw⟩ | ⟨hmode, hw⟩ := h
  · rw [transactionCancel, if_pos ht.2]
    exact ⟨by simpa [Result.outcome, hfail] using hw.unlock ht, fun _ => rfl⟩
  · rw [transactionCancel, if_neg (not_not.mpr hmode)]
    exact ⟨by simpa [Result.outcome, hfail] using hw, fun _ => hmode⟩

/-! ## Conversions -/

/-- One of the looks finds the object unused, and all until then find it marked. -/
def FreedInTime (others : Others) (i : Nat) : Prop :=
  ∃ k ≤ maxWaits, ((others k).records i).refcount = 0 ∧
    ∀ j, 0 < j → j ≤ k → ((others j).records i).activeId = OS_OBJECT_ID_RESERVED

theorem seen_opened (i k : Nat) (trace : List LockEvent) :
    seen others ⟨others 0, 1, trace⟩ i k = (others k).records i := by
  cases k with
  | zero => rfl
  | succ k => simp only [seen, Nat.add_comm 1 k]

theorem vacated_opened {i : Nat} {trace : List LockEvent} :
    Vacated others ⟨others 0, 1, trace⟩ i maxWaits ↔ FreedInTime others i := by
  simp only [Vacated, FreedInTime, seen_opened]

theorem convertToken_succeeds_iff {token : Token} {w : World} (hmode : token.lockMode ≠ .none)
    (hid : (w.table.records token.slot).activeId = token.objId) :
    (convertToken others token w).1 = OS_SUCCESS ↔
      objectIdIsValid token.objId ∧ token.lockMode ≠ .reserved ∧
        (token.lockMode = .exclusive → Vacated others w token.slot maxWaits) := by
  unfold convertToken
  by_cases hvalid : objectIdIsValid token.objId
  · rw [if_pos hvalid]
    simp only [hvalid, true_and]
    by_cases hexclusive : token.lockMode = .exclusive
    · rw [convertLoop_exclusive hexclusive maxWaits (by simpa [startExpected, hexclusive] using hid)]
      simp [hexclusive]
    · have hne := objectIdIsValid_ne_reserved hvalid
      unfold convertLoop
      by_cases hreserved : token.lockMode = .reserved
      · simp [look, startExpected, hreserved, hid, hne, OS_ERR_INVALID_ID, OS_SUCCESS]
      · simp [look, startExpected, hreserved, hid, hexclusive]
  · rw [if_neg hvalid]
    simp [hvalid, OS_ERR_INCORRECT_OBJ_STATE, OS_SUCCESS]

/-- What a conversion needs of the record it finds. -/
def Convertible (others : Others) (token : Token) : Prop :=
  objectIdIsValid token.objId ∧ token.lockMode ≠ .reserved ∧
    (token.lockMode = .exclusive → FreedInTime others token.slot)

/-! ## Searches -/

/-- The record the search ends at can be converted, if it ends at one. -/
def SearchConverts (limits : ObjectLimits) (state : GlobalState) (others : Others)
    (lockMode : LockMode) (idtype : Nat) (matchFunc : MatchFunc) : Prop :=
  let (code, token) :=
    findNextMatch limits matchFunc (initToken limits state lockMode idtype).2 (others 0)
  lockMode ≠ .none → code = OS_SUCCESS → Convertible others token

variable (others) in
/-- A conversion without a cancellation behind it: it must succeed. -/
theorem convertToken_disciplined_iff {token : Token} {w : World} (h : w.Holds began true)
    (ht : token.Locks) :
    (Result.mk (convertToken others token w).1 token
        (convertToken others token w).2).outcome.Disciplined began ↔
      (convertToken others token w).1 = OS_SUCCESS := by
  have hw := convertToken_holds others h ht
  constructor
  · intro hd
    by_contra hfail
    exact ht.2 (hd.unlocked (by simp [Result.outcome, hfail]))
  · intro hok
    exact ⟨by simpa [Result.outcome, hok] using hw, by simp [Result.outcome, hok]⟩

theorem getBySearch_none {idtype : Nat} {matchFunc : MatchFunc} {table : Table} :
    (getBySearch limits state others .none idtype matchFunc
      { table := table }).outcome.Disciplined false := by
  have hworld : (transactionInit limits state others .none idtype { table := table }).world =
      { table := table } := transactionInit_none
  have hmode : (transactionInit limits state others .none idtype
      { table := table }).token.lockMode = .none := by
    rw [transactionInit_token]
    obtain ⟨_, htoken⟩ | ⟨_, htoken, _⟩ := initToken_cases limits state .none idtype <;> rw [htoken]
  unfold getBySearch
  simp only [hworld]
  split
  · have htrace := convertToken_none others
      ((findNextMatch_lockMode limits matchFunc _ table).trans hmode)
      { table := table }
    exact ⟨by simp [Result.outcome, hmode, World.Holds, htrace, LockMode.Keeps, heldAfter],
      fun _ => by simpa [Result.outcome] using hmode⟩
  · rename_i hfail
    exact transactionCancel_disciplined hfail (.inr ⟨by simpa using hmode, rfl⟩)

theorem getBySearch_disciplined_iff {lockMode : LockMode} {idtype : Nat} {matchFunc : MatchFunc}
    (table : Table) :
    (getBySearch limits state others lockMode idtype matchFunc
        { table := table }).outcome.Disciplined false ↔
      SearchConverts limits state others lockMode idtype matchFunc := by
  by_cases hmode : lockMode = .none
  · subst hmode
    exact iff_of_true getBySearch_none fun hne => absurd rfl hne
  unfold SearchConverts
  simp only [hmode, ne_eq, not_false_eq_true, true_implies]
  by_cases hok : (initToken limits state lockMode idtype).1 = OS_SUCCESS
  · obtain ⟨hlocks, hworld⟩ :=
      transactionInit_locked others table hok hmode
    have hlocks' : (findNextMatch limits matchFunc (initToken limits state lockMode idtype).2
        (others 0)).2.Locks := by
      simpa [Token.Locks] using hlocks
    unfold getBySearch
    simp only [hworld, transactionInit_token]
    by_cases hfound : (findNextMatch limits matchFunc (initToken limits state lockMode idtype).2
        (others 0)).1 = OS_SUCCESS
    · rw [if_pos hfound]
      refine (convertToken_disciplined_iff others (opened_holds _ _) hlocks').trans ?_
      have hid := findNextMatch_found hfound
      refine (convertToken_succeeds_iff (w := ⟨others 0, 1, [.lock]⟩) hlocks'.2 hid).trans ?_
      simp [hfound, Convertible, vacated_opened]
    · rw [if_neg hfound]
      exact iff_of_true
        (transactionCancel_disciplined hfound (.inl ⟨hlocks', opened_holds _ _⟩))
        fun hs => absurd hs hfound
  · obtain ⟨_, htoken⟩ | ⟨hs, _⟩ := initToken_cases limits state lockMode idtype
    · unfold getBySearch
      simp only [transactionInit_failed hok, htoken, if_neg (findNextMatch_empty _ _)]
      exact iff_of_true
        (transactionCancel_disciplined (findNextMatch_empty _ _) (.inr ⟨by simp, rfl⟩))
        fun hs => absurd hs (findNextMatch_empty _ _)
    · exact absurd hs hok

/-- A search that succeeds leaves a token of its own mode and type, and the lock as the mode
wants it. -/
theorem getBySearch_ok {lockMode : LockMode} (hmode : lockMode ≠ .none) {idtype : Nat}
    {matchFunc : MatchFunc} {table : Table} {result : Result}
    (h : getBySearch limits state others lockMode idtype matchFunc { table := table } = result)
    (hok : result.code = OS_SUCCESS) :
    result.token.Locks ∧ result.token.lockMode = lockMode ∧
      result.world.Holds false (decide result.token.lockMode.Keeps) := by
  unfold getBySearch at h
  dsimp only at h
  split at h
  · rename_i hfound
    subst h
    obtain ⟨_, htoken⟩ | ⟨hinit, htoken, _⟩ := initToken_cases limits state lockMode idtype
    · rw [transactionInit_token, htoken] at hfound
      exact absurd hfound (findNextMatch_empty _ _)
    · obtain ⟨hlocks, hworld⟩ :=
        transactionInit_locked others table hinit hmode
      simp only [hworld, transactionInit_token] at hok ⊢
      have hlocks' : (findNextMatch limits matchFunc (initToken limits state lockMode idtype).2
          (others 0)).2.Locks := by
        simpa [Token.Locks] using hlocks
      have hd := (convertToken_disciplined_iff others (opened_holds _ _) hlocks').mpr hok
      refine ⟨hlocks', by simp [htoken], ?_⟩
      simpa [Result.outcome, hok] using hd.held
  · rename_i hfail
    subst h
    unfold transactionCancel at hok
    split at hok <;> exact absurd hok hfail

/-! ## A lookup by id -/

/-- A conversion with a cancellation behind it keeps the discipline. -/
theorem convertToken_cancelled {token : Token} {w : World} (h : w.Serves began token) :
    (if (convertToken others token w).1 = OS_SUCCESS then
        Result.mk (convertToken others token w).1 token (convertToken others token w).2
      else transactionCancel ⟨(convertToken others token w).1, token,
        (convertToken others token w).2⟩).outcome.Disciplined began := by
  obtain ⟨ht, hw⟩ | ⟨hmode, hw⟩ := h
  · split
    · rename_i hok
      exact (convertToken_disciplined_iff others hw ht).mpr hok
    · rename_i hfail
      have hheld := convertToken_holds others hw ht
      rw [decide_eq_true fun hok => absurd hok hfail] at hheld
      exact transactionCancel_disciplined hfail (.inl ⟨ht, hheld⟩)
  · have hheld : (convertToken others token w).2.Holds began false := by
      rw [World.Holds, convertToken_none others hmode]
      exact hw
    split
    · exact ⟨by simpa [Result.outcome, hmode, LockMode.Keeps] using hheld, fun _ => hmode⟩
    · rename_i hfail
      exact transactionCancel_disciplined hfail (.inr ⟨hmode, hheld⟩)

theorem getById_disciplined {lockMode : LockMode} {idtype : Nat} {id : ObjectId}
    {table : Table} :
    (getById limits state others lockMode idtype id { table := table }).outcome.Disciplined
      false := by
  unfold getById
  by_cases hok : (initToken limits state lockMode idtype).1 = OS_SUCCESS
  · have hserves := transactionInit_serves others table hok
    simp only [transactionInit_code, hok, if_true, transactionInit_token]
    cases hindex : objectIdToArrayIndex limits idtype id with
    | ok idx => exact convertToken_cancelled (hserves.congr rfl rfl)
    | error code =>
      refine transactionCancel_disciplined ?_ hserves
      rintro (rfl : code = OS_SUCCESS)
      unfold objectIdToArrayIndex at hindex
      split at hindex
      · exact absurd hindex (by simp [OS_ERR_INVALID_ID, OS_SUCCESS])
      · split at hindex
        · exact absurd hindex (by simp [OS_ERR_INVALID_ID, OS_SUCCESS])
        · cases hindex
  · simp only [transactionInit_failed hok, if_neg hok]
    exact ⟨by simp [Result.outcome, hok, World.Holds, heldAfter], fun _ => rfl⟩

/-! ## Finishing -/

/-- A token as a call that succeeded has handed it out. -/
structure Issued extends Token where
  known : objType < OS_OBJECT_TYPE_USER

/-- Finishing gives the lock up, whether it was still held or has to be taken again. -/
theorem transactionFinish_unlocks {token : Token} (hknown : token.objType < OS_OBJECT_TYPE_USER)
    (finalId : Option ObjectId) {w : World}
    (h : w.Holds began (decide token.lockMode.Keeps)) :
    (transactionFinish others token finalId w).1.lockMode = .none ∧
      (transactionFinish others token finalId w).2.Holds began false := by
  unfold transactionFinish
  split
  · rename_i hmode
    exact ⟨hmode, by simpa [hmode, LockMode.Keeps] using h⟩
  · rename_i hmode
    have hlocks : token.Locks := ⟨hknown, hmode⟩
    refine ⟨rfl, World.Holds.unlock (World.Holds.setRecord ?_ _ _) hlocks⟩
    by_cases hgives : token.lockMode = .exclusive ∨ token.lockMode = .refcount
    · have hkeeps : ¬ token.lockMode.Keeps := by
        rintro (hk | hk) <;> simp [hk] at hgives
      rw [decide_eq_false hkeeps] at h
      rw [if_pos hgives]
      exact h.lock hlocks
    · have hkeeps : token.lockMode.Keeps := by
        unfold LockMode.Keeps
        cases hm : token.lockMode <;> simp_all
      rw [decide_eq_true hkeeps] at h
      rwa [if_neg hgives]

theorem Outcome.Disciplined.of_unlocked {ok : Bool} {token : Token} {w : World}
    (h : token.lockMode = .none ∧ w.Holds began false) :
    (Outcome.mk ok token w).Disciplined began :=
  ⟨by simpa [h.1, LockMode.Keeps] using h.2, fun _ => h.1⟩

/-! ## Allocations -/

/-- An allocation that comes as far as the event handler is not refused there. -/
def AllocationAccepted (limits : ObjectLimits) (state : GlobalState) (others : Others)
    (notifyEvent : ObjectId → Int) (idtype : Nat) (name : Option String) : Prop :=
  state = .init →
    (searchName limits name (initToken limits state .exclusive idtype).2 (others 0)).1 ≠
      OS_SUCCESS →
    ∀ place ∈ allocation limits idtype (others 0),
      notifyEvent (objectIdCompose idtype place.2) = OS_SUCCESS

variable (others) in
/-- The id just issued can always be converted. -/
theorem convertToken_new {idtype : Nat} (hmax : 0 < limits.maxForObjectType idtype)
    {token : Token} {w : World} {creator : ObjectId} {place : Nat × Nat}
    (hmode : token.lockMode = .exclusive)
    (hserial : place.2 < OS_OBJECT_INDEX_MASK)
    (hid : token.objId = objectIdCompose idtype place.2)
    (hrecord : w.table.records token.slot = { activeId := token.objId, creator := creator }) :
    (convertToken others token w).1 = OS_SUCCESS := by
  refine (convertToken_succeeds_iff (by simp [hmode]) (by rw [hrecord])).mpr ⟨?_, ?_, fun _ => ?_⟩
  · obtain ⟨hlow, hhigh⟩ := limits.typed idtype hmax
    simp [objectIdIsValid, hid, objectIdToType_compose hserial.le, hlow, hhigh]
  · simp [hmode]
  · exact ⟨0, Nat.zero_le _, by rw [seen, hrecord], fun j hj hle => absurd hj (by omega)⟩

/-- What is left of an allocation once the new id is in the table. -/
theorem allocated_disciplined_iff {idtype : Nat} (hmax : 0 < limits.maxForObjectType idtype)
    {token : Token} {w : World} (creator : ObjectId) (place : Nat × Nat) (answer : Int)
    (hmode : token.lockMode = .exclusive) (hlocks : token.Locks)
    (hserial : place.2 < OS_OBJECT_INDEX_MASK)
    (hid : token.objId = objectIdCompose idtype place.2)
    (hrecord : w.table.records token.slot = { activeId := token.objId, creator := creator })
    (htrace : w.trace = [.lock]) :
    (let converted := if answer = OS_SUCCESS then convertToken others token w else (answer, w)
      if converted.1 ≠ OS_SUCCESS then finalizeNew others converted.1 token converted.2
      else ⟨converted.1, token, converted.2⟩ : Result).outcome.Disciplined false ↔
        answer = OS_SUCCESS := by
  have hw : w.Holds false true := by
    rw [World.Holds, htrace]
    rfl
  by_cases haccepted : answer = OS_SUCCESS
  · have hok := convertToken_new others hmax hmode hserial hid hrecord
    simp only [haccepted, if_true, hok, ne_eq, not_true_eq_false, if_false, iff_true]
    simpa only [hok] using (convertToken_disciplined_iff others hw hlocks).mpr hok
  · -- the handler refuses, and the lock is taken once more while it is held
    simp only [if_neg haccepted]
    rw [if_pos (show (answer, w).1 ≠ OS_SUCCESS from haccepted)]
    refine iff_of_false (fun hd => ?_) haccepted
    have htwice : (finalizeNew others answer token w).world.trace = [.lock, .lock, .unlock] := by
      simp [finalizeNew, transactionFinish, hmode, lockGlobal, unlockGlobal, hlocks,
        World.setRecord, htrace]
    have hheld := hd.held
    simp only [Result.outcome, World.Holds, htwice, heldAfter] at hheld
    cases hheld

/-- A transaction that does not begin leaves nothing behind. -/
theorem allocateNew_unopened {creator : ObjectId} {notifyEvent : ObjectId → Int} {idtype : Nat}
    {name : Option String} {table : Table}
    (hfail : (initToken limits state .exclusive idtype).1 ≠ OS_SUCCESS) :
    (allocateNew limits state others creator notifyEvent idtype name
      { table := table }).outcome.Disciplined false := by
  unfold allocateNew
  split
  · exact ⟨rfl, fun _ => rfl⟩
  · simp only [transactionInit_failed hfail, ne_eq, hfail, not_false_eq_true, if_true]
    exact ⟨by simp [Result.outcome, hfail, World.Holds, heldAfter], fun _ => rfl⟩

theorem allocateNew_opened {creator : ObjectId} {notifyEvent : ObjectId → Int} {idtype : Nat}
    {name : Option String} {table : Table} (hmax : 0 < limits.maxForObjectType idtype) :
    (allocateNew limits .init others creator notifyEvent idtype name
        { table := table }).outcome.Disciplined false ↔
      AllocationAccepted limits .init others notifyEvent idtype name := by
  have hinit := initToken_init .exclusive hmax
  obtain ⟨hlocks, hworld⟩ := transactionInit_locked others table
    (show (initToken limits .init .exclusive idtype).1 = OS_SUCCESS by rw [hinit]) (by simp)
  unfold allocateNew AllocationAccepted
  simp only [transactionInit_code, transactionInit_token, hworld]
  rw [hinit] at hlocks ⊢
  generalize htok : ({ lockMode := .exclusive, objType := idtype, objIdx := -1 } : Token) = token
    at hlocks ⊢
  have hmode : token.lockMode = .exclusive := by rw [← htok]
  have htype : token.objType = idtype := by rw [← htok]
  have hsearched : (searchName limits name token (others 0)).2.Locks := by
    simpa [Token.Locks] using hlocks
  simp only [reduceCtorEq, if_false, ne_eq, not_true_eq_false, true_implies]
  by_cases htaken : (searchName limits name token (others 0)).1 = OS_SUCCESS
  · simp only [htaken, if_true, not_true_eq_false, false_implies, iff_true]
    have hfail : OS_ERR_NAME_TAKEN ≠ OS_SUCCESS := by decide
    exact transactionCancel_disciplined hfail (.inl ⟨hsearched, rfl⟩)
  · simp only [htaken, if_false, not_false_eq_true, true_implies]
    have hplaces : allocation limits (searchName limits name token (others 0)).2.objType
        (others 0) = allocation limits idtype (others 0) := by rw [searchName_objType, htype]
    cases hplace : allocation limits idtype (others 0) with
    | none =>
      obtain ⟨hfail, hmode', htype'⟩ := findNextFree_full creator
        (hplaces.trans hplace)
      simp only [hfail, not_false_eq_true, if_true, reduceCtorEq, Option.mem_def, false_implies,
        implies_true, iff_true]
      exact transactionCancel_disciplined hfail
        (.inl ⟨by simpa only [Token.Locks, hmode', htype'] using hsearched, rfl⟩)
    | some place =>
      have hserial := (freePlace_spec hmax (limits.indexed idtype) hplace).2.1
      rw [findNextFree_found creator (hplaces.trans hplace)]
      simp only [not_true_eq_false, if_false, Option.mem_def, Option.some.injEq, forall_eq']
      rw [searchName_objType, htype]
      refine allocated_disciplined_iff hmax creator place _ ?_ ?_ hserial
        rfl ?_ rfl
      · simpa using hmode
      · simpa [Token.Locks, htype] using hlocks
      · simp [Token.slot]

theorem allocateNew_disciplined_iff {creator : ObjectId} {notifyEvent : ObjectId → Int}
    {idtype : Nat} {name : Option String} {table : Table} :
    (allocateNew limits state others creator notifyEvent idtype name
        { table := table }).outcome.Disciplined false ↔
      AllocationAccepted limits state others notifyEvent idtype name := by
  cases state with
  | other =>
    have hfail : (initToken limits .other .exclusive idtype).1 ≠ OS_SUCCESS := by
      simp [initToken, OS_ERROR, OS_SUCCESS]
    exact iff_of_true (allocateNew_unopened hfail) fun h => by cases h
  | shutdown => exact iff_of_true ⟨rfl, fun _ => rfl⟩ fun h => by cases h
  | init =>
    rcases Nat.eq_zero_or_pos (limits.maxForObjectType idtype) with hzero | hmax
    · refine iff_of_true (allocateNew_unopened ?_) fun _ _ place hplace => ?_
      · simp [initToken, hzero, OS_ERR_INVALID_ID, OS_SUCCESS]
      · simp [allocation, hzero, freePlace] at hplace
    · exact allocateNew_opened hmax

/-! ## A lookup by name -/

theorem findByName_disciplined_iff {idtype : Nat} {name : Option String} {table : Table} :
    (Outcome.mk (findByName limits state others idtype name { table := table }).1.isOk
        (findByName limits state others idtype name { table := table }).2.1
        (findByName limits state others idtype name { table := table }).2.2).Disciplined false ↔
      ∀ text, name = some text → text.utf8ByteSize < OS_MAX_API_NAME →
        SearchConverts limits state others .global idtype (objectNameMatch text) := by
  unfold findByName getByName
  cases name with
  | none => exact iff_of_true ⟨rfl, fun _ => rfl⟩ fun _ h => nomatch h
  | some text =>
    simp only [Option.some.injEq, forall_eq']
    by_cases hlong : text.utf8ByteSize ≥ OS_MAX_API_NAME
    · simp only [if_pos hlong]
      exact iff_of_true ⟨rfl, fun _ => rfl⟩ fun h => absurd h (by omega)
    · simp only [if_neg hlong, Nat.lt_of_not_le hlong, true_implies]
      rw [← getBySearch_disciplined_iff table]
      by_cases hok : (getBySearch limits state others .global idtype (objectNameMatch text)
          { table := table }).code = OS_SUCCESS
      · obtain ⟨hlocks, _, hheld⟩ := getBySearch_ok (by simp) rfl hok
        simp only [if_pos hok]
        refine iff_of_true (.of_unlocked (transactionFinish_unlocks hlocks.1 none hheld)) ?_
        exact ⟨by simpa [Result.outcome, hok] using hheld, by simp [Result.outcome, hok]⟩
      · simp only [Result.outcome, hok, decide_false]
        exact Iff.rfl

/-! ## Iterators -/

/-- An iterator as `OS_ObjectIdIteratorInit` leaves it. -/
structure OpenIterator extends Iterator where
  locks : token.Locks ∧ token.lockMode = .global ∨ token.lockMode = .none

theorem OpenIterator.serves (iter : OpenIterator) (table : Table) :
    World.Serves (decide iter.token.lockMode.Keeps) iter.token { table := table } := by
  obtain ⟨hlocks, hmode⟩ | hmode := iter.locks
  · exact .inl ⟨hlocks, by simp [hmode, LockMode.Keeps, World.Holds, heldAfter]⟩
  · exact .inr ⟨hmode, by simp [hmode, LockMode.Keeps, World.Holds, heldAfter]⟩

/-- A token that keeps the lock if it locks at all leaves it as it should be. -/
theorem World.Serves.disciplined {token : Token} {w : World} (h : w.Serves began token)
    (hmode : token.lockMode = .global ∨ token.lockMode = .none) :
    (Outcome.mk true token w).Disciplined began := by
  obtain ⟨hlocks, hw⟩ | ⟨hnone, hw⟩ := h
  · have hglobal := hmode.resolve_right hlocks.2
    exact ⟨by simpa [hglobal, LockMode.Keeps] using hw, nofun⟩
  · exact .of_unlocked ⟨hnone, hw⟩

theorem OpenIterator.mode (iter : OpenIterator) :
    iter.token.lockMode = .global ∨ iter.token.lockMode = .none :=
  iter.locks.imp_left And.right

theorem iteratorInit_disciplined {objtype : Nat} {table : Table} :
    (transactionInit limits state others .global objtype
      { table := table }).outcome.Disciplined false := by
  by_cases hok : (initToken limits state .global objtype).1 = OS_SUCCESS
  · have hmode : (initToken limits state .global objtype).2.lockMode = .global := by
      obtain ⟨hfail, _⟩ | ⟨_, htoken, _⟩ := initToken_cases limits state .global objtype
      · exact absurd hok hfail
      · rw [htoken]
    rw [Result.outcome, transactionInit_code, transactionInit_token, decide_eq_true hok]
    exact (transactionInit_serves others table hok).disciplined (.inl hmode)
  · rw [transactionInit_failed hok]
    exact .of_unlocked ⟨rfl, rfl⟩

theorem iteratorProcessEntry_serves {iter : Iterator} {w : World}
    (h : w.Serves began iter.token) : (iteratorProcessEntry others iter w).Serves began iter.token := by
  obtain ⟨hlocks, hw⟩ | ⟨hmode, hw⟩ := h
  · exact .inl ⟨hlocks, (hw.unlock hlocks).lock hlocks⟩
  · have hfree : ¬ iter.token.Locks := fun ht => ht.2 hmode
    refine .inr ⟨hmode, ?_⟩
    rw [iteratorProcessEntry, unlockGlobal, if_neg hfree, lockGlobal, if_neg hfree]
    exact hw

theorem iteratorDestroy_unlocks {iter : Iterator} {w : World} (h : w.Serves began iter.token) :
    (iteratorDestroy iter w).1.lockMode = .none ∧ (iteratorDestroy iter w).2.Holds began false := by
  unfold iteratorDestroy transactionCancel
  obtain ⟨hlocks, hw⟩ | ⟨hmode, hw⟩ := h
  · rw [if_pos hlocks.2]
    exact ⟨rfl, hw.unlock hlocks⟩
  · rw [if_neg (not_not.mpr hmode)]
    exact ⟨hmode, hw⟩

theorem iteratorGetNext_token {iter iter' : Iterator} {w : World}
    (h : iteratorGetNext iter w = some iter') :
    iter'.token.lockMode = iter.token.lockMode ∧ iter'.token.objType = iter.token.objType := by
  unfold iteratorGetNext at h
  simp only [Option.map_eq_some_iff] at h
  obtain ⟨_, _, rfl⟩ := h
  exact ⟨rfl, rfl⟩

theorem iterate_serves : ∀ (left : Nat) {iter : Iterator} {w : World},
    w.Serves began iter.token →
      (iterate others left iter w).2.Serves began (iterate others left iter w).1.token
  | 0, _, _, h => h
  | left + 1, iter, w, h => by
    unfold iterate
    split
    · rename_i next hnext
      obtain ⟨hmode, htype⟩ := iteratorGetNext_token hnext
      exact iterate_serves left (iteratorProcessEntry_serves (h.congr hmode htype))
    · exact h

theorem forEachObjectOfType_unlocks {matchFunc : MatchFunc} {idtype : Nat} {table : Table} :
    (forEachObjectOfType limits state others matchFunc idtype { table := table }).1.lockMode = .none ∧
      (forEachObjectOfType limits state others matchFunc idtype
        { table := table }).2.Holds false false := by
  unfold forEachObjectOfType iteratorInit
  dsimp only
  by_cases hok : (initToken limits state .global idtype).1 = OS_SUCCESS
  · rw [transactionInit_code, if_pos hok]
    exact iteratorDestroy_unlocks (iterate_serves _ (transactionInit_serves others table hok))
  · rw [transactionInit_code, if_neg hok, transactionInit_failed hok]
    exact ⟨rfl, rfl⟩

end

/-! ## Every call -/

inductive Call
  | getById (lockMode : LockMode) (idtype : Nat) (id : ObjectId)
  | getBySearch (lockMode : LockMode) (idtype : Nat) (matchFunc : MatchFunc)
  | getByName (lockMode : LockMode) (idtype : Nat) (name : String)
  | findByName (idtype : Nat) (name : Option String)
  | allocateNew (creator : ObjectId) (notifyEvent : ObjectId → Int) (idtype : Nat)
    (name : Option String)
  | finalizeNew (operationStatus : Int) (token : Issued)
  | finalizeDelete (operationStatus : Int) (token : Issued)
  | release (token : Issued)
  | iteratorInit (matchFunc : MatchFunc) (objtype : Nat)
  | iteratorProcessEntry (iter : OpenIterator)
  | iteratorDestroy (iter : OpenIterator)
  | forEachObjectOfType (matchFunc : MatchFunc) (idtype : Nat)

/-- The lock is held already when a token that keeps it is passed in. -/
def Call.began : Call → Bool
  | .finalizeNew _ token | .finalizeDelete _ token | .release token =>
    decide token.lockMode.Keeps
  | .iteratorProcessEntry iter | .iteratorDestroy iter => decide iter.token.lockMode.Keeps
  | _ => false

/-- The call as it ends, from a table and with the tables other tasks leave to it. -/
def Call.outcome (limits : ObjectLimits) (state : GlobalState) (others : Others)
    (table : Table) : Call → Outcome
  | .getById lockMode idtype id =>
    (Osal.getById limits state others lockMode idtype id { table := table }).outcome
  | .getBySearch lockMode idtype matchFunc =>
    (Osal.getBySearch limits state others lockMode idtype matchFunc { table := table }).outcome
  | .getByName lockMode idtype name =>
    (Osal.getByName limits state others lockMode idtype name { table := table }).outcome
  | .findByName idtype name =>
    let (found, token, w) := Osal.findByName limits state others idtype name { table := table }
    ⟨found.isOk, token, w⟩
  | .allocateNew creator notifyEvent idtype name =>
    (Osal.allocateNew limits state others creator notifyEvent idtype name
      { table := table }).outcome
  | .finalizeNew operationStatus token =>
    (Osal.finalizeNew others operationStatus token.toToken { table := table }).outcome
  | .finalizeDelete operationStatus token =>
    (Osal.finalizeDelete others operationStatus token.toToken { table := table }).outcome
  | .release token =>
    let (token, w) := Osal.release others token.toToken { table := table }
    ⟨true, token, w⟩
  | .iteratorInit matchFunc objtype =>
    let (code, iter, w) :=
      Osal.iteratorInit limits state others matchFunc objtype { table := table }
    ⟨decide (code = OS_SUCCESS), iter.token, w⟩
  | .iteratorProcessEntry iter =>
    ⟨true, iter.token, Osal.iteratorProcessEntry others iter.toIterator { table := table }⟩
  | .iteratorDestroy iter =>
    let (token, w) := Osal.iteratorDestroy iter.toIterator { table := table }
    ⟨true, token, w⟩
  | .forEachObjectOfType matchFunc idtype =>
    let (token, w) :=
      Osal.forEachObjectOfType limits state others matchFunc idtype { table := table }
    ⟨true, token, w⟩

/-- What the call meets: a search, a record it can convert; an allocation, a handler that
accepts. -/
def Call.Meets (limits : ObjectLimits) (state : GlobalState) (others : Others) : Call → Prop
  | .getBySearch lockMode idtype matchFunc =>
    SearchConverts limits state others lockMode idtype matchFunc
  | .getByName lockMode idtype name =>
    SearchConverts limits state others lockMode idtype (objectNameMatch name)
  | .findByName idtype name => ∀ text, name = some text → text.utf8ByteSize < OS_MAX_API_NAME →
    SearchConverts limits state others .global idtype (objectNameMatch text)
  | .allocateNew _ notifyEvent idtype name =>
    AllocationAccepted limits state others notifyEvent idtype name
  | _ => True

theorem lock_balanced_iff (limits : ObjectLimits) (state : GlobalState) (others : Others)
    (table : Table) (call : Call) :
    (call.outcome limits state others table).Disciplined call.began ↔
      call.Meets limits state others := by
  cases call with
  | getById lockMode idtype id => exact iff_of_true getById_disciplined trivial
  | getBySearch lockMode idtype matchFunc => exact getBySearch_disciplined_iff table
  | getByName lockMode idtype name => exact getBySearch_disciplined_iff table
  | findByName idtype name => exact findByName_disciplined_iff
  | allocateNew creator notifyEvent idtype name => exact allocateNew_disciplined_iff
  | finalizeNew operationStatus token =>
    exact iff_of_true (.of_unlocked (transactionFinish_unlocks token.known _ rfl)) trivial
  | finalizeDelete operationStatus token =>
    exact iff_of_true (.of_unlocked (transactionFinish_unlocks token.known _ rfl)) trivial
  | release token =>
    exact iff_of_true (.of_unlocked (transactionFinish_unlocks token.known _ rfl)) trivial
  | iteratorInit matchFunc objtype => exact iff_of_true iteratorInit_disciplined trivial
  | iteratorProcessEntry iter =>
    exact iff_of_true ((iteratorProcessEntry_serves (iter.serves table)).disciplined iter.mode)
      trivial
  | iteratorDestroy iter =>
    exact iff_of_true (.of_unlocked (iteratorDestroy_unlocks (iter.serves table))) trivial
  | forEachObjectOfType matchFunc idtype =>
    exact iff_of_true (.of_unlocked forEachObjectOfType_unlocks) trivial

/-- One queue is being created or deleted under the name that is looked up. -/
def reservedTable : Table :=
  Table.setRecord {} 0 { nameEntry := some "Q", activeId := OS_OBJECT_ID_RESERVED }

/-- A lookup of the name fails and keeps the lock. -/
theorem findByName_keeps_lock :
    ¬ ((Call.findByName OS_OBJECT_TYPE_OS_QUEUE (some "Q")).outcome nos3Limits .init
      (fun _ => reservedTable) {}).Disciplined false := by
  intro hd
  have hmeets : (Call.findByName OS_OBJECT_TYPE_OS_QUEUE (some "Q")).Meets nos3Limits .init
      fun _ => reservedTable :=
    (@findByName_disciplined_iff _ _ _ _ _ {}).mp hd
  have hfound : findNextMatch nos3Limits (objectNameMatch "Q")
      (initToken nos3Limits .init .global OS_OBJECT_TYPE_OS_QUEUE).2 reservedTable =
        (OS_SUCCESS, ⟨.global, OS_OBJECT_TYPE_OS_QUEUE, 0, OS_OBJECT_ID_RESERVED⟩) := by
    rw [initToken_init .global (by decide)]
    rfl
  have hconverts := hmeets "Q" rfl (by decide)
  simp only [SearchConverts, hfound] at hconverts
  exact absurd (hconverts (by decide) trivial).1 (by decide)

end Nos3.Osal
