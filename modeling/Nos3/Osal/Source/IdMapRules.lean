import Nos3.Base.Transition
import Nos3.Osal.Source.IdMap

/-!
# Tasks sharing an object type

The calls of all tasks on one object type, step by step: a step is what a call
does while it has the lock of the type, or what a creation does to its own
record without it. A call that waits gives the lock up and looks again later.
-/
namespace Nos3.Osal
open Base.Transition
open Function (update)

/-- A build with its tasks. `refcount` has to count the tokens there can be. -/
structure Platform extends ObjectLimits where
  tokens : Nat
  countable : tokens < 2 ^ 16

/-- The build has 128 tasks (`OS_MAX_TASKS`). -/
def nos3Platform : Platform := { nos3Limits with tokens := 128, countable := by decide }

/-- The token variable of a call in some task. -/
abbrev Caller (platform : Platform) := Fin platform.tokens

def OS_OBJECT_TYPE_OS_TASK : Nat := 0x01

inductive Lookup
  | byId (id : ObjectId)
  | byName (name : String)
  | bySearch (matchFunc : MatchFunc)

/-- What a token is for. A creation with a name has still to store it in its record. -/
inductive Purpose
  | lookup (how : Lookup)
  | creation (name : Option String) (initialized : Bool)

inductive CallState
  | idle
  | waiting (token : Token) (expectedId : ObjectId) (waits : Nat) (purpose : Purpose)
  | holding (token : Token) (purpose : Purpose)
  | stuck

structure Shared (platform : Platform) where
  table : Table := {}
  globalState : GlobalState := .init
  lock : Option (Caller platform) := none
  calls : Caller platform → CallState := fun _ => .idle

variable {platform : Platform}

def Shared.setRecord (i : Nat) (obj : CommonRecord) (s : Shared platform) : Shared platform :=
  { s with table := s.table.setRecord i obj }

/-- The call of `c` gets on, and the lock is left as it leaves it. -/
def Shared.leave (c : Caller platform) (call : CallState) (lock : Option (Caller platform))
    (s : Shared platform) : Shared platform :=
  { s with lock := lock, calls := update s.calls c call }

/-- A failed conversion. A lookup by id cancels it and a search keeps the lock; a creation goes
on to take the lock once more, which it holds already. -/
def Shared.failed (c : Caller platform) (purpose : Purpose) (s : Shared platform) :
    Shared platform :=
  match purpose with
  | .lookup (.byId _) => s.leave c .idle none
  | .lookup _ => s.leave c .idle (some c)
  | .creation .. => s.leave c .stuck (some c)

def Shared.granted (c : Caller platform) (token : Token) (purpose : Purpose)
    (s : Shared platform) : Shared platform :=
  (s.setRecord token.slot (s.table.records token.slot).acquire).leave c (.holding token purpose)
    (if token.lockMode = .global then some c else none)

/-- The mark of an exclusive mode is taken back. -/
def restoredRecord (token : Token) (expectedId : ObjectId) (obj : CommonRecord) : CommonRecord :=
  if token.lockMode = .exclusive ∧ expectedId = OS_OBJECT_ID_RESERVED then
    { obj with activeId := token.objId }
  else obj

/-- A pass of the loop of `OS_ObjectIdConvertToken`, with the lock just taken. -/
def Shared.lookAt (c : Caller platform) (token : Token) (expectedId : ObjectId) (waits : Nat)
    (purpose : Purpose) (s : Shared platform) : Shared platform :=
  let obj := s.table.records token.slot
  let marked := lookRecord token.lockMode expectedId obj
  let expected := lookExpected token.lockMode expectedId obj
  match look token.lockMode expectedId obj, waits with
  | .granted, _ => (s.setRecord token.slot marked).granted c token purpose
  | .contended, waits + 1 =>
    (s.setRecord token.slot marked).leave c (.waiting token expected waits purpose) none
  | .contended, 0 | .mismatch, _ =>
    (s.setRecord token.slot (restoredRecord token expected marked)).failed c purpose

def Shared.convert (c : Caller platform) (token : Token) (purpose : Purpose)
    (s : Shared platform) : Shared platform :=
  if objectIdIsValid token.objId then
    s.lookAt c token (startExpected token) maxWaits purpose
  else s.failed c purpose

def Shared.search (c : Caller platform) (matchFunc : MatchFunc) (token : Token)
    (purpose : Purpose) (s : Shared platform) : Shared platform :=
  let (code, token) := findNextMatch platform.toObjectLimits matchFunc token s.table
  if code = OS_SUCCESS then s.convert c token purpose else s

/-- `OS_ObjectIdGetById`, `OS_ObjectIdGetByName` and `OS_ObjectIdGetBySearch` up to the first
wait. -/
def Shared.lookup (idtype : Nat) (c : Caller platform) (lockMode : LockMode) (how : Lookup)
    (s : Shared platform) : Shared platform :=
  let (code, token) := initToken platform.toObjectLimits s.globalState lockMode idtype
  if code = OS_SUCCESS then
    match how with
    | .byId id =>
      match objectIdToArrayIndex platform.toObjectLimits idtype id with
      | .ok idx => s.convert c { token with objIdx := idx, objId := id } (.lookup how)
      | .error _ => s
    | .byName name => s.search c (objectNameMatch name) token (.lookup how)
    | .bySearch matchFunc => s.search c matchFunc token (.lookup how)
  else s

def Shared.allocateNew (idtype : Nat) (c : Caller platform) (creator : ObjectId)
    (notifyEvent : ObjectId → Int) (name : Option String) (s : Shared platform) :
    Shared platform :=
  if s.globalState = .shutdown then s
  else
    let (code, token) := initToken platform.toObjectLimits s.globalState .exclusive idtype
    if code ≠ OS_SUCCESS then s
    else
      let (code, token) := searchName platform.toObjectLimits name token s.table
      if code = OS_SUCCESS then s
      else
        let (code, token, table) :=
          findNextFree platform.toObjectLimits creator token s.table
        if code ≠ OS_SUCCESS then s
        else if notifyEvent token.objId = OS_SUCCESS then
          { s with table := table }.convert c token (.creation name false)
        else { s with table := table }.failed c (.creation name false)

/-- `OS_ObjectIdTransactionFinish` -/
def Shared.finish (c : Caller platform) (token : Token) (finalId : Option ObjectId)
    (s : Shared platform) : Shared platform :=
  (s.setRecord token.slot (finishRecord token finalId (s.table.records token.slot))).leave c
    .idle none

/-- The modes objects of a type are looked up in. No task is looked up in the mode REFCOUNT. -/
def LockMode.Shares (idtype : Nat) (lockMode : LockMode) : Prop :=
  lockMode = .refcount ∧ idtype ≠ OS_OBJECT_TYPE_OS_TASK ∨ lockMode = .global ∨
    lockMode = .exclusive

instance (idtype : Nat) (lockMode : LockMode) : Decidable (lockMode.Shares idtype) :=
  inferInstanceAs (Decidable (_ ∨ _))

/-- An exclusive token deletes once the lock is free; `OS_TaskExit` deletes with the lock. -/
def Token.Deletes (token : Token) (lock : Option (Caller platform)) : Prop :=
  token.lockMode = .exclusive ∧ lock = none ∨
    token.lockMode = .global ∧ token.objType = OS_OBJECT_TYPE_OS_TASK

instance (token : Token) (lock : Option (Caller platform)) : Decidable (token.Deletes lock) :=
  inferInstanceAs (Decidable (_ ∨ _))

inductive Act (platform : Platform)
  | lookup (c : Caller platform) (lockMode : LockMode) (how : Lookup)
  | wake (c : Caller platform)
  | allocateNew (c : Caller platform) (creator : ObjectId) (notifyEvent : ObjectId → Int)
    (name : Option String)
  | objectInit (c : Caller platform)
  | finalizeNew (c : Caller platform) (operationStatus : Int)
  | finalizeDelete (c : Caller platform) (operationStatus : Int)
  | release (c : Caller platform)
  | shutdown

/-- The effect of a step, where it can be taken: an idle call begins, and a waiting one goes on,
once the lock is free. -/
def Shared.next (idtype : Nat) (s : Shared platform) : Act platform → Option (Shared platform)
  | .lookup c lockMode how =>
    match s.calls c with
    | .idle =>
      if s.lock = none ∧ lockMode.Shares idtype then some (s.lookup idtype c lockMode how) else none
    | _ => none
  | .wake c =>
    match s.calls c with
    | .waiting token expectedId waits purpose =>
      if s.lock = none then some (s.lookAt c token expectedId waits purpose) else none
    | _ => none
  | .allocateNew c creator notifyEvent name =>
    match s.calls c with
    | .idle =>
      if s.lock = none then some (s.allocateNew idtype c creator notifyEvent name) else none
    | _ => none
  | .objectInit c =>
    -- `OS_OBJECT_INIT` runs without the lock
    match s.calls c with
    | .holding token (.creation (some name) false) =>
      some ((s.setRecord token.slot
        { s.table.records token.slot with nameEntry := some name }).leave c
          (.holding token (.creation (some name) true)) s.lock)
    | _ => none
  | .finalizeNew c operationStatus =>
    match s.calls c with
    | .holding token (.creation name initialized) =>
      if s.lock = none ∧ (name = none ∨ initialized) then
        some (s.finish c token (some (newId operationStatus token)))
      else none
    | _ => none
  | .finalizeDelete c operationStatus =>
    match s.calls c with
    | .holding token (.lookup _) =>
      if token.Deletes s.lock then
        some (s.finish c token (some (keptId operationStatus token)))
      else none
    | _ => none
  | .release c =>
    match s.calls c with
    | .holding token (.lookup _) =>
      if s.lock = none ∨ token.lockMode = .global then some (s.finish c token none) else none
    | _ => none
  | .shutdown => some { s with globalState := .shutdown }

def sharing (platform : Platform) (idtype : Nat) : Machine (Shared platform) (Act platform) where
  start s := s = {}
  next := Shared.next idtype

end Nos3.Osal

/-!
## What the routines of the id map do

The outcomes of the searches and of a look at a record, case by case, for the
proofs about calls of one task and of many.
-/
namespace Nos3.Osal

variable {limits : ObjectLimits} {idtype : Nat}

/-! ## Ids -/

theorem objectIdIsValid_ne_reserved {id : ObjectId} (h : objectIdIsValid id) :
    id ≠ OS_OBJECT_ID_RESERVED := by
  rintro rfl
  exact absurd h (by decide)

theorem objectIdIsValid_ne_undefined {id : ObjectId} (h : objectIdIsValid id) :
    id ≠ OS_OBJECT_ID_UNDEFINED := by
  rintro rfl
  exact absurd h (by decide)

theorem objectIdToType_compose {idtype serial : Nat} (h : serial ≤ OS_OBJECT_INDEX_MASK) :
    objectIdToType (objectIdCompose idtype serial) = idtype := by
  have hlt : serial < 2 ^ OS_OBJECT_TYPE_SHIFT := Nat.lt_succ_of_le h
  rw [objectIdToType, objectIdCompose, ← Nat.shiftLeft_add_eq_or_of_lt hlt, Nat.shiftRight_eq_div_pow,
    Nat.shiftLeft_eq, Nat.add_comm, Nat.add_mul_div_right _ _ (Nat.two_pow_pos _),
    Nat.div_eq_of_lt hlt, Nat.zero_add]

theorem objectIdToSerialNumber_compose {serial : Nat} (h : serial ≤ OS_OBJECT_INDEX_MASK) :
    objectIdToSerialNumber (objectIdCompose idtype serial) = serial := by
  have hlt : serial < 2 ^ 16 := Nat.lt_succ_of_le h
  have hcompose : objectIdCompose idtype serial = idtype <<< 16 + serial :=
    (Nat.shiftLeft_add_eq_or_of_lt hlt idtype).symm
  have hmask : OS_OBJECT_INDEX_MASK = 2 ^ 16 - 1 := rfl
  rw [objectIdToSerialNumber, hcompose, hmask, Nat.and_two_pow_sub_one_eq_mod, Nat.shiftLeft_eq,
    Nat.add_comm, Nat.add_mul_mod_self_right, Nat.mod_eq_of_lt hlt]

/-- The type of the id is `idtype`, and its serial number stands for the place. -/
def ObjectLimits.Fits (limits : ObjectLimits) (idtype i : Nat) (id : ObjectId) : Prop :=
  objectIdToType id = idtype ∧
    objectIdToSerialNumber id % limits.maxForObjectType idtype = i

theorem objectIdToArrayIndex_spec {id : ObjectId} {idx : Nat}
    (hmax : 0 < limits.maxForObjectType idtype)
    (h : objectIdToArrayIndex limits idtype id = .ok idx) :
    idx < limits.maxForObjectType idtype ∧ limits.Fits idtype idx id := by
  have hdefined : idtype ≠ OS_OBJECT_TYPE_UNDEFINED := (limits.typed idtype hmax).1.ne'
  unfold objectIdToArrayIndex at h
  split at h
  · cases h
  · rename_i htype
    obtain rfl : objectIdToType id = idtype := by
      by_contra hne
      exact htype ⟨hdefined, hne⟩
    rw [if_neg hmax.ne'] at h
    cases h
    exact ⟨Nat.mod_lt _ hmax, rfl, rfl⟩

theorem ObjectLimits.undefined (limits : ObjectLimits) : limits.maxForObjectType 0 = 0 := by
  by_contra h
  exact absurd (limits.typed 0 (Nat.pos_of_ne_zero h)).1 (by decide)

theorem initToken_cases (limits : ObjectLimits) (state : GlobalState) (lockMode : LockMode)
    (idtype : Nat) :
    ((initToken limits state lockMode idtype).1 ≠ OS_SUCCESS ∧
      (initToken limits state lockMode idtype).2 = {}) ∨
    ((initToken limits state lockMode idtype).1 = OS_SUCCESS ∧
      (initToken limits state lockMode idtype).2 =
        { lockMode := lockMode, objType := idtype, objIdx := -1 } ∧
      0 < limits.maxForObjectType idtype) := by
  unfold initToken
  split
  · exact .inl ⟨by decide, rfl⟩
  · split
    · exact .inl ⟨by decide, rfl⟩
    · split
      · exact .inl ⟨by decide, rfl⟩
      · rename_i hmax
        exact .inr ⟨rfl, rfl, Nat.pos_of_ne_zero hmax⟩

theorem initToken_init (lockMode : LockMode) {idtype : Nat}
    (hmax : 0 < limits.maxForObjectType idtype) :
    initToken limits .init lockMode idtype =
      (OS_SUCCESS, { lockMode := lockMode, objType := idtype, objIdx := -1 }) := by
  simp [initToken, hmax.ne']

/-! ## Searching -/

@[simp] theorem findNextMatch_lockMode (limits : ObjectLimits) (matchFunc : MatchFunc) (token : Token)
    (table : Table) :
    (findNextMatch limits matchFunc token table).2.lockMode = token.lockMode := by
  unfold findNextMatch
  dsimp only
  split <;> rfl

@[simp] theorem findNextMatch_objType (limits : ObjectLimits) (matchFunc : MatchFunc) (token : Token)
    (table : Table) :
    (findNextMatch limits matchFunc token table).2.objType = token.objType := by
  unfold findNextMatch
  dsimp only
  split <;> rfl

/-- What a search finds: a defined record that matches, and the token for it. -/
theorem findNextMatch_spec {matchFunc : MatchFunc} {token : Token}
    {table : Table} (h : (findNextMatch limits matchFunc token table).1 = OS_SUCCESS) :
    ∃ i < limits.maxForObjectType token.objType,
      (table.records i).activeId ≠ OS_OBJECT_ID_UNDEFINED ∧
      matchFunc { token with objIdx := i, objId := OS_OBJECT_ID_UNDEFINED } (table.records i) ∧
      (findNextMatch limits matchFunc token table).2 =
        { token with objIdx := i, objId := (table.records i).activeId } := by
  unfold findNextMatch at h ⊢
  dsimp only at h ⊢
  split at h
  · rename_i i hfound
    have hrange := List.mem_of_find?_eq_some hfound
    have hmatch := List.find?_some hfound
    simp only [objectIdDefined, Bool.and_eq_true, bne_iff_ne] at hmatch
    refine ⟨i, ?_, hmatch.1, hmatch.2, rfl⟩
    have := List.mem_range'_1.mp hrange
    omega
  · have hfail : OS_ERR_NAME_NOT_FOUND ≠ OS_SUCCESS := by decide
    exact absurd h hfail

theorem findNextMatch_found {matchFunc : MatchFunc} {token : Token} {table : Table}
    (h : (findNextMatch limits matchFunc token table).1 = OS_SUCCESS) :
    (table.records (findNextMatch limits matchFunc token table).2.slot).activeId =
      (findNextMatch limits matchFunc token table).2.objId := by
  obtain ⟨i, _, _, _, heq⟩ := findNextMatch_spec h
  rw [heq]
  rfl

theorem findNextMatch_missing {matchFunc : MatchFunc} {token : Token}
    {table : Table} (hfirst : token.objIdx = -1)
    (h : (findNextMatch limits matchFunc token table).1 ≠ OS_SUCCESS) :
    ∀ i : Nat, i < limits.maxForObjectType token.objType →
      (table.records i).activeId ≠ OS_OBJECT_ID_UNDEFINED →
      matchFunc { token with objIdx := i, objId := OS_OBJECT_ID_UNDEFINED }
        (table.records i) = false := by
  intro i hlt hdefined
  unfold findNextMatch at h
  dsimp only at h
  split at h
  · exact absurd rfl h
  · rename_i hnone
    have hi := List.find?_eq_none.mp hnone i (by
      rw [hfirst]
      exact List.mem_range'_1.mpr (by simpa using hlt))
    simpa [objectIdDefined, hdefined] using hi

/-- The token of a transaction that did not begin finds nothing. -/
theorem findNextMatch_empty (matchFunc : MatchFunc) (table : Table) :
    (findNextMatch limits matchFunc {} table).1 ≠ OS_SUCCESS := by
  have hlimit : limits.maxForObjectType ({} : Token).objType = 0 := limits.undefined
  simp only [findNextMatch, hlimit, Nat.zero_sub, List.range'_zero, List.find?_nil]
  decide

@[simp] theorem searchName_lockMode (limits : ObjectLimits) (name : Option String) (token : Token)
    (table : Table) :
    (searchName limits name token table).2.lockMode = token.lockMode := by
  cases name <;> simp [searchName]

@[simp] theorem searchName_objType (limits : ObjectLimits) (name : Option String) (token : Token)
    (table : Table) :
    (searchName limits name token table).2.objType = token.objType := by
  cases name <;> simp [searchName]

/-- No record in use has the name, where there is one. -/
def Unnamed (limits : ObjectLimits) (idtype : Nat) (name : Option String) (table : Table) : Prop :=
  ∀ text, name = some text → ∀ i < limits.maxForObjectType idtype,
    (table.records i).activeId ≠ OS_OBJECT_ID_UNDEFINED →
      (table.records i).nameEntry ≠ some text

theorem searchName_missing {name : Option String} {token : Token}
    {table : Table} (hfirst : token.objIdx = -1)
    (h : (searchName limits name token table).1 ≠ OS_SUCCESS) :
    Unnamed limits token.objType name table := by
  rintro text rfl i hlt hdefined hname
  have hmiss := findNextMatch_missing hfirst h i hlt hdefined
  simp [objectNameMatch, hname] at hmiss

/-! ## A new object -/

/-- The place found is free, and is the one its serial number stands for. -/
theorem freePlace_spec {maxId : Nat} (hpos : 0 < maxId) (hmax : maxId ≤ OS_OBJECT_INDEX_MASK)
    {table : Table} :
    ∀ {left serial : Nat} {place : Nat × Nat}, freePlace maxId table left serial = some place →
      place.1 = place.2 % maxId ∧ place.2 < OS_OBJECT_INDEX_MASK ∧
        objectIdDefined (table.records place.1).activeId = false
  | 0, _, _, h => by cases h
  | left + 1, serial, place, h => by
    unfold freePlace at h
    dsimp only at h
    split at h
    · exact freePlace_spec hpos hmax h
    · rename_i hfree
      cases h
      have hlt := Nat.mod_lt (serial + 1) hpos
      dsimp only
      split
      · exact ⟨(Nat.mod_mod ..).symm, hlt.trans_le hmax, by simpa using hfree⟩
      · exact ⟨rfl, by omega, by simpa using hfree⟩

/-- The serial number and the place of the object to be allocated, if there is one. -/
def allocation (limits : ObjectLimits) (idtype : Nat) (table : Table) : Option (Nat × Nat) :=
  freePlace (limits.maxForObjectType idtype) table (limits.maxForObjectType idtype)
    (objectIdToSerialNumber table.lastIdIssued)

theorem allocation_spec {table : Table} {place : Nat × Nat}
    (hmax : 0 < limits.maxForObjectType idtype)
    (h : allocation limits idtype table = some place) :
    place.1 < limits.maxForObjectType idtype ∧
      (table.records place.1).activeId = OS_OBJECT_ID_UNDEFINED ∧
      limits.Fits idtype place.1 (objectIdCompose idtype place.2) ∧
      objectIdIsValid (objectIdCompose idtype place.2) := by
  obtain ⟨hplace, hserial, hfree⟩ := freePlace_spec hmax (limits.indexed idtype) h
  obtain ⟨hlow, hhigh⟩ := limits.typed idtype hmax
  refine ⟨hplace ▸ Nat.mod_lt _ hmax, by simpa [objectIdDefined] using hfree,
    ⟨objectIdToType_compose hserial.le, ?_⟩, ?_⟩
  · rw [objectIdToSerialNumber_compose hserial.le, hplace]
  · simp [objectIdIsValid, objectIdToType_compose hserial.le, hlow, hhigh]

theorem findNextFree_found (creator : ObjectId) {token : Token} {table : Table}
    {place : Nat × Nat} (h : allocation limits token.objType table = some place) :
    findNextFree limits creator token table =
      (OS_SUCCESS, { token with
          objIdx := place.1, objId := objectIdCompose token.objType place.2 },
        { table.setRecord place.1
            { activeId := objectIdCompose token.objType place.2, creator := creator } with
          lastIdIssued := objectIdCompose token.objType place.2 }) := by
  unfold allocation at h
  simp only [findNextFree, h]

theorem findNextFree_full (creator : ObjectId) {token : Token} {table : Table}
    (h : allocation limits token.objType table = none) :
    (findNextFree limits creator token table).1 ≠ OS_SUCCESS ∧
      (findNextFree limits creator token table).2.1.lockMode = token.lockMode ∧
      (findNextFree limits creator token table).2.1.objType = token.objType := by
  unfold allocation at h
  simp only [findNextFree, h]
  refine ⟨?_, trivial, trivial⟩
  split <;> decide

/-- The table with the record of a new object. -/
def Table.issue (table : Table) (idtype : Nat) (creator : ObjectId) (place : Nat × Nat) : Table :=
  { table.setRecord place.1 { activeId := objectIdCompose idtype place.2, creator := creator } with
    lastIdIssued := objectIdCompose idtype place.2 }

/-! ## Looks -/

@[simp] theorem lookRecord_refcount (lockMode : LockMode) (expectedId : ObjectId)
    (obj : CommonRecord) : (lookRecord lockMode expectedId obj).refcount = obj.refcount := by
  unfold lookRecord
  split <;> rfl

theorem look_granted {lockMode : LockMode} {expectedId : ObjectId} {obj : CommonRecord}
    (h : look lockMode expectedId obj = .granted) :
    obj.activeId = expectedId ∧ (lockMode = .exclusive → obj.refcount = 0) := by
  unfold look at h
  split at h
  · rename_i hid
    split at h
    · cases h
    · rename_i hused
      exact ⟨hid, fun hmode => not_not.mp fun hne => hused ⟨hmode, hne⟩⟩
  · split at h <;> cases h

theorem look_contended {lockMode : LockMode} {expectedId : ObjectId} {obj : CommonRecord}
    (h : look lockMode expectedId obj = .contended) :
    obj.activeId = expectedId ∧ lockMode = .exclusive ∨
      obj.activeId ≠ expectedId ∧ obj.activeId = OS_OBJECT_ID_RESERVED := by
  unfold look at h
  split at h
  · rename_i hid
    split at h
    · rename_i hused
      exact .inl ⟨hid, hused.1⟩
    · cases h
  · rename_i hid
    split at h
    · cases h
    · rename_i hother
      exact .inr ⟨hid, not_not.mp fun hne => hother (.inr hne)⟩

end Nos3.Osal
