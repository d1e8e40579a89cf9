import Mathlib.Data.Nat.Bitwise
import Mathlib.Logic.Function.Basic

/-!
# The object id map of OSAL

The part of `OS_common_table` that belongs to one object type, and what the
routines of the id map do to it between taking and releasing the lock of the
table. Ids are 32-bit numbers: the type above, a serial number below.
-/
namespace Nos3.Osal
open Function (update)

abbrev ObjectId := Nat

def OS_OBJECT_INDEX_MASK : Nat := 0xFFFF
def OS_OBJECT_TYPE_SHIFT : Nat := 16
def OS_OBJECT_TYPE_UNDEFINED : Nat := 0x00
def OS_OBJECT_TYPE_USER : Nat := 0x10

def OS_OBJECT_ID_UNDEFINED : ObjectId := 0
def OS_OBJECT_ID_RESERVED : ObjectId := 0xFFFFFFFF

def OS_SUCCESS : Int := 0
def OS_ERROR : Int := -1
def OS_ERR_NAME_TOO_LONG : Int := -13
def OS_ERR_NO_FREE_IDS : Int := -14
def OS_ERR_NAME_TAKEN : Int := -15
def OS_ERR_INVALID_ID : Int := -16
def OS_ERR_NAME_NOT_FOUND : Int := -17
def OS_ERR_NOT_IMPLEMENTED : Int := -28
def OS_ERR_OBJECT_IN_USE : Int := -33
def OS_ERR_INCORRECT_OBJ_STATE : Int := -35

def objectIdToSerialNumber (id : ObjectId) : Nat := id &&& OS_OBJECT_INDEX_MASK

def objectIdToType (id : ObjectId) : Nat := id >>> OS_OBJECT_TYPE_SHIFT

def objectIdCompose (idtype idserial : Nat) : ObjectId :=
  idtype <<< OS_OBJECT_TYPE_SHIFT ||| idserial

def objectIdDefined (id : ObjectId) : Bool := id != OS_OBJECT_ID_UNDEFINED

def objectIdIsValid (id : ObjectId) : Bool :=
  OS_OBJECT_TYPE_UNDEFINED < objectIdToType id && objectIdToType id < OS_OBJECT_TYPE_USER

/-- The `OS_MAX_…` numbers of a build, by object type. -/
structure ObjectLimits where
  maxForObjectType : Nat → Nat
  typed : ∀ idtype, 0 < maxForObjectType idtype →
    OS_OBJECT_TYPE_UNDEFINED < idtype ∧ idtype < OS_OBJECT_TYPE_USER
  indexed : ∀ idtype, maxForObjectType idtype ≤ OS_OBJECT_INDEX_MASK

def OS_OBJECT_TYPE_OS_QUEUE : Nat := 0x02
def OS_MAX_QUEUES : Nat := 128

/-- The queues of the build. -/
def nos3Limits : ObjectLimits where
  maxForObjectType idtype := if idtype = OS_OBJECT_TYPE_OS_QUEUE then OS_MAX_QUEUES else 0
  typed idtype h := by
    by_cases hq : idtype = OS_OBJECT_TYPE_OS_QUEUE
    · subst hq
      decide
    · simp [hq] at h
  indexed idtype := by
    split <;> decide

/-- `OS_SharedGlobalVars.GlobalState`: the two magic numbers, or any other value. -/
inductive GlobalState
  | other
  | init
  | shutdown
  deriving DecidableEq, Repr

/-- `OS_LOCK_MODE_NONE` and the modes that follow it. -/
inductive LockMode
  | none
  | global
  | refcount
  | exclusive
  | reserved
  deriving DecidableEq, Repr

structure CommonRecord where
  nameEntry : Option String := none
  activeId : ObjectId := OS_OBJECT_ID_UNDEFINED
  creator : ObjectId := OS_OBJECT_ID_UNDEFINED
  refcount : Nat := 0

structure Token where
  lockMode : LockMode := .none
  objType : Nat := 0
  objIdx : Int := 0
  objId : ObjectId := OS_OBJECT_ID_UNDEFINED

/-- The record a token is about. -/
def Token.slot (token : Token) : Nat := token.objIdx.toNat

structure Table where
  records : Nat → CommonRecord := fun _ => {}
  lastIdIssued : ObjectId := OS_OBJECT_ID_UNDEFINED

def Table.setRecord (table : Table) (i : Nat) (obj : CommonRecord) : Table :=
  { table with records := update table.records i obj }

@[simp] theorem Table.records_setRecord (table : Table) (i : Nat) (obj : CommonRecord) :
    (table.setRecord i obj).records i = obj :=
  Function.update_self ..

theorem Table.records_setRecord_of_ne (table : Table) {i j : Nat} (h : j ≠ i)
    (obj : CommonRecord) : (table.setRecord i obj).records j = table.records j :=
  Function.update_of_ne h ..

abbrev MatchFunc := Token → CommonRecord → Bool

def objectNameMatch (name : String) : MatchFunc := fun _ obj => obj.nameEntry == some name

def objectIdToArrayIndex (limits : ObjectLimits) (idtype : Nat) (id : ObjectId) :
    Except Int Nat :=
  if idtype ≠ OS_OBJECT_TYPE_UNDEFINED ∧ objectIdToType id ≠ idtype then .error OS_ERR_INVALID_ID
  else if limits.maxForObjectType (objectIdToType id) = 0 then .error OS_ERR_INVALID_ID
  else .ok (objectIdToSerialNumber id % limits.maxForObjectType (objectIdToType id))

/-- `OS_ObjectIdTransactionInit` up to the lock. -/
def initToken (limits : ObjectLimits) (state : GlobalState) (lockMode : LockMode) (idtype : Nat) :
    Int × Token :=
  if state = .other then (OS_ERROR, {})
  else if state = .shutdown ∧ lockMode ≠ .exclusive then (OS_ERR_INCORRECT_OBJ_STATE, {})
  else if limits.maxForObjectType idtype = 0 then (OS_ERR_INVALID_ID, {})
  else (OS_SUCCESS, { lockMode := lockMode, objType := idtype, objIdx := -1 })

/-- The first record behind the token's place that is defined and matches. -/
def findNextMatch (limits : ObjectLimits) (matchFunc : MatchFunc) (token : Token) (table : Table) :
    Int × Token :=
  let first := (token.objIdx + 1).toNat
  let objCount := limits.maxForObjectType token.objType
  let found := (List.range' first (objCount - first)).find? fun i =>
    objectIdDefined (table.records i).activeId &&
      matchFunc { token with objIdx := i, objId := OS_OBJECT_ID_UNDEFINED } (table.records i)
  match found with
  | some i => (OS_SUCCESS, { token with objIdx := i, objId := (table.records i).activeId })
  | none =>
    (OS_ERR_NAME_NOT_FOUND,
      { token with objIdx := max first objCount, objId := OS_OBJECT_ID_UNDEFINED })

/-- The search of `OS_ObjectIdFindNextFree`: the free place and the serial number for it. -/
def freePlace (maxId : Nat) (table : Table) : Nat → Nat → Option (Nat × Nat)
  | 0, _ => none
  | left + 1, serial =>
    let localId := (serial + 1) % maxId
    let serial := if serial + 1 ≥ OS_OBJECT_INDEX_MASK then localId else serial + 1
    if objectIdDefined (table.records localId).activeId then freePlace maxId table left serial
    else some (localId, serial)

def findNextFree (limits : ObjectLimits) (creator : ObjectId) (token : Token) (table : Table) :
    Int × Token × Table :=
  let maxId := limits.maxForObjectType token.objType
  match freePlace maxId table maxId (objectIdToSerialNumber table.lastIdIssued) with
  | some (localId, serial) =>
    let objId := objectIdCompose token.objType serial
    (OS_SUCCESS, { token with objIdx := localId, objId := objId },
      { table.setRecord localId { activeId := objId, creator := creator } with
        lastIdIssued := objId })
  | none =>
    (if maxId = 0 then OS_ERR_NOT_IMPLEMENTED else OS_ERR_NO_FREE_IDS,
      { token with objIdx := -1, objId := OS_OBJECT_ID_UNDEFINED }, table)

/-- What one pass of the loop of `OS_ObjectIdConvertToken` finds. -/
inductive Look
  | granted
  | mismatch
  | contended
  deriving DecidableEq, Repr

/-- The id expected after a look: an exclusive mode marks a record it matched. -/
def lookExpected (lockMode : LockMode) (expectedId : ObjectId) (obj : CommonRecord) : ObjectId :=
  if obj.activeId = expectedId ∧ lockMode = .exclusive then OS_OBJECT_ID_RESERVED else expectedId

def lookRecord (lockMode : LockMode) (expectedId : ObjectId) (obj : CommonRecord) : CommonRecord :=
  if obj.activeId = expectedId ∧ lockMode = .exclusive then
    { obj with activeId := OS_OBJECT_ID_RESERVED }
  else obj

def look (lockMode : LockMode) (expectedId : ObjectId) (obj : CommonRecord) : Look :=
  if obj.activeId = expectedId then
    if lockMode = .exclusive ∧ obj.refcount ≠ 0 then .contended else .granted
  else if lockMode = .none ∨ obj.activeId ≠ OS_OBJECT_ID_RESERVED then .mismatch
  else .contended

/-- The id a conversion starts with. -/
def startExpected (token : Token) : ObjectId :=
  if token.lockMode = .reserved then OS_OBJECT_ID_RESERVED else token.objId

/-- `refcount` is a `uint16`. -/
def CommonRecord.acquire (obj : CommonRecord) : CommonRecord :=
  { obj with refcount := (obj.refcount + 1) % 2 ^ 16 }

/-- The update of `OS_ObjectIdTransactionFinish`. -/
def finishRecord (token : Token) (finalId : Option ObjectId) (obj : CommonRecord) : CommonRecord :=
  { obj with
    refcount := obj.refcount - 1
    activeId := match finalId with
      | some id => id
      | none => if token.lockMode = .exclusive then token.objId else obj.activeId }

end Nos3.Osal

/-!
## Calls of the id map

Each routine of the id map as one task runs it. `others k` is the table as the
other tasks leave it when the call takes the lock of the type for the `k`-th
time; the trace lists what the call does to that lock.
-/
namespace Nos3.Osal
open Function (update)

inductive LockEvent
  | lock
  | unlock
  deriving DecidableEq, Repr

structure World where
  table : Table := {}
  turns : Nat := 0
  trace : List LockEvent := []

abbrev Others := Nat → Table

def World.setRecord (w : World) (i : Nat) (obj : CommonRecord) : World :=
  { w with table := w.table.setRecord i obj }

structure Result where
  code : Int
  token : Token
  world : World

section

variable (limits : ObjectLimits) (state : GlobalState) (others : Others)

/-- The table is only locked for a known type and a mode that locks. -/
def Token.Locks (token : Token) : Prop :=
  token.objType < OS_OBJECT_TYPE_USER ∧ token.lockMode ≠ .none

instance (token : Token) : Decidable token.Locks :=
  inferInstanceAs (Decidable (_ ∧ _))

def lockGlobal (token : Token) (w : World) : World :=
  if token.Locks then
    { table := others w.turns, turns := w.turns + 1, trace := w.trace ++ [.lock] }
  else w

def unlockGlobal (token : Token) (w : World) : World :=
  if token.Locks then { w with trace := w.trace ++ [.unlock] } else w

/-- The lock is given up and taken again. -/
def waitForStateChange (w : World) : World :=
  { table := others w.turns, turns := w.turns + 1, trace := w.trace ++ [.unlock, .lock] }

def transactionInit (lockMode : LockMode) (idtype : Nat) (w : World) : Result :=
  let (code, token) := initToken limits state lockMode idtype
  ⟨code, token, if code = OS_SUCCESS ∧ lockMode ≠ .none then lockGlobal others token w else w⟩

def transactionCancel (result : Result) : Result :=
  if result.token.lockMode ≠ .none then
    { result with
      token := { result.token with lockMode := .none }
      world := unlockGlobal result.token result.world }
  else result

/-- The loop of `OS_ObjectIdConvertToken`, with the waits it has left. -/
def convertLoop (token : Token) : Nat → ObjectId → World → Int × ObjectId × World
  | waits, expectedId, w =>
    let obj := w.table.records token.slot
    let marked := w.setRecord token.slot (lookRecord token.lockMode expectedId obj)
    let expected := lookExpected token.lockMode expectedId obj
    match look token.lockMode expectedId obj, waits with
    | .granted, _ => (OS_SUCCESS, expected, marked)
    | .mismatch, _ => (OS_ERR_INVALID_ID, expected, marked)
    | .contended, 0 => (OS_ERR_OBJECT_IN_USE, expected, marked)
    | .contended, waits + 1 =>
      convertLoop token waits expected (waitForStateChange others marked)

/-- The end of `OS_ObjectIdConvertToken`. -/
def settle (token : Token) (code : Int) (expectedId : ObjectId) (w : World) : World :=
  if token.lockMode = .none then w
  else if code = OS_SUCCESS then
    let w := w.setRecord token.slot (w.table.records token.slot).acquire
    if token.lockMode = .refcount ∨ token.lockMode = .exclusive then unlockGlobal token w else w
  else if token.lockMode = .exclusive ∧ expectedId = OS_OBJECT_ID_RESERVED then
    w.setRecord token.slot { w.table.records token.slot with activeId := token.objId }
  else w

/-- The fifth contended look gives up. -/
def maxWaits : Nat := 4

def convertToken (token : Token) (w : World) : Int × World :=
  if objectIdIsValid token.objId then
    let (code, expectedId, w) := convertLoop others token maxWaits (startExpected token) w
    (code, settle token code expectedId w)
  else (OS_ERR_INCORRECT_OBJ_STATE, w)

def getBySearch (lockMode : LockMode) (idtype : Nat) (matchFunc : MatchFunc) (w : World) :
    Result :=
  let opened := transactionInit limits state others lockMode idtype w
  let (code, token) := findNextMatch limits matchFunc opened.token opened.world.table
  if code = OS_SUCCESS then
    let (code, w) := convertToken others token opened.world
    ⟨code, token, w⟩
  else transactionCancel ⟨code, token, opened.world⟩

def getByName (lockMode : LockMode) (idtype : Nat) (name : String) (w : World) : Result :=
  getBySearch limits state others lockMode idtype (objectNameMatch name) w

def getById (lockMode : LockMode) (idtype : Nat) (id : ObjectId) (w : World) : Result :=
  let opened := transactionInit limits state others lockMode idtype w
  if opened.code = OS_SUCCESS then
    match objectIdToArrayIndex limits idtype id with
    | .ok idx =>
      let token := { opened.token with objIdx := idx, objId := id }
      let (code, w) := convertToken others token opened.world
      if code = OS_SUCCESS then ⟨code, token, w⟩ else transactionCancel ⟨code, token, w⟩
    | .error code => transactionCancel ⟨code, opened.token, opened.world⟩
  else opened

def transactionFinish (token : Token) (finalId : Option ObjectId) (w : World) : Token × World :=
  if token.lockMode = .none then (token, w)
  else
    let w := if token.lockMode = .exclusive ∨ token.lockMode = .refcount then
      lockGlobal others token w else w
    let w := w.setRecord token.slot (finishRecord token finalId (w.table.records token.slot))
    ({ token with lockMode := .none }, unlockGlobal token w)

def release (token : Token) (w : World) : Token × World :=
  transactionFinish others token none w

/-- The id that is left in the record and handed to the caller. -/
def newId (operationStatus : Int) (token : Token) : ObjectId :=
  if operationStatus = OS_SUCCESS then token.objId else OS_OBJECT_ID_UNDEFINED

def finalizeNew (operationStatus : Int) (token : Token) (w : World) : Result :=
  let (token', w) := transactionFinish others token (some (newId operationStatus token)) w
  ⟨operationStatus, token', w⟩

def keptId (operationStatus : Int) (token : Token) : ObjectId :=
  if operationStatus = OS_SUCCESS then OS_OBJECT_ID_UNDEFINED else token.objId

def finalizeDelete (operationStatus : Int) (token : Token) (w : World) : Result :=
  let (token', w) := transactionFinish others token (some (keptId operationStatus token)) w
  ⟨operationStatus, token', w⟩

def OS_MAX_API_NAME : Nat := 20

/-- The id of the object with the name, or the code of the failure. -/
def findByName (idtype : Nat) (name : Option String) (w : World) :
    Except Int ObjectId × Token × World :=
  match name with
  | none => (.error OS_ERR_NAME_NOT_FOUND, {}, w)
  | some name =>
    if name.utf8ByteSize ≥ OS_MAX_API_NAME then (.error OS_ERR_NAME_TOO_LONG, {}, w)
    else
      let found := getByName limits state others .global idtype name w
      if found.code = OS_SUCCESS then
        let (token, w) := release others found.token found.world
        (.ok found.token.objId, token, w)
      else (.error found.code, found.token, found.world)

/-- The search for an object of the same name; without a name there is none. -/
def searchName (name : Option String) (token : Token) (table : Table) : Int × Token :=
  match name with
  | some name => findNextMatch limits (objectNameMatch name) token table
  | none => (OS_ERR_NAME_NOT_FOUND, token)

/-- `notifyEvent` is what the event handler of the application answers to
`OS_EVENT_RESOURCE_ALLOCATED`. -/
def allocateNew (creator : ObjectId) (notifyEvent : ObjectId → Int) (idtype : Nat)
    (name : Option String) (w : World) : Result :=
  if state = .shutdown then ⟨OS_ERR_INCORRECT_OBJ_STATE, {}, w⟩
  else
    let opened := transactionInit limits state others .exclusive idtype w
    if opened.code ≠ OS_SUCCESS then opened
    else
      let searched := searchName limits name opened.token opened.world.table
      if searched.1 = OS_SUCCESS then
        transactionCancel ⟨OS_ERR_NAME_TAKEN, searched.2, opened.world⟩
      else
        let (code, token, table) := findNextFree limits creator searched.2 opened.world.table
        let w := { opened.world with table := table }
        if code ≠ OS_SUCCESS then transactionCancel ⟨code, token, w⟩
        else
          let (code, w) :=
            if notifyEvent token.objId = OS_SUCCESS then convertToken others token w
            else (notifyEvent token.objId, w)
          if code ≠ OS_SUCCESS then finalizeNew others code token w else ⟨code, token, w⟩

/-- `OS_object_iter_t`. -/
structure Iterator where
  matchFunc : MatchFunc
  limit : Nat
  token : Token

def iteratorInit (matchFunc : MatchFunc) (objtype : Nat) (w : World) : Int × Iterator × World :=
  let opened := transactionInit limits state others .global objtype w
  (opened.code, ⟨matchFunc, limits.maxForObjectType objtype, opened.token⟩, opened.world)

/-- The next matching entry; `none` at the end. -/
def iteratorGetNext (iter : Iterator) (w : World) : Option Iterator :=
  let first := (iter.token.objIdx + 1).toNat
  let found := (List.range' first (iter.limit - first)).find? fun (i : Nat) =>
    iter.matchFunc { iter.token with objIdx := i, objId := OS_OBJECT_ID_UNDEFINED }
      (w.table.records i)
  found.map fun (i : Nat) =>
    { iter with token := { iter.token with objIdx := i, objId := (w.table.records i).activeId } }

/-- The handler runs while the lock is given up. -/
def iteratorProcessEntry (iter : Iterator) (w : World) : World :=
  lockGlobal others iter.token (unlockGlobal iter.token w)

def iteratorDestroy (iter : Iterator) (w : World) : Token × World :=
  let result := transactionCancel ⟨OS_SUCCESS, iter.token, w⟩
  (result.token, result.world)

/-- The loop over the entries, at most one pass for each place of the table. -/
def iterate : Nat → Iterator → World → Iterator × World
  | 0, iter, w => (iter, w)
  | left + 1, iter, w =>
    match iteratorGetNext iter w with
    | some iter => iterate left iter (iteratorProcessEntry others iter w)
    | none => (iter, w)

/-- `OS_ForEachObjectOfType`, for any match function. -/
def forEachObjectOfType (matchFunc : MatchFunc) (idtype : Nat) (w : World) : Token × World :=
  let (code, iter, w) := iteratorInit limits state others matchFunc idtype w
  if code = OS_SUCCESS then
    let (iter, w) := iterate others (limits.maxForObjectType idtype) iter w
    iteratorDestroy iter w
  else (iter.token, w)

end

end Nos3.Osal
