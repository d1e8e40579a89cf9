import Nos3.Osal.Source.IdMapRules

/-!
# What a step of a shared id map can do

Each step by its cases: when it can be taken and what it leaves. A lookup or an
allocation changes nothing or goes on to convert a token.
-/
namespace Nos3.Osal
open Function (update)

variable {platform : Platform} {idtype : Nat}

@[simp] theorem Shared.calls_leave_self (s : Shared platform) (c : Caller platform)
    (call : CallState) (lock : Option (Caller platform)) : (s.leave c call lock).calls c = call :=
  Function.update_self ..

theorem Shared.calls_leave_of_ne (s : Shared platform) {c d : Caller platform} (hd : d ≠ c)
    (call : CallState) (lock : Option (Caller platform)) :
    (s.leave c call lock).calls d = s.calls d :=
  Function.update_of_ne hd ..

@[simp] theorem Shared.table_leave (s : Shared platform) (c : Caller platform)
    (call : CallState) (lock : Option (Caller platform)) : (s.leave c call lock).table = s.table :=
  rfl

@[simp] theorem Shared.lock_leave (s : Shared platform) (c : Caller platform)
    (call : CallState) (lock : Option (Caller platform)) : (s.leave c call lock).lock = lock :=
  rfl

@[simp] theorem Shared.table_setRecord (s : Shared platform) (i : Nat) (obj : CommonRecord) :
    (s.setRecord i obj).table = s.table.setRecord i obj := rfl

@[simp] theorem Shared.calls_setRecord (s : Shared platform) (i : Nat) (obj : CommonRecord) :
    (s.setRecord i obj).calls = s.calls := rfl

theorem Shared.setRecord_setRecord (s : Shared platform) (i : Nat) (obj obj' : CommonRecord) :
    (s.setRecord i obj).setRecord i obj' = s.setRecord i obj' := by
  simp [Shared.setRecord, Table.setRecord, Function.update_idem]

theorem Shared.setRecord_self (s : Shared platform) (i : Nat) :
    s.setRecord i (s.table.records i) = s := by
  simp [Shared.setRecord, Table.setRecord]

theorem Shared.failed_eq (s : Shared platform) (c : Caller platform) (purpose : Purpose) :
    ∃ call lock, (call = .idle ∨ call = .stuck) ∧ s.failed c purpose = s.leave c call lock := by
  cases purpose with
  | lookup how =>
    cases how with
    | byId id => exact ⟨_, _, .inl rfl, rfl⟩
    | byName name => exact ⟨_, _, .inl rfl, rfl⟩
    | bySearch matchFunc => exact ⟨_, _, .inl rfl, rfl⟩
  | creation name initialized => exact ⟨_, _, .inr rfl, rfl⟩

theorem LockMode.Shares.startExpected {token : Token} (h : token.lockMode.Shares idtype) :
    startExpected token = token.objId := by
  refine if_neg ?_
  obtain ⟨hmode, _⟩ | hmode | hmode := h <;> simp [hmode]

/-! ## Lookups and allocations -/

/-- What a lookup knows of the record it has found. -/
def Lookup.Found (limits : ObjectLimits) (idtype : Nat) (table : Table) (token : Token) :
    Lookup → Prop
  | .byId id => token.objId = id ∧ limits.Fits idtype token.slot id
  | .byName name => token.objId = (table.records token.slot).activeId ∧
    (table.records token.slot).activeId ≠ OS_OBJECT_ID_UNDEFINED ∧
    (table.records token.slot).nameEntry = some name
  | .bySearch _ => token.objId = (table.records token.slot).activeId ∧
    (table.records token.slot).activeId ≠ OS_OBJECT_ID_UNDEFINED

theorem Shared.search_cases (s : Shared platform) (c : Caller platform) (token : Token)
    (matchFunc : MatchFunc) (purpose : Purpose) :
    s.search c matchFunc token purpose = s ∨
      ∃ i : Nat, i < platform.maxForObjectType token.objType ∧
        (s.table.records i).activeId ≠ OS_OBJECT_ID_UNDEFINED ∧
        matchFunc { token with objIdx := i, objId := OS_OBJECT_ID_UNDEFINED }
          (s.table.records i) ∧
        s.search c matchFunc token purpose = s.convert c { token with
          objIdx := i, objId := (s.table.records i).activeId } purpose := by
  unfold Shared.search
  dsimp only
  split
  · rename_i hfound
    obtain ⟨i, hlt, hdefined, hmatch, heq⟩ := findNextMatch_spec hfound
    exact .inr ⟨i, hlt, hdefined, hmatch, by rw [heq]⟩
  · exact .inl rfl

/-- A lookup changes nothing, or goes on to convert the token of the record it has found. -/
theorem Shared.lookup_cases (s : Shared platform) (idtype : Nat) (c : Caller platform)
    (lockMode : LockMode) (how : Lookup) :
    s.lookup idtype c lockMode how = s ∨
      ∃ token : Token, token.lockMode = lockMode ∧ token.objType = idtype ∧
        token.slot < platform.maxForObjectType idtype ∧
        how.Found platform.toObjectLimits idtype s.table token ∧
        s.lookup idtype c lockMode how = s.convert c token (.lookup how) := by
  unfold Shared.lookup
  dsimp only
  split
  · rename_i hok
    obtain ⟨hfail, _⟩ | ⟨_, htoken, hmax⟩ :=
      initToken_cases platform.toObjectLimits s.globalState lockMode idtype
    · exact absurd hok hfail
    rw [htoken]
    cases how with
    | byId id =>
      dsimp only
      split
      · rename_i idx hidx
        obtain ⟨hlt, hfits⟩ := objectIdToArrayIndex_spec hmax hidx
        exact .inr ⟨⟨lockMode, idtype, idx, id⟩, rfl, rfl, hlt, ⟨rfl, hfits⟩, rfl⟩
      · exact .inl rfl
    | byName name =>
      obtain hsame | ⟨i, hlt, hdefined, hmatch, heq⟩ := s.search_cases c
        { lockMode := lockMode, objType := idtype, objIdx := -1 } (objectNameMatch name)
        (.lookup (.byName name))
      · exact .inl hsame
      · have hname : (s.table.records i).nameEntry = some name := by
          simpa [objectNameMatch] using hmatch
        exact .inr ⟨⟨lockMode, idtype, i, _⟩, rfl, rfl, hlt, ⟨rfl, hdefined, hname⟩, heq⟩
    | bySearch matchFunc =>
      obtain hsame | ⟨i, hlt, hdefined, _, heq⟩ := s.search_cases c
        { lockMode := lockMode, objType := idtype, objIdx := -1 } matchFunc
        (.lookup (.bySearch matchFunc))
      · exact .inl hsame
      · exact .inr ⟨⟨lockMode, idtype, i, _⟩, rfl, rfl, hlt, ⟨rfl, hdefined⟩, heq⟩
  · exact .inl rfl

/-- A creation changes nothing, or issues an id for a free place and goes on to convert it, if
the handler of the event lets it. -/
theorem Shared.allocateNew_cases (s : Shared platform) (idtype : Nat) (c : Caller platform)
    (creator : ObjectId) (notifyEvent : ObjectId → Int) (name : Option String) :
    s.allocateNew idtype c creator notifyEvent name = s ∨
      ∃ place, 0 < platform.maxForObjectType idtype ∧
        allocation platform.toObjectLimits idtype s.table = some place ∧
        Unnamed platform.toObjectLimits idtype name s.table ∧
        let issued := { s with table := s.table.issue idtype creator place }
        (s.allocateNew idtype c creator notifyEvent name =
            issued.convert c ⟨.exclusive, idtype, place.1, objectIdCompose idtype place.2⟩
              (.creation name false) ∨
          s.allocateNew idtype c creator notifyEvent name =
            issued.failed c (.creation name false)) := by
  unfold Shared.allocateNew
  split
  · exact .inl rfl
  dsimp only
  split
  · exact .inl rfl
  rename_i hok
  obtain ⟨hfail, _⟩ | ⟨_, htoken, hmax⟩ :=
    initToken_cases platform.toObjectLimits s.globalState .exclusive idtype
  · exact absurd hfail hok
  rw [htoken]
  split
  · exact .inl rfl
  rename_i hunnamed
  have hunnamed := searchName_missing rfl hunnamed
  have hmode := searchName_lockMode platform.toObjectLimits name
    { lockMode := .exclusive, objType := idtype, objIdx := -1 } s.table
  have htype := searchName_objType platform.toObjectLimits name
    { lockMode := .exclusive, objType := idtype, objIdx := -1 } s.table
  generalize (searchName platform.toObjectLimits name
    { lockMode := .exclusive, objType := idtype, objIdx := -1 } s.table).2 = token at hmode htype
  dsimp only at hmode htype
  subst htype
  cases hplace : allocation platform.toObjectLimits token.objType s.table with
  | none =>
    rw [if_pos (findNextFree_full creator hplace).1]
    exact .inl rfl
  | some place =>
    rw [findNextFree_found creator hplace, if_neg (not_not.mpr rfl), hmode]
    refine .inr ⟨place, hmax, rfl, hunnamed, ?_⟩
    split
    · exact .inl rfl
    · exact .inr rfl

/-! ## The other calls -/

def Act.caller : Act platform → Option (Caller platform)
  | .lookup c .. | .wake c | .allocateNew c .. | .objectInit c | .finalizeNew c _
  | .finalizeDelete c _ | .release c => some c
  | .shutdown => none

section

variable {s s' : Shared platform} {c d : Caller platform} {token : Token}
  {expectedId : ObjectId} {purpose : Purpose}

@[simp] theorem Shared.table_failed : (s.failed c purpose).table = s.table := by
  obtain ⟨call, lock, _, heq⟩ := s.failed_eq c purpose
  rw [heq, Shared.table_leave]

theorem Shared.calls_failed (hd : d ≠ c) : (s.failed c purpose).calls d = s.calls d := by
  obtain ⟨call, lock, _, heq⟩ := s.failed_eq c purpose
  rw [heq, Shared.calls_leave_of_ne _ hd]

theorem Shared.calls_lookAt (hd : d ≠ c) (waits : Nat) :
    (s.lookAt c token expectedId waits purpose).calls d = s.calls d := by
  unfold Shared.lookAt
  dsimp only
  split
  · exact Shared.calls_leave_of_ne _ hd ..
  · exact Shared.calls_leave_of_ne _ hd ..
  · exact Shared.calls_failed hd
  · exact Shared.calls_failed hd

theorem Shared.calls_convert (hd : d ≠ c) : (s.convert c token purpose).calls d = s.calls d := by
  unfold Shared.convert
  split
  · exact Shared.calls_lookAt hd _
  · exact Shared.calls_failed hd

theorem Shared.calls_lookup (hd : d ≠ c) (lockMode : LockMode) (how : Lookup) :
    (s.lookup idtype c lockMode how).calls d = s.calls d := by
  obtain hsame | ⟨token, _, _, _, _, heq⟩ := s.lookup_cases idtype c lockMode how
  · rw [hsame]
  · rw [heq, Shared.calls_convert hd]

theorem Shared.calls_allocateNew (hd : d ≠ c) (creator : ObjectId)
    (notifyEvent : ObjectId → Int) (name : Option String) :
    (s.allocateNew idtype c creator notifyEvent name).calls d = s.calls d := by
  obtain hsame | ⟨place, _, _, _, hconverts | hfails⟩ :=
    s.allocateNew_cases idtype c creator notifyEvent name
  · rw [hsame]
  · rw [hconverts, Shared.calls_convert hd]
  · rw [hfails, Shared.calls_failed hd]

end

/-! ## Steps -/

section

variable {s s' : Shared platform} {c : Caller platform}

theorem next_lookup {lockMode : LockMode} {how : Lookup} :
    s.next idtype (.lookup c lockMode how) = some s' ↔
      s.calls c = .idle ∧ s.lock = none ∧ lockMode.Shares idtype ∧
        s' = s.lookup idtype c lockMode how := by
  constructor
  · intro h
    simp only [Shared.next] at h
    split at h
    · rename_i hidle
      split at h
      · rename_i hfree
        cases h
        exact ⟨hidle, hfree.1, hfree.2, rfl⟩
      · cases h
    · cases h
  · rintro ⟨hidle, hlock, hmode, rfl⟩
    simp only [Shared.next, hidle, hlock, hmode, and_self, if_true]

theorem next_wake :
    s.next idtype (.wake c) = some s' ↔
      ∃ token expectedId waits purpose, s.calls c = .waiting token expectedId waits purpose ∧
        s.lock = none ∧ s' = s.lookAt c token expectedId waits purpose := by
  constructor
  · intro h
    simp only [Shared.next] at h
    split at h
    · rename_i token expectedId waits purpose hcall
      split at h
      · rename_i hfree
        cases h
        exact ⟨token, expectedId, waits, purpose, hcall, hfree, rfl⟩
      · cases h
    · cases h
  · rintro ⟨token, expectedId, waits, purpose, hcall, hlock, rfl⟩
    simp only [Shared.next, hcall, hlock, if_true]

theorem next_allocateNew {creator : ObjectId} {notifyEvent : ObjectId → Int}
    {name : Option String} :
    s.next idtype (.allocateNew c creator notifyEvent name) = some s' ↔
      s.calls c = .idle ∧ s.lock = none ∧
        s' = s.allocateNew idtype c creator notifyEvent name := by
  constructor
  · intro h
    simp only [Shared.next] at h
    split at h
    · rename_i hidle
      split at h
      · rename_i hfree
        cases h
        exact ⟨hidle, hfree, rfl⟩
      · cases h
    · cases h
  · rintro ⟨hidle, hlock, rfl⟩
    simp only [Shared.next, hidle, hlock, if_true]

theorem next_objectInit :
    s.next idtype (.objectInit c) = some s' ↔
      ∃ token name, s.calls c = .holding token (.creation (some name) false) ∧
        s' = (s.setRecord token.slot
          { s.table.records token.slot with nameEntry := some name }).leave c
            (.holding token (.creation (some name) true)) s.lock := by
  constructor
  · intro h
    simp only [Shared.next] at h
    split at h
    · rename_i token name hcall
      cases h
      exact ⟨token, name, hcall, rfl⟩
    · cases h
  · rintro ⟨token, name, hcall, rfl⟩
    simp only [Shared.next, hcall]

theorem next_finalizeNew {operationStatus : Int} :
    s.next idtype (.finalizeNew c operationStatus) = some s' ↔
      ∃ token name initialized, s.calls c = .holding token (.creation name initialized) ∧
        s.lock = none ∧ (name = none ∨ initialized) ∧
        s' = s.finish c token (some (newId operationStatus token)) := by
  constructor
  · intro h
    simp only [Shared.next] at h
    split at h
    · rename_i token name initialized hcall
      split at h
      · rename_i hfree
        cases h
        exact ⟨token, name, initialized, hcall, hfree.1, hfree.2, rfl⟩
      · cases h
    · cases h
  · rintro ⟨token, name, initialized, hcall, hlock, hstored, rfl⟩
    simp only [Shared.next, hcall, hlock, hstored, and_self, if_true]

theorem next_finalizeDelete {operationStatus : Int} :
    s.next idtype (.finalizeDelete c operationStatus) = some s' ↔
      ∃ token how, s.calls c = .holding token (.lookup how) ∧ token.Deletes s.lock ∧
        s' = s.finish c token (some (keptId operationStatus token)) := by
  constructor
  · intro h
    simp only [Shared.next] at h
    split at h
    · rename_i token how hcall
      split at h
      · rename_i hdeletes
        cases h
        exact ⟨token, how, hcall, hdeletes, rfl⟩
      · cases h
    · cases h
  · rintro ⟨token, how, hcall, hdeletes, rfl⟩
    simp only [Shared.next, hcall, if_pos hdeletes]

theorem next_release :
    s.next idtype (.release c) = some s' ↔
      ∃ token how, s.calls c = .holding token (.lookup how) ∧
        (s.lock = none ∨ token.lockMode = .global) ∧ s' = s.finish c token none := by
  constructor
  · intro h
    simp only [Shared.next] at h
    split at h
    · rename_i token how hcall
      split at h
      · rename_i hfree
        cases h
        exact ⟨token, how, hcall, hfree, rfl⟩
      · cases h
    · cases h
  · rintro ⟨token, how, hcall, hfree, rfl⟩
    simp only [Shared.next, hcall, if_pos hfree]

/-- A step of one call is not a step of another. -/
theorem Shared.calls_next {a : Act platform} (h : s.next idtype a = some s')
    {d : Caller platform} (hd : a.caller ≠ some d) : s'.calls d = s.calls d := by
  cases a with
  | shutdown =>
    cases h
    rfl
  | lookup c lockMode how =>
    obtain ⟨_, _, _, rfl⟩ := next_lookup.mp h
    exact Shared.calls_lookup (fun heq => hd (congrArg some heq.symm)) ..
  | wake c =>
    obtain ⟨_, _, _, _, _, _, rfl⟩ := next_wake.mp h
    exact Shared.calls_lookAt (fun heq => hd (congrArg some heq.symm)) _
  | allocateNew c creator notifyEvent name =>
    obtain ⟨_, _, rfl⟩ := next_allocateNew.mp h
    exact Shared.calls_allocateNew (fun heq => hd (congrArg some heq.symm)) ..
  | objectInit c =>
    obtain ⟨_, _, _, rfl⟩ := next_objectInit.mp h
    exact Shared.calls_leave_of_ne _ (fun heq => hd (congrArg some heq.symm)) ..
  | finalizeNew c operationStatus =>
    obtain ⟨_, _, _, _, _, _, rfl⟩ := next_finalizeNew.mp h
    exact Shared.calls_leave_of_ne _ (fun heq => hd (congrArg some heq.symm)) ..
  | finalizeDelete c operationStatus =>
    obtain ⟨_, _, _, _, rfl⟩ := next_finalizeDelete.mp h
    exact Shared.calls_leave_of_ne _ (fun heq => hd (congrArg some heq.symm)) ..
  | release c =>
    obtain ⟨_, _, _, _, rfl⟩ := next_release.mp h
    exact Shared.calls_leave_of_ne _ (fun heq => hd (congrArg some heq.symm)) ..

end

end Nos3.Osal
