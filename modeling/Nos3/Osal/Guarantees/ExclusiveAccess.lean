import Nos3.Osal.Guarantees.SharedRecords

/-!
# Exclusive access and the ids of the table

In every run an exclusive token is alone on its record, `refcount` counts the
tokens, and each id stands once, where it leads to. The mark of an exclusive
access stands for the id its token keeps, and giving it up brings that id back,
unless a deletion succeeds or a creation fails.
-/
namespace Nos3.Osal
open Base.Transition

variable {platform : Platform} {idtype : Nat}

/-- The token of a call that has its record marked. -/
def CallState.mark : CallState → Option Token
  | .holding token _ => if token.lockMode = .exclusive then some token else none
  | .waiting token expectedId _ _ =>
    if token.lockMode = .exclusive ∧ expectedId = OS_OBJECT_ID_RESERVED then some token else none
  | _ => none

/-- The id that takes the place of the mark. -/
def Act.leaves (token : Token) : Act platform → ObjectId
  | .finalizeNew _ operationStatus => newId operationStatus token
  | .finalizeDelete _ operationStatus => keptId operationStatus token
  | _ => token.objId

/-- The id whose place the mark takes. -/
def Act.replaces (token : Token) : Act platform → ObjectId
  | .allocateNew .. => OS_OBJECT_ID_UNDEFINED
  | _ => token.objId

section

variable {s s' : Shared platform} {c d : Caller platform} {token token' : Token}
  {expectedId : ObjectId} {purpose : Purpose}

theorem Shared.failed_mark : ((s.failed c purpose).calls c).mark = none := by
  obtain ⟨call, lock, rfl | rfl, heq⟩ := s.failed_eq c purpose <;>
    rw [heq, Shared.calls_leave_self] <;> rfl

/-- The mark of a look stands for the id the look expected. -/
theorem lookAt_mark {waits : Nat}
    (hunmarked : ¬ (token.lockMode = .exclusive ∧ expectedId = OS_OBJECT_ID_RESERVED))
    (h : ((s.lookAt c token expectedId waits purpose).calls c).mark = some token') :
    token' = token ∧ (s.table.records token.slot).activeId = expectedId := by
  unfold Shared.lookAt at h
  dsimp only at h
  split at h
  · rename_i hlook
    rw [Shared.granted, Shared.calls_leave_self, CallState.mark] at h
    split at h
    · cases h
      exact ⟨rfl, (look_granted hlook).1⟩
    · cases h
  · rw [Shared.calls_leave_self, CallState.mark] at h
    split at h
    · rename_i hmarked
      cases h
      refine ⟨rfl, ?_⟩
      by_contra hne
      rw [lookExpected, if_neg fun hboth => hne hboth.1] at hmarked
      exact hunmarked hmarked
    · cases h
  · rw [Shared.failed_mark] at h
    cases h
  · rw [Shared.failed_mark] at h
    cases h

/-- A look that fails takes its own mark back. -/
theorem lookAt_unmarks {waits : Nat} (hmode : token.lockMode = .exclusive)
    (h : ((s.lookAt c token OS_OBJECT_ID_RESERVED waits purpose).calls c).mark = none) :
    ((s.lookAt c token OS_OBJECT_ID_RESERVED waits purpose).table.records
      token.slot).activeId = token.objId := by
  have hexpected : lookExpected token.lockMode OS_OBJECT_ID_RESERVED
      (s.table.records token.slot) = OS_OBJECT_ID_RESERVED := by
    unfold lookExpected
    split <;> rfl
  unfold Shared.lookAt at h ⊢
  dsimp only at h ⊢
  rw [hexpected] at h ⊢
  split at h
  · rw [Shared.granted, Shared.calls_leave_self, CallState.mark, if_pos hmode] at h
    cases h
  · rw [Shared.calls_leave_self, CallState.mark, if_pos ⟨hmode, rfl⟩] at h
    cases h
  · rename_i hlook
    simp [restoredRecord, hmode]
  · rename_i hlook
    simp [restoredRecord, hmode]

theorem convert_mark (hmode : token.lockMode.Shares idtype)
    (h : ((s.convert c token purpose).calls c).mark = some token') :
    token' = token ∧ (s.table.records token.slot).activeId = token.objId := by
  unfold Shared.convert at h
  split at h
  · rename_i hvalid
    rw [hmode.startExpected] at h
    exact lookAt_mark (fun hboth => objectIdIsValid_ne_reserved hvalid hboth.2) h
  · rw [Shared.failed_mark] at h
    cases h

theorem lookup_mark (hidle : s.calls c = .idle) {lockMode : LockMode}
    (hmode : lockMode.Shares idtype) {how : Lookup}
    (h : ((s.lookup idtype c lockMode how).calls c).mark = some token') :
    (s.table.records token'.slot).activeId = token'.objId := by
  obtain hsame | ⟨token, rfl, _, _, _, heq⟩ := s.lookup_cases idtype c lockMode how
  · rw [hsame, hidle] at h
    cases h
  · rw [heq] at h
    obtain ⟨rfl, hid⟩ := convert_mark hmode h
    exact hid

/-- A creation marks a record that was free. -/
theorem allocateNew_mark (hidle : s.calls c = .idle) {creator : ObjectId}
    {notifyEvent : ObjectId → Int} {name : Option String}
    (h : ((s.allocateNew idtype c creator notifyEvent name).calls c).mark = some token') :
    (s.table.records token'.slot).activeId = OS_OBJECT_ID_UNDEFINED := by
  obtain hsame | ⟨place, hmax, hplace, _, hconverts | hfails⟩ :=
    s.allocateNew_cases idtype c creator notifyEvent name
  · rw [hsame, hidle] at h
    cases h
  · rw [hconverts] at h
    have hmode : LockMode.exclusive.Shares idtype := .inr (.inr rfl)
    obtain ⟨rfl, _⟩ := convert_mark hmode h
    exact (allocation_spec hmax hplace).2.1
  · rw [hfails, Shared.failed_mark] at h
    cases h

/-- A mark takes the place of the id its token keeps; the mark of a creation, of none. -/
theorem next_marks {a : Act platform} (hinv : Inv idtype s) (h : s.next idtype a = some s')
    (hbefore : (s.calls c).mark = none) (hafter : (s'.calls c).mark = some token) :
    (s.table.records token.slot).activeId = a.replaces token := by
  by_cases hc : a.caller = some c
  · cases a with
    | shutdown => cases hc
    | lookup c lockMode how =>
      cases hc
      obtain ⟨hidle, _, hmode, rfl⟩ := next_lookup.mp h
      exact lookup_mark hidle hmode hafter
    | wake c =>
      cases hc
      obtain ⟨token', expectedId, waits, purpose, hcall, hlock, rfl⟩ := next_wake.mp h
      have hunmarked : ¬ (token'.lockMode = .exclusive ∧ expectedId = OS_OBJECT_ID_RESERVED) := by
        intro hboth
        rw [hcall, CallState.mark, if_pos hboth] at hbefore
        cases hbefore
      obtain ⟨rfl, hid⟩ := lookAt_mark hunmarked hafter
      have hexpected := (hinv.looks hlock hcall).expected.resolve_right
        fun ⟨hmode, hreserved, _⟩ => hunmarked ⟨hmode, hreserved⟩
      exact hid.trans hexpected
    | allocateNew c creator notifyEvent name =>
      cases hc
      obtain ⟨hidle, _, rfl⟩ := next_allocateNew.mp h
      exact allocateNew_mark hidle hafter
    | objectInit c =>
      cases hc
      obtain ⟨token', name, hcall, rfl⟩ := next_objectInit.mp h
      rw [hcall] at hbefore
      rw [Shared.calls_leave_self] at hafter
      exact absurd (hbefore.symm.trans hafter) (by simp)
    | finalizeNew c operationStatus =>
      cases hc
      obtain ⟨_, _, _, _, _, _, rfl⟩ := next_finalizeNew.mp h
      rw [Shared.finish, Shared.calls_leave_self] at hafter
      cases hafter
    | finalizeDelete c operationStatus =>
      cases hc
      obtain ⟨_, _, _, _, rfl⟩ := next_finalizeDelete.mp h
      rw [Shared.finish, Shared.calls_leave_self] at hafter
      cases hafter
    | release c =>
      cases hc
      obtain ⟨_, _, _, _, rfl⟩ := next_release.mp h
      rw [Shared.finish, Shared.calls_leave_self] at hafter
      cases hafter
  · rw [Shared.calls_next h hc, hbefore] at hafter
    cases hafter

/-- The id a finishing call leaves in the record. -/
theorem finish_id (finalId : Option ObjectId) :
    ((s.finish c token finalId).table.records token.slot).activeId =
      finalId.getD (if token.lockMode = .exclusive then token.objId
        else (s.table.records token.slot).activeId) := by
  cases finalId <;> simp [Shared.finish, finishRecord]

/-- The token of a call that has its record marked and holds it is exclusive. -/
theorem mark_holding (hcall : s.calls c = .holding token' purpose)
    (h : (s.calls c).mark = some token) : token' = token ∧ token.lockMode = .exclusive := by
  rw [hcall, CallState.mark] at h
  split at h
  · rename_i hmode
    cases h
    exact ⟨rfl, hmode⟩
  · cases h

/-- A mark that is given up leaves what the act says: the id of the token, or none. -/
theorem next_unmarks {a : Act platform} (h : s.next idtype a = some s')
    (hbefore : (s.calls c).mark = some token) (hafter : (s'.calls c).mark = none) :
    (s'.table.records token.slot).activeId = a.leaves token := by
  by_cases hc : a.caller = some c
  · cases a with
    | shutdown => cases hc
    | lookup c lockMode how =>
      cases hc
      rw [(next_lookup.mp h).1] at hbefore
      cases hbefore
    | wake c =>
      cases hc
      obtain ⟨token', expectedId, waits, purpose, hcall, _, rfl⟩ := next_wake.mp h
      rw [hcall, CallState.mark] at hbefore
      split at hbefore
      · rename_i hboth
        obtain ⟨hmode, rfl⟩ := hboth
        cases hbefore
        exact lookAt_unmarks hmode hafter
      · cases hbefore
    | allocateNew c creator notifyEvent name =>
      cases hc
      rw [(next_allocateNew.mp h).1] at hbefore
      cases hbefore
    | objectInit c =>
      cases hc
      obtain ⟨token', name, hcall, rfl⟩ := next_objectInit.mp h
      rw [hcall] at hbefore
      rw [Shared.calls_leave_self] at hafter
      exact absurd (hbefore.symm.trans hafter) (by simp)
    | finalizeNew c operationStatus =>
      cases hc
      obtain ⟨token', _, _, hcall, _, _, rfl⟩ := next_finalizeNew.mp h
      obtain ⟨rfl, _⟩ := mark_holding hcall hbefore
      exact finish_id _
    | finalizeDelete c operationStatus =>
      cases hc
      obtain ⟨token', _, hcall, _, rfl⟩ := next_finalizeDelete.mp h
      obtain ⟨rfl, _⟩ := mark_holding hcall hbefore
      exact finish_id _
    | release c =>
      cases hc
      obtain ⟨token', _, hcall, _, rfl⟩ := next_release.mp h
      obtain ⟨rfl, hmode⟩ := mark_holding hcall hbefore
      rw [finish_id, if_pos hmode]
      rfl
  · rw [Shared.calls_next h hc, hbefore] at hafter
    cases hafter

/-- As long as a call has the mark it keeps its token. -/
theorem lookAt_keeps {waits : Nat}
    (h : ((s.lookAt c token expectedId waits purpose).calls c).mark = some token') :
    token' = token := by
  unfold Shared.lookAt at h
  dsimp only at h
  split at h
  · rw [Shared.granted, Shared.calls_leave_self, CallState.mark] at h
    split at h <;> cases h
    rfl
  · rw [Shared.calls_leave_self, CallState.mark] at h
    split at h <;> cases h
    rfl
  · rw [Shared.failed_mark] at h
    cases h
  · rw [Shared.failed_mark] at h
    cases h

theorem next_keeps {a : Act platform} (h : s.next idtype a = some s')
    (hbefore : (s.calls c).mark = some token) (hafter : (s'.calls c).mark = some token') :
    token' = token := by
  by_cases hc : a.caller = some c
  · cases a with
    | shutdown => cases hc
    | lookup c lockMode how =>
      cases hc
      rw [(next_lookup.mp h).1] at hbefore
      cases hbefore
    | wake c =>
      cases hc
      obtain ⟨_, _, _, _, hcall, _, rfl⟩ := next_wake.mp h
      rw [hcall, CallState.mark] at hbefore
      split at hbefore <;> cases hbefore
      exact lookAt_keeps hafter
    | allocateNew c creator notifyEvent name =>
      cases hc
      rw [(next_allocateNew.mp h).1] at hbefore
      cases hbefore
    | objectInit c =>
      cases hc
      obtain ⟨_, _, hcall, rfl⟩ := next_objectInit.mp h
      rw [hcall] at hbefore
      rw [Shared.calls_leave_self] at hafter
      exact Option.some.inj (hafter.symm.trans hbefore)
    | finalizeNew c operationStatus =>
      cases hc
      obtain ⟨_, _, _, _, _, _, rfl⟩ := next_finalizeNew.mp h
      rw [Shared.finish, Shared.calls_leave_self] at hafter
      cases hafter
    | finalizeDelete c operationStatus =>
      cases hc
      obtain ⟨_, _, _, _, rfl⟩ := next_finalizeDelete.mp h
      rw [Shared.finish, Shared.calls_leave_self] at hafter
      cases hafter
    | release c =>
      cases hc
      obtain ⟨_, _, _, _, rfl⟩ := next_release.mp h
      rw [Shared.finish, Shared.calls_leave_self] at hafter
      cases hafter
  · rw [Shared.calls_next h hc, hbefore] at hafter
    exact (Option.some.inj hafter).symm

end

/-- Every id but the reserved one stands once, and where it leads to. -/
def IdsInPlace (limits : ObjectLimits) (idtype : Nat) (table : Table) : Prop :=
  ∀ i < limits.maxForObjectType idtype,
    (table.records i).activeId ≠ OS_OBJECT_ID_UNDEFINED →
    (table.records i).activeId ≠ OS_OBJECT_ID_RESERVED →
      objectIdToType (table.records i).activeId = idtype ∧
      objectIdToArrayIndex limits idtype (table.records i).activeId = .ok i ∧
      ∀ j < limits.maxForObjectType idtype,
        (table.records j).activeId = (table.records i).activeId → j = i

/-- What a step does to the ids: the mark of an exclusive access stands for the id its token
keeps, and whoever gives it up puts that id back, but for a deletion that succeeds and a creation
that fails. -/
structure ReturnsIds (a : Act platform) (s s' : Shared platform) : Prop where
  marks : ∀ c token, (s.calls c).mark = none → (s'.calls c).mark = some token →
    (s.table.records token.slot).activeId = a.replaces token
  keeps : ∀ c token token', (s.calls c).mark = some token → (s'.calls c).mark = some token' →
    token' = token
  unmarks : ∀ c token, (s.calls c).mark = some token → (s'.calls c).mark = none →
    (s'.table.records token.slot).activeId = a.leaves token
  deletes : ∀ c operationStatus token how, a = .finalizeDelete c operationStatus →
    s.calls c = .holding token (.lookup how) →
      (s'.table.records token.slot).activeId = keptId operationStatus token

theorem objectIdToArrayIndex_of_fits {limits : ObjectLimits} {i : Nat} {id : ObjectId}
    (hlt : i < limits.maxForObjectType idtype) (h : limits.Fits idtype i id) :
    objectIdToArrayIndex limits idtype id = .ok i := by
  obtain ⟨rfl, rfl⟩ := h
  unfold objectIdToArrayIndex
  rw [if_neg (by simp), if_neg (by omega)]

theorem Inv.idsInPlace {s : Shared platform} (hinv : Inv idtype s) :
    IdsInPlace platform.toObjectLimits idtype s.table := by
  intro i hlt hdefined hfree
  have hfits := ((hinv.ids i hlt).resolve_left hdefined).resolve_left hfree
  refine ⟨hfits.1, objectIdToArrayIndex_of_fits hlt hfits, fun j hj hsame => ?_⟩
  have hfits' := ((hinv.ids j hj).resolve_left (hsame ▸ hdefined)).resolve_left (hsame ▸ hfree)
  rw [← hfits.2, ← hfits'.2, hsame]

instance : NeZero nos3Platform.tokens := ⟨by decide⟩

/-- A queue is created by one task and looked up for deletion by another. -/
def created : List (Act nos3Platform) :=
  [.allocateNew 0 0 (fun _ => OS_SUCCESS) (some "Q"), .objectInit 0, .finalizeNew 0 OS_SUCCESS,
    .lookup 1 .exclusive (.byName "Q")]

end Nos3.Osal
