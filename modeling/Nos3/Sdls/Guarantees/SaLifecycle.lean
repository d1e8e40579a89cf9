import Nos3.Sdls.Source.SaManagement
import Nos3.Sdls.Source.TcState
import Nos3.Base.Transition
import Mathlib.Logic.Relation

/-!
# The life of a security association

Every procedure but `sa_create` acts on an association in one state and takes it
to one other. Before it looks at the state it notes its own identification in the
association, so a procedure that is rejected still leaves that trace.
-/
namespace Nos3.Sdls
open Nos3.Base.BigEndian (Octet)
open Nos3.Base.FixedArray
open Nos3.Base.Program
open Nos3.Base.Transition

/-- The state a procedure is for. -/
def SaProcedure.source : SaProcedure → SaState
  | .create => .none
  | .rekey => .unkeyed
  | .start => .keyed
  | .stop => .operational
  | .expire => .keyed
  | .delete => .unkeyed

def SaProcedure.target : SaProcedure → SaState
  | .create => .unkeyed
  | .rekey => .keyed
  | .start => .operational
  | .stop => .keyed
  | .expire => .unkeyed
  | .delete => .none

/-- The moves of the life cycle. -/
def LifecycleMove (a b : SaState) : Prop := ∃ procedure : SaProcedure,
  a = procedure.source ∧ b = procedure.target

structure SaCommand where
  procedure : SaProcedure
  request : SaRequest

/-- A database under the procedures; where one writes behind an array there is no next
state. -/
def saDatabase (initial : SaStore) : Machine SaStore SaCommand where
  start s := s = initial
  next s command :=
    let run := sgSaMgmt command.request command.procedure s
    if run.1 = .error .undefined then none else some run.2

/-- `sa_create` is requested for an association that is not in use. -/
def CreatesNew (s : SaStore) (command : SaCommand) : Prop :=
  command.procedure = .create → ∀ i : Fin NUM_SA, i.val = command.request.spi → (s i).saState = .none

/-! ## One procedure -/

/-- What one procedure may do to the association it names. -/
def NamedStep (procedure : SaProcedure) (before after : SaEntry) : Prop :=
  (before.saState = procedure.source ∧ after.saState = procedure.target) ∨
    after = { before with lpid := after.lpid }

/-- What one procedure may do to a database. -/
structure LifecycleStep (s : SaStore) (command : SaCommand) (s' : SaStore) : Prop where
  others : ∀ i : Fin NUM_SA, i.val ≠ command.request.spi → s' i = s i
  named : ∀ i : Fin NUM_SA, i.val = command.request.spi →
    NamedStep command.procedure (s i) (s' i)
  rejected : ∀ i : Fin NUM_SA, i.val = command.request.spi →
    (s i).saState ≠ command.procedure.source → s' i = { s i with lpid := (s' i).lpid }

theorem LifecycleStep.refl (s : SaStore) (command : SaCommand) : LifecycleStep s command s :=
  ⟨fun _ _ => rfl, fun _ _ => .inr rfl, fun _ _ _ => rfl⟩

/-- The association with the identification of the procedure in it. -/
def SaStore.noted (s : SaStore) (r : SaRequest) (i : Fin NUM_SA) : SaStore :=
  Function.update s i { s i with lpid := r.lpid }

/-- A change of the noted association is a step if it starts in the right state. -/
theorem LifecycleStep.of_update {s : SaStore} {command : SaCommand} {i : Fin NUM_SA} {sa : SaEntry}
    (hi : i.val = command.request.spi) (hsource : (s i).saState = command.procedure.source)
    (htarget : sa.saState = command.procedure.target) :
    LifecycleStep s command (Function.update (s.noted command.request i) i sa) := by
  refine ⟨fun j hj => ?_, fun j hj => ?_, fun j hj hnot => ?_⟩
  · have hne : j ≠ i := fun heq => hj (heq ▸ hi)
    rw [Function.update_of_ne hne, SaStore.noted, Function.update_of_ne hne]
  · obtain rfl : j = i := Fin.ext (hj.trans hi.symm)
    left
    rw [Function.update_self]
    exact ⟨hsource, htarget⟩
  · obtain rfl : j = i := Fin.ext (hj.trans hi.symm)
    exact absurd hsource hnot

theorem LifecycleStep.of_noted {s : SaStore} {command : SaCommand} {i : Fin NUM_SA}
    (hi : i.val = command.request.spi) :
    LifecycleStep s command (s.noted command.request i) := by
  have hnamed : ∀ j : Fin NUM_SA, j.val = command.request.spi →
      s.noted command.request i j = { s j with lpid := (s.noted command.request i j).lpid } := by
    intro j hj
    obtain rfl : j = i := Fin.ext (hj.trans hi.symm)
    rw [SaStore.noted, Function.update_self]
  refine ⟨fun j hj => ?_, fun j hj => .inr (hnamed j hj), fun j hj _ => hnamed j hj⟩
  have hne : j ≠ i := fun heq => hj (heq ▸ hi)
  rw [SaStore.noted, Function.update_of_ne hne]

/-- A procedure is a step if its body is one behind the noted identification. -/
theorem saProcedure_step {s : SaStore} (command : SaCommand) (comparesControl : Bool)
    (absent : Except SaError Unit) {body : Fin NUM_SA → SaProc Unit}
    (hbody : ∀ i : Fin NUM_SA, i.val = command.request.spi →
      (body i (s.noted command.request i)).1 ≠ .error .undefined →
        LifecycleStep s command (body i (s.noted command.request i)).2)
    (hreturns : (saProcedure command.request comparesControl absent body s).1 ≠ .error .undefined) :
    LifecycleStep s command (saProcedure command.request comparesControl absent body s).2 := by
  revert hreturns
  unfold saProcedure
  by_cases hcontrol : comparesControl = true ∧ command.request.spi = command.request.controlSpi
  · rw [if_pos hcontrol]
    exact fun _ => .refl s command
  rw [if_neg hcontrol]
  by_cases hspi : command.request.spi < NUM_SA
  · rw [dif_pos hspi, modify_bind]
    exact hbody ⟨command.request.spi, hspi⟩ rfl
  · rw [dif_neg hspi]
    exact fun _ => .refl s command

/-- A change made in the procedure's source state is a step. -/
theorem inState_step {s : SaStore} {command : SaCommand} {i : Fin NUM_SA}
    (hi : i.val = command.request.spi) (otherwise : Except SaError Unit)
    {change : SaEntry → Except SaError SaEntry}
    (hchange : ∀ sa sa', change sa = .ok sa' → sa'.saState = command.procedure.target)
    (hreturns : (inState command.procedure.source otherwise change i
      (s.noted command.request i)).1 ≠ .error .undefined)
    (herror : ∀ sa e, change sa = .error e → e = .undefined) :
    LifecycleStep s command (inState command.procedure.source otherwise change i
      (s.noted command.request i)).2 := by
  have hstate : (s.noted command.request i i).saState = (s i).saState := by
    rw [SaStore.noted, Function.update_self]
  revert hreturns
  unfold inState
  rw [get_bind]
  by_cases hsource : (s.noted command.request i i).saState = command.procedure.source
  · rw [if_pos hsource]
    cases hresult : change (s.noted command.request i i) with
    | ok sa =>
      rw [lift_bind rfl]
      exact fun _ => .of_update hi (hstate.symm.trans hsource) (hchange _ _ hresult)
    | error e =>
      rw [lift_bind_error rfl, herror _ _ hresult]
      exact fun hreturns => absurd rfl hreturns
  · rw [if_neg hsource]
    exact fun _ => .of_noted hi

/-! ## The six procedures -/

theorem startSa_state (r : SaRequest) (sa : SaEntry) : (startSa r sa).saState = .operational := by
  unfold startSa
  rw [List.range_succ, List.foldl_append]
  rfl

theorem fillField_error {n : Nat} {field : Buffer Octet n} {octets : List Octet} {e : SaError}
    (h : fillField field octets = .error e) : e = .undefined := by
  unfold fillField at h
  split at h
  · cases h
  · exact (Except.error.inj h).symm

theorem rekeySa_ok {r : SaRequest} {sa sa' : SaEntry} (h : rekeySa r sa = .ok sa') :
    sa'.saState = .keyed := by
  obtain ⟨iv, -, hreturn⟩ := bind_eq_ok.mp h
  cases hreturn
  rfl

theorem rekeySa_error {r : SaRequest} {sa : SaEntry} {e : SaError} (h : rekeySa r sa = .error e) :
    e = .undefined := by
  rcases bind_eq_error.mp h with hfill | ⟨iv, -, hreturn⟩
  · exact fillField_error hfill
  · cases hreturn

theorem createSa_ok {r : SaRequest} {sa sa' : SaEntry} (h : createSa r sa = .ok sa') :
    sa'.saState = .unkeyed := by
  unfold createSa at h
  obtain ⟨iv, -, h⟩ := bind_eq_ok.mp h
  obtain ⟨abm, -, h⟩ := bind_eq_ok.mp h
  obtain ⟨arsn, -, h⟩ := bind_eq_ok.mp h
  dsimp only at h
  split at h
  · cases h
  · cases h
    rfl

theorem createSa_error {r : SaRequest} {sa : SaEntry} {e : SaError}
    (h : createSa r sa = .error e) : e = .undefined := by
  unfold createSa at h
  rcases bind_eq_error.mp h with hfill | ⟨iv, -, h⟩
  · exact fillField_error hfill
  rcases bind_eq_error.mp h with hfill | ⟨abm, -, h⟩
  · exact fillField_error hfill
  rcases bind_eq_error.mp h with hfill | ⟨arsn, -, h⟩
  · exact fillField_error hfill
  dsimp only at h
  split at h
  · exact (Except.error.inj h).symm
  · cases h

/-- On an unused association `sa_create` moves to UNKEYED, verified or not. -/
theorem saCreate_step {s : SaStore} {r : SaRequest} (hnew : CreatesNew s ⟨.create, r⟩)
    (hreturns : (saCreate r s).1 ≠ .error .undefined) :
    LifecycleStep s ⟨.create, r⟩ (saCreate r s).2 := by
  refine saProcedure_step ⟨.create, r⟩ true (.ok ()) (fun i hi hreturns => ?_) hreturns
  revert hreturns
  rw [get_bind]
  cases hresult : createSa r (s.noted r i i) with
  | ok sa =>
    rw [lift_bind rfl, modify_bind]
    exact fun _ => .of_update hi (hnew rfl i hi) (createSa_ok hresult)
  | error e =>
    rw [lift_bind_error rfl, createSa_error hresult]
    exact fun hreturns => absurd rfl hreturns

theorem sgSaMgmt_step {s : SaStore} {command : SaCommand} (hnew : CreatesNew s command)
    (hreturns : (sgSaMgmt command.request command.procedure s).1 ≠ .error .undefined) :
    LifecycleStep s command (sgSaMgmt command.request command.procedure s).2 := by
  obtain ⟨procedure, r⟩ := command
  cases procedure with
  | create => exact saCreate_step hnew hreturns
  | rekey =>
    exact saProcedure_step ⟨.rekey, r⟩ true (.ok ()) (fun i hi hreturns =>
      inState_step hi _ (fun _ _ => rekeySa_ok) hreturns fun _ _ => rekeySa_error) hreturns
  | start =>
    refine saProcedure_step ⟨.start, r⟩ false (.ok ()) (fun i hi hreturns =>
      inState_step hi _ (fun sa sa' h => ?_) hreturns fun sa e h => (by cases h)) hreturns
    cases h
    exact startSa_state r sa
  | stop =>
    refine saProcedure_step ⟨.stop, r⟩ true _ (fun i hi hreturns =>
      inState_step hi _ (fun sa sa' h => ?_) hreturns fun sa e h => (by cases h)) hreturns
    cases h
    rfl
  | expire =>
    refine saProcedure_step ⟨.expire, r⟩ true _ (fun i hi hreturns =>
      inState_step hi _ (fun sa sa' h => ?_) hreturns fun sa e h => (by cases h)) hreturns
    cases h
    rfl
  | delete =>
    refine saProcedure_step ⟨.delete, r⟩ true _ (fun i hi hreturns =>
      inState_step hi _ (fun sa sa' h => ?_) hreturns fun sa e h => (by cases h)) hreturns
    cases h
    rfl

/-! ## Runs -/

theorem LifecycleStep.move {s s' : SaStore} {command : SaCommand} (h : LifecycleStep s command s')
    (i : Fin NUM_SA) :
    (s' i).saState = (s i).saState ∨ LifecycleMove (s i).saState (s' i).saState := by
  by_cases hi : i.val = command.request.spi
  · rcases h.named i hi with hmoved | hnoted
    · exact .inr ⟨command.procedure, hmoved⟩
    · left
      rw [hnoted]
  · left
    rw [h.others i hi]

theorem database_step {initial s s' : SaStore} {command : SaCommand} (hnew : CreatesNew s command)
    (hnext : (saDatabase initial).next s command = some s') : LifecycleStep s command s' := by
  obtain ⟨hreturns, hrun⟩ := Option.ite_none_left_eq_some.mp hnext
  cases hrun
  exact sgSaMgmt_step hnew hreturns

/-- Every association walked along the life cycle. -/
def Walked (initial s : SaStore) : Prop :=
  ∀ i, Relation.ReflTransGen LifecycleMove (initial i).saState (s i).saState

/-- In every run in which associations are created only where there is none, every
association walks along the life cycle, and each further command moves only the
association it names, from the state the procedure is for, or leaves it as it was
but for its last PID. -/
theorem sa_lifecycle {initial s : SaStore} (h : (saDatabase initial).Reaches CreatesNew s) :
    Walked initial s ∧
      ∀ command s', CreatesNew s command → (saDatabase initial).next s command = some s' →
        LifecycleStep s command s' := by
  have hwalked : Walked initial s := by
    refine h.invariant (fun s hstart i => ?_) (fun s command s' hinv hnew hnext i => ?_)
    · have hsame : s = initial := hstart
      rw [hsame]
    · rcases (database_step hnew hnext).move i with hsame | hmove
      · rw [hsame]
        exact hinv i
      · exact (hinv i).tail hmove
  exact ⟨hwalked, fun command s' hnew hnext => database_step hnew hnext⟩

/-! ## A start and two stops -/

def keyedEntry : SaEntry where
  toSecurityAssociation := { encryptionSa .aes256Gcm 12 12 with saState := .keyed }
  ekRef := Buffer.replicate REF_SIZE 0
  akRef := Buffer.replicate REF_SIZE 0
  lpid := 0
  ecsLen := 1
  arsnwLen := 1

def sampleSa : Fin NUM_SA := ⟨1, by decide⟩

/-- A procedure for association 1, requested over association 0. -/
def requestFor (pid : BitVec 4) : SaRequest where
  pdu := ⟨⟨0, 0, 1, pid, 48⟩, ⟨[0, 1] ++ List.replicate (TLV_DATA_SIZE - 2) 0, by
    rw [List.length_append, List.length_replicate]
    rfl⟩⟩
  controlSpi := 0
  vcid := 0
  tmVcid := 0
  hasSegmentHdrs := true

theorem createsNew_other {s : SaStore} {command : SaCommand} (h : command.procedure ≠ .create) :
    CreatesNew s command := fun hcreate => absurd hcreate h

/-- Association 1 is started and stopped. -/
theorem sa_lifecycle_start_stop : ∃ s,
    (saDatabase fun _ => keyedEntry).Reaches CreatesNew s ∧ (s sampleSa).saState = .keyed ∧
      Relation.ReflTransGen LifecycleMove keyedEntry.saState (s sampleSa).saState := by
  have hstart : (saDatabase fun _ => keyedEntry).Reaches CreatesNew fun _ => keyedEntry := .start rfl
  obtain ⟨started, hstarted⟩ : ∃ s, s = (sgSaMgmt (requestFor 11) .start fun _ => keyedEntry) :=
    ⟨_, rfl⟩
  have hreach : (saDatabase fun _ => keyedEntry).Reaches CreatesNew started.2 := by
    refine hstart.step (a := ⟨.start, requestFor 11⟩) (createsNew_other nofun) ?_
    rw [hstarted]
    rfl
  have hstopped : (saDatabase fun _ => keyedEntry).Reaches CreatesNew
      (sgSaMgmt (requestFor 14) .stop started.2).2 := by
    refine hreach.step (a := ⟨.stop, requestFor 14⟩) (createsNew_other nofun) ?_
    rw [hstarted]
    rfl
  refine ⟨_, hstopped, ?_, (sa_lifecycle hstopped).1 sampleSa⟩
  rw [hstarted]
  decide +kernel

/-- A stop for an association that is KEYED is rejected and changes it: the last PID is
that of the stop. -/
theorem rejected_stop_notes_pid :
    keyedEntry.saState ≠ SaProcedure.stop.source ∧
      (sgSaMgmt (requestFor 14) .stop fun _ => keyedEntry).1 = .error .saNotOperational ∧
      (sgSaMgmt (requestFor 14) .stop fun _ => keyedEntry).2 sampleSa ≠ keyedEntry ∧
      ((sgSaMgmt (requestFor 14) .stop fun _ => keyedEntry).2 sampleSa).lpid = 0x1E := by
  have hpid : ((sgSaMgmt (requestFor 14) .stop fun _ => keyedEntry).2 sampleSa).lpid = 0x1E := by
    decide +kernel
  refine ⟨by decide, by decide +kernel, fun hsame => ?_, hpid⟩
  rw [hsame] at hpid
  exact absurd hpid (by decide)

end Nos3.Sdls
