import Nos3.Cf.Source.EngineRules

/-!
# The identities of the transactions of a channel

A PDU belongs to the transaction with its source and sequence number. A
receiving transaction is created only where there is none; a local file request
takes the next sequence number without looking.
-/
namespace Nos3.Cf
open Nos3.Base.Transition

variable {cfg : Config} {maxChunks : Direction → Nat} {w w' : World}

/-- The transactions in the RX, PEND, TXA and TXW queues have different identities. -/
def IdentitiesUnique (w : World) : Prop :=
  ∀ r r', w.chan.isActive r = true → w.chan.isActive r' = true →
    (w.txnOf r).identity = (w.txnOf r').identity → r = r'

/-- A PDU with the identity of a transaction is dispatched to that transaction. -/
def DispatchesToOwner (w : World) : Prop :=
  ∀ r, w.chan.isActive r = true →
    findTransactionBySequenceNumber w (w.txnOf r).history.seqNum (w.txnOf r).history.srcEid = some r

/-- A request that takes a transaction finds the next sequence number not in use. -/
def FreshNumber (cfg : Config) (w : World) (label : EngineLabel) : Prop :=
  label.event.sends w.chan = true →
    findTransactionBySequenceNumber w (label.outside.seqNum + 1) cfg.localEid = none

instance (w : World) (label : EngineLabel) : Decidable (FreshNumber cfg w label) :=
  inferInstanceAs (Decidable (_ → _))

/-- The same for transactions under way. -/
def Distinct (w : World) : Prop :=
  ∀ r r', w.underWay r → w.underWay r' → (w.txnOf r).identity = (w.txnOf r').identity → r = r'

theorem Touched.underWay {new : Identity} {ref r : TxnRef} (h : Touched new w w' ref)
    (hr : w'.underWay r) :
    r ≠ ref ∧ w.underWay r ∧ w'.txnOf r = w.txnOf r ∨
      r = ref ∧ Continues new (w.txnOf ref) (w'.txnOf ref) := by
  by_cases hsame : r = ref
  · subst hsame
    rcases h.result with ⟨-, hcontinues⟩ | hcleared
    · exact .inr ⟨rfl, hcontinues⟩
    · exact absurd hr.2 hcleared.not_active
  · have hkept := h.others r hr.1 hsame
    refine .inl ⟨hsame, ⟨hr.1, ?_⟩, hkept⟩
    have hactive := hr.2
    unfold World.indexOf at hactive ⊢
    rwa [hkept] at hactive

/-- The touched transaction is different from the others. -/
theorem Distinct.touched {new : Identity} {ref r : TxnRef} (h : Distinct w) (hpool : ref.inPool)
    (hfresh : w.indexOf ref = .free → w.unused new)
    (hcontinues : Continues new (w.txnOf ref) (w'.txnOf ref)) (hr : w.underWay r)
    (hkept : w'.txnOf r = w.txnOf r) (hne : r ≠ ref) :
    (w'.txnOf r).identity ≠ (w'.txnOf ref).identity := by
  intro heq
  rw [hkept] at heq
  rcases hcontinues with ⟨hactive, hidentity⟩ | ⟨hfree, hidentity⟩
  · exact hne (h r ref hr ⟨hpool, hactive⟩ (heq.trans hidentity))
  · exact hfresh hfree r hr (heq.trans hidentity)

theorem Distinct.outcome {event : EngineEvent} (h : Distinct w)
    (hok : event.sends w.chan = true → w.unused (w.nextIdentity cfg))
    (houtcome : StepOutcome cfg event w w') : Distinct w' := by
  cases houtcome with
  | same htxns hcur =>
    have hbefore {r : TxnRef} (hr : w'.underWay r) : w.underWay r := by
      refine ⟨hr.1, ?_⟩
      have hactive := hr.2
      unfold World.indexOf at hactive ⊢
      rwa [htxns r hr.1] at hactive
    intro r r' hr hr' heq
    rw [htxns r hr.1, htxns r' hr'.1] at heq
    exact h r r' (hbefore hr) (hbefore hr') heq
  | touched ref new hpool htouched hnew =>
    have hfresh (hfree : w.indexOf ref = .free) : w.unused new := by
      rcases hnew hfree with ⟨hsends, rfl⟩ | hunused
      · exact hok hsends
      · exact hunused
    intro r r' hr hr' heq
    rcases htouched.underWay hr with ⟨hne, hunder, hkept⟩ | ⟨rfl, hcontinues⟩
    · rcases htouched.underWay hr' with ⟨-, hunder', hkept'⟩ | ⟨rfl, hcontinues'⟩
      · rw [hkept, hkept'] at heq
        exact h r r' hunder hunder' heq
      · exact absurd heq (h.touched hpool hfresh hcontinues' hunder hkept hne)
    · rcases htouched.underWay hr' with ⟨hne', hunder', hkept'⟩ | ⟨rfl, -⟩
      · exact absurd heq.symm (h.touched hpool hfresh hcontinues hunder' hkept' hne')
      · rfl

/-- What every step that meets `FreshNumber` keeps. -/
structure IdentityInv (w : World) : Prop where
  engine : EngineInv w
  distinct : Distinct w

theorem IdentityInv.unique (h : IdentityInv w) : IdentitiesUnique w := by
  intro r r' hr hr' heq
  exact h.distinct r r' (h.engine.linked.underWay_iff.mpr hr) (h.engine.linked.underWay_iff.mpr hr')
    heq

theorem IdentityInv.dispatches (h : IdentityInv w) : DispatchesToOwner w := by
  intro r hr
  have hunder := h.engine.linked.underWay_iff.mpr hr
  cases hfind : findTransactionBySequenceNumber w (w.txnOf r).history.seqNum
      (w.txnOf r).history.srcEid with
  | none => exact absurd rfl (findTransaction_none h.engine hfind r hunder)
  | some r' =>
    have hfound := List.find?_some hfind
    simp only [Bool.and_eq_true, beq_iff_eq] at hfound
    exact congrArg some (h.distinct r' r (findTransaction_some h.engine hfind) hunder
      (Prod.ext hfound.1 hfound.2))

/-- In every run whose steps all meet `FreshNumber`. -/
theorem identities_unique (h : (engine cfg maxChunks).Reaches (FreshNumber cfg) w) :
    IdentitiesUnique w ∧ DispatchesToOwner w := by
  have hinv : IdentityInv w := by
    refine h.invariant (fun w hstart => ?_) fun w label w' hinv hok hnext => ?_
    · cases hstart
      have hnew := initEngine_inv maxChunks
      refine ⟨hnew, fun r _ hr => ?_⟩
      obtain ⟨⟨i, -, rfl⟩, hactive⟩ := hr
      exact absurd (show QueueIdx.free ∈ activeQueues from hactive) (by decide)
    · obtain ⟨hstep, houtcome⟩ := engine_step hinv.engine hnext
      have hdistinct : Distinct (w.facing label.outside) := hinv.distinct
      refine ⟨hstep, hdistinct.outcome (fun hsends => ?_) houtcome⟩
      exact findTransaction_none (w := w) hinv.engine (hok hsends)
  exact ⟨hinv.unique, hinv.dispatches⟩

/-! ## A PDU with the identity of the next file -/

def entityOneSending : Config :=
  { (default : Config) with ticksPerSecond := 1, localEid := 1 }

def someFile : FileRequest := ⟨⟨[97], [98]⟩, .class2, true, 0, 2⟩

/-- Metadata from the local entity itself, with sequence number 1, then the first file of the
ground, which gets the sequence number 1. -/
theorem identity_taken_twice : ∃ w, (engine entityOneSending fun _ => 8).Reachable w ∧
    ¬IdentitiesUnique w ∧ ¬DispatchesToOwner w := by
  obtain ⟨w, hw, hcheck⟩ := Machine.exists_reaches (fun _ _ => True)
    (fun w : World => decide (w.chan.isActive (.pool 0) = true ∧ w.chan.isActive (.pool 1) = true ∧
      (w.txnOf (.pool 0)).identity = (w.txnOf (.pool 1)).identity ∧
      findTransactionBySequenceNumber w (w.txnOf (.pool 1)).history.seqNum
        (w.txnOf (.pool 1)).history.srcEid = some (.pool 0)))
    (M := engine entityOneSending fun _ => 8) rfl
    [⟨outsideWith 0 fun _ => true,
        .receive [0x20, 0, 10, 0, 1, 1, 1, 7, 0, 0, 0, 0, 4, 1, 97, 1, 98]⟩,
      ⟨outsideWith 0 fun _ => true, .txFile someFile⟩] (by decide +kernel)
  obtain ⟨hfirst, hsecond, hsame, hfind⟩ := of_decide_eq_true hcheck
  refine ⟨w, hw, fun hunique => ?_, fun howner => ?_⟩
  · cases hunique _ _ hfirst hsecond hsame
  · rw [howner _ hsecond] at hfind
    cases hfind

/-- The same with a PDU of entity 2. -/
theorem identities_unique_two : ∃ w, (IdentitiesUnique w ∧ DispatchesToOwner w) ∧
    w.chan.isActive (.pool 0) = true ∧ w.chan.isActive (.pool 1) = true := by
  obtain ⟨w, hw, hcheck⟩ := Machine.exists_reaches (FreshNumber entityOneSending)
    (fun w : World => decide (w.chan.isActive (.pool 0) = true ∧ w.chan.isActive (.pool 1) = true))
    (M := engine entityOneSending fun _ => 8) rfl
    [⟨outsideWith 0 fun _ => true,
        .receive [0x20, 0, 10, 0, 2, 1, 1, 7, 0, 0, 0, 0, 4, 1, 97, 1, 98]⟩,
      ⟨outsideWith 0 fun _ => true, .txFile someFile⟩] (by decide +kernel)
  exact ⟨w, identities_unique hw, of_decide_eq_true hcheck⟩

end Nos3.Cf
