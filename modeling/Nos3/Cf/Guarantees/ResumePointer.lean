import Nos3.Cf.Source.EngineRules

/-!
# The resume pointer of a channel

`cur` points at the transaction that found no message buffer. It has to be a
transaction under way, or the ticks look for it in vain.
-/
namespace Nos3.Cf
open Nos3.Base.Transition

variable {cfg : Config} {maxChunks : Direction → Nat} {w w' : World}

/-- `cur` is NULL or linked in one of the active queues. -/
def ResumeValid (w : World) : Prop := ∀ ref, w.chan.cur = some ref → w.chan.isActive ref = true

/-- The step does not leave a FIN of an unknown transaction unacknowledged for want of a
buffer. -/
def FinAcknowledged (cfg : Config) (w : World) (label : EngineLabel) : Prop :=
  ¬label.event.unacknowledged cfg (w.facing label.outside)

instance (w : World) (octets : List Octet) : Decidable (UnknownFin cfg w octets) :=
  inferInstanceAs (Decidable (_ ∧ _ ∧ _ ∧ _ ∧ _))

instance (w : World) : Decidable (w.noBuffer cfg) := inferInstanceAs (Decidable (_ ∨ _))

instance (w : World) : (event : EngineEvent) → Decidable (event.unacknowledged cfg w)
  | .receive octets => inferInstanceAs (Decidable (UnknownFin cfg w octets ∧ w.noBuffer cfg))
  | .txFile _ | .playback _ _ | .tick _ | .nextTickType _ | .cycleTx _ | .activate | .cycleEnd
  | .suspend _ _ | .cancel _ | .abandon _ | .freeze _ => .isFalse id

instance (w : World) (label : EngineLabel) : Decidable (FinAcknowledged cfg w label) :=
  inferInstanceAs (Decidable (¬_))

/-- `cur` points at a transaction under way. -/
def CurUnderWay (w : World) : Prop := ∀ ref, w.chan.cur = some ref → w.underWay ref

theorem underWay_of_txnOf {r : TxnRef} (h : w'.txnOf r = w.txnOf r) (hr : w.underWay r) :
    w'.underWay r := by
  refine ⟨hr.1, ?_⟩
  unfold World.indexOf
  rw [h]
  exact hr.2

theorem CurUnderWay.outcome {event : EngineEvent} (h : CurUnderWay w)
    (hok : ¬event.unacknowledged cfg w) (houtcome : StepOutcome cfg event w w') :
    CurUnderWay w' := by
  intro r hr
  cases houtcome with
  | same htxns hcur =>
    rcases hcur with hcur | hcur | hcur
    · have hbefore := h r (hcur ▸ hr)
      exact underWay_of_txnOf (htxns r hbefore.1) hbefore
    · rw [hcur] at hr
      cases hr
    · exact absurd hcur hok
  | touched ref new hpool htouched hnew =>
    rcases htouched.cur r hr with ⟨rfl, hactive⟩ | ⟨hne, hbefore⟩
    · exact ⟨hpool, hactive⟩
    · have hunder := h r hbefore
      exact underWay_of_txnOf (htouched.others r hunder.1 hne) hunder

/-- What every step that meets `FinAcknowledged` keeps. -/
structure ResumeInv (w : World) : Prop where
  engine : EngineInv w
  cur : CurUnderWay w

theorem ResumeInv.valid (h : ResumeInv w) : ResumeValid w :=
  fun ref href => h.engine.linked.underWay_iff.mp (h.cur ref href)

/-- In every run whose steps all meet `FinAcknowledged`. -/
theorem resume_pointer_valid (h : (engine cfg maxChunks).Reaches (FinAcknowledged cfg) w) :
    ResumeValid w := by
  apply ResumeInv.valid
  refine h.invariant (fun w hstart => ?_) fun w label w' hinv hok hnext => ?_
  · cases hstart
    exact ⟨initEngine_inv maxChunks, nofun⟩
  · obtain ⟨hstep, houtcome⟩ := engine_step hinv.engine hnext
    have hcur : CurUnderWay (w.facing label.outside) := hinv.cur
    exact ⟨hstep, hcur.outcome hok houtcome⟩

/-! ## A FIN that cannot be acknowledged -/

/-- Entity 1, with timers that do not expire here. -/
def entityOne : Config :=
  { (default : Config) with
    ticksPerSecond := 1
    localEid := 1
    chan := { (default : ChannelConfig) with
      ackTimerS := 10, inactivityTimerS := 30, ackLimit := 4, nakLimit := 4 } }

def eightChunks (_ : Direction) : Nat := 8

/-- A FIN of entity 2 for transaction 7 of entity 1. -/
def unknownFin : List Octet := [0x28, 0, 2, 0, 1, 7, 2, 5, 0]

/-- The pointer to the transaction on the stack stays, and every tick looks for it. -/
theorem resume_pointer_dangles : ∃ w, (engine entityOne eightChunks).Reachable w ∧
    ¬ResumeValid w ∧ ∀ ref ∈ activeQueues.flatMap w.chan.qs, doTick entityOne w ref = w := by
  obtain ⟨w, hw, hcheck⟩ := Machine.exists_reaches (fun _ _ => True)
    (fun w : World => decide (w.chan.cur = some .stack ∧ w.chan.isActive .stack = false ∧
      .stack ∉ activeQueues.flatMap w.chan.qs)) (M := engine entityOne eightChunks) rfl
    [⟨outsideWith 0 fun _ => false, .receive unknownFin⟩] (by decide +kernel)
  obtain ⟨hcur, hinactive, habsent⟩ := of_decide_eq_true hcheck
  refine ⟨w, hw, fun hvalid => ?_, fun ref href => ?_⟩
  · rw [hvalid _ hcur] at hinactive
    cases hinactive
  · unfold doTick
    rw [if_neg]
    rintro (hnone | hsame)
    · rw [hcur] at hnone
      cases hnone
    · rw [hcur] at hsame
      cases hsame
      exact habsent href

/-- The receiver of a file finds no buffer for its acknowledgement of the EOF. -/
theorem resume_pointer_valid_waiting : ∃ w, ResumeValid w ∧ w.chan.cur = some (.pool 0) := by
  obtain ⟨w, hw, hcheck⟩ := Machine.exists_reaches (FinAcknowledged entityOne)
    (fun w : World => decide (w.chan.cur = some (.pool 0))) (M := engine entityOne eightChunks) rfl
    [⟨outsideWith 0 fun _ => true,
        .receive [0x20, 0, 10, 0, 2, 1, 1, 7, 0, 0, 0, 0, 4, 1, 97, 1, 98]⟩,
      ⟨outsideWith 0 fun _ => true,
        .receive [0x20, 0, 10, 0, 2, 1, 1, 4, 0, 0, 0, 0, 0, 0, 0, 0, 4]⟩,
      ⟨outsideWith 0 fun _ => false, .tick (.pool 0)⟩] (by decide +kernel)
  exact ⟨w, resume_pointer_valid hw, of_decide_eq_true hcheck⟩

end Nos3.Cf
