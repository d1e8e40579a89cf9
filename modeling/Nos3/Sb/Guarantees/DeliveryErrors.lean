import Nos3.Sb.Guarantees.Shape

/-!
# Delivery errors

A broadcast gives its reference to the buffer up inside the lock, and sends the events for the
deliveries that failed behind it. Each of these reads the MsgID in a descriptor that may have
been handed out again by then. A broadcast without such an event reads nothing.
-/
namespace Nos3.Sb
open Base.Transition
open Function (update update_self update_of_ne)

variable {Task : Type} [DecidableEq Task]

/-! ## Deliveries -/

namespace Bus

/-- The message goes to a pipe with this queue. -/
def sendsTo (app : AppId) (b : Bus) (i : Fin OS_MAX_QUEUES) (dest : Dest) : Bool :=
  (b.target app dest).any fun slot => queueIndex (b.pipes slot).sysQueueId = i

/-- A message cannot be put on the queue, whatever room it has. -/
def Unwritable (fault : Bool) (queueId : QueueId) (b : Bus) : Prop :=
  fault ∨ queueId = 0 ∨ (b.queues (queueIndex queueId)).id ≠ queueId

instance (fault : Bool) (queueId : QueueId) (b : Bus) : Decidable (b.Unwritable fault queueId) :=
  inferInstanceAs (Decidable (_ ∨ _))

/-- No delivery to the destinations fails in a way that an event is sent for: one that is over
its limit, one whose queue cannot be written, one whose queue has no room for what goes there. -/
def Quiet (app : AppId) (fault : PipeId → Bool) (denied : SendErrKind → Bool) (b : Bus)
    (dests : List Dest) : Prop :=
  ∀ dest ∈ dests, ∀ slot ∈ b.target app dest,
    let queueId := (b.pipes slot).sysQueueId
    if dest.buffCount ≥ dest.msgId2PipeLim then denied .msgidLim = true
    else if b.Unwritable (fault dest.pipeId) queueId then denied .qWr = true
    else denied .qFull = true ∨
      (b.queues (queueIndex queueId)).items.length +
        dests.countP (b.sendsTo app (queueIndex queueId)) ≤ (b.queues (queueIndex queueId)).depth

instance (app : AppId) (fault : PipeId → Bool) (denied : SendErrKind → Bool) (b : Bus)
    (dests : List Dest) : Decidable (b.Quiet app fault denied dests) := by
  unfold Quiet
  infer_instance

/-- What decides about a target is the same. -/
structure SameTargets (b b' : Bus) : Prop where
  pipeId : ∀ slot, (b'.pipes slot).pipeId = (b.pipes slot).pipeId
  sysQueueId : ∀ slot, (b'.pipes slot).sysQueueId = (b.pipes slot).sysQueueId
  appId : ∀ slot, (b'.pipes slot).appId = (b.pipes slot).appId
  ignoreMine : ∀ slot, (b'.pipes slot).ignoreMine = (b.pipes slot).ignoreMine

variable {b b' : Bus} {app : AppId} {fault : PipeId → Bool} {denied : SendErrKind → Bool} {p : Ptr}

theorem SameTargets.refl (b : Bus) : b.SameTargets b :=
  ⟨fun _ => rfl, fun _ => rfl, fun _ => rfl, fun _ => rfl⟩

theorem SameTargets.target (h : b.SameTargets b') (dest : Dest) :
    b'.target app dest = b.target app dest := by
  simp only [Bus.target, matchedPipe, h.pipeId, h.appId, h.ignoreMine]

theorem SameTargets.sendsTo (h : b.SameTargets b') (i : Fin OS_MAX_QUEUES) :
    b'.sendsTo app i = b.sendsTo app i := by
  funext dest
  simp only [Bus.sendsTo, h.target, h.sysQueueId]

/-- Counting on a pipe is no change of targets. -/
theorem sameTargets_setPipe {slot : Slot} {pipe : PipeD} (hsame : b'.pipes = b.pipes)
    (hid : pipe.pipeId = (b.pipes slot).pipeId)
    (hqueue : pipe.sysQueueId = (b.pipes slot).sysQueueId)
    (happ : pipe.appId = (b.pipes slot).appId)
    (hmine : pipe.ignoreMine = (b.pipes slot).ignoreMine) :
    b.SameTargets (b'.setPipe slot pipe) := by
  constructor <;> intro other <;> by_cases heq : other = slot
  all_goals
    first
    | (subst heq; simpa [setPipe])
    | simp [setPipe, heq, hsame]

/-- A queue takes one message at most, and only where it is that of the target. -/
structure Fills (b b' : Bus) (sends : Fin OS_MAX_QUEUES → Bool) : Prop where
  id : ∀ i, (b'.queues i).id = (b.queues i).id
  depth : ∀ i, (b'.queues i).depth = (b.queues i).depth
  items : ∀ i, (b'.queues i).items.length ≤ (b.queues i).items.length + if sends i then 1 else 0

theorem Fills.of_queues {sends : Fin OS_MAX_QUEUES → Bool} (h : b'.queues = b.queues) :
    b.Fills b' sends := by
  constructor <;> intro i <;> rw [h]
  exact Nat.le_add_right _ _

/-- How the put of a message on a queue ends. -/
theorem queuePut_cases (fault : Bool) (queueId : QueueId) (p : Ptr) (b : Bus) :
    b.Unwritable fault queueId ∧ b.queuePut fault queueId p = (.error, b) ∨
    ¬ b.Unwritable fault queueId ∧
      ((b.queues (queueIndex queueId)).items.length ≥ (b.queues (queueIndex queueId)).depth ∧
        b.queuePut fault queueId p = (.full, b) ∨
      ∃ b', b.queuePut fault queueId p = (.success, b') ∧ b'.pipes = b.pipes ∧
        b.Fills b' fun i => queueIndex queueId = i) := by
  by_cases hfault : b.Unwritable fault queueId
  · exact .inl ⟨hfault, if_pos hfault⟩
  · refine .inr ⟨hfault, ?_⟩
    by_cases hfull :
        (b.queues (queueIndex queueId)).items.length ≥ (b.queues (queueIndex queueId)).depth
    · exact .inl ⟨hfull, (if_neg hfault).trans (if_pos hfull)⟩
    · refine .inr ⟨_, (if_neg hfault).trans (if_neg hfull), rfl, ?_⟩
      constructor <;> intro i <;> by_cases hi : i = queueIndex queueId
      all_goals
        first
        | (subst hi; simp)
        | simp [hi]

theorem incrBufUseCnt_same : (b.incrBufUseCnt p).pipes = b.pipes ∧
    (b.incrBufUseCnt p).queues = b.queues := by
  unfold incrBufUseCnt
  split <;> exact ⟨rfl, rfl⟩

/-- One delivery, by its target and how the put ends. -/
theorem sendToDest_spec (app : AppId) (dest : Dest) :
    b.SameTargets (b.sendToDest app fault p dest).2.2 ∧
    b.Fills (b.sendToDest app fault p dest).2.2 (fun i => b.sendsTo app i dest) ∧
    ∀ dests, b.Quiet app fault denied (dest :: dests) →
      ∀ err ∈ (b.sendToDest app fault p dest).2.1, denied err.kind = true := by
  unfold sendToDest
  cases htarget : b.target app dest with
  | none => exact ⟨.refl b, .of_queues rfl, nofun⟩
  | some slot =>
    have hsends (i : Fin OS_MAX_QUEUES) :
        b.sendsTo app i dest = decide (queueIndex (b.pipes slot).sysQueueId = i) := by
      simp [sendsTo, htarget]
    dsimp only
    by_cases hlim : dest.buffCount ≥ dest.msgId2PipeLim
    · rw [if_pos hlim]
      refine ⟨sameTargets_setPipe rfl rfl rfl rfl rfl, .of_queues rfl, fun dests hquiet err herr => ?_⟩
      obtain rfl := List.mem_singleton.mp herr
      have hkind := hquiet dest List.mem_cons_self slot htarget
      rwa [if_pos hlim] at hkind
    · rw [if_neg hlim]
      obtain ⟨hfault, hput⟩ | ⟨hfault, ⟨hfull, hput⟩ | ⟨b', hput, hpipes, hfills⟩⟩ :=
        queuePut_cases (fault dest.pipeId) (b.pipes slot).sysQueueId p b
      · rw [hput]
        refine ⟨sameTargets_setPipe rfl rfl rfl rfl rfl, .of_queues rfl, fun dests hquiet err herr => ?_⟩
        obtain rfl := List.mem_singleton.mp herr
        have hkind := hquiet dest List.mem_cons_self slot htarget
        rwa [if_neg hlim, if_pos hfault] at hkind
      · rw [hput]
        refine ⟨sameTargets_setPipe rfl rfl rfl rfl rfl, .of_queues rfl, fun dests hquiet err herr => ?_⟩
        obtain rfl := List.mem_singleton.mp herr
        have hkind := hquiet dest List.mem_cons_self slot htarget
        rw [if_neg hlim, if_neg hfault, List.countP_cons_of_pos (by simp [hsends])] at hkind
        exact hkind.resolve_right (by omega)
      · rw [hput]
        obtain ⟨hpipes', hqueues'⟩ := incrBufUseCnt_same (b := b') (p := p)
        refine ⟨?_, ?_, nofun⟩
        · apply sameTargets_setPipe <;> simp [hpipes', hpipes, PipeD.countMessage]
        · constructor <;> intro i
          · exact (congrArg OsQueue.id (congrFun hqueues' i)).trans (hfills.id i)
          · exact (congrArg OsQueue.depth (congrFun hqueues' i)).trans (hfills.depth i)
          · rw [hsends i]
            have hitems := hfills.items i
            rw [← congrFun hqueues' i] at hitems
            exact hitems

/-- What is quiet for all destinations stays so for the rest of them. -/
theorem Quiet.tail {dest : Dest} {dests : List Dest} (h : b.Quiet app fault denied (dest :: dests))
    (hsame : b.SameTargets b') (hfills : b.Fills b' fun i => b.sendsTo app i dest) :
    b'.Quiet app fault denied dests := by
  intro other hmem slot hslot
  rw [hsame.target] at hslot
  have hquiet := h other (List.mem_cons_of_mem dest hmem) slot hslot
  simp only [hsame.sysQueueId, hsame.sendsTo, hfills.depth]
  have hwritable : b'.Unwritable (fault other.pipeId) (b.pipes slot).sysQueueId ↔
      b.Unwritable (fault other.pipeId) (b.pipes slot).sysQueueId := by
    rw [Unwritable, Unwritable, hfills.id]
  dsimp only at hquiet
  by_cases hlim : other.buffCount ≥ other.msgId2PipeLim
  · rw [if_pos hlim] at hquiet ⊢
    exact hquiet
  · rw [if_neg hlim] at hquiet ⊢
    by_cases hfault : b.Unwritable (fault other.pipeId) (b.pipes slot).sysQueueId
    · rw [if_pos hfault] at hquiet
      rwa [if_pos (hwritable.mpr hfault)]
    · rw [if_neg hfault] at hquiet
      rw [if_neg (fun h => hfault (hwritable.mp h))]
      refine hquiet.imp_right fun hroom => ?_
      have hitems := hfills.items (queueIndex (b.pipes slot).sysQueueId)
      rw [List.countP_cons] at hroom
      omega

theorem sendToDests_quiet {dests : List Dest} (h : b.Quiet app fault denied dests) :
    ∀ err ∈ (b.sendToDests app fault p dests).2.1, denied err.kind = true := by
  induction dests generalizing b with
  | nil => nofun
  | cons dest dests ih =>
    obtain ⟨hsame, hfills, hquiet⟩ := b.sendToDest_spec app dest
    simp only [sendToDests]
    intro err herr
    rcases List.mem_append.mp herr with hfirst | hrest
    · exact hquiet dests h err hfirst
    · exact ih (h.tail hsame hfills) err hrest

/-- A header update is no change of targets or queues. -/
theorem updateHeader_quiet {msgId : MsgId} {route : Route}
    (h : b.Quiet app fault denied route.dests) :
    (b.updateHeader msgId route p).2.Quiet app fault denied
      (b.updateHeader msgId route p).1.dests := by
  unfold updateHeader
  split <;> exact h

/-- A broadcast is quiet on the destinations of its route, if it has one. -/
theorem broadcastBufferToRoute_quiet {routeId : Option MsgId}
    (h : ∀ msgId ∈ routeId, ∀ route ∈ b.routes msgId, b.Quiet app fault denied route.dests) :
    ∀ err ∈ (b.broadcastBufferToRoute app fault p routeId).1, denied err.kind = true := by
  unfold broadcastBufferToRoute
  cases hroute : routeId.bind fun msgId => (b.routes msgId).map (Prod.mk msgId) with
  | none => nofun
  | some found =>
    obtain ⟨msgId, route⟩ := found
    obtain ⟨id, hid, hmap⟩ := Option.bind_eq_some_iff.mp hroute
    obtain ⟨route', hroute', heq⟩ := Option.map_eq_some_iff.mp hmap
    obtain ⟨rfl, rfl⟩ := Prod.mk.inj heq
    exact sendToDests_quiet (updateHeader_quiet (h id hid route' hroute'))

end Bus

/-! ## Runs -/

namespace Sb

/-- No task is about to read a descriptor that it has given up, and every event named the
message that was sent. -/
structure NoLateRead (s : Sb Task) : Prop where
  reporting : ∀ t p msgId errs, s.calls t = .reporting p msgId errs → errs = []
  printed : ∀ entry ∈ s.printed, entry.printed = entry.sent

/-- The step, where it is a broadcast, fails in no delivery that an event is sent for. -/
def QuietStep (s : Sb Task) : Event Task → Prop
  | .broadcast t app fault denied =>
    match s.calls t with
    | .filling _ msgId _ _ =>
      ∀ route ∈ s.bus.routes msgId, s.bus.Quiet app fault denied route.dests
    | .broadcasting _ _ routeId =>
      ∀ msgId ∈ routeId, ∀ route ∈ s.bus.routes msgId, s.bus.Quiet app fault denied route.dests
    | _ => True
  | _ => True

variable {s s' : Sb Task} {t : Task} {call : Call} {bus : Bus}

theorem NoLateRead.setCall (h : s.NoLateRead)
    (hcall : ∀ p msgId errs, call = .reporting p msgId errs → errs = []) :
    ((s.withBus bus).setCall t call).NoLateRead where
  reporting := by
    intro other p msgId errs hother
    simp only [Sb.setCall, withBus] at hother
    by_cases heq : other = t
    · rw [heq, update_self] at hother
      exact hcall p msgId errs hother
    · rw [update_of_ne heq] at hother
      exact h.reporting other p msgId errs hother
  printed := h.printed

/-- The broadcast of a quiet step leaves no event to send. -/
theorem NoLateRead.broadcast (h : s.NoLateRead) {app : AppId} {fault : PipeId → Bool}
    {denied : Bus.SendErrKind → Bool} {p : Ptr} {msgId : MsgId} {routeId : Option MsgId}
    (hquiet : ∀ msgId ∈ routeId, ∀ route ∈ bus.routes msgId,
      bus.Quiet app fault denied route.dests) :
    (s.broadcast t app fault denied p msgId routeId bus).NoLateRead := by
  refine h.setCall fun p' msgId' errs heq => ?_
  obtain ⟨-, -, rfl⟩ := Call.reporting.inj heq
  rw [List.filter_eq_nil_iff]
  intro err herr
  simp [Bus.broadcastBufferToRoute_quiet hquiet err herr]

theorem NoLateRead.withBus (h : s.NoLateRead) : (s.withBus bus).NoLateRead :=
  ⟨h.reporting, h.printed⟩

/-- Only the end of a broadcast makes a task report, and only a report prints. -/
theorem next_noLateRead {e : Event Task} (h : s.NoLateRead) (hquiet : s.QuietStep e)
    (hnext : s.next e = some s') : s'.NoLateRead := by
  cases e with
  | createPipe t app depth =>
    obtain ⟨-, hnext⟩ := Option.ite_none_right_eq_some.mp hnext
    obtain ⟨⟨slot, pipeId, b⟩, -, rfl⟩ := Option.map_eq_some_iff.mp hnext
    exact h.setCall nofun
  | createQueue t queueId =>
    simp only [next] at hnext
    split at hnext
    · obtain ⟨b, -, rfl⟩ := Option.map_eq_some_iff.mp hnext
      exact h.setCall nofun
    · exact Option.some.inj hnext ▸ h.setCall nofun
    · cases hnext
  | setPipeOpts | subscribe | unsubscribe | setRouteActive | zeroCopyReleaseAppId =>
    exact Option.some.inj hnext ▸ h.withBus
  | deletePipe t app pipeId =>
    obtain ⟨-, hnext⟩ := Option.ite_none_right_eq_some.mp hnext
    obtain ⟨⟨slot, queueId, held, b⟩, -, rfl⟩ := Option.map_eq_some_iff.mp hnext
    exact h.setCall nofun
  | dropHeld | deleteQueue | freePipe | release | endReceive =>
    simp only [next] at hnext
    split at hnext
    · exact Option.some.inj hnext ▸ h.setCall nofun
    · cases hnext
  | drainQueue t =>
    simp only [next] at hnext
    split at hnext
    · split at hnext <;> exact Option.some.inj hnext ▸ h.setCall nofun
    · cases hnext
  | transmitMsg t msgId seqCount updateHeader =>
    obtain ⟨-, hnext⟩ := Option.ite_none_right_eq_some.mp hnext
    exact Option.some.inj hnext ▸ h.setCall nofun
  | getBuffer t addr =>
    simp only [next] at hnext
    split at hnext
    · obtain ⟨-, hnext⟩ := Option.ite_none_left_eq_some.mp hnext
      exact Option.some.inj hnext ▸ h.setCall nofun
    · exact Option.some.inj hnext ▸ h.setCall nofun
    · cases hnext
  | allocateMessageBuffer app addr =>
    obtain ⟨-, hnext⟩ := Option.ite_none_left_eq_some.mp hnext
    exact Option.some.inj hnext ▸ h.withBus
  | transmitBuffer t p msgId seqCount updateHeader =>
    obtain ⟨-, hnext⟩ := Option.ite_none_right_eq_some.mp hnext
    exact Option.some.inj hnext ▸ h.setCall nofun
  | broadcast t app fault denied =>
    simp only [next] at hnext
    rw [QuietStep] at hquiet
    split at hnext
    case h_1 p msgId seqCount updateHeader hcall =>
      rw [hcall] at hquiet
      refine Option.some.inj hnext ▸ h.broadcast fun id hid => ?_
      obtain rfl := Option.some.inj hid
      exact hquiet
    case h_2 p msgId routeId hcall =>
      rw [hcall] at hquiet
      exact Option.some.inj hnext ▸ h.broadcast hquiet
    case h_3 => cases hnext
  | report t =>
    simp only [next] at hnext
    split at hnext
    case h_1 p msgId err errs hcall => cases h.reporting t p msgId _ hcall
    case h_2 => exact Option.some.inj hnext ▸ h.setCall nofun
    case h_3 => cases hnext
  | releaseMessageBuffer t p =>
    obtain ⟨-, hnext⟩ := Option.ite_none_right_eq_some.mp hnext
    exact Option.some.inj hnext ▸ h.setCall nofun
  | receiveBuffer t pipeId =>
    obtain ⟨-, hnext⟩ := Option.ite_none_right_eq_some.mp hnext
    obtain ⟨slot, -, rfl⟩ := Option.map_eq_some_iff.mp hnext
    exact h.setCall nofun
  | getMessage t =>
    simp only [next] at hnext
    split at hnext
    · split at hnext <;> exact Option.some.inj hnext ▸ h.setCall nofun
    · cases hnext

end Sb

/-- In every run whose broadcasts fail in no delivery that an event is sent for, no task reads a
buffer descriptor that it has given up, and no event names another message. -/
theorem no_late_read {s : Sb Task} (h : (softwareBus Task).Reaches Sb.QuietStep s) :
    s.NoLateRead := by
  refine h.invariant (fun s hstart => ?_) fun s e s' hs hquiet hnext => ?_
  · rw [show s = {} from hstart]
    exact ⟨nofun, nofun⟩
  · exact Sb.next_noLateRead hs hquiet hnext

instance (s : Sb Task) (e : Event Task) : Decidable (s.QuietStep e) := by
  unfold Sb.QuietStep
  split
  · split <;> infer_instance
  · infer_instance

/-- A pipe of the first application with a limit for one MsgID, and a message to it. -/
def sendOne (msgLim : Nat) : List (Event Bool) :=
  [.createPipe true 1 1, .createQueue true (some 1), .subscribe 1 ⟨0x1880, 0x160001, msgLim, 0⟩ true,
    .transmitMsg true 0x1880 0 true, .getBuffer true (some 64),
    .broadcast true 1 (fun _ => false) fun _ => false]

/-- With a limit of one the message is delivered. -/
theorem no_late_read_delivered : ∃ s : Sb Bool,
    (s.bus.queues (queueIndex 1)).items = [64] ∧ s.NoLateRead := by
  obtain ⟨s, hs, hsent⟩ := (softwareBus Bool).exists_reaches Sb.QuietStep
    (fun s => (s.bus.queues (queueIndex 1)).items = [64]) rfl (sendOne 1 ++ [.report true])
    (by decide +kernel)
  exact ⟨s, of_decide_eq_true hsent, no_late_read hs⟩

/-- With a limit of zero it is not, and the buffer is handed out for another message before the
event is sent. -/
theorem late_read_over_limit : ∃ s : Sb Bool, (softwareBus Bool).Reachable s ∧
    s.printed = [⟨⟨0x160001, .msgidLim⟩, 0x1881, 0x1880⟩] ∧ ¬ s.NoLateRead := by
  obtain ⟨s, hs, hprinted⟩ := (softwareBus Bool).exists_reaches (fun _ _ => True)
    (fun s => s.printed = [⟨⟨0x160001, .msgidLim⟩, 0x1881, 0x1880⟩]) rfl
    (sendOne 0 ++ [.allocateMessageBuffer 2 64, .transmitBuffer false 64 0x1881 0 true,
      .report true]) (by decide +kernel)
  have hprinted := of_decide_eq_true hprinted
  refine ⟨s, hs, hprinted, fun h => ?_⟩
  exact absurd (h.printed _ (hprinted ▸ List.mem_singleton_self _)) (by decide)

end Nos3.Sb
