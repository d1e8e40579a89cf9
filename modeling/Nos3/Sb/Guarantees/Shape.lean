import Nos3.Sb.Source.Calls

/-!
# The shape of the Software Bus

Which pipe is in which slot, which queue it has, which queues exist and which pipes a route leads
to. Most steps leave all of that alone; whether a pipe id matches depends on nothing else.
-/
namespace Nos3.Sb
open Function (update update_self update_of_ne)

structure Shape where
  pipeId : Slot → PipeId
  sysQueueId : Slot → QueueId
  queueId : Fin OS_MAX_QUEUES → QueueId
  subscribers : MsgId → Option (List PipeId)

def Route.subscribers (route : Route) : List PipeId := route.dests.map Dest.pipeId

namespace Bus

def shape (b : Bus) : Shape where
  pipeId slot := (b.pipes slot).pipeId
  sysQueueId slot := (b.pipes slot).sysQueueId
  queueId i := (b.queues i).id
  subscribers msgId := (b.routes msgId).map Route.subscribers

theorem shape_eq_of {b b' : Bus} (hpipes : ∀ slot, (b'.pipes slot).pipeId = (b.pipes slot).pipeId ∧
      (b'.pipes slot).sysQueueId = (b.pipes slot).sysQueueId)
    (hqueues : ∀ i, (b'.queues i).id = (b.queues i).id)
    (hroutes : ∀ msgId, (b'.routes msgId).map Route.subscribers =
      (b.routes msgId).map Route.subscribers) : b'.shape = b.shape := by
  simp only [shape, Shape.mk.injEq]
  exact ⟨funext fun slot => (hpipes slot).1, funext fun slot => (hpipes slot).2, funext hqueues,
    funext hroutes⟩

theorem pipeId_of_shape {b b' : Bus} (h : b'.shape = b.shape) (slot : Slot) :
    (b'.pipes slot).pipeId = (b.pipes slot).pipeId := congrFun (congrArg Shape.pipeId h) slot

theorem sysQueueId_of_shape {b b' : Bus} (h : b'.shape = b.shape) (slot : Slot) :
    (b'.pipes slot).sysQueueId = (b.pipes slot).sysQueueId :=
  congrFun (congrArg Shape.sysQueueId h) slot

/-! ## Steps that keep the shape -/

variable {b : Bus} {slot : Slot} {p : Ptr} {pipeId : PipeId} {msgId : MsgId} {app : AppId}

theorem setPipe_shape {pipe : PipeD} (hid : pipe.pipeId = (b.pipes slot).pipeId)
    (hqueue : pipe.sysQueueId = (b.pipes slot).sysQueueId) :
    (b.setPipe slot pipe).shape = b.shape := by
  refine shape_eq_of (fun other => ?_) (fun _ => rfl) fun _ => rfl
  by_cases heq : other = slot
  · subst heq
    simpa [setPipe] using ⟨hid, hqueue⟩
  · simp [setPipe, heq]

theorem setRoute_shape {route route' : Route} (hold : b.routes msgId = some route)
    (hsame : route'.subscribers = route.subscribers) :
    (b.setRoute msgId route').shape = b.shape := by
  refine shape_eq_of (fun _ => ⟨rfl, rfl⟩) (fun _ => rfl) fun other => ?_
  by_cases heq : other = msgId
  · subst heq
    simp [setRoute, hold, hsame]
  · simp [setRoute, heq]

@[simp] theorem setDesc_shape {bd : BufferD} : (b.setDesc p bd).shape = b.shape := rfl

@[simp] theorem getBufferFromPool_shape : (b.getBufferFromPool p).shape = b.shape := rfl

@[simp] theorem allocateMessageBuffer_shape : (b.allocateMessageBuffer app p).shape = b.shape := rfl

@[simp] theorem trackingListRemove_shape : (b.trackingListRemove p).shape = b.shape := rfl

@[simp] theorem incrBufUseCnt_shape : (b.incrBufUseCnt p).shape = b.shape := by
  unfold incrBufUseCnt
  split <;> rfl

@[simp] theorem decrBufUseCnt_shape : (b.decrBufUseCnt p).shape = b.shape := by
  unfold decrBufUseCnt
  split
  · simp only
    split <;> rfl
  · rfl

@[simp] theorem releaseMessageBuffer_shape : (b.releaseMessageBuffer p).shape = b.shape :=
  decrBufUseCnt_shape

theorem zeroCopyRelease_shape (ps : List Ptr) : (zeroCopyRelease app ps b).shape = b.shape := by
  induction ps generalizing b with
  | nil => rfl
  | cons p ps ih =>
    rw [zeroCopyRelease, ih]
    split
    · exact decrBufUseCnt_shape
    · rfl

@[simp] theorem zeroCopyReleaseAppId_shape : (b.zeroCopyReleaseAppId app).shape = b.shape := by
  unfold zeroCopyReleaseAppId
  split
  · exact zeroCopyRelease_shape _
  · rfl

theorem queues_update_shape {queueId : QueueId} {queue : OsQueue}
    (hid : queue.id = (b.queues (queueIndex queueId)).id) :
    ({ b with queues := update b.queues (queueIndex queueId) queue } : Bus).shape = b.shape := by
  refine shape_eq_of (fun _ => ⟨rfl, rfl⟩) (fun i => ?_) fun _ => rfl
  by_cases heq : i = queueIndex queueId
  · simpa [heq] using hid
  · simp [heq]

@[simp] theorem queuePut_shape {fault : Bool} {queueId : QueueId} :
    (b.queuePut fault queueId p).2.shape = b.shape := by
  unfold queuePut
  simp only
  split
  · rfl
  · split
    · rfl
    · exact queues_update_shape rfl

@[simp] theorem queueGet_shape {queueId : QueueId} : (b.queueGet queueId).2.shape = b.shape := by
  unfold queueGet
  simp only
  split
  · rfl
  · split
    · rfl
    · exact queues_update_shape rfl

@[simp] theorem setPipeOpts_shape {ignoreMine : Bool} :
    (b.setPipeOpts app pipeId ignoreMine).shape = b.shape := by
  unfold setPipeOpts
  cases b.matchedPipe pipeId with
  | none => rfl
  | some slot =>
    simp only
    split
    · exact setPipe_shape rfl rfl
    · rfl

theorem modifyDest_subscribers {f : Dest → Dest} (hf : ∀ dest, (f dest).pipeId = dest.pipeId)
    (dests : List Dest) : (modifyDest f pipeId dests).map Dest.pipeId = dests.map Dest.pipeId := by
  induction dests with
  | nil => rfl
  | cons dest dests ih =>
    rw [modifyDest]
    split
    · simp [hf]
    · simp [ih]

theorem modifyRoute_shape {f : Dest → Dest} (hf : ∀ dest, (f dest).pipeId = dest.pipeId) :
    (b.modifyRoute f msgId pipeId).shape = b.shape := by
  unfold modifyRoute
  split
  · rfl
  · rename_i hold
    exact setRoute_shape hold (modifyDest_subscribers hf _)

@[simp] theorem setRouteActive_shape {active : Bool} :
    (b.setRouteActive msgId pipeId active).shape = b.shape := by
  unfold setRouteActive
  split
  · exact modifyRoute_shape fun _ => rfl
  · rfl

@[simp] theorem beginReceive_shape : (b.beginReceive slot).shape = b.shape := by
  unfold beginReceive
  split
  · rfl
  · exact (setPipe_shape (b := b.decrBufUseCnt _) (by rfl) (by rfl)).trans decrBufUseCnt_shape

@[simp] theorem endReceive_shape : (b.endReceive slot pipeId p).shape = b.shape := by
  unfold endReceive
  rw [decrBufUseCnt_shape]
  split
  · refine (setPipe_shape (by rfl) (by rfl)).trans ?_
    refine (modifyRoute_shape fun _ => by rfl).trans ?_
    exact (setPipe_shape (by rfl) (by rfl)).trans incrBufUseCnt_shape
  · rfl

/-! ## The broadcast -/

variable {fault : PipeId → Bool}

theorem sendToDest_shape (dest : Dest) : (b.sendToDest app fault p dest).2.2.shape = b.shape := by
  unfold sendToDest
  split
  · rfl
  · split
    · exact setPipe_shape rfl rfl
    · have hput : ∀ fault queueId, (b.queuePut fault queueId p).2.shape = b.shape :=
        fun _ _ => queuePut_shape
      split
      · rename_i b' heq
        have hb' : b'.shape = b.shape := by
          rw [← hput _ _, heq]
        refine (setPipe_shape ?_ ?_).trans (incrBufUseCnt_shape.trans hb')
        · exact (pipeId_of_shape incrBufUseCnt_shape _).symm
        · exact (sysQueueId_of_shape incrBufUseCnt_shape _).symm
      · rename_i b' _ heq
        have hb' : b'.shape = b.shape := by
          rw [← hput _ _, heq]
        exact (setPipe_shape (by rfl) (by rfl)).trans hb'

theorem sendToDest_pipeId (dest : Dest) :
    (b.sendToDest app fault p dest).1.pipeId = dest.pipeId := by
  unfold sendToDest
  split
  · rfl
  · split
    · rfl
    · split <;> rfl

theorem sendToDests_shape (dests : List Dest) :
    (b.sendToDests app fault p dests).2.2.shape = b.shape ∧
      (b.sendToDests app fault p dests).1.map Dest.pipeId = dests.map Dest.pipeId := by
  induction dests generalizing b with
  | nil => exact ⟨rfl, rfl⟩
  | cons dest dests ih =>
    simp only [sendToDests]
    obtain ⟨hshape, hids⟩ := ih (b := (b.sendToDest app fault p dest).2.2)
    exact ⟨hshape.trans (sendToDest_shape dest), by simp [hids, sendToDest_pipeId]⟩

end Bus
end Nos3.Sb
