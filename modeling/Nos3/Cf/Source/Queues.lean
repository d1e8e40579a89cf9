import Nos3.Cf.Source.Files
import Nos3.Base.Transition
import Nos3.Cf.Source.Clist
import Mathlib.Data.List.TakeWhile

/-!
# Queues and the end of a transaction (cf_utils.c, cf_utils.h, cf_cfdp.c)

A queue is the list of the transactions on it, head first.
-/
namespace Nos3.Cf

def toUint16 (n : Nat) : Nat := n % 2 ^ 16

/-- The transaction behind a pointer. -/
def World.txnOf (w : World) (ref : TxnRef) : Transaction :=
  if ref = w.self then w.t
  else
    match ref with
    | .pool i => w.txns i
    | .stack => default

def Channel.setQueue (c : Channel) (q : QueueIdx) (refs : List TxnRef) : Channel :=
  { c with qs := fun q' => if q' = q then refs else c.qs q' }

def Channel.setSize (c : Channel) (q : QueueIdx) (n : Nat) : Channel :=
  { c with qSize := fun q' => if q' = q then toUint16 n else c.qSize q' }

/-- `CF_CList_Remove_Ex`. -/
def listRemoveEx (c : Channel) (q : QueueIdx) (ref : TxnRef) : Channel :=
  (c.setQueue q ((c.qs q).erase ref)).setSize q (c.qSize q + 2 ^ 16 - 1)

/-- `CF_CList_InsertBack_Ex`. -/
def listInsertBackEx (c : Channel) (q : QueueIdx) (ref : TxnRef) : Channel :=
  (c.setQueue q (c.qs q ++ [ref])).setSize q (c.qSize q + 1)

def dequeueTransaction (w : World) : World :=
  { w with chan := listRemoveEx w.chan w.t.com.qIndex w.self }

def moveTransaction (w : World) (q : QueueIdx) : World :=
  let w := dequeueTransaction w
  { w with
    chan := listInsertBackEx w.chan q w.self
    t := { w.t with com := { w.t.com with qIndex := q } } }

/-- `CF_CList_Traverse_R` with `CF_PrioSearch`: how many entries stand before and
including the last one whose priority value does not exceed `priority`, zero
where there is none. -/
def prioSearch (prioOf : TxnRef → Nat) (priority : Nat) (refs : List TxnRef) : Nat :=
  refs.length - (refs.reverse.takeWhile fun ref => decide (priority < prioOf ref)).length

/-- The queue is searched from its back for an entry to insert after; without
one, the transaction goes to the back. -/
def insertSortPrio (w : World) (q : QueueIdx) : World :=
  let refs := w.chan.qs q
  let i := prioSearch (fun ref => (w.txnOf ref).priority) w.t.priority refs
  let refs := if i = 0 then refs ++ [w.self] else refs.take i ++ w.self :: refs.drop i
  { w with
    chan := (w.chan.setQueue q refs).setSize q (w.chan.qSize q + 1)
    t := { w.t with com := { w.t.com with qIndex := q } } }

def freedTransaction : Transaction :=
  { (default : Transaction) with com := { (default : FlagsCommon) with qIndex := .free } }

def freeTransaction (w : World) : World :=
  { w with t := freedTransaction, chan := listInsertBackEx w.chan .free w.self }

/-- Closes the file of a transaction that ends and deletes it unless it is kept. -/
def resetClose (w : World) : World :=
  if w.t.fd.isSome then
    let w := wrappedClose w
    if !w.t.keep then
      if isSender w.t then osRemove w w.t.history.fnames.srcFilename
      else osRemove w w.t.history.fnames.dstFilename
    else w
  else w

/-- The bookkeeping of `CF_CFDP_ResetTransaction` for sending transactions. -/
def resetTxCounts (w : World) : World :=
  let c := w.chan
  let isTx := w.t.history.dir == .tx
  { w with
    chan.numCmdTx := if isTx && w.t.tx.cmdTx then c.numCmdTx - 1 else c.numCmdTx
    chan.numTs := fun p => if isTx && w.t.p == some p then c.numTs p - 1 else c.numTs p }

def resetHistory (w : World) (keepHistory : Bool) : World :=
  let c := w.chan
  let q := if keepHistory then QueueIdx.hist else QueueIdx.histFree
  let h := w.t.history
  { w with
    chan := { c.setSize q (c.qSize q + 1) with
      hist := if keepHistory then c.hist ++ [h] else c.hist
      histFree := if keepHistory then c.histFree else c.histFree ++ [h] } }

/-- The chunk list goes back to the free list of the transaction's direction, as
it is. -/
def resetChunks (w : World) (chunks : ChunkList) : World :=
  let dir := if isSender w.t then Direction.tx else Direction.rx
  { w with
    chan := { w.chan with
      cs := fun d => if d = dir then w.chan.cs d ++ [chunks] else w.chan.cs d } }

def resetCur (w : World) : World :=
  { w with chan.cur := if w.chan.cur = some w.self then none else w.chan.cur }

/-- `CF_CFDP_ResetTransaction`. On a transaction that is already free, whose
history and chunk pointers are NULL, it faults. -/
def resetTransaction (w : World) (keepHistory : Bool) : World :=
  match w.t.chunks with
  | none => { w with fault := true }
  | some chunks =>
    let w := dequeueTransaction w
    let w := resetClose w
    let w := resetTxCounts w
    let w := resetHistory w keepHistory
    let w := resetChunks w chunks
    let w := resetCur w
    freeTransaction w

/-! ## What a reset does -/

/-- The transaction is cleared and on the free queue, `cur` no longer points at it. -/
structure Freed (w w' : World) : Prop where
  t : w'.t = freedTransaction
  qs : w'.chan.qs = (listInsertBackEx (listRemoveEx w.chan w.t.com.qIndex w.self) .free w.self).qs
  cur : w'.chan.cur = if w.chan.cur = some w.self then none else w.chan.cur
  frozen : w'.chan.frozen = w.chan.frozen
  self : w'.self = w.self
  txns : w'.txns = w.txns
  sent : w'.sent = w.sent
  fault : w'.fault = w.fault

theorem resetClose_frame (w : World) : ∃ fileOps files fd,
    resetClose w = { w with fileOps := fileOps, files := files, t.fd := fd } := by
  obtain ⟨files, fd, hclose⟩ := wrappedClose_frame w
  have hremoved : ∀ fname, ∃ fileOps files', osRemove (wrappedClose w) fname =
      { w with fileOps := fileOps, files := files', t.fd := fd } := by
    intro fname
    obtain ⟨fileOps, files', heq⟩ := osRemove_frame (wrappedClose w) fname
    exact ⟨fileOps, files', by rw [heq, hclose]⟩
  simp only [resetClose]
  split
  · split
    · split
      · obtain ⟨fileOps, files', heq⟩ := hremoved (wrappedClose w).t.history.fnames.srcFilename
        exact ⟨fileOps, files', fd, heq⟩
      · obtain ⟨fileOps, files', heq⟩ := hremoved (wrappedClose w).t.history.fnames.dstFilename
        exact ⟨fileOps, files', fd, heq⟩
    · exact ⟨w.fileOps, files, fd, hclose⟩
  · exact ⟨w.fileOps, w.files, w.t.fd, rfl⟩

/-- A transaction that has its chunk list, as every active one does, is freed. -/
theorem resetTransaction_freed {w : World} (h : w.t.chunks.isSome) (keepHistory : Bool) :
    Freed w (resetTransaction w keepHistory) := by
  obtain ⟨chunks, hchunks⟩ := Option.isSome_iff_exists.mp h
  obtain ⟨fileOps, files, fd, hclose⟩ := resetClose_frame (dequeueTransaction w)
  simp only [resetTransaction, hchunks, hclose]
  exact ⟨rfl, rfl, rfl, rfl, rfl, rfl, rfl, rfl⟩

theorem resetTransaction_fault {w : World} (h : w.t.chunks = none) (keepHistory : Bool) :
    resetTransaction w keepHistory = { w with fault := true } := by
  simp only [resetTransaction, h]

end Nos3.Cf

/-!
## Insertion by priority (cf_utils.c)

`CF_InsertSortPrio` on the links of a queue. The search walks the queue from its back
and stores the transaction it ends at in its context.
-/
namespace Nos3.Cf
open Nos3.Base.CircularList
open Nos3.Base.Transition (Machine)
open Function (update update_self update_of_ne)

universe u

/-- `CF_Traverse_PriorityArg_t`. -/
structure TraversePriorityArg (ι : Type u) where
  t : Option ι
  priority : UInt8

/-- A queue, and the `priority` of each transaction. -/
structure PrioQueue (ι : Type u) where
  qs : Clist ι
  priority : ι → UInt8

namespace PrioQueue
variable {ι : Type u} [DecidableEq ι]

def prioSearch (c : PrioQueue ι) (t : ι) (p : TraversePriorityArg ι) :
    ClistFnRet × TraversePriorityArg ι :=
  if c.priority t ≤ p.priority then (.exit, { p with t := some t }) else (.cont, p)

def insertSortPrio (c : PrioQueue ι) (fuel : Nat) (t : ι) : Option (PrioQueue ι) :=
  match c.qs.head with
  | none => some { c with qs := clistInsertBack c.qs t }
  | some head =>
    let found := clistTraverseR (fun _ => c.qs.links) c.prioSearch fuel head ⟨none, c.priority t⟩
    found.map fun p =>
      match p.t with
      | some start => { c with qs := clistInsertAfter c.qs start t }
      | none => { c with qs := clistInsertBack c.qs t }

/-! ## Where a transaction goes -/

/-- The search ends at the last transaction whose value is not above `priority`. -/
theorem visit_prioSearch (c : PrioQueue ι) (priority : UInt8) (l : List ι) :
    (∃ u a v, l = u ++ a :: v ∧ c.priority a ≤ priority ∧ (∀ b ∈ v, priority < c.priority b) ∧
      visit c.prioSearch l.reverse ⟨none, priority⟩ = ⟨some a, priority⟩) ∨
    (∀ b ∈ l, priority < c.priority b) ∧
      visit c.prioSearch l.reverse ⟨none, priority⟩ = ⟨none, priority⟩ := by
  induction l using List.reverseRecOn with
  | nil => exact Or.inr ⟨by simp, rfl⟩
  | append_singleton l z ih =>
    by_cases hz : c.priority z ≤ priority
    · exact Or.inl ⟨l, z, [], rfl, hz, by simp, by simp [visit, prioSearch, hz]⟩
    · have hlater : visit c.prioSearch (l ++ [z]).reverse ⟨none, priority⟩ =
          visit c.prioSearch l.reverse ⟨none, priority⟩ := by
        simp [visit, prioSearch, hz]
      have habove : priority < c.priority z := UInt8.not_le.mp hz
      rw [hlater]
      rcases ih with ⟨u, a, v, rfl, ha, hv, hfound⟩ | ⟨hl, hfound⟩
      · refine Or.inl ⟨u, a, v ++ [z], by simp, ha, fun b hb => ?_, hfound⟩
        rcases List.mem_append.mp hb with hb | hb
        · exact hv b hb
        · rwa [List.mem_singleton.mp hb]
      · refine Or.inr ⟨fun b hb => ?_, hfound⟩
        rcases List.mem_append.mp hb with hb | hb
        · exact hl b hb
        · rwa [List.mem_singleton.mp hb]

/-- The transaction goes behind the last one that may stand before it. Where there is
none, it goes to the back, be the queue empty or not. -/
theorem insertSortPrio_cases {c : PrioQueue ι} {l : List ι} {t : ι} {fuel : Nat}
    (h : Holds c.qs l) (ht : t ∉ l) (hself : c.qs.links.Joined t t) (hfuel : l.length ≤ fuel) :
    ∃ c' l', c.insertSortPrio fuel t = some c' ∧ c'.priority = c.priority ∧ Holds c'.qs l' ∧
      ((∃ u a v, l = u ++ a :: v ∧ c.priority a ≤ c.priority t ∧
          (∀ b ∈ v, c.priority t < c.priority b) ∧ l' = u ++ a :: t :: v) ∨
        (∀ b ∈ l, c.priority t < c.priority b) ∧ l' = l ++ [t]) := by
  have hback := holds_insertBack h ht hself
  cases hhead : c.qs.head with
  | none =>
    have hnil : l = [] := List.head?_eq_none_iff.mp (h.head.symm.trans hhead)
    refine ⟨{ c with qs := clistInsertBack c.qs t }, l ++ [t], ?_, rfl, hback,
      Or.inr ⟨by simp [hnil], rfl⟩⟩
    simp only [insertSortPrio, hhead]
  | some head =>
    have hheld : Holds ⟨some head, c.qs.links⟩ l := by
      rw [← hhead]
      exact h
    have hwalk := @clistTraverseR_visit ι _ l _ (fun _ => c.qs.links) c.prioSearch (fun _ _ => rfl)
      ⟨none, c.priority t⟩ (some head) hheld fuel hfuel
    rcases visit_prioSearch c (c.priority t) l with ⟨u, a, v, rfl, ha, hv, hfound⟩ | ⟨hl, hfound⟩
    · refine ⟨{ c with qs := clistInsertAfter c.qs a t }, u ++ a :: t :: v, ?_, rfl,
        holds_insertAfter h ht, Or.inl ⟨u, a, v, rfl, ha, hv, rfl⟩⟩
      simp only [insertSortPrio, hhead, hwalk, hfound, Option.map_some]
    · refine ⟨{ c with qs := clistInsertBack c.qs t }, l ++ [t], ?_, rfl, hback,
        Or.inr ⟨hl, rfl⟩⟩
      simp only [insertSortPrio, hhead, hwalk, hfound, Option.map_some]

end PrioQueue

/-! ## The engine's queues -/

theorem prioSearch_found {prioOf : TxnRef → Nat} {priority : Nat} {u v : List TxnRef} {a : TxnRef}
    (ha : prioOf a ≤ priority) (hv : ∀ b ∈ v, priority < prioOf b) :
    prioSearch prioOf priority (u ++ a :: v) = u.length + 1 := by
  have hreverse : (u ++ a :: v).reverse = v.reverse ++ a :: u.reverse := by simp
  have htail : (v.reverse ++ a :: u.reverse).takeWhile (fun b => decide (priority < prioOf b)) =
      v.reverse := by
    rw [List.takeWhile_append_of_pos (by simpa using hv), List.takeWhile_cons_of_neg (by simpa),
      List.append_nil]
  rw [prioSearch, hreverse, htail]
  simp only [List.length_append, List.length_cons, List.length_reverse]
  omega

theorem prioSearch_missing {prioOf : TxnRef → Nat} {priority : Nat} {l : List TxnRef}
    (hl : ∀ b ∈ l, priority < prioOf b) : prioSearch prioOf priority l = 0 := by
  rw [prioSearch, List.takeWhile_eq_self_iff.mpr (by simpa using hl), List.length_reverse,
    Nat.sub_self]

/-- The queue of the engine is what the links hold after the insertion. -/
theorem insertSortPrio_world {c : PrioQueue TxnRef} {w : World} {q : QueueIdx} {fuel : Nat}
    (h : Holds c.qs (w.chan.qs q)) (ht : w.self ∉ w.chan.qs q)
    (hself : c.qs.links.Joined w.self w.self)
    (hprio : ∀ ref, (c.priority ref).toNat = (w.txnOf ref).priority)
    (hfuel : (w.chan.qs q).length ≤ fuel) :
    ∃ c', c.insertSortPrio fuel w.self = some c' ∧
      Holds c'.qs ((insertSortPrio w q).chan.qs q) := by
  obtain ⟨c', l', hinsert, -, hheld, hcases⟩ := PrioQueue.insertSortPrio_cases h ht hself hfuel
  have hown : (c.priority w.self).toNat = w.t.priority := by
    rw [hprio]
    unfold World.txnOf
    rw [if_pos rfl]
  refine ⟨c', hinsert, ?_⟩
  suffices hl' : (insertSortPrio w q).chan.qs q = l' by rwa [hl']
  simp only [insertSortPrio, Channel.setQueue, Channel.setSize, if_true]
  rcases hcases with ⟨u, a, v, hl, ha, hv, rfl⟩ | ⟨hl, rfl⟩
  · have hfound := @prioSearch_found (fun ref => (w.txnOf ref).priority) w.t.priority u v a
      (by rw [← hprio, ← hown]; exact UInt8.le_iff_toNat_le.mp ha)
      (fun b hb => by rw [← hprio, ← hown]; exact UInt8.lt_iff_toNat_lt.mp (hv b hb))
    have hsplit : u ++ a :: v = (u ++ [a]) ++ v := by simp
    rw [hl, hfound, if_neg (by omega), hsplit, List.take_left' (by simp),
      List.drop_left' (by simp)]
    simp
  · have hmissing := @prioSearch_missing (fun ref => (w.txnOf ref).priority) w.t.priority _
      (fun b hb => by rw [← hprio, ← hown]; exact UInt8.lt_iff_toNat_lt.mp (hl b hb))
    rw [hmissing, if_pos rfl]

/-! ## Runs of insertions and removals -/

/-- A queue with the transactions on it in the order of their insertion. -/
structure Queued (ι : Type u) where
  queue : PrioQueue ι
  arrivals : List ι

/-- `elsewhere` is what happens to nodes that are on other queues or on none. -/
inductive QueueEvent (ι : Type u)
  | insert (t : ι) (priority : UInt8)
  | remove (t : ι)
  | elsewhere (links : Links ι) (priority : ι → UInt8)

section Runs
variable {ι : Type u} [DecidableEq ι]

/-- The assertion of `CF_CList_InsertBack`. -/
def Detached (s : Links ι) (node : ι) : Prop := s.Joined node node

instance (s : Links ι) (node : ι) : Decidable (Detached s node) :=
  inferInstanceAs (Decidable (s.Joined node node))

def insertEvent (s : Queued ι) (t : ι) (priority : UInt8) : Option (Queued ι) :=
  let queue := { s.queue with priority := update s.queue.priority t priority }
  if t ∉ s.arrivals ∧ Detached queue.qs.links t then
    (queue.insertSortPrio s.arrivals.length t).map fun queue => ⟨queue, s.arrivals ++ [t]⟩
  else none

/-- Nothing of a queued transaction changes. -/
def Untouched (s : Queued ι) (links : Links ι) (priority : ι → UInt8) : Prop :=
  ∀ t ∈ s.arrivals, links.next t = s.queue.qs.links.next t ∧
    links.prev t = s.queue.qs.links.prev t ∧ priority t = s.queue.priority t

instance (s : Queued ι) (links : Links ι) (priority : ι → UInt8) :
    Decidable (Untouched s links priority) :=
  inferInstanceAs (Decidable (∀ t ∈ s.arrivals, _))

def prioQueue (ι : Type u) [DecidableEq ι] : Machine (Queued ι) (QueueEvent ι) where
  start s := s.queue.qs.head = none ∧ s.arrivals = []
  next s
    | .insert t priority => insertEvent s t priority
    | .remove t =>
      if t ∈ s.arrivals then
        some ⟨{ s.queue with qs := clistRemove s.queue.qs t }, s.arrivals.erase t⟩
      else none
    | .elsewhere links priority =>
      if Untouched s links priority then
        some { s with queue := ⟨{ s.queue.qs with links := links }, priority⟩ }
      else none

end Runs
end Nos3.Cf
