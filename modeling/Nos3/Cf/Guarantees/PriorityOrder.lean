import Nos3.Cf.Source.Queues

/-!
# The order of a priority queue

A transaction whose priority value is smaller than all those on the queue finds nothing
to go behind, and is appended like the first one of an empty queue.
-/
namespace Nos3.Cf
open Nos3.Base.CircularList
open Nos3.Base.Transition (Machine)
open Function (update update_self update_of_ne)

universe u

variable {ι : Type u} [DecidableEq ι] {s s' : Queued ι}

/-- Every transaction on the queue is linked, once, and nothing else is. -/
def Queued.Linked (s : Queued ι) (l : List ι) : Prop := Holds s.queue.qs l ∧ l.Perm s.arrivals

/-- `a` is to be visited before `b`. -/
def Before (priority : ι → UInt8) (arrivals : List ι) (a b : ι) : Prop :=
  priority a < priority b ∨ priority a = priority b ∧ [a, b].Sublist arrivals

/-- The walk from the head visits the queued transactions by priority value, those of
one value in the order of their insertion. -/
def Queued.InOrder (s : Queued ι) : Prop :=
  ∃ l, s.Linked l ∧ l.Pairwise (Before s.queue.priority s.arrivals)

/-- The queue is empty or has a transaction that the new one may stand behind. -/
def Placeable (s : Queued ι) : QueueEvent ι → Prop
  | .insert _ priority => s.arrivals = [] ∨ ∃ a ∈ s.arrivals, s.queue.priority a ≤ priority
  | _ => True

/-- An insertion is carried out, and goes behind the last transaction that it may stand
behind or to the back. -/
theorem insertEvent_linked {l : List ι} (h : s.Linked l) {t : ι} (ht : t ∉ s.arrivals)
    (hself : Detached s.queue.qs.links t) (priority : UInt8) :
    ∃ s' l', insertEvent s t priority = some s' ∧ s'.Linked l' ∧
      s'.queue.priority = update s.queue.priority t priority ∧ s'.arrivals = s.arrivals ++ [t] ∧
      ((∃ u a v, l = u ++ a :: v ∧ s.queue.priority a ≤ priority ∧
          (∀ b ∈ v, priority < s.queue.priority b) ∧ l' = u ++ a :: t :: v) ∨
        (∀ b ∈ l, priority < s.queue.priority b) ∧ l' = l ++ [t]) := by
  obtain ⟨hheld, hperm⟩ := h
  have hfresh : t ∉ l := fun hmem => ht (hperm.mem_iff.mp hmem)
  have hkept (b : ι) (hb : b ∈ l) : update s.queue.priority t priority b = s.queue.priority b :=
    update_of_ne (fun heq => hfresh (by rwa [← heq])) ..
  have hmine : update s.queue.priority t priority t = priority := update_self ..
  obtain ⟨queue, l', hinsert, hprio, hheld', hcases⟩ :=
    @PrioQueue.insertSortPrio_cases ι _ ⟨s.queue.qs, update s.queue.priority t priority⟩ l t
      s.arrivals.length hheld hfresh hself hperm.length_eq.le
  refine ⟨⟨queue, s.arrivals ++ [t]⟩, l', ?_, ⟨hheld', ?_⟩, hprio, rfl, ?_⟩
  · simp only [insertEvent, ht, hself, hinsert, not_false_eq_true, and_self, if_true,
      Option.map_some]
  · have hback : (l ++ [t]).Perm (s.arrivals ++ [t]) := hperm.append_right [t]
    rcases hcases with ⟨u, a, v, rfl, -, -, rfl⟩ | ⟨-, rfl⟩
    · refine List.Perm.trans ?_ hback
      have hmove : (t :: v).Perm (v ++ [t]) := (List.perm_append_singleton t v).symm
      simpa using (hmove.cons a).append_left u
    · exact hback
  · simp only [hmine] at hcases
    rcases hcases with ⟨u, a, v, rfl, ha, hv, hl'⟩ | ⟨hl, hl'⟩
    · refine Or.inl ⟨u, a, v, rfl, ?_, fun b hb => ?_, hl'⟩
      · rwa [hkept a (by simp)] at ha
      · rw [← hkept b (by simp [hb])]
        exact hv b hb
    · refine Or.inr ⟨fun b hb => ?_, hl'⟩
      rw [← hkept b hb]
      exact hl b hb

/-! ## One step -/

/-- What is to be visited before what stays the same for queued transactions. -/
theorem Before.insert {priority : ι → UInt8} {arrivals : List ι} {t a b : ι} {value : UInt8}
    (h : Before priority arrivals a b) (ha : a ≠ t) (hb : b ≠ t) :
    Before (update priority t value) (arrivals ++ [t]) a b := by
  rw [Before, update_of_ne ha, update_of_ne hb]
  exact h.imp id fun hsame => ⟨hsame.1, hsame.2.trans (List.sublist_append_left _ _)⟩

theorem Before.erase {priority : ι → UInt8} {arrivals : List ι} {t a b : ι}
    (h : Before priority arrivals a b) (ha : a ≠ t) (hb : b ≠ t) :
    Before priority (arrivals.erase t) a b := by
  refine h.imp id fun hsame => ⟨hsame.1, ?_⟩
  have herase : [a, b].erase t = [a, b] :=
    List.erase_of_not_mem (by simpa using ⟨ha.symm, hb.symm⟩)
  rw [← herase]
  exact hsame.2.erase t

theorem pairwise_insert {R : ι → ι → Prop} {x y : List ι} {t : ι} (h : (x ++ y).Pairwise R)
    (hx : ∀ b ∈ x, R b t) (hy : ∀ b ∈ y, R t b) : (x ++ t :: y).Pairwise R := by
  obtain ⟨hxs, hys, hxy⟩ := List.pairwise_append.mp h
  refine List.pairwise_append.mpr ⟨hxs, List.pairwise_cons.mpr ⟨hy, hys⟩, fun a ha b hb => ?_⟩
  rcases List.mem_cons.mp hb with rfl | hb
  · exact hx a ha
  · exact hxy a ha b hb

theorem Queued.InOrder.insert (h : s.InOrder) {t : ι} {priority : UInt8}
    (hok : Placeable s (.insert t priority)) (ht : t ∉ s.arrivals)
    (hself : Detached s.queue.qs.links t) (hnext : insertEvent s t priority = some s') :
    s'.InOrder := by
  obtain ⟨l, hlinked, hsorted⟩ := h
  have hperm := hlinked.2
  have hne (b : ι) (hb : b ∈ l) : b ≠ t := fun heq => ht (heq ▸ hperm.mem_iff.mp hb)
  obtain ⟨after, l', hinsert, hlinked', hprio, harrivals, hcases⟩ :=
    insertEvent_linked hlinked ht hself priority
  obtain rfl : after = s' := Option.some.inj (hinsert.symm.trans hnext)
  refine ⟨l', hlinked', ?_⟩
  rw [hprio, harrivals]
  have hold : l.Pairwise (Before (update s.queue.priority t priority) (s.arrivals ++ [t])) :=
    hsorted.imp_of_mem fun ha hb hab => hab.insert (hne _ ha) (hne _ hb)
  have hahead (b : ι) (hb : b ∈ l) (hle : s.queue.priority b ≤ priority) :
      Before (update s.queue.priority t priority) (s.arrivals ++ [t]) b t := by
    rw [Before, update_self, update_of_ne (hne b hb)]
    refine (UInt8.lt_or_eq_of_le hle).imp id fun heq => ⟨heq, ?_⟩
    exact (List.singleton_sublist.mpr (hperm.mem_iff.mp hb)).append (List.Sublist.refl [t])
  have hbehind (b : ι) (hb : b ∈ l) (hlt : priority < s.queue.priority b) :
      Before (update s.queue.priority t priority) (s.arrivals ++ [t]) t b := by
    rw [Before, update_self, update_of_ne (hne b hb)]
    exact Or.inl hlt
  rcases hcases with ⟨u, a, v, rfl, ha, hv, rfl⟩ | ⟨hl, rfl⟩
  · -- those up to `a` have values no larger, those behind it larger ones
    have hsplit (w : List ι) : u ++ a :: w = (u ++ [a]) ++ w := by simp
    have hle (x : ι) (hx : x ∈ u) : s.queue.priority x ≤ s.queue.priority a :=
      ((List.pairwise_append.mp hsorted).2.2 x hx a (by simp)).elim UInt8.le_of_lt
        fun hsame => UInt8.le_of_eq hsame.1
    rw [hsplit]
    refine pairwise_insert (by rwa [← hsplit]) (fun b hb => ?_) fun b hb => ?_
    · rcases List.mem_append.mp hb with hb | hb
      · exact hahead b (by simp [hb]) (UInt8.le_trans (hle b hb) ha)
      · rw [List.mem_singleton.mp hb]
        exact hahead a (by simp) ha
    · exact hbehind b (by simp [hb]) (hv b hb)
  · -- nothing was found, which the condition allows on an empty queue only
    have hnil : l = [] := by
      rcases hok with hempty | ⟨a, ha, hle⟩
      · exact List.Perm.eq_nil (hempty ▸ hperm)
      · exact absurd (hl a (hperm.mem_iff.mpr ha)) (UInt8.not_lt.mpr hle)
    rw [hnil]
    exact List.pairwise_singleton _ _

/-- Without such a transaction the queue is out of order afterwards. -/
theorem insertEvent_not_inOrder {l : List ι} (hlinked : s.Linked l) {t : ι} {priority : UInt8}
    (hok : ¬Placeable s (.insert t priority)) (ht : t ∉ s.arrivals)
    (hself : Detached s.queue.qs.links t) (hnext : insertEvent s t priority = some s') :
    ¬s'.InOrder := by
  rintro ⟨m, ⟨hheld, -⟩, hsorted⟩
  have hperm := hlinked.2
  obtain ⟨hsome, habove⟩ := not_or.mp hok
  obtain ⟨after, l', hinsert, hlinked', hprio, -, hcases⟩ :=
    insertEvent_linked hlinked ht hself priority
  obtain rfl : after = s' := Option.some.inj (hinsert.symm.trans hnext)
  obtain rfl : m = l' := hheld.unique hlinked'.1
  rcases hcases with ⟨u, a, v, rfl, ha, -⟩ | ⟨-, rfl⟩
  · exact habove ⟨a, hperm.mem_iff.mp (by simp), ha⟩
  · obtain ⟨a, ha⟩ := List.exists_mem_of_ne_nil _ hsome
    have hal : a ∈ l := hperm.mem_iff.mpr ha
    have hlt : priority < s.queue.priority a :=
      UInt8.not_le.mp fun hle => habove ⟨a, ha, hle⟩
    have hbefore := (List.pairwise_append.mp hsorted).2.2 a hal t (by simp)
    rw [Before, hprio, update_self, update_of_ne (fun heq : a = t => ht (heq ▸ ha))] at hbefore
    rcases hbefore with hbefore | ⟨hsame, -⟩
    · exact UInt8.lt_asymm hlt hbefore
    · exact UInt8.lt_irrefl _ (hsame ▸ hlt)

theorem Queued.Linked.remove {u v : List ι} {t : ι} (h : s.Linked (u ++ t :: v)) :
    (Queued.mk { s.queue with qs := clistRemove s.queue.qs t } (s.arrivals.erase t)).Linked
      (u ++ v) := by
  obtain ⟨hheld, hperm⟩ := h
  have ht : t ∈ s.arrivals := hperm.mem_iff.mp (by simp)
  have hcons : (t :: s.arrivals.erase t).Perm (t :: (u ++ v)) :=
    (List.perm_cons_erase ht).symm.trans (hperm.symm.trans List.perm_middle)
  exact ⟨holds_remove hheld, hcons.cons_inv.symm⟩

theorem Queued.InOrder.remove (h : s.InOrder) {t : ι} (ht : t ∈ s.arrivals) :
    (Queued.mk { s.queue with qs := clistRemove s.queue.qs t } (s.arrivals.erase t)).InOrder := by
  obtain ⟨l, hlinked, hsorted⟩ := h
  obtain ⟨u, v, rfl⟩ := List.append_of_mem (hlinked.2.mem_iff.mpr ht)
  have hrest : (u ++ v).Sublist (u ++ t :: v) := by simp
  have hne (b : ι) (hb : b ∈ u ++ v) : b ≠ t := by
    rintro rfl
    exact (List.nodup_cons.mp (List.nodup_middle.mp hlinked.1.ring.nodup)).1 hb
  exact ⟨u ++ v, hlinked.remove,
    (hsorted.sublist hrest).imp_of_mem fun ha hb hab => hab.erase (hne _ ha) (hne _ hb)⟩

theorem Queued.Linked.elsewhere {l : List ι} (h : s.Linked l) {links : Links ι}
    {priority : ι → UInt8} (hsame : Untouched s links priority) :
    (Queued.mk ⟨{ s.queue.qs with links := links }, priority⟩ s.arrivals).Linked l := by
  obtain ⟨hheld, hperm⟩ := h
  have hmem (b : ι) (hb : b ∈ l) := hsame b (hperm.mem_iff.mp hb)
  exact ⟨⟨hheld.ring.congr (fun b hb => (hmem b hb).1) fun b hb => (hmem b hb).2.1, hheld.head⟩,
    hperm⟩

theorem Queued.InOrder.elsewhere (h : s.InOrder) {links : Links ι} {priority : ι → UInt8}
    (hsame : Untouched s links priority) :
    (Queued.mk ⟨{ s.queue.qs with links := links }, priority⟩ s.arrivals).InOrder := by
  obtain ⟨l, hlinked, hsorted⟩ := h
  have hprio (b : ι) (hb : b ∈ l) : priority b = s.queue.priority b :=
    (hsame b (hlinked.2.mem_iff.mp hb)).2.2
  refine ⟨l, hlinked.elsewhere hsame, hsorted.imp_of_mem fun {a b} ha hb hab => ?_⟩
  change Before priority s.arrivals a b
  rw [Before, hprio a ha, hprio b hb]
  exact hab

/-! ## Runs -/

/-- What an enabled event does to the queue. -/
inductive Effect (s : Queued ι) : QueueEvent ι → Queued ι → Prop
  | insert {t : ι} {priority : UInt8} {s' : Queued ι} (ht : t ∉ s.arrivals)
      (hself : Detached s.queue.qs.links t) (hinsert : insertEvent s t priority = some s') :
      Effect s (.insert t priority) s'
  | remove {t : ι} (ht : t ∈ s.arrivals) :
      Effect s (.remove t) ⟨{ s.queue with qs := clistRemove s.queue.qs t }, s.arrivals.erase t⟩
  | elsewhere {links : Links ι} {priority : ι → UInt8} (hsame : Untouched s links priority) :
      Effect s (.elsewhere links priority)
        ⟨⟨{ s.queue.qs with links := links }, priority⟩, s.arrivals⟩

theorem prioQueue_effect {event : QueueEvent ι} (h : (prioQueue ι).next s event = some s') :
    Effect s event s' := by
  cases event with
  | insert t priority =>
    have hguard := h
    simp only [prioQueue, insertEvent] at hguard
    split at hguard
    · rename_i hallowed
      exact .insert hallowed.1 hallowed.2 h
    · cases hguard
  | remove t =>
    simp only [prioQueue] at h
    split at h
    · cases h
      exact .remove ‹_›
    · cases h
  | elsewhere links priority =>
    simp only [prioQueue] at h
    split at h
    · cases h
      exact .elsewhere ‹_›
    · cases h

/-- Whatever is inserted and removed, the links are those of one ring. -/
theorem linked_reachable (h : (prioQueue ι).Reachable s) : ∃ l, s.Linked l := by
  refine @Machine.Reachable.invariant _ _ (prioQueue ι) (fun s => ∃ l, s.Linked l) ?_ ?_ _ h
  · rintro s ⟨hhead, harrivals⟩
    exact ⟨[], ⟨ring_nil _, hhead⟩, by rw [harrivals]⟩
  · rintro s event s' ⟨l, hlinked⟩ hnext
    cases prioQueue_effect hnext with
    | insert ht hself hinsert =>
      obtain ⟨after, l', hafter, hlinked', -⟩ := insertEvent_linked hlinked ht hself _
      obtain rfl : after = s' := Option.some.inj (hafter.symm.trans hinsert)
      exact ⟨l', hlinked'⟩
    | remove ht =>
      obtain ⟨u, v, rfl⟩ := List.append_of_mem (hlinked.2.mem_iff.mpr ht)
      exact ⟨u ++ v, hlinked.remove⟩
    | elsewhere hsame => exact ⟨l, hlinked.elsewhere hsame⟩

/-- The search of an insertion always comes to an end. -/
theorem insertEvent_isSome (h : (prioQueue ι).Reachable s) {t : ι} (ht : t ∉ s.arrivals)
    (hself : Detached s.queue.qs.links t) (priority : UInt8) :
    ((prioQueue ι).next s (.insert t priority)).isSome := by
  obtain ⟨l, hlinked⟩ := linked_reachable h
  obtain ⟨after, -, hafter, -⟩ := insertEvent_linked hlinked ht hself priority
  exact Option.isSome_iff_exists.mpr ⟨after, hafter⟩

/-- In a run that inserts behind some transaction wherever the queue is not empty, the
queue is in order in every state. An insertion that is not so leaves it out of order. -/
theorem priority_order_iff (h : (prioQueue ι).Reaches Placeable s) :
    s.InOrder ∧ ∀ t priority s', (prioQueue ι).next s (.insert t priority) = some s' →
      (s'.InOrder ↔ Placeable s (.insert t priority)) := by
  have hinorder : s.InOrder := by
    refine @Machine.Reaches.invariant _ _ (prioQueue ι) Placeable Queued.InOrder ?_ ?_ _ h
    · rintro s ⟨hhead, harrivals⟩
      exact ⟨[], ⟨⟨ring_nil _, hhead⟩, by rw [harrivals]⟩, .nil⟩
    · intro s event s' hs hok hnext
      cases prioQueue_effect hnext with
      | insert ht hself hinsert => exact hs.insert hok ht hself hinsert
      | remove ht => exact hs.remove ht
      | elsewhere hsame => exact hs.elsewhere hsame
  refine ⟨hinorder, fun t priority s' hnext => ?_⟩
  obtain ⟨l, hlinked, -⟩ := id hinorder
  cases prioQueue_effect hnext with
  | insert ht hself hinsert =>
    constructor
    · intro hs'
      by_contra hok
      exact insertEvent_not_inOrder hlinked hok ht hself hinsert hs'
    · exact fun hok => hinorder.insert hok ht hself hinsert

instance (s : Queued ι) : (event : QueueEvent ι) → Decidable (Placeable s event)
  | .insert _ _ => inferInstanceAs (Decidable (_ ∨ _))
  | .remove _ => .isTrue trivial
  | .elsewhere _ _ => .isTrue trivial

/-- An empty queue; every transaction's node points at itself. -/
def emptyQueue : Queued Nat := ⟨⟨⟨none, ⟨id, id⟩⟩, fun _ => 0⟩, []⟩

/-- Values 3, 7, 3, with the removal of the first. -/
theorem priority_order_three : ∃ s, (prioQueue Nat).Reaches Placeable s ∧
    s.arrivals = [2, 3] ∧ s.queue.qs.head = some 3 ∧ s.InOrder := by
  obtain ⟨s, hreach, hcheck⟩ := (prioQueue Nat).exists_reaches Placeable
    (fun s => decide (s.arrivals = [2, 3] ∧ s.queue.qs.head = some 3))
    (s := emptyQueue) ⟨rfl, rfl⟩ [.insert 1 3, .insert 2 7, .insert 3 3, .remove 1] (by decide)
  obtain ⟨harrivals, hhead⟩ := of_decide_eq_true hcheck
  exact ⟨s, hreach, harrivals, hhead, (priority_order_iff hreach).1⟩

/-- Values 1 and 0: the walk visits 1 first. -/
theorem smaller_value_goes_last : ∃ s, (prioQueue Nat).Reachable s ∧ s.Linked [1, 2] ∧
    s.queue.priority 1 = 1 ∧ s.queue.priority 2 = 0 ∧ ¬s.InOrder := by
  obtain ⟨s, hreach, hcheck⟩ := (prioQueue Nat).exists_reaches (fun _ _ => True)
    (fun s => decide (s.arrivals = [1, 2] ∧ s.queue.qs.head = some 1 ∧
      s.queue.qs.links.Joined 1 2 ∧ s.queue.qs.links.Joined 2 1 ∧
      s.queue.priority 1 = 1 ∧ s.queue.priority 2 = 0))
    (s := emptyQueue) ⟨rfl, rfl⟩ [.insert 1 1, .insert 2 0] (by decide)
  obtain ⟨harrivals, hhead, hjoin, hclosed, hone, hzero⟩ := of_decide_eq_true hcheck
  have hlinked : s.Linked [1, 2] := by
    refine ⟨⟨⟨by simp, by simpa using hjoin, by simpa using hclosed⟩, hhead⟩, ?_⟩
    rw [harrivals]
  refine ⟨s, hreach, hlinked, hone, hzero, ?_⟩
  rintro ⟨l, hother, hsorted⟩
  obtain rfl : [1, 2] = l := hlinked.1.unique hother.1
  have hbefore := List.rel_of_pairwise_cons hsorted (List.mem_singleton.mpr rfl)
  rw [Before, hone, hzero] at hbefore
  exact hbefore.elim (by decide) fun hsame => absurd hsame.1 (by decide)

end Nos3.Cf
