import Nos3.Base.CircularList

/-!
# Circular lists of CF (cf_clist.c)

`CF_CListNode_t` is a node of type `ι`; the links of all nodes are kept together,
and a list is the pointer to its head. The operations perform the assignments of the
source in their order. A callback of a traversal may change the links.
-/
namespace Nos3.Cf
open Nos3.Base.CircularList
open Function (update update_self update_of_ne update_comm)

universe u

/-- `CF_CLIST_CONT` and `CF_CLIST_EXIT`. -/
inductive ClistFnRet
  | cont
  | exit
  deriving DecidableEq, Repr

/-- A head pointer and the links of all nodes. -/
structure Clist (ι : Type u) where
  head : Option ι
  links : Links ι

section Operations
variable {ι : Type u} [DecidableEq ι]

def setNext (s : Links ι) (node value : ι) : Links ι := { s with next := update s.next node value }

def setPrev (s : Links ι) (node value : ι) : Links ι := { s with prev := update s.prev node value }

def clistInitNode (s : Links ι) (node : ι) : Links ι := setPrev (setNext s node node) node node

def clistInsertBack (c : Clist ι) (node : ι) : Clist ι :=
  match c.head with
  | none => { c with head := some node }
  | some head =>
    let s := c.links
    let last := s.prev head
    let s := setNext s node head
    let s := setPrev s head node
    let s := setPrev s node last
    let s := setNext s last node
    { c with links := s }

def clistInsertAfter (c : Clist ι) (start after : ι) : Clist ι :=
  let s := c.links
  let s := setNext s after (s.next start)
  let s := setNext s start after
  let s := setPrev s after start
  let s := setPrev s (s.next after) after
  { c with links := s }

def clistRemove (c : Clist ι) (node : ι) : Clist ι :=
  let s := c.links
  if s.next node = node then { head := none, links := clistInitNode s node }
  else if c.head = some node then
    let s := setNext s (s.prev node) (s.next node)
    let head := s.next node
    let s := setPrev s head (s.prev node)
    { head := some head, links := clistInitNode s node }
  else
    let s := setPrev s (s.next node) (s.prev node)
    let s := setNext s (s.prev node) (s.next node)
    { c with links := clistInitNode s node }

/-- The loop of `CF_CList_Traverse_R` from the node `n` on. Each round takes one unit
of fuel; the result is missing where it runs out. -/
def clistTraverseRLoop {σ : Type u} (links : σ → Links ι) (fn : ι → σ → ClistFnRet × σ) :
    Nat → ι → ι → σ → Option σ
  | 0, _, _, _ => none
  | fuel + 1, stop, n, s =>
    let nn := (links s).prev n
    let last := nn == stop
    match fn n s with
    | (.exit, s) => some s
    | (.cont, s) =>
      let stop := if stop = n ∧ (links s).prev n ≠ nn then nn else stop
      if last then some s else clistTraverseRLoop links fn fuel stop nn s

def clistTraverseR {σ : Type u} (links : σ → Links ι) (fn : ι → σ → ClistFnRet × σ) (fuel : Nat)
    (head : Option ι) (s : σ) : Option σ :=
  match head with
  | none => some s
  | some head =>
    let n := (links s).prev head
    clistTraverseRLoop links fn fuel n n s

/-- The loop of `CF_CList_Traverse` from the node `n` on, with fuel as above. -/
def clistTraverseLoop {σ : Type u} (links : σ → Links ι) (fn : ι → σ → ClistFnRet × σ) :
    Nat → ι → ι → σ → Option σ
  | 0, _, _, _ => none
  | fuel + 1, start, n, s =>
    let nn := (links s).next n
    let last := nn == start
    match fn n s with
    | (.exit, s) => some s
    | (.cont, s) =>
      let start := if start = n ∧ (links s).next n ≠ nn then nn else start
      if last then some s else clistTraverseLoop links fn fuel start nn s

def clistTraverse {σ : Type u} (links : σ → Links ι) (fn : ι → σ → ClistFnRet × σ) (fuel : Nat)
    (start : Option ι) (s : σ) : Option σ :=
  match start with
  | none => some s
  | some start => clistTraverseLoop links fn fuel start start s

end Operations

/-! ## The operations on a ring -/

/-- The nodes of a list from its head on. -/
structure Holds {ι : Type u} (c : Clist ι) (l : List ι) : Prop where
  ring : Ring c.links l
  head : c.head = l.head?

section Rules
variable {ι : Type u} [DecidableEq ι] {c : Clist ι} {l : List ι} {node : ι}

theorem Holds.unique {m : List ι} (hl : Holds c l) (hm : Holds c m) : l = m :=
  hl.ring.unique hm.ring (hl.head.symm.trans hm.head)

theorem holds_insertAfter {u v : List ι} {start : ι} (h : Holds c (u ++ start :: v))
    (hn : node ∉ u ++ start :: v) :
    Holds (clistInsertAfter c start node) (u ++ start :: node :: v) := by
  have hstart : node ≠ start := fun heq => hn (by simp [heq])
  have hnext : c.links.next start ≠ node := by
    rcases h.ring.neighbours with ⟨hfirst, -⟩ | ⟨-, -, hself⟩
    · have hmem := List.mem_of_head? hfirst
      intro heq
      simp only [heq, List.mem_append, List.mem_cons] at hmem hn
      tauto
    · rw [hself.1]
      exact hstart.symm
  have hlinks : (clistInsertAfter c start node).links =
      c.links.insert start node (c.links.next start) := by
    simp only [clistInsertAfter, setNext, setPrev, Links.insert, update_of_ne hstart, update_self,
      update_comm hnext]
  refine ⟨?_, ?_⟩
  · rw [hlinks]
    exact h.ring.insert hn
  · rw [show (clistInsertAfter c start node).head = c.head from rfl, h.head]
    cases u <;> rfl

theorem holds_insertBack (h : Holds c l) (hn : node ∉ l) (hself : c.links.Joined node node) :
    Holds (clistInsertBack c node) (l ++ [node]) := by
  rcases List.eq_nil_or_concat l with rfl | ⟨w, z, rfl⟩
  · have hnone : c.head = none := h.head
    simp only [clistInsertBack, hnone]
    exact ⟨.singleton hself, rfl⟩
  · rw [List.concat_eq_append] at *
    obtain ⟨b, rest, hcons⟩ := List.exists_cons_of_ne_nil (show w ++ [z] ≠ [] by simp)
    have hhead : c.head = some b := by rw [h.head, hcons, List.head?_cons]
    have hring := h.ring
    rw [hcons] at hring
    have hlast := hring.next_of_last (by rw [← hcons, List.getLast?_concat])
    have hlinks : (clistInsertBack c node).links = c.links.insert z node (c.links.next z) := by
      rw [hlast.1, clistInsertBack, hhead]
      simp only [setNext, setPrev, Links.insert, hlast.2]
    refine ⟨?_, ?_⟩
    · rw [hlinks, List.append_assoc]
      exact h.ring.push hn
    · have hsame : (clistInsertBack c node).head = c.head := by
        rw [clistInsertBack, hhead]
      rw [hsame, hhead, hcons]
      rfl

theorem clistRemove_links (hnext : c.links.next node ≠ node) (hprev : c.links.prev node ≠ node) :
    (clistRemove c node).links = c.links.unlink node := by
  by_cases hhead : c.head = some node <;>
    simp only [clistRemove, hnext, hhead, if_true, if_false, clistInitNode, setNext, setPrev,
      Links.unlink, update_of_ne hprev.symm, update_of_ne hnext.symm]

theorem holds_remove {u v : List ι} (h : Holds c (u ++ node :: v)) :
    Holds (clistRemove c node) (u ++ v) := by
  obtain ⟨hu, hv⟩ : node ∉ u ∧ node ∉ v := by
    have hnodup := h.ring.nodup
    rw [List.nodup_append, List.nodup_cons] at hnodup
    exact ⟨fun hmem => hnodup.2.2 node hmem node (by simp) rfl, hnodup.2.1.1⟩
  rcases h.ring.neighbours with ⟨hfirst, hlast⟩ | ⟨rfl, rfl, hself⟩
  · have hnot (x : ι) (hx : x ∈ v ++ u) : x ≠ node := by
      rintro rfl
      exact (List.mem_append.mp hx).elim hv hu
    have hnext := hnot _ (List.mem_of_head? hfirst)
    have hprev := hnot _ (List.mem_of_getLast? hlast)
    refine ⟨?_, ?_⟩
    · rw [clistRemove_links hnext hprev]
      exact h.ring.unlink
    · cases u with
      | nil =>
        have hhead : c.head = some node := h.head
        simp only [clistRemove, hnext, hhead, if_true, if_false, setNext, update_of_ne hprev.symm]
        simpa using hfirst.symm
      | cons b rest =>
        have hhead : c.head = some b := h.head
        have hother : b ≠ node := hnot b (by simp)
        simp only [clistRemove, hnext, hhead, Option.some.injEq, hother, if_false]
        rfl
  · simp only [clistRemove, hself.1, if_true]
    exact ⟨ring_nil _, rfl⟩

/-! ## Traversal from the back -/

/-- The callback on a list of nodes, up to the first one that ends it. -/
def visit {σ : Type u} (fn : ι → σ → ClistFnRet × σ) : List ι → σ → σ
  | [], s => s
  | n :: rest, s =>
    match fn n s with
    | (.exit, s) => s
    | (.cont, s) => visit fn rest s

variable {σ : Type u} {links : σ → Links ι} {fn : ι → σ → ClistFnRet × σ}

theorem clistTraverseRLoop_visit (hkeep : ∀ n s, links (fn n s).2 = links s) {stop : ι} :
    ∀ {rest : List ι} {n : ι} {s : σ} {fuel : Nat},
      (n :: rest).IsChain (fun a b => (links s).prev a = b) →
      (∀ z ∈ (n :: rest).getLast?, (links s).prev z = stop) → stop ∉ rest →
      (n :: rest).length ≤ fuel →
      clistTraverseRLoop links fn fuel stop n s = some (visit fn (n :: rest) s)
  | rest, n, s, 0, _, _, _, hfuel => absurd hfuel (Nat.not_succ_le_zero _)
  | rest, n, s, fuel + 1, hchain, hend, hstop, hfuel => by
    have hsame := hkeep n s
    simp only [clistTraverseRLoop, visit]
    cases hfn : fn n s with
    | mk ret s' =>
      rw [hfn] at hsame
      have hsame : links s' = links s := hsame
      cases ret with
      | exit => rfl
      | cont =>
        simp only [hsame, ne_eq, not_true_eq_false, and_false, if_false]
        cases rest with
        | nil =>
          have hback : (links s).prev n = stop := hend n rfl
          simp [hback, visit]
        | cons b rest =>
          obtain ⟨hb, hrest⟩ := List.isChain_cons_cons.mp hchain
          have hother : b ≠ stop := fun heq => hstop (by simp [heq])
          have hlater : stop ∉ rest := fun hmem => hstop (List.mem_cons_of_mem _ hmem)
          rw [hb, if_neg (by simpa using hother)]
          refine clistTraverseRLoop_visit hkeep ?_ ?_ hlater (by simpa using hfuel)
          · rwa [hsame]
          · intro z hz
            rw [hsame]
            exact hend z (by simpa using hz)

/-- A callback that leaves the links alone is called on the nodes from the last one to
the first, until it ends the traversal. -/
theorem clistTraverseR_visit (hkeep : ∀ n s, links (fn n s).2 = links s) {s : σ}
    {head : Option ι} (h : Holds ⟨head, links s⟩ l) {fuel : Nat} (hfuel : l.length ≤ fuel) :
    clistTraverseR links fn fuel head s = some (visit fn l.reverse s) := by
  have hhead : head = l.head? := h.head
  subst hhead
  rcases List.eq_nil_or_concat l with rfl | ⟨w, z, rfl⟩
  · rfl
  · rw [List.concat_eq_append] at *
    obtain ⟨b, rest, hcons⟩ := List.exists_cons_of_ne_nil (show w ++ [z] ≠ [] by simp)
    have hlast := h.ring
    rw [hcons] at hlast
    have hback : (links s).prev b = z :=
      (hlast.next_of_last (by rw [← hcons, List.getLast?_concat])).2
    have hreverse : (w ++ [z]).reverse = z :: w.reverse := by simp
    have hstep : clistTraverseR links fn fuel (w ++ [z]).head? s =
        clistTraverseRLoop links fn fuel z z s := by
      rw [hcons, List.head?_cons, clistTraverseR, hback]
    rw [hstep, hreverse]
    refine clistTraverseRLoop_visit hkeep ?_ ?_ ?_ (by simpa using hfuel)
    · rw [← hreverse, List.isChain_reverse]
      exact h.ring.chain.imp fun a c hac => hac.2
    · intro y hy
      rw [← hreverse, List.getLast?_reverse, hcons] at hy
      cases hy
      exact hback
    · have hnodup := h.ring.nodup
      rw [List.nodup_append] at hnodup
      rw [List.mem_reverse]
      exact fun hmem => hnodup.2.2 z hmem z (by simp) rfl

end Rules
end Nos3.Cf
