import Mathlib.Data.List.Chain
import Mathlib.Data.List.Nodup
import Mathlib.Logic.Function.Basic

/-!
# Circular doubly linked lists

Every node has a next and a previous one. `Ring` says that the nodes of a list are
linked in its order, the last one to the first. A ring can be read from any of its
nodes, so that it is enough to insert behind its last node and to unlink that.
-/
namespace Nos3.Base.CircularList
open Function (update update_self update_of_ne)

universe u

structure Links (ι : Type u) where
  next : ι → ι
  prev : ι → ι

variable {ι : Type u}

/-- The two nodes point at each other. -/
def Links.Joined (s : Links ι) (a b : ι) : Prop := s.next a = b ∧ s.prev b = a

instance [DecidableEq ι] (s : Links ι) (a b : ι) : Decidable (s.Joined a b) :=
  inferInstanceAs (Decidable (_ ∧ _))

structure Ring (s : Links ι) (l : List ι) : Prop where
  nodup : l.Nodup
  chain : l.IsChain s.Joined
  closed : ∀ x ∈ l.getLast?, ∀ y ∈ l.head?, s.Joined x y

theorem ring_nil (s : Links ι) : Ring s [] := ⟨List.nodup_nil, .nil, by simp⟩

theorem Ring.singleton {s : Links ι} {a : ι} (h : s.Joined a a) : Ring s [a] :=
  ⟨by simp, .singleton a, by simpa using h⟩

/-- A ring is known from the links of its nodes. -/
theorem Ring.congr {s s' : Links ι} {l : List ι} (h : Ring s l)
    (hnext : ∀ a ∈ l, s'.next a = s.next a) (hprev : ∀ a ∈ l, s'.prev a = s.prev a) :
    Ring s' l := by
  refine ⟨h.nodup, h.chain.imp_of_mem_imp fun a b ha hb hab => ?_, fun x hx y hy => ?_⟩
  · exact ⟨(hnext a ha).trans hab.1, (hprev b hb).trans hab.2⟩
  · have hjoin := h.closed x hx y hy
    exact ⟨(hnext x (List.mem_of_getLast? hx)).trans hjoin.1,
      (hprev y (List.mem_of_head? hy)).trans hjoin.2⟩

theorem Ring.rotate {s : Links ι} {u v : List ι} (h : Ring s (u ++ v)) : Ring s (v ++ u) := by
  rcases List.eq_nil_or_concat u with rfl | ⟨u', z, rfl⟩
  · simpa using h
  rcases List.eq_nil_or_concat v with rfl | ⟨v', y, rfl⟩
  · simpa using h
  obtain ⟨hnodup, hchain, hclosed⟩ := h
  obtain ⟨hu, hv, hjoin⟩ := List.isChain_append.mp hchain
  refine ⟨?_, List.isChain_append.mpr ⟨hv, hu, fun a ha b hb => ?_⟩, fun a ha b hb => ?_⟩
  · exact (List.perm_append_comm.nodup_iff).mp hnodup
  · refine hclosed a ?_ b ?_
    · rwa [List.getLast?_append_of_ne_nil _ (by simp)]
    · rwa [List.head?_append_of_ne_nil _ (by simp)]
  · refine hjoin a ?_ b ?_
    · rwa [List.getLast?_append_of_ne_nil _ (by simp)] at ha
    · rwa [List.head?_append_of_ne_nil _ (by simp)] at hb

theorem Ring.next_of_last {s : Links ι} {a : ι} {rest : List ι} {z : ι}
    (h : Ring s (a :: rest)) (hz : (a :: rest).getLast? = some z) : s.next z = a ∧ s.prev a = z :=
  h.closed z hz a rfl

/-- Seen from the node `a`, the ring starts behind it and ends with it. -/
theorem Ring.from_node {s : Links ι} {u v : List ι} {a : ι} (h : Ring s (u ++ a :: v)) :
    Ring s ((v ++ u) ++ [a]) := by
  have hsplit : u ++ a :: v = (u ++ [a]) ++ v := by simp
  rw [hsplit] at h
  simpa using h.rotate

/-- The neighbours of a node are in its ring. -/
theorem Ring.neighbours {s : Links ι} {u v : List ι} {a : ι} (h : Ring s (u ++ a :: v)) :
    (v ++ u).head? = some (s.next a) ∧ (v ++ u).getLast? = some (s.prev a) ∨
      u = [] ∧ v = [] ∧ s.Joined a a := by
  have hfrom := h.from_node
  rcases List.eq_nil_or_concat (v ++ u) with hnil | ⟨init, z, hconcat⟩
  · rw [hnil] at hfrom
    obtain ⟨rfl, rfl⟩ := List.append_eq_nil_iff.mp hnil
    exact Or.inr ⟨rfl, rfl, hfrom.closed a rfl a rfl⟩
  · refine Or.inl ⟨?_, ?_⟩
    · obtain ⟨b, rest, hcons⟩ := List.exists_cons_of_ne_nil
        (show v ++ u ≠ [] by rw [hconcat]; simp)
      rw [hcons] at hfrom ⊢
      rw [List.head?_cons, (hfrom.closed a List.getLast?_concat b rfl).1]
    · rw [List.concat_eq_append] at hconcat
      rw [hconcat] at hfrom ⊢
      rw [List.getLast?_concat, ← ((List.isChain_append.mp hfrom.chain).2.2 z (by simp) a rfl).2]

/-! ## Insertion and removal -/

variable [DecidableEq ι]

/-- `n` comes between `a` and `b`. -/
def Links.insert (s : Links ι) (a n b : ι) : Links ι :=
  ⟨update (update s.next n b) a n, update (update s.prev b n) n a⟩

/-- `n` is taken out and points at itself. -/
def Links.unlink (s : Links ι) (n : ι) : Links ι :=
  ⟨update (update s.next (s.prev n) (s.next n)) n n,
    update (update s.prev (s.next n) (s.prev n)) n n⟩

@[simp] theorem Links.insert_next (s : Links ι) (a n b : ι) :
    (s.insert a n b).next = update (update s.next n b) a n := rfl

@[simp] theorem Links.insert_prev (s : Links ι) (a n b : ι) :
    (s.insert a n b).prev = update (update s.prev b n) n a := rfl

@[simp] theorem Links.unlink_next (s : Links ι) (n : ι) :
    (s.unlink n).next = update (update s.next (s.prev n) (s.next n)) n n := rfl

@[simp] theorem Links.unlink_prev (s : Links ι) (n : ι) :
    (s.unlink n).prev = update (update s.prev (s.next n) (s.prev n)) n n := rfl

/-- A node goes behind the last one of a ring. -/
theorem Ring.push {s : Links ι} {w : List ι} {a n : ι} (h : Ring s (w ++ [a]))
    (hn : n ∉ w ++ [a]) : Ring (s.insert a n (s.next a)) (w ++ [a, n]) := by
  obtain ⟨b, rest, hl⟩ := List.exists_cons_of_ne_nil (show w ++ [a] ≠ [] by simp)
  have hb : s.next a = b := by
    rw [hl] at h
    exact (h.next_of_last (by rw [← hl]; simp)).1
  have hna : n ≠ a := fun heq => hn (by simp [heq])
  have hnb : n ≠ b := fun heq => hn (by simp [hl, heq])
  have hfirst : b ∉ rest := by
    have := h.nodup
    rw [hl] at this
    exact (List.nodup_cons.mp this).1
  rw [hb]
  have hold : (w ++ [a]).IsChain (s.insert a n b).Joined := by
    refine h.chain.imp_of_mem_tail_imp fun x y hx hy hxy => ?_
    rw [hl, List.tail_cons] at hy
    have hyb : y ≠ b := fun heq => hfirst (heq ▸ hy)
    have hyn : y ≠ n := fun heq => hn (by rw [hl, ← heq]; exact List.mem_cons_of_mem _ hy)
    have hxa : x ≠ a := by
      rintro rfl
      exact hyb (hxy.1.symm.trans hb)
    have hxn : x ≠ n := fun heq => hn (heq ▸ hx)
    constructor
    · rw [Links.insert_next, update_of_ne hxa, update_of_ne hxn]
      exact hxy.1
    · rw [Links.insert_prev, update_of_ne hyn, update_of_ne hyb]
      exact hxy.2
  have hbehind : (s.insert a n b).Joined a n := ⟨update_self .., update_self ..⟩
  have hahead : (s.insert a n b).Joined n b := by
    constructor
    · rw [Links.insert_next, update_of_ne hna, update_self]
    · rw [Links.insert_prev, update_of_ne hnb.symm, update_self]
  have hsplit : w ++ [a, n] = (w ++ [a]) ++ [n] := by simp
  rw [hsplit]
  refine ⟨?_, List.isChain_append.mpr ⟨hold, .singleton n, ?_⟩, fun x hx y hy => ?_⟩
  · rw [List.nodup_append]
    refine ⟨h.nodup, by simp, fun x hx y hy heq => hn ?_⟩
    rwa [← List.mem_singleton.mp hy, ← heq]
  · simpa using hbehind
  · rw [List.getLast?_concat] at hx
    rw [hl] at hy
    cases hx
    cases hy
    exact hahead

/-- The last node of a ring is taken out. -/
theorem Ring.pop {s : Links ι} {w : List ι} {n : ι} (h : Ring s (w ++ [n])) :
    Ring (s.unlink n) w := by
  cases w with
  | nil => exact ring_nil _
  | cons b rest =>
    obtain ⟨hchain, -, hlast⟩ := List.isChain_append.mp h.chain
    obtain ⟨hnodup, -, hfresh⟩ := List.nodup_append.mp h.nodup
    have hnot (x : ι) (hx : x ∈ b :: rest) : x ≠ n := hfresh x hx n (by simp)
    obtain ⟨z, hz⟩ : ∃ z, (b :: rest).getLast? = some z :=
      ⟨_, List.getLast?_eq_some_getLast (List.cons_ne_nil b rest)⟩
    have hzn : s.Joined z n := hlast z hz n rfl
    have hnb : s.Joined n b := h.closed n List.getLast?_concat b rfl
    have hfirst : b ∉ rest := (List.nodup_cons.mp hnodup).1
    refine ⟨hnodup, hchain.imp_of_mem_tail_imp fun x y hx hy hxy => ?_, fun x hx y hy => ?_⟩
    · rw [List.tail_cons] at hy
      have hyb : y ≠ b := fun heq => hfirst (heq ▸ hy)
      have hyn : y ≠ n := hnot y (List.mem_cons_of_mem _ hy)
      have hxz : x ≠ z := by
        rintro rfl
        exact hyn (hxy.1.symm.trans hzn.1)
      constructor
      · rw [Links.unlink_next, update_of_ne (hnot x hx), hzn.2, update_of_ne hxz]
        exact hxy.1
      · rw [Links.unlink_prev, update_of_ne hyn, hnb.1, update_of_ne hyb]
        exact hxy.2
    · obtain rfl : x = z := Option.some.inj ((Option.mem_def.mp hx).symm.trans hz)
      obtain rfl : b = y := Option.some.inj hy
      constructor
      · rw [Links.unlink_next, update_of_ne (hnot x (List.mem_of_getLast? hz)), hzn.2, update_self]
        exact hnb.1
      · rw [Links.unlink_prev, update_of_ne (hnot b (by simp)), hnb.1, update_self]
        exact hzn.2

/-- A node goes behind any node of a ring. -/
theorem Ring.insert {s : Links ι} {u v : List ι} {a n : ι} (h : Ring s (u ++ a :: v))
    (hn : n ∉ u ++ a :: v) : Ring (s.insert a n (s.next a)) (u ++ a :: n :: v) := by
  have hfresh : n ∉ (v ++ u) ++ [a] := by
    intro hmem
    simp only [List.mem_append, List.mem_cons] at hmem hn
    tauto
  have hback : Ring (s.insert a n (s.next a)) (v ++ (u ++ [a, n])) := by
    simpa using h.from_node.push hfresh
  simpa using hback.rotate

/-- Any node is taken out of a ring. -/
theorem Ring.unlink {s : Links ι} {u v : List ι} {n : ι} (h : Ring s (u ++ n :: v)) :
    Ring (s.unlink n) (u ++ v) := h.from_node.pop.rotate

/-! ## Reading a ring -/

/-- The nodes are what the next pointers lead to from the first one. -/
theorem Ring.getElem_eq_iterate {s : Links ι} {a : ι} {rest : List ι} (h : Ring s (a :: rest))
    (i : Nat) (hi : i < (a :: rest).length) : (a :: rest)[i] = s.next^[i] a := by
  induction i with
  | zero => rfl
  | succ i ih =>
    rw [Function.iterate_succ_apply', ← ih (by omega)]
    exact (List.isChain_iff_getElem.mp h.chain i hi).1.symm

/-- A ring with a given head has one list of nodes. -/
theorem Ring.unique {s : Links ι} {l m : List ι} (hl : Ring s l) (hm : Ring s m)
    (hhead : l.head? = m.head?) : l = m := by
  have hle {l m : List ι} (hl : Ring s l) (hm : Ring s m) (hhead : l.head? = m.head?) :
      m.length ≤ l.length := by
    cases l with
    | nil =>
      cases m with
      | nil => exact le_rfl
      | cons b rest => cases hhead
    | cons a rest =>
      cases m with
      | nil => exact Nat.zero_le _
      | cons b rest' =>
        obtain rfl : a = b := Option.some.inj hhead
        by_contra hlt
        have hlong : (a :: rest).length < (a :: rest').length := by omega
        have hback : s.next^[(a :: rest).length] a = a := by
          have hlast := hl.getElem_eq_iterate rest.length (by simp)
          have hclosed := (hl.next_of_last
            (List.getLast?_eq_some_getLast (List.cons_ne_nil a rest))).1
          rw [List.getLast_eq_getElem] at hclosed
          rw [List.length_cons, Function.iterate_succ_apply', ← hlast]
          exact hclosed
        have hagain := hm.getElem_eq_iterate _ hlong
        rw [hback] at hagain
        have hzero : (a :: rest').get ⟨(a :: rest).length, hlong⟩ =
          (a :: rest').get ⟨0, by simp⟩ := hagain
        have hindex := (List.nodup_iff_injective_get.mp hm.nodup) hzero
        simp at hindex
  have hlen : l.length = m.length := le_antisymm (hle hm hl hhead.symm) (hle hl hm hhead)
  cases l with
  | nil => exact (List.eq_nil_of_length_eq_zero (by simpa using hlen.symm)).symm
  | cons a rest =>
    cases m with
    | nil => cases hhead
    | cons b rest' =>
      obtain rfl : a = b := Option.some.inj hhead
      refine List.ext_getElem hlen fun i hi hi' => ?_
      rw [hl.getElem_eq_iterate i hi, hm.getElem_eq_iterate i hi']

end Nos3.Base.CircularList
