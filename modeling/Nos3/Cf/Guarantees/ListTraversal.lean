import Nos3.Cf.Source.Clist

/-!
# Traversal of a circular list that changes

A callback may take the node it is called on out of the list and put it into another one.
The nodes visited and still in the list, the current one and those ahead make up the ring
at any time; the node to stop at is the first of them.
-/
namespace Nos3.Cf
open Nos3.Base.CircularList
open Function (update_of_ne)

universe u

/-! ## Callbacks -/

section Callbacks
variable {ι : Type u}

/-- The links of the nodes in `l` are the same. -/
structure AgreeOn (l : List ι) (s s' : Links ι) : Prop where
  next : ∀ a ∈ l, s'.next a = s.next a
  prev : ∀ a ∈ l, s'.prev a = s.prev a

/-- The nodes left form a ring, and `n` points at none of them. -/
structure LeftOut (l : List ι) (n : ι) (s : Links ι) : Prop where
  ring : Ring s l
  next : s.next n ∉ l
  prev : s.prev n ∉ l

theorem AgreeOn.ring {l : List ι} {s s' : Links ι} (h : AgreeOn l s s') (hring : Ring s l) :
    Ring s' l := hring.congr h.next h.prev

variable [DecidableEq ι]

/-- The node was taken out of the list as `CF_CList_Remove` does it. It points at itself or,
put into a different list, at nodes of that. -/
structure Unlinked (l : List ι) (n : ι) (s s' : Links ι) : Prop where
  agree : AgreeOn (l.erase n) (clistRemove ⟨l.head?, s⟩ n).links s'
  next : s'.next n ∉ l.erase n
  prev : s'.prev n ∉ l.erase n

theorem Unlinked.leftOut {l : List ι} {n : ι} {s s' : Links ι} (h : Unlinked l n s s')
    (hring : Ring s l) (hn : n ∈ l) : LeftOut (l.erase n) n s' := by
  refine ⟨?_, h.next, h.prev⟩
  have hagree := h.agree
  obtain ⟨u, w, hu, hl, herase⟩ := List.exists_erase_eq hn
  rw [herase] at hagree ⊢
  subst hl
  exact hagree.ring (holds_remove ⟨hring, rfl⟩).ring

variable {σ : Type u}

/-- A callback that changes the list it is called from at most at the node it is called on.
`Inv` is what it relies on besides, as that the list it moves nodes to is a different one. -/
def Unlinking (links : σ → Links ι) (Inv : List ι → σ → Prop)
    (fn : ι → σ → ClistFnRet × σ) : Prop :=
  ∀ (l : List ι) (n : ι) (s : σ), Ring (links s) l → Inv l s → n ∈ l →
    AgreeOn l (links s) (links (fn n s).2) ∧ Inv l (fn n s).2 ∨
      Unlinked l n (links s) (links (fn n s).2) ∧ Inv (l.erase n) (fn n s).2

/-- What a traversal needs of its callback. -/
def KeepsRing (links : σ → Links ι) (Inv : List ι → σ → Prop)
    (fn : ι → σ → ClistFnRet × σ) : Prop :=
  ∀ (l : List ι) (n : ι) (s : σ), Ring (links s) l → Inv l s → n ∈ l →
    Ring (links (fn n s).2) l ∧ Inv l (fn n s).2 ∨
      LeftOut (l.erase n) n (links (fn n s).2) ∧ Inv (l.erase n) (fn n s).2

theorem Unlinking.keepsRing {links : σ → Links ι} {Inv : List ι → σ → Prop}
    {fn : ι → σ → ClistFnRet × σ} (h : Unlinking links Inv fn) : KeepsRing links Inv fn := by
  intro l n s hring hinv hn
  rcases h l n s hring hinv hn with ⟨hagree, hinv'⟩ | ⟨hunlinked, hinv'⟩
  · exact Or.inl ⟨hagree.ring hring, hinv'⟩
  · exact Or.inr ⟨hunlinked.leftOut hring hn, hinv'⟩

end Callbacks

/-! ## Forward -/

section Forward
variable {ι : Type u}

/-- The next node of a ring, from any of its nodes. -/
theorem ring_next {s : Links ι} {kept rest : List ι} {n : ι} (h : Ring s (kept ++ n :: rest)) :
    s.next n = ((rest ++ kept).head?).getD n := by
  rcases h.neighbours with ⟨hfirst, -⟩ | ⟨rfl, rfl, hself⟩
  · rw [hfirst, Option.getD_some]
  · exact hself.1

theorem neighbour_mem {s : Links ι} {m : List ι} {n : ι} (h : Ring s (m ++ [n])) :
    s.next n ∈ m ++ [n] ∧ s.prev n ∈ m ++ [n] := by
  rcases h.neighbours with ⟨hfirst, hlast⟩ | ⟨rfl, -, hjoin⟩
  · rw [List.nil_append] at hfirst hlast
    exact ⟨List.mem_append_left _ (List.mem_of_head? hfirst),
      List.mem_append_left _ (List.mem_of_getLast? hlast)⟩
  · simp [hjoin.1, hjoin.2]

variable [DecidableEq ι] {σ : Type u} {links : σ → Links ι} {Inv : List ι → σ → Prop}
  {fn : ι → σ → ClistFnRet × σ}

/-- The loop visits the current node and those ahead. `kept` are the nodes visited that are
still in the list. -/
theorem clistTraverseLoop_visit (hfn : KeepsRing links Inv fn) :
    ∀ {fuel : Nat} {kept rest : List ι} {n : ι} {s : σ}, Ring (links s) (kept ++ n :: rest) →
      Inv (kept ++ n :: rest) s → (n :: rest).length ≤ fuel →
      clistTraverseLoop links fn fuel ((kept.head?).getD n) n s = some (visit fn (n :: rest) s)
  | 0, kept, rest, n, s, _, _, hfuel => absurd hfuel (Nat.not_succ_le_zero _)
  | fuel + 1, kept, rest, n, s, hring, hinv, hfuel => by
    have hnext := ring_next hring
    have hchange := hfn _ n s hring hinv (by simp)
    have hnodup := hring.nodup
    rw [clistTraverseLoop, visit]
    cases hcall : fn n s with
    | mk ret s' =>
      rw [hcall] at hchange
      cases ret with
      | exit => rfl
      | cont =>
        cases rest with
        | nil =>
          -- the node to stop at is the next one
          have hlast : (links s).next n = (kept.head?).getD n := by
            rw [hnext, List.nil_append]
          simp [hlast, visit]
        | cons r rest =>
          have hr : (links s).next n = r := by
            rw [hnext, List.cons_append, List.head?_cons, Option.getD_some]
          have hahead : r ≠ (kept.head?).getD n := by
            rintro rfl
            cases kept with
            | nil => simp at hnodup
            | cons a kept => simp [List.nodup_cons] at hnodup
          have hfuel : (r :: rest).length ≤ fuel := by simpa using hfuel
          simp only [hr, beq_eq_false_iff_ne.mpr hahead]
          rcases hchange with ⟨hring', hinv'⟩ | ⟨hleft, hinv'⟩
          · have hsame : (links s').next n = r := by
              rw [ring_next hring', List.cons_append, List.head?_cons, Option.getD_some]
            have hstart : (kept.head?).getD n = ((kept ++ [n]).head?).getD r := by
              cases kept <;> rfl
            rw [if_neg Bool.false_ne_true, if_neg (fun h => h.2 hsame), hstart]
            refine clistTraverseLoop_visit hfn ?_ ?_ hfuel
            · simpa using hring'
            · simpa using hinv'
          · have herase : (kept ++ n :: r :: rest).erase n = kept ++ r :: rest := by
              have hnot : n ∉ kept := fun hmem =>
                (List.nodup_append.mp hnodup).2.2 n hmem n (by simp) rfl
              rw [List.erase_append_right _ hnot, List.erase_cons_head]
            rw [herase] at hleft hinv'
            have hother : (links s').next n ≠ r := by
              intro heq
              refine hleft.next ?_
              rw [heq]
              simp
            have hstart : (if (kept.head?).getD n = n ∧ (links s').next n ≠ r then r
                else (kept.head?).getD n) = (kept.head?).getD r := by
              cases kept with
              | nil => exact if_pos ⟨rfl, hother⟩
              | cons a kept =>
                have hfirst : a ≠ n := by
                  rintro rfl
                  simp [List.nodup_cons] at hnodup
                exact if_neg (fun h => hfirst h.1)
            rw [hstart, if_neg Bool.false_ne_true]
            exact clistTraverseLoop_visit hfn hleft.ring hinv' hfuel

theorem clistTraverse_visit (hfn : KeepsRing links Inv fn) {l : List ι} {s : σ}
    {start : Option ι} (h : Holds ⟨start, links s⟩ l) (hinv : Inv l s) {fuel : Nat}
    (hfuel : l.length ≤ fuel) :
    clistTraverse links fn fuel start s = some (visit fn l s) := by
  have hstart : start = l.head? := h.head
  subst hstart
  cases l with
  | nil => rfl
  | cons a rest =>
    have hring : Ring (links s) ([] ++ a :: rest) := h.ring
    exact clistTraverseLoop_visit hfn hring hinv hfuel

end Forward

/-! ## Backward -/

section Backward
variable {ι : Type u}

/-- The links of the same rings read backwards. -/
def flip (s : Links ι) : Links ι := ⟨s.prev, s.next⟩

theorem ring_flip {s : Links ι} {l : List ι} (h : Ring s l) : Ring (flip s) l.reverse := by
  refine ⟨List.nodup_reverse.mpr h.nodup, ?_, fun x hx y hy => ?_⟩
  · rw [List.isChain_reverse]
    exact h.chain.imp fun a b hab => ⟨hab.2, hab.1⟩
  · rw [List.getLast?_reverse] at hx
    rw [List.head?_reverse] at hy
    have hjoin := h.closed y hy x hx
    exact ⟨hjoin.2, hjoin.1⟩

theorem holds_flip {l : List ι} {c : Clist ι} (h : Holds c l) :
    Holds ⟨l.getLast?, flip c.links⟩ l.reverse :=
  ⟨ring_flip h.ring, List.head?_reverse.symm⟩

variable [DecidableEq ι] {σ : Type u} {links : σ → Links ι} {Inv : List ι → σ → Prop}
  {fn : ι → σ → ClistFnRet × σ}

theorem erase_reverse {l : List ι} (hnodup : l.Nodup) (n : ι) :
    l.reverse.erase n = (l.erase n).reverse := by
  rw [(List.nodup_reverse.mpr hnodup).erase_eq_filter, hnodup.erase_eq_filter,
    List.filter_reverse]

theorem keepsRing_flip (h : KeepsRing links Inv fn) :
    KeepsRing (fun s => flip (links s)) (fun l => Inv l.reverse) fn := by
  intro l n s hring hinv hn
  have hback : Ring (links s) l.reverse := ring_flip hring
  have herase := erase_reverse hback.nodup n
  rw [List.reverse_reverse] at herase
  rcases h l.reverse n s hback hinv (List.mem_reverse.mpr hn) with ⟨hring', hinv'⟩ | ⟨hleft, hinv'⟩
  · have hflip := ring_flip hring'
    rw [List.reverse_reverse] at hflip
    exact Or.inl ⟨hflip, hinv'⟩
  · refine Or.inr ⟨⟨?_, ?_, ?_⟩, ?_⟩
    · rw [herase]
      exact ring_flip hleft.ring
    · rw [herase, List.mem_reverse]
      exact hleft.prev
    · rw [herase, List.mem_reverse]
      exact hleft.next
    · simpa only [herase, List.reverse_reverse] using hinv'

theorem clistTraverseRLoop_flip (fuel : Nat) (stop n : ι) (s : σ) :
    clistTraverseRLoop links fn fuel stop n s =
      clistTraverseLoop (fun s => flip (links s)) fn fuel stop n s := by
  induction fuel generalizing stop n s with
  | zero => rfl
  | succ fuel ih =>
    rw [clistTraverseRLoop, clistTraverseLoop]
    simp only [ih]
    rfl

theorem clistTraverseR_last {l : List ι} {s : σ} {head : Option ι} (h : Holds ⟨head, links s⟩ l)
    (fuel : Nat) :
    clistTraverseR links fn fuel head s =
      clistTraverse (fun s => flip (links s)) fn fuel l.getLast? s := by
  have hhead : head = l.head? := h.head
  subst hhead
  cases l with
  | nil => rfl
  | cons a rest =>
    have hz := List.getLast?_eq_some_getLast (List.cons_ne_nil a rest)
    have hback := (h.ring.next_of_last hz).2
    rw [hz, clistTraverse, ← clistTraverseRLoop_flip, ← hback]
    rfl

/-- Both traversals call the callback once on every node that was in the list, forward and
backward, up to the first call that ends them. -/
theorem traversals_complete (hfn : Unlinking links Inv fn) {l : List ι} {s : σ}
    {head : Option ι} (h : Holds ⟨head, links s⟩ l) (hinv : Inv l s) {fuel : Nat}
    (hfuel : l.length ≤ fuel) :
    l.Nodup ∧ clistTraverse links fn fuel head s = some (visit fn l s) ∧
      clistTraverseR links fn fuel head s = some (visit fn l.reverse s) := by
  refine ⟨h.ring.nodup, clistTraverse_visit hfn.keepsRing h hinv hfuel, ?_⟩
  rw [clistTraverseR_last h]
  refine clistTraverse_visit (keepsRing_flip hfn.keepsRing) (holds_flip h) ?_ ?_
  · simpa only [List.reverse_reverse] using hinv
  · simpa using hfuel

end Backward

/-! ## A callback of CF: the history of a channel is purged -/

section Purge
variable {ι : Type u} [DecidableEq ι]

/-- The two history queues of a channel, `CF_QueueIdx_HIST` and `CF_QueueIdx_HIST_FREE`. -/
structure Histories (ι : Type u) where
  hist : Option ι
  histFree : Option ι
  links : Links ι

/-- `CF_PurgeHistory`, whose `CF_ResetHistory` moves the entry to the free ones. -/
def purgeHistory (n : ι) (c : Histories ι) : ClistFnRet × Histories ι :=
  let removed := clistRemove ⟨c.hist, c.links⟩ n
  let inserted := clistInsertBack ⟨c.histFree, removed.links⟩ n
  (.cont, ⟨removed.head, inserted.head, inserted.links⟩)

/-- The history is in `l`, and the free entries are others. -/
def HoldsHistory (l : List ι) (c : Histories ι) : Prop :=
  Holds ⟨c.hist, c.links⟩ l ∧ ∃ m, Holds ⟨c.histFree, c.links⟩ m ∧ m.Disjoint l

theorem clistRemove_agree {s : Links ι} {head : Option ι} {l m : List ι} {n : ι}
    (h : Ring s l) (hn : n ∈ l) (hdisj : m.Disjoint l) :
    AgreeOn m s (clistRemove ⟨head, s⟩ n).links := by
  obtain ⟨u, v, rfl⟩ := List.append_of_mem hn
  have hself (a : ι) (ha : a ∈ m) : a ≠ n := fun heq => hdisj ha (heq ▸ hn)
  have hone : AgreeOn m s (clistInitNode s n) :=
    ⟨fun a ha => update_of_ne (hself a ha) _ _, fun a ha => update_of_ne (hself a ha) _ _⟩
  by_cases hnext : s.next n = n
  · simpa only [clistRemove, hnext, if_true] using hone
  · rcases h.neighbours with ⟨hfirst, hlast⟩ | ⟨-, -, hjoin⟩
    · have hmem {b : ι} (hb : b ∈ v ++ u) : b ∈ u ++ n :: v := by
        simp only [List.mem_append, List.mem_cons] at hb ⊢
        tauto
      have hprev : s.prev n ≠ n := by
        intro heq
        have hnodup := h.nodup
        have hin := List.mem_of_getLast? hlast
        rw [heq] at hin
        rw [List.nodup_middle, List.nodup_cons] at hnodup
        exact hnodup.1 (by simpa [or_comm] using hin)
      have hnexts (a : ι) (ha : a ∈ m) : a ≠ s.next n := fun heq =>
        hdisj ha (heq ▸ hmem (List.mem_of_head? hfirst))
      have hprevs (a : ι) (ha : a ∈ m) : a ≠ s.prev n := fun heq =>
        hdisj ha (heq ▸ hmem (List.mem_of_getLast? hlast))
      rw [clistRemove_links hnext hprev]
      refine ⟨fun a ha => ?_, fun a ha => ?_⟩
      · simp [Links.unlink, update_of_ne (hself a ha), update_of_ne (hprevs a ha)]
      · simp [Links.unlink, update_of_ne (hself a ha), update_of_ne (hnexts a ha)]
    · exact absurd hjoin.1 hnext

theorem clistInsertBack_agree {c : Clist ι} {l m : List ι} {n : ι} (h : Holds c m)
    (hdisj : l.Disjoint (m ++ [n])) : AgreeOn l c.links (clistInsertBack c n).links := by
  cases hm : m with
  | nil =>
    have hnone : c.head = none := by rw [h.head, hm, List.head?_nil]
    simp only [clistInsertBack, hnone]
    exact ⟨fun a _ => rfl, fun a _ => rfl⟩
  | cons b rest =>
    have hhead : c.head = some b := by rw [h.head, hm, List.head?_cons]
    have hring := h.ring
    rw [hm] at hring
    have hz := List.getLast?_eq_some_getLast (List.cons_ne_nil b rest)
    have hlast := (hring.next_of_last hz).2
    have hout (x : ι) (hx : x ∈ m ++ [n]) (a : ι) (ha : a ∈ l) : a ≠ x := fun heq =>
      hdisj ha (heq ▸ hx)
    have hn := hout n (by simp)
    have hb := hout b (by simp [hm])
    have hprev := hout (c.links.prev b) (by
      rw [hlast, hm]
      exact List.mem_append_left _ (List.getLast_mem _))
    simp only [clistInsertBack, hhead, setNext, setPrev]
    refine ⟨fun a ha => ?_, fun a ha => ?_⟩
    · simp only [update_of_ne (hn a ha), update_of_ne (hprev a ha)]
    · simp only [update_of_ne (hn a ha), update_of_ne (hb a ha)]

theorem clistRemove_self (c : Clist ι) (n : ι) : (clistRemove c n).links.Joined n n := by
  by_cases hnext : c.links.next n = n
  · simp [clistRemove, hnext, Links.Joined, clistInitNode, setNext, setPrev]
  · by_cases hhead : c.head = some n <;>
      simp [clistRemove, hnext, hhead, Links.Joined, clistInitNode, setNext, setPrev]

theorem unlinking_purgeHistory :
    Unlinking (fun c : Histories ι => c.links) HoldsHistory purgeHistory := by
  intro l n c hring ⟨hhist, m, hfree, hdisj⟩ hn
  have hhead : c.hist = l.head? := hhist.head
  have hremain : Holds (clistRemove ⟨c.hist, c.links⟩ n) (l.erase n) := by
    obtain ⟨u, v, hu, rfl, herase⟩ := List.exists_erase_eq hn
    rw [herase]
    exact holds_remove hhist
  have hmove : (l.erase n).Disjoint (m ++ [n]) := by
    intro a ha hin
    rcases List.mem_append.mp hin with hold | hnew
    · exact hdisj hold (List.mem_of_mem_erase ha)
    · rw [List.mem_singleton.mp hnew] at ha
      exact hring.nodup.not_mem_erase ha
  have hfree' : Holds ⟨c.histFree, (clistRemove ⟨c.hist, c.links⟩ n).links⟩ m :=
    ⟨(clistRemove_agree hring hn hdisj).ring hfree.ring, hfree.head⟩
  have hinserted := holds_insertBack hfree' (fun hm => hdisj hm hn) (clistRemove_self _ n)
  have hagree := clistInsertBack_agree hfree' hmove
  have hmem := neighbour_mem hinserted.ring
  refine Or.inr ⟨⟨?_, fun hin => hmove hin hmem.1, fun hin => hmove hin hmem.2⟩, ?_⟩
  · rw [← hhead]
    exact hagree
  · exact ⟨⟨hagree.ring hremain.ring, hremain.head⟩, m ++ [n], hinserted, fun a hin ha => hmove ha hin⟩

end Purge

/-- Entries 0, 1 and 2 of the history, entry 3 is free. -/
def threeEntries : Histories (Fin 4) where
  hist := some 0
  histFree := some 3
  links :=
    { next := fun | 0 => 1 | 1 => 2 | 2 => 0 | 3 => 3
      prev := fun | 0 => 2 | 1 => 0 | 2 => 1 | 3 => 3 }

theorem threeEntries_holds : HoldsHistory [0, 1, 2] threeEntries := by
  refine ⟨⟨⟨by decide, ?_, by decide⟩, rfl⟩, [3], ⟨.singleton ⟨rfl, rfl⟩, rfl⟩, by simp⟩
  exact List.isChain_cons_cons.mpr ⟨⟨rfl, rfl⟩, List.isChain_cons_cons.mpr ⟨⟨rfl, rfl⟩, .singleton 2⟩⟩

theorem traversals_complete_purge :
    (clistTraverse Histories.links purgeHistory 3 threeEntries.hist threeEntries).map Histories.hist =
        some none ∧
      (clistTraverseR Histories.links purgeHistory 3 threeEntries.hist threeEntries).map
        Histories.histFree = some (some 3) := by
  obtain ⟨-, hforward, hbackward⟩ := traversals_complete unlinking_purgeHistory
    threeEntries_holds.1 threeEntries_holds (le_refl 3)
  rw [hforward, hbackward]
  decide

end Nos3.Cf
