import Nos3.Base.LinkedPool
import Nos3.Ds.Source.PacketFilter

/-!
# The hash lookup is a linear search

Each list of the hash table holds the entries of the filter table with its hash, in the order
of the table. A search along it ends at the first entry with the message identifier.
-/
namespace Nos3.Ds
open Function (update update_self update_of_ne)
open Base.LinkedPool

def HashData.next (h : HashData) (link : PacketIndex) : Option PacketIndex :=
  (h.hashLinks link).next

theorem tableHashFunction_lt (messageID : MsgId) :
    tableHashFunction messageID < DS_HASH_TABLE_ENTRIES := by
  rw [tableHashFunction, BitVec.toNat_and]
  exact Nat.lt_of_le_of_lt Nat.and_le_right (by decide)

/-- The entry of the hash table for a message identifier. -/
def bucket (messageID : MsgId) : Fin DS_HASH_TABLE_ENTRIES :=
  ⟨tableHashFunction messageID, tableHashFunction_lt messageID⟩

theorem first?_hash (h : HashData) (messageID : MsgId) :
    h.first? (tableHashFunction messageID) = some (h.hashTable (bucket messageID)) :=
  dif_pos (tableHashFunction_lt messageID)

theorem setFirst?_hash (h : HashData) (messageID : MsgId) (link : PacketIndex) :
    h.setFirst? (tableHashFunction messageID) link =
      some { h with hashTable := update h.hashTable (bucket messageID) (some link) } :=
  dif_pos (tableHashFunction_lt messageID)

/-- The first `count` entries of the filter table are linked, in order. -/
structure Linked (packet : PacketIndex → MsgId) (count : Nat) (h : HashData) : Prop where
  chains : ∀ k, Chain h.next (h.hashTable k) (members count (fun i => bucket (packet i)) k)
  indices : ∀ i : PacketIndex, i.val < count → (h.hashLinks i).index.toNat = i.val
  fresh : ∀ i : PacketIndex, count ≤ i.val → h.next i = none

theorem lastLink_eq {h : HashData} {fuel : Nat} {link : PacketIndex} {l : List PacketIndex}
    (hchain : Chain h.next (some link) l) (hfuel : l.length ≤ fuel) :
    lastLink h fuel link = l.getLast? := by
  induction fuel generalizing link l with
  | zero =>
    obtain ⟨rest, rfl, -⟩ := hchain.cons_of_some
    cases hfuel
  | succ fuel ih =>
    obtain ⟨rest, rfl, hrest⟩ := hchain.cons_of_some
    have hrest : Chain h.next (h.hashLinks link).next rest := hrest
    rw [lastLink]
    cases hnext : (h.hashLinks link).next with
    | none =>
      rw [hnext] at hrest
      rw [hrest.nil_of_none]
      rfl
    | some next =>
      rw [hnext] at hrest
      dsimp only
      rw [ih hrest (Nat.le_of_succ_le_succ hfuel)]
      obtain ⟨more, rfl, -⟩ := hrest.cons_of_some
      rfl

/-- The new link has its data and no next one yet. -/
def HashData.withLink (h : HashData) (messageID : MsgId) (i : PacketIndex) : HashData :=
  h.setLink i { h.hashLinks i with messageID := messageID, index := i.val }

theorem withLink_next (h : HashData) (messageID : MsgId) (i : PacketIndex) :
    (h.withLink messageID i).next = h.next := by
  funext a
  by_cases ha : a = i
  · subst ha
    simp [HashData.withLink, HashData.setLink, HashData.next]
  · simp [HashData.withLink, HashData.setLink, HashData.next, update_of_ne ha]

theorem withLink_index (h : HashData) (messageID : MsgId) {i a : PacketIndex}
    (hindices : ∀ j : PacketIndex, j.val < i.val → (h.hashLinks j).index.toNat = j.val)
    (ha : a.val < i.val + 1) :
    ((h.withLink messageID i).hashLinks a).index.toNat = a.val := by
  by_cases hai : a = i
  · subst hai
    have hlt : a.val < 256 := a.isLt
    simp [HashData.withLink, HashData.setLink]
    omega
  · have hlt : a.val < i.val := by
      have hne : a.val ≠ i.val := fun heq => hai (Fin.ext heq)
      omega
    simp only [HashData.withLink, HashData.setLink, update_of_ne hai]
    exact hindices a hlt

theorem setNext_next (h : HashData) (last i : PacketIndex) :
    (h.setLink last { h.hashLinks last with next := some i }).next =
      update h.next last (some i) := by
  funext a
  by_cases ha : a = last
  · subst ha
    simp [HashData.setLink, HashData.next]
  · simp [HashData.setLink, HashData.next, update_of_ne ha]

theorem setNext_index (h : HashData) (last i a : PacketIndex) :
    ((h.setLink last { h.hashLinks last with next := some i }).hashLinks a).index =
      (h.hashLinks a).index := by
  by_cases ha : a = last
  · subst ha
    simp [HashData.setLink]
  · simp [HashData.setLink, update_of_ne ha]

section Build
variable {packet : PacketIndex → MsgId} {h : HashData} {i : PacketIndex}

theorem linked_addFirst (hl : Linked packet i.val h)
    (hnone : h.hashTable (bucket (packet i)) = none) :
    Linked packet (i.val + 1) ⟨(h.withLink (packet i) i).hashLinks,
      update h.hashTable (bucket (packet i)) (some i)⟩ := by
  have hempty : members i.val (fun j => bucket (packet j)) (bucket (packet i)) = [] := by
    have hchain := hl.chains (bucket (packet i))
    rw [hnone] at hchain
    exact hchain.nil_of_none
  refine ⟨fun k => ?_, fun a ha => withLink_index h _ hl.indices ha, fun a ha => ?_⟩
  · have hnext := withLink_next h (packet i) i
    rw [members_succ i.isLt]
    dsimp only
    by_cases hk : bucket (packet i) = k
    · subst hk
      rw [hempty, if_pos rfl, List.nil_append, update_self]
      refine Chain.single ?_
      exact (congrFun hnext i).trans (hl.fresh i (Nat.le_refl _))
    · rw [if_neg hk, List.append_nil, update_of_ne (Ne.symm hk)]
      exact (hl.chains k).congr fun a _ => congrFun hnext a
  · exact (congrFun (withLink_next h (packet i) i) a).trans (hl.fresh a (by omega))

theorem linked_addLast {last : PacketIndex} (hl : Linked packet i.val h)
    (hlast : (members i.val (fun j => bucket (packet j)) (bucket (packet i))).getLast? = some last) :
    Linked packet (i.val + 1) ((h.withLink (packet i) i).setLink last
      { (h.withLink (packet i) i).hashLinks last with next := some i }) := by
  obtain ⟨hbefore, hbucket⟩ := mem_members.mp (List.mem_of_getLast? hlast)
  have hnext := (setNext_next (h.withLink (packet i) i) last i).trans
    (congrArg (update · last (some i)) (withLink_next h (packet i) i))
  refine ⟨fun k => ?_, fun a ha => ?_, fun a ha => ?_⟩
  · rw [hnext, members_succ i.isLt]
    have htable : ((h.withLink (packet i) i).setLink last
        { (h.withLink (packet i) i).hashLinks last with next := some i }).hashTable k =
          h.hashTable k := rfl
    rw [htable]
    by_cases hk : bucket (packet i) = k
    · subst hk
      rw [if_pos rfl]
      exact (hl.chains _).push (nodup_members _ _ _) hlast (not_mem_members i.isLt _ _)
        (hl.fresh i (Nat.le_refl _))
    · rw [if_neg hk, List.append_nil]
      refine (hl.chains k).update_other ?_ _
      exact fun hmem => hk (hbucket.symm.trans (mem_members.mp hmem).2)
  · rw [setNext_index]
    exact withLink_index h _ hl.indices ha
  · rw [hnext, update_of_ne (fun heq => by subst heq; omega)]
    exact hl.fresh a (by omega)

/-- One entry of the filter table is added. -/
theorem linked_add (hl : Linked packet i.val h) :
    ∃ h', tableAddMsgID (packet i) i h = some (tableHashFunction (packet i), h') ∧
      Linked packet (i.val + 1) h' := by
  have hwith : h.setLink i { h.hashLinks i with messageID := packet i, index := i.val } =
      h.withLink (packet i) i := rfl
  have htable : (h.withLink (packet i) i).hashTable = h.hashTable := rfl
  cases hfirst : h.hashTable (bucket (packet i)) with
  | none =>
    refine ⟨_, ?_, linked_addFirst hl hfirst⟩
    simp only [tableAddMsgID, hwith, first?_hash, htable, hfirst, setFirst?_hash,
      Option.bind_eq_bind, Option.bind_some]
  | some first =>
    have hchain := hl.chains (bucket (packet i))
    rw [hfirst] at hchain
    obtain ⟨rest, hmembers, -⟩ := hchain.cons_of_some
    obtain ⟨last, hlast⟩ : ∃ last, (members i.val (fun j => bucket (packet j))
        (bucket (packet i))).getLast? = some last := by
      rw [hmembers]
      exact ⟨_, List.getLast?_eq_some_getLast (List.cons_ne_nil _ _)⟩
    have hwalk : lastLink (h.withLink (packet i) i) (DS_PACKETS_IN_FILTER_TABLE + 1) first =
        some last := by
      rw [lastLink_eq (hchain.congr fun a _ => congrFun (withLink_next h (packet i) i) a)
        (Nat.le_succ_of_le (length_members_le _ _ _)), hlast]
    refine ⟨_, ?_, linked_addLast hl hlast⟩
    simp only [tableAddMsgID, hwith, first?_hash, htable, hfirst, hwalk, Option.bind_eq_bind,
      Option.bind_some]

end Build

theorem linked_start (packet : PacketIndex → MsgId) :
    Linked packet 0 ⟨fun _ => {}, fun _ => none⟩ :=
  ⟨fun _ => rfl, fun _ hi => absurd hi (Nat.not_lt_zero _), fun _ _ => rfl⟩

/-- The loop over the last `left` entries of the filter table. -/
theorem linked_fold (packet : PacketIndex → MsgId) {left start : Nat} {h : HashData}
    (hleft : start + left = DS_PACKETS_IN_FILTER_TABLE) (hl : Linked packet start h) :
    ∃ h', ((List.finRange DS_PACKETS_IN_FILTER_TABLE).drop start).foldlM
        (fun h i => (tableAddMsgID (packet i) i h).map Prod.snd) h = some h' ∧
      Linked packet DS_PACKETS_IN_FILTER_TABLE h' := by
  induction left generalizing start h with
  | zero =>
    rw [Nat.add_zero] at hleft
    rw [List.drop_eq_nil_of_le (by simp [hleft])]
    exact ⟨h, rfl, hleft ▸ hl⟩
  | succ left ih =>
    have hstart : start < DS_PACKETS_IN_FILTER_TABLE := by omega
    obtain ⟨h', hadd, hl'⟩ := linked_add (i := ⟨start, hstart⟩) hl
    have hnext : start + 1 + left = DS_PACKETS_IN_FILTER_TABLE := by omega
    obtain ⟨h'', hrest, hl''⟩ := ih hnext hl'
    refine ⟨h'', ?_, hl''⟩
    rw [List.drop_eq_getElem_cons (by simpa using hstart), List.foldlM_cons]
    simp only [List.getElem_finRange, Fin.cast_mk, hadd, Option.map_some, Option.bind_eq_bind,
      Option.bind_some]
    exact hrest

/-- A hash table is built over any earlier one. -/
theorem tableCreateHash_linked (packet : PacketIndex → MsgId) (h : HashData) :
    ∃ h', tableCreateHash packet h = some h' ∧ Linked packet DS_PACKETS_IN_FILTER_TABLE h' := by
  obtain ⟨h', hfold, hl⟩ := linked_fold packet (Nat.zero_add DS_PACKETS_IN_FILTER_TABLE)
    (linked_start packet)
  rw [List.drop_zero] at hfold
  exact ⟨h', hfold, hl⟩

/-! ## The search -/

/-- The search for an entry of the filter table from the first one on. -/
def linearSearch (packet : PacketIndex → MsgId) (messageID : MsgId) : Option PacketIndex :=
  (List.finRange DS_PACKETS_IN_FILTER_TABLE).find? fun i => packet i = messageID

def indexOf : Option PacketIndex → Int
  | some i => i.val
  | none => DS_INDEX_NONE

theorem findLink_eq {packet : PacketIndex → MsgId} {h : HashData} (messageID : MsgId)
    (hindices : ∀ i : PacketIndex, (h.hashLinks i).index.toNat = i.val) {fuel : Nat}
    {start : Option PacketIndex} {l : List PacketIndex} (hchain : Chain h.next start l)
    (hfuel : l.length ≤ fuel) :
    findLink packet h messageID fuel start =
      some (indexOf (l.find? fun i => packet i = messageID)) := by
  induction l generalizing fuel start with
  | nil =>
    rw [show start = none from hchain, findLink]
    rfl
  | cons link rest ih =>
    obtain ⟨rfl, hrest⟩ := hchain
    cases fuel with
    | zero => cases hfuel
    | succ fuel =>
      have hread : messageID? packet link.val = some (packet link) := dif_pos link.isLt
      rw [findLink]
      simp only [hindices, hread, Option.bind_eq_bind, Option.bind_some]
      by_cases hfound : packet link = messageID
      · rw [if_pos hfound, List.find?_cons_of_pos (by simpa using hfound)]
        rfl
      · rw [if_neg hfound, List.find?_cons_of_neg (by simpa using hfound)]
        exact ih hrest (Nat.le_of_succ_le_succ hfuel)

/-- The entries with another hash do not matter. -/
theorem find?_members (packet : PacketIndex → MsgId) (messageID : MsgId) :
    (members DS_PACKETS_IN_FILTER_TABLE (fun i => bucket (packet i)) (bucket messageID)).find?
        (fun i => packet i = messageID) = linearSearch packet messageID := by
  have hall : allocated DS_PACKETS_IN_FILTER_TABLE DS_PACKETS_IN_FILTER_TABLE =
      List.finRange DS_PACKETS_IN_FILTER_TABLE := List.take_of_length_le (by simp)
  rw [members, hall, List.find?_filter, linearSearch]
  congr 1
  funext i
  by_cases hi : packet i = messageID
  · simp [hi]
  · simp [hi]

/-- What the hash table holds and how it is searched. -/
structure LooksUp (packet : PacketIndex → MsgId) (h : HashData) : Prop where
  chains : ∀ k, Chain h.next (h.hashTable k)
    ((List.finRange DS_PACKETS_IN_FILTER_TABLE).filter fun i => bucket (packet i) = k)
  inside : ∀ messageID, tableHashFunction messageID < DS_HASH_TABLE_ENTRIES
  search : ∀ messageID, tableFindMsgID packet messageID h =
    some (indexOf (linearSearch packet messageID))

/-- The hash table is built over any earlier one; its lists part the entries by their hash, and
a search in it is a linear search. -/
theorem hashLookup (packet : PacketIndex → MsgId) (h : HashData) :
    ∃ h', tableCreateHash packet h = some h' ∧ LooksUp packet h' := by
  obtain ⟨h', hcreate, hl⟩ := tableCreateHash_linked packet h
  have hall : allocated DS_PACKETS_IN_FILTER_TABLE DS_PACKETS_IN_FILTER_TABLE =
      List.finRange DS_PACKETS_IN_FILTER_TABLE := List.take_of_length_le (by simp)
  refine ⟨h', hcreate, fun k => ?_, tableHashFunction_lt, fun messageID => ?_⟩
  · have hchain := hl.chains k
    rwa [members, hall] at hchain
  · rw [tableFindMsgID, first?_hash, Option.bind_eq_bind, Option.bind_some,
      findLink_eq messageID (fun i => hl.indices i i.isLt) (hl.chains _)
        (length_members_le _ _ _), find?_members]

end Nos3.Ds
