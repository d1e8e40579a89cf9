import Mathlib.Data.List.Perm.Subperm
import Nos3.Base.LinkedPool
import Nos3.Lc.Guarantees.ConsecutiveFails

/-!
# The dispatch of messages to watchpoints

The lists built from a watchpoint table lead every message to its watchpoints in
the order of the table, whatever the order of the identifiers and their hashes.
-/
namespace Nos3.Lc
open Function (update update_self update_of_ne)
open Base.LinkedPool
open Base.Transition

def HashData.messageNext (h : HashData) (k : Link) : Option Link := (h.messageLinks k).next

def HashData.messageKey (h : HashData) (k : Link) : MsgId := (h.messageLinks k).messageID

def HashData.bucket (h : HashData) (k : Link) : HashIndex := getHashTableIndex (h.messageKey k)

def HashData.watchNext (h : HashData) (j : Link) : Option Link := (h.watchPtLinks j).next

/-- Every bucket is the list of the message links that hash to it. -/
structure Messages (h : HashData) : Prop where
  chains : ∀ b, Chain h.messageNext (h.hashTable b) (members h.messageIDsCount h.bucket b)
  distinct : h.previousIDs.Nodup
  fresh : ∀ k : Link, h.messageIDsCount ≤ k.val → h.messageLinks k = {}

theorem mem_previousIDs {h : HashData} {id : MsgId} :
    id ∈ h.previousIDs ↔ ∃ k : Link, k.val < h.messageIDsCount ∧ h.messageKey k = id := by
  rw [HashData.previousIDs, List.mem_map]
  exact exists_congr fun k => and_congr_left' mem_allocated

theorem Messages.inj {h : HashData} (hm : Messages h) {a k : Link}
    (ha : a.val < h.messageIDsCount) (hk : k.val < h.messageIDsCount)
    (hkey : h.messageKey a = h.messageKey k) : a = k :=
  List.inj_on_of_nodup_map hm.distinct (mem_allocated.mpr ha) (mem_allocated.mpr hk) hkey

/-- The link of a message identifier, old or new. -/
structure Located (id : MsgId) (h h' : HashData) (k : Link) : Prop where
  messages : Messages h'
  key : h'.messageKey k = id
  inside : k.val < h'.messageIDsCount
  kept : ∀ a : Link, a.val < h.messageIDsCount →
    h'.messageKey a = h.messageKey a ∧
      (h'.messageLinks a).watchPtList = (h.messageLinks a).watchPtList
  watchPtLinks : h'.watchPtLinks = h.watchPtLinks
  watchpointCount : h'.watchpointCount = h.watchpointCount
  known : k.val < h.messageIDsCount ∧ h'.messageIDsCount = h.messageIDsCount ∧
      h'.subscribed = h.subscribed ∧ h'.previousIDs = h.previousIDs ∨
    k.val = h.messageIDsCount ∧ h'.messageIDsCount = h.messageIDsCount + 1 ∧
      id ∉ h.previousIDs ∧ (h'.messageLinks k).watchPtList = none ∧
      h'.subscribed = h.subscribed ++ [id] ∧ h'.previousIDs = h.previousIDs ++ [id]

theorem Located.found {h : HashData} {k : Link} (hm : Messages h)
    (hk : k.val < h.messageIDsCount) : Located (h.messageKey k) h h k :=
  ⟨hm, rfl, hk, fun _ _ => ⟨rfl, rfl⟩, rfl, rfl, .inl ⟨hk, rfl, rfl, rfl⟩⟩

/-- The pool with a new link for an identifier, which no pointer leads to yet. -/
def HashData.withMessage (h : HashData) (id : MsgId) (new : Link) : HashData :=
  { h with
    messageLinks := update h.messageLinks new { h.messageLinks new with messageID := id }
    messageIDsCount := h.messageIDsCount + 1
    subscribed := h.subscribed ++ [id] }

theorem takeMessageLink_eq {h : HashData} (hroom : h.messageIDsCount < LC_MAX_WATCHPOINTS)
    (id : MsgId) : takeMessageLink id h =
      some (⟨h.messageIDsCount, hroom⟩, h.withMessage id ⟨h.messageIDsCount, hroom⟩) :=
  dif_pos hroom

/-- A new link with its place in the list of its bucket. -/
theorem located_new {h h' : HashData} (hm : Messages h)
    (hroom : h.messageIDsCount < LC_MAX_WATCHPOINTS) {id : MsgId} (hnew : id ∉ h.previousIDs)
    (hkey : h'.messageKey = update h.messageKey ⟨h.messageIDsCount, hroom⟩ id)
    (hcount : h'.messageIDsCount = h.messageIDsCount + 1)
    (hlists : ∀ a, (h'.messageLinks a).watchPtList = (h.messageLinks a).watchPtList)
    (hsubscribed : h'.subscribed = h.subscribed ++ [id])
    (hlinks : h'.watchPtLinks = h.watchPtLinks)
    (hwatch : h'.watchpointCount = h.watchpointCount)
    (hfresh : ∀ k : Link, h'.messageIDsCount ≤ k.val → h'.messageLinks k = {})
    (hmine : Chain h'.messageNext (h'.hashTable (getHashTableIndex id))
      (members h.messageIDsCount h.bucket (getHashTableIndex id) ++ [⟨h.messageIDsCount, hroom⟩]))
    (hothers : ∀ b ≠ getHashTableIndex id,
      Chain h'.messageNext (h'.hashTable b) (members h.messageIDsCount h.bucket b)) :
    Located id h h' ⟨h.messageIDsCount, hroom⟩ := by
  have hold : ∀ a : Link, a.val < h.messageIDsCount → h'.messageKey a = h.messageKey a := by
    intro a ha
    rw [hkey]
    exact update_of_ne (fun heq => Nat.ne_of_lt ha (congrArg Fin.val heq)) ..
  have hself : h'.messageKey ⟨h.messageIDsCount, hroom⟩ = id := by
    rw [hkey]
    exact update_self ..
  have hbuckets : ∀ b, members h'.messageIDsCount h'.bucket b =
      members h.messageIDsCount h.bucket b ++
        if getHashTableIndex id = b then [⟨h.messageIDsCount, hroom⟩] else [] := by
    intro b
    rw [hcount, members_succ hroom, HashData.bucket, hself]
    refine congrArg (· ++ _) (members_congr (fun a ha => ?_) b)
    exact congrArg getHashTableIndex (hold a ha)
  have hids : h'.previousIDs = h.previousIDs ++ [id] := by
    rw [HashData.previousIDs, hcount]
    have hsucc := congrArg (List.map h'.messageKey) (allocated_succ hroom)
    rw [List.map_append] at hsucc
    refine hsucc.trans ?_
    rw [List.map_singleton, hself]
    refine congrArg (· ++ [id]) (List.map_congr_left fun a ha => ?_)
    exact hold a (mem_allocated.mp ha)
  refine ⟨⟨fun b => ?_, ?_, hfresh⟩, hself, ?_, fun a ha => ⟨hold a ha, hlists a⟩, hlinks, hwatch,
    .inr ⟨rfl, hcount, hnew, ?_, hsubscribed, hids⟩⟩
  · rw [hbuckets b]
    split
    case isTrue hb =>
      rw [← hb]
      exact hmine
    case isFalse hb =>
      rw [List.append_nil]
      exact hothers b fun heq => hb heq.symm
  · rw [hids]
    exact List.nodup_append.mpr ⟨hm.distinct, List.nodup_singleton _, fun a ha b hb heq =>
      hnew (List.mem_singleton.mp hb ▸ heq ▸ ha)⟩
  · rw [hcount]
    exact Nat.lt_succ_self _
  · rw [hlists, hm.fresh _ (Nat.le_refl _)]

/-- The search along the rest of a bucket finds the identifier or ends at its
last link. -/
theorem findOrAddMessage_cases {h : HashData} (id : MsgId) {fuel : Nat} {link : Link}
    {l : List Link} (hchain : Chain h.messageNext (some link) l) (hfuel : l.length ≤ fuel) :
    (∃ k ∈ l, h.messageKey k = id ∧ findOrAddMessage id fuel link h = some (k, h)) ∨
    (∀ k ∈ l, h.messageKey k ≠ id) ∧ ∃ last, l.getLast? = some last ∧
      findOrAddMessage id fuel link h = (takeMessageLink id h).bind fun (new, h) =>
        some (new, h.setMessageLink last { h.messageLinks last with next := some new }) := by
  induction fuel generalizing link l with
  | zero =>
    obtain ⟨rest, rfl, -⟩ := hchain.cons_of_some
    cases hfuel
  | succ fuel ih =>
    obtain ⟨rest, rfl, hrest⟩ := hchain.cons_of_some
    rw [findOrAddMessage]
    by_cases hkey : (h.messageLinks link).messageID = id
    · rw [if_pos hkey]
      exact .inl ⟨link, List.mem_cons_self, hkey, rfl⟩
    · rw [if_neg hkey]
      have hrest : Chain h.messageNext (h.messageLinks link).next rest := hrest
      cases hnext : (h.messageLinks link).next with
      | none =>
        rw [hnext] at hrest
        have hnil := hrest.nil_of_none
        subst hnil
        refine .inr ⟨fun k hk => ?_, link, rfl, rfl⟩
        rw [List.mem_singleton.mp hk]
        exact hkey
      | some next =>
        rw [hnext] at hrest
        obtain ⟨k, hk, hfound, hresult⟩ | ⟨hnone, last, hlast, hresult⟩ :=
          ih hrest (Nat.le_of_succ_le_succ hfuel)
        · exact .inl ⟨k, List.mem_cons_of_mem link hk, hfound, hresult⟩
        · refine .inr ⟨List.forall_mem_cons.mpr ⟨hkey, hnone⟩, last, ?_, hresult⟩
          obtain ⟨more, rfl, -⟩ := hrest.cons_of_some
          exact hlast

theorem withMessage_next {h : HashData} (hroom : h.messageIDsCount < LC_MAX_WATCHPOINTS)
    (id : MsgId) :
    (h.withMessage id ⟨h.messageIDsCount, hroom⟩).messageNext = h.messageNext := by
  funext a
  rw [HashData.messageNext, HashData.messageNext, HashData.withMessage]
  by_cases ha : a = ⟨h.messageIDsCount, hroom⟩
  · subst ha
    simp only [update_self]
  · simp only [update_of_ne ha]

theorem withMessage_key (h : HashData) (hroom : h.messageIDsCount < LC_MAX_WATCHPOINTS)
    (id : MsgId) : (h.withMessage id ⟨h.messageIDsCount, hroom⟩).messageKey =
      update h.messageKey ⟨h.messageIDsCount, hroom⟩ id := by
  funext a
  rw [HashData.messageKey, HashData.withMessage]
  by_cases ha : a = ⟨h.messageIDsCount, hroom⟩
  · subst ha
    simp only [update_self]
  · simp only [update_of_ne ha]
    rfl

theorem withMessage_list (h : HashData) (new : Link) (id : MsgId) (a : Link) :
    ((h.withMessage id new).messageLinks a).watchPtList = (h.messageLinks a).watchPtList := by
  rw [HashData.withMessage]
  by_cases ha : a = new
  · subst ha
    simp only [update_self]
  · simp only [update_of_ne ha]

theorem withMessage_fresh {h : HashData} (hm : Messages h)
    (hroom : h.messageIDsCount < LC_MAX_WATCHPOINTS) (id : MsgId) {k : Link}
    (hk : h.messageIDsCount + 1 ≤ k.val) :
    (h.withMessage id ⟨h.messageIDsCount, hroom⟩).messageLinks k = {} := by
  have hne : k ≠ ⟨h.messageIDsCount, hroom⟩ := fun heq => by
    have := congrArg Fin.val heq
    simp only at this
    omega
  rw [HashData.withMessage]
  exact (update_of_ne hne ..).trans (hm.fresh k (by omega))

/-- Setting the pointer of a link changes nothing else of the pool. -/
theorem setNext_same (h : HashData) (last : Link) (next : Option Link) (a : Link) :
    (((h.setMessageLink last { h.messageLinks last with next := next }).messageLinks a).messageID =
      (h.messageLinks a).messageID) ∧
    ((h.setMessageLink last { h.messageLinks last with next := next }).messageLinks a).watchPtList =
      (h.messageLinks a).watchPtList := by
  rw [HashData.setMessageLink]
  by_cases ha : a = last
  · subst ha
    simp only [update_self, and_self]
  · simp only [update_of_ne ha, and_self]

theorem setNext_next (h : HashData) (last : Link) (next : Option Link) :
    (h.setMessageLink last { h.messageLinks last with next := next }).messageNext =
      update h.messageNext last next := by
  funext a
  rw [HashData.messageNext, HashData.setMessageLink]
  by_cases ha : a = last
  · subst ha
    simp only [update_self]
  · simp only [update_of_ne ha]
    rfl

/-- The identifier is new when its bucket does not have it. -/
theorem Messages.not_mem {h : HashData} {id : MsgId}
    (hno : ∀ k ∈ members h.messageIDsCount h.bucket (getHashTableIndex id), h.messageKey k ≠ id) :
    id ∉ h.previousIDs := by
  intro hmem
  obtain ⟨k, hk, hkey⟩ := mem_previousIDs.mp hmem
  exact hno k (mem_members.mpr ⟨hk, congrArg getHashTableIndex hkey⟩) hkey

theorem messageLinkFor_located {h : HashData} (hm : Messages h)
    (hroom : h.messageIDsCount < LC_MAX_WATCHPOINTS) (id : MsgId) :
    ∃ k h', messageLinkFor id h = some (k, h') ∧ Located id h h' k := by
  have hbucket := hm.chains (getHashTableIndex id)
  rw [messageLinkFor]
  cases hfirst : h.hashTable (getHashTableIndex id) with
  | none =>
    rw [hfirst] at hbucket
    have hnil := hbucket.nil_of_none
    have hnew : id ∉ h.previousIDs := Messages.not_mem (by rw [hnil]; nofun)
    simp only [takeMessageLink_eq hroom, Option.bind_eq_bind, Option.bind_some]
    refine ⟨_, _, rfl, located_new hm hroom hnew (withMessage_key h hroom id) rfl
      (withMessage_list h _ id) rfl rfl rfl (fun k hk => withMessage_fresh hm hroom id hk) ?_ ?_⟩
    · rw [hnil, List.nil_append]
      simp only [update_self]
      refine Chain.single ?_
      have hnext := congrFun (withMessage_next hroom id) ⟨h.messageIDsCount, hroom⟩
      refine hnext.trans ?_
      rw [HashData.messageNext, hm.fresh _ (Nat.le_refl _)]
    · intro b hb
      simp only [update_of_ne hb]
      have hnext := withMessage_next hroom id
      have hchain := hm.chains b
      rw [← hnext] at hchain
      exact hchain
  | some first =>
    rw [hfirst] at hbucket
    dsimp only
    obtain ⟨k, hk, hkey, hresult⟩ | ⟨hno, last, hlast, hresult⟩ :=
      findOrAddMessage_cases id hbucket
        (Nat.le_succ_of_le (length_members_le h.messageIDsCount h.bucket _))
    · refine ⟨k, h, hresult, ?_⟩
      have hlocated := Located.found hm (mem_members.mp hk).1
      rw [hkey] at hlocated
      exact hlocated
    · have hnew := Messages.not_mem hno
      rw [hresult, takeMessageLink_eq hroom, Option.bind_some]
      have hlastMem := List.mem_of_getLast? hlast
      have hend : h.messageNext ⟨h.messageIDsCount, hroom⟩ = none := by
        rw [HashData.messageNext, hm.fresh _ (Nat.le_refl _)]
      refine ⟨_, _, rfl, located_new hm hroom hnew ?_ rfl (fun a => ?_) rfl rfl rfl
        (fun k hk => ?_) ?_ ?_⟩
      · funext a
        rw [← withMessage_key h hroom id]
        exact (setNext_same _ last _ a).1
      · exact (setNext_same _ last _ a).2.trans (withMessage_list h _ id a)
      · have hne : k ≠ last := fun heq => by
          have := (mem_members.mp hlastMem).1
          have hk : h.messageIDsCount + 1 ≤ k.val := hk
          rw [heq] at hk
          omega
        exact (update_of_ne hne ..).trans (withMessage_fresh hm hroom id hk)
      · rw [setNext_next, withMessage_next hroom id]
        refine Chain.push ?_ (nodup_members _ _ _) hlast (not_mem_members hroom _ _) hend
        rw [← hfirst] at hbucket
        exact hbucket
      · intro b hb
        rw [setNext_next, withMessage_next hroom id]
        refine (hm.chains b).update_other (fun hmem => hb ?_) _
        exact (mem_members.mp hmem).2.symm.trans (mem_members.mp hlastMem).2

/-- The message identifier a watchpoint link stands for. -/
def HashData.watchKey (wdt : WpIndex → WDTEntry) (h : HashData) (j : Link) : MsgId :=
  (wdt (h.watchPtLinks j).watchIndex).messageID

/-- The watchpoints `used` so far stand in the pool in order, each in the list of
its message identifier. -/
structure Watched (wdt : WpIndex → WDTEntry) (h : HashData) (used : List WpIndex) : Prop where
  messages : Messages h
  inside : h.watchpointCount ≤ LC_MAX_WATCHPOINTS
  order : (allocated LC_MAX_WATCHPOINTS h.watchpointCount).map
    (fun j => (h.watchPtLinks j).watchIndex) = used
  chains : ∀ k : Link, k.val < h.messageIDsCount → Chain h.watchNext
    (h.messageLinks k).watchPtList (members h.watchpointCount (h.watchKey wdt) (h.messageKey k))
  fresh : ∀ j : Link, h.watchpointCount ≤ j.val → h.watchPtLinks j = {}
  known : ∀ id, id ∈ h.previousIDs ↔ ∃ i ∈ used, (wdt i).messageID = id
  subscribed : h.subscribed = h.previousIDs

theorem Watched.count {wdt : WpIndex → WDTEntry} {h : HashData} {used : List WpIndex}
    (hw : Watched wdt h used) : h.watchpointCount = used.length := by
  rw [← hw.order, List.length_map, length_allocated hw.inside]

/-- There are no more messages than watchpoints, so a link is left for one. -/
theorem Watched.messageRoom {wdt : WpIndex → WDTEntry} {h : HashData} {used : List WpIndex}
    (hw : Watched wdt h used) (hroom : h.watchpointCount < LC_MAX_WATCHPOINTS) :
    h.messageIDsCount < LC_MAX_WATCHPOINTS := by
  have hsub : h.previousIDs ⊆ used.map fun i => (wdt i).messageID := fun id hid =>
    List.mem_map.mpr ((hw.known id).mp hid)
  have hle := (List.subperm_of_subset hw.messages.distinct hsub).length_le
  rw [HashData.previousIDs, List.length_map, List.length_map, ← hw.count, List.length_take,
    List.length_finRange] at hle
  omega

/-- The last watchpoint's link, where the shortcut may append. -/
def LastOf (wdt : WpIndex → WDTEntry) (h : HashData) (id : MsgId) (last : Link) : Prop :=
  id ∈ h.previousIDs ∧ (members h.watchpointCount (h.watchKey wdt) id).getLast? = some last

/-- A new watchpoint link at the end of the list of its message. -/
structure Attached (wdt : WpIndex → WDTEntry) (id : MsgId) (h h' : HashData) (k new : Link) :
    Prop where
  number : new.val = h.watchpointCount
  count : h'.watchpointCount = h.watchpointCount + 1
  messageNext : h'.messageNext = h.messageNext
  messageKey : h'.messageKey = h.messageKey
  messageCount : h'.messageIDsCount = h.messageIDsCount
  hashTable : h'.hashTable = h.hashTable
  subscribed : h'.subscribed = h.subscribed
  freshMessage : ∀ a : Link, h.messageIDsCount ≤ a.val → h'.messageLinks a = {}
  others : ∀ a ≠ k, (h'.messageLinks a).watchPtList = (h.messageLinks a).watchPtList
  index : ∀ j, (h'.watchPtLinks j).watchIndex = (h.watchPtLinks j).watchIndex
  fresh : ∀ j : Link, h.watchpointCount ≤ j.val → h'.watchPtLinks j = {}
  mine : Chain h'.watchNext (h'.messageLinks k).watchPtList
    (members h.watchpointCount (h.watchKey wdt) id ++ [new])
  lists : ∀ other ≠ id, ∀ start,
    Chain h.watchNext start (members h.watchpointCount (h.watchKey wdt) other) →
    Chain h'.watchNext start (members h.watchpointCount (h.watchKey wdt) other)

/-- The first watchpoint of a message. -/
theorem attached_first {wdt : WpIndex → WDTEntry} {h : HashData} {k : Link} {id : MsgId}
    (hm : Messages h) (hk : k.val < h.messageIDsCount)
    (hfresh : ∀ j : Link, h.watchpointCount ≤ j.val → h.watchPtLinks j = {})
    (hnil : members h.watchpointCount (h.watchKey wdt) id = [])
    (hroom : h.watchpointCount < LC_MAX_WATCHPOINTS) :
    Attached wdt id h ({ h with watchpointCount := h.watchpointCount + 1 }.setMessageLink k
      { h.messageLinks k with watchPtList := some ⟨h.watchpointCount, hroom⟩ }) k
      ⟨h.watchpointCount, hroom⟩ := by
  refine ⟨rfl, rfl, funext fun a => ?_, funext fun a => ?_, rfl, rfl, rfl, fun a ha => ?_,
    fun a ha => ?_, fun _ => rfl, hfresh, ?_, fun _ _ _ hc => hc⟩
  · by_cases ha : a = k
    · subst ha
      simp only [HashData.messageNext, HashData.setMessageLink, update_self]
    · simp only [HashData.messageNext, HashData.setMessageLink, update_of_ne ha]
  · by_cases ha : a = k
    · subst ha
      simp only [HashData.messageKey, HashData.setMessageLink, update_self]
    · simp only [HashData.messageKey, HashData.setMessageLink, update_of_ne ha]
  · have hne : a ≠ k := fun heq => by
      rw [heq] at ha
      omega
    simp only [HashData.setMessageLink, update_of_ne hne]
    exact hm.fresh a ha
  · simp only [HashData.setMessageLink, update_of_ne ha]
  · rw [hnil, List.nil_append]
    simp only [HashData.setMessageLink, update_self]
    refine Chain.single ?_
    rw [HashData.watchNext]
    exact congrArg WatchPtList.next (hfresh ⟨h.watchpointCount, hroom⟩ (Nat.le_refl _))

/-- A further watchpoint of a message, behind the last one. -/
theorem attached_last {wdt : WpIndex → WDTEntry} {h : HashData} {k last : Link} {id : MsgId}
    (hm : Messages h)
    (hfresh : ∀ j : Link, h.watchpointCount ≤ j.val → h.watchPtLinks j = {})
    (hchain : Chain h.watchNext (h.messageLinks k).watchPtList
      (members h.watchpointCount (h.watchKey wdt) id))
    (hlast : (members h.watchpointCount (h.watchKey wdt) id).getLast? = some last)
    (hroom : h.watchpointCount < LC_MAX_WATCHPOINTS) :
    Attached wdt id h ({ h with watchpointCount := h.watchpointCount + 1 }.setWatchPtLink last
      { h.watchPtLinks last with next := some ⟨h.watchpointCount, hroom⟩ }) k
      ⟨h.watchpointCount, hroom⟩ := by
  have hmem := mem_members.mp (List.mem_of_getLast? hlast)
  have hnext : ({ h with watchpointCount := h.watchpointCount + 1 }.setWatchPtLink last
      { h.watchPtLinks last with next := some ⟨h.watchpointCount, hroom⟩ }).watchNext =
        update h.watchNext last (some ⟨h.watchpointCount, hroom⟩) := by
    funext j
    by_cases hj : j = last
    · subst hj
      simp only [HashData.watchNext, HashData.setWatchPtLink, update_self]
    · simp only [HashData.watchNext, HashData.setWatchPtLink, update_of_ne hj]
  refine ⟨rfl, rfl, rfl, rfl, rfl, rfl, rfl, hm.fresh, fun _ _ => rfl, fun j => ?_,
    fun j hj => ?_, ?_, fun other hother start hc => ?_⟩
  · by_cases hj : j = last
    · subst hj
      simp only [HashData.setWatchPtLink, update_self]
    · simp only [HashData.setWatchPtLink, update_of_ne hj]
  · have hne : j ≠ last := fun heq => by
      rw [heq] at hj
      omega
    simp only [HashData.setWatchPtLink, update_of_ne hne]
    exact hfresh j hj
  · rw [hnext]
    refine Chain.push hchain (nodup_members _ _ _) hlast (not_mem_members hroom _ _) ?_
    rw [HashData.watchNext, hfresh _ (Nat.le_refl _)]
  · rw [hnext]
    refine hc.update_other (fun hin => hother ?_) _
    exact (mem_members.mp hin).2.symm.trans hmem.2

theorem Messages.congr {h h' : HashData} (hm : Messages h) (hnext : h'.messageNext = h.messageNext)
    (hkey : h'.messageKey = h.messageKey) (hcount : h'.messageIDsCount = h.messageIDsCount)
    (htable : h'.hashTable = h.hashTable)
    (hfresh : ∀ a : Link, h.messageIDsCount ≤ a.val → h'.messageLinks a = {}) : Messages h' where
  chains b := by
    have hbucket : h'.bucket = h.bucket :=
      funext fun k => congrArg getHashTableIndex (congrFun hkey k)
    rw [hnext, htable, hcount, hbucket]
    exact hm.chains b
  distinct := by
    have hids : h'.previousIDs = (allocated _ h'.messageIDsCount).map h'.messageKey := rfl
    rw [hids, hkey, hcount]
    exact hm.distinct
  fresh := hcount ▸ hfresh

/-- A located identifier is the only one that may be new. -/
theorem Located.mem {id other : MsgId} {h h' : HashData} {k : Link} (hl : Located id h h' k) :
    other ∈ h'.previousIDs ↔ other ∈ h.previousIDs ∨ other = id := by
  rw [mem_previousIDs, mem_previousIDs]
  constructor
  · rintro ⟨a, ha, rfl⟩
    by_cases hold : a.val < h.messageIDsCount
    · exact .inl ⟨a, hold, (hl.kept a hold).1.symm⟩
    · obtain ⟨hk, hcount, -⟩ | ⟨hk, hcount, -⟩ := hl.known
      · omega
      · obtain rfl : a = k := Fin.ext (by omega)
        exact .inr hl.key
  · rintro (⟨a, ha, rfl⟩ | rfl)
    · refine ⟨a, ?_, (hl.kept a ha).1⟩
      obtain ⟨-, hcount, -⟩ | ⟨-, hcount, -⟩ := hl.known <;> omega
    · exact ⟨k, hl.inside, hl.key⟩

theorem Located.watchKey {wdt : WpIndex → WDTEntry} {id : MsgId} {h h' : HashData} {k : Link}
    (hl : Located id h h' k) : h'.watchKey wdt = h.watchKey wdt := by
  funext j
  rw [HashData.watchKey, HashData.watchKey, hl.watchPtLinks]

theorem Located.watchNext {id : MsgId} {h h' : HashData} {k : Link} (hl : Located id h h' k) :
    h'.watchNext = h.watchNext := by
  funext j
  rw [HashData.watchNext, HashData.watchNext, hl.watchPtLinks]

/-- The chains of the other messages are those from before. -/
theorem Watched.otherChain {wdt : WpIndex → WDTEntry} {h h' : HashData} {used : List WpIndex}
    {id : MsgId} {k a : Link} (hw : Watched wdt h used) (hl : Located id h h' k)
    (ha : a.val < h'.messageIDsCount) (hne : a ≠ k) :
    Chain h'.watchNext (h'.messageLinks a).watchPtList
      (members h'.watchpointCount (h'.watchKey wdt) (h'.messageKey a)) := by
  have hold : a.val < h.messageIDsCount := by
    obtain ⟨-, hcount, -⟩ | ⟨hk, hcount, -⟩ := hl.known
    · omega
    · have : a.val ≠ k.val := fun heq => hne (Fin.ext heq)
      omega
  rw [hl.watchNext, hl.watchKey, hl.watchpointCount, (hl.kept a hold).1, (hl.kept a hold).2]
  exact hw.chains a hold

/-- The link of a watchpoint gets its index, and the watchpoint is in its list. -/
theorem Watched.setIndex {wdt : WpIndex → WDTEntry} {h₀ h h' : HashData} {used : List WpIndex}
    {i : WpIndex} {k new : Link} (hw : Watched wdt h₀ used)
    (hl : Located (wdt i).messageID h₀ h k) (ha : Attached wdt (wdt i).messageID h h' k new) :
    Watched wdt (h'.setWatchPtLink new { h'.watchPtLinks new with watchIndex := i })
      (used ++ [i]) ∧
    LastOf wdt (h'.setWatchPtLink new { h'.watchPtLinks new with watchIndex := i })
      (wdt i).messageID new := by
  have hroom : h₀.watchpointCount < LC_MAX_WATCHPOINTS := by
    have := ha.number
    have := hl.watchpointCount
    omega
  obtain rfl : new = ⟨h₀.watchpointCount, hroom⟩ :=
    Fin.ext (ha.number.trans hl.watchpointCount)
  have hcount : h'.watchpointCount = h₀.watchpointCount + 1 := by
    rw [ha.count, hl.watchpointCount]
  generalize hfinal : h'.setWatchPtLink _ { h'.watchPtLinks _ with watchIndex := i } = final
  have hlinks : final.messageLinks = h'.messageLinks := by rw [← hfinal]; rfl
  have hmessages : final.messageIDsCount = h.messageIDsCount := by
    rw [← hfinal]
    exact ha.messageCount
  have hkey : final.messageKey = h.messageKey := by
    rw [← ha.messageKey, ← hfinal]
    rfl
  have hnext : final.watchNext = h'.watchNext := by
    funext j
    rw [← hfinal]
    by_cases hj : j = ⟨h₀.watchpointCount, hroom⟩
    · subst hj
      simp only [HashData.watchNext, HashData.setWatchPtLink, update_self]
    · simp only [HashData.watchNext, HashData.setWatchPtLink, update_of_ne hj]
  have hindex : ∀ j : Link, j.val < h₀.watchpointCount →
      (final.watchPtLinks j).watchIndex = (h₀.watchPtLinks j).watchIndex := by
    intro j hj
    have hne : j ≠ ⟨h₀.watchpointCount, hroom⟩ := fun heq =>
      Nat.ne_of_lt hj (congrArg Fin.val heq)
    rw [← hfinal, ← hl.watchPtLinks, ← ha.index j]
    simp only [HashData.setWatchPtLink, update_of_ne hne]
  have hnew : (final.watchPtLinks ⟨h₀.watchpointCount, hroom⟩).watchIndex = i := by
    rw [← hfinal]
    simp only [HashData.setWatchPtLink, update_self]
  have htotal : final.watchpointCount = h₀.watchpointCount + 1 := by
    rw [← hfinal]
    exact hcount
  have hmembers : ∀ id, members final.watchpointCount (final.watchKey wdt) id =
      members h.watchpointCount (h.watchKey wdt) id ++
        if (wdt i).messageID = id then [⟨h₀.watchpointCount, hroom⟩] else [] := by
    intro id
    have hmine : final.watchKey wdt ⟨h₀.watchpointCount, hroom⟩ = (wdt i).messageID := by
      rw [HashData.watchKey, hnew]
    rw [htotal, members_succ hroom, hmine, hl.watchpointCount, hl.watchKey]
    refine congrArg (· ++ _) (members_congr (fun j hj => ?_) id)
    rw [HashData.watchKey, HashData.watchKey, hindex j hj]
  have hids : ∀ id, id ∈ final.previousIDs ↔ id ∈ h.previousIDs := by
    intro id
    rw [mem_previousIDs, mem_previousIDs, hkey, hmessages]
  refine ⟨⟨?_, ?_, ?_, fun a hin => ?_, fun j hj => ?_, fun id => ?_, ?_⟩, ?_, ?_⟩
  · refine hl.messages.congr ?_ hkey hmessages ?_ ?_
    · rw [← ha.messageNext, ← hfinal]
      rfl
    · rw [← ha.hashTable, ← hfinal]
      rfl
    · rw [hlinks]
      exact ha.freshMessage
  · rw [htotal]
    exact hroom
  · rw [htotal, allocated_succ hroom, List.map_append, List.map_singleton, hnew, ← hw.order]
    refine congrArg (· ++ [i]) (List.map_congr_left fun j hj => ?_)
    exact hindex j (mem_allocated.mp hj)
  · rw [hmessages] at hin
    rw [hnext, hlinks, hkey, hmembers]
    by_cases hak : a = k
    · subst hak
      rw [hl.key, if_pos rfl]
      exact ha.mine
    · have hother : h.messageKey a ≠ (wdt i).messageID := fun heq =>
        hak (hl.messages.inj hin hl.inside (heq.trans hl.key.symm))
      rw [if_neg hother.symm, List.append_nil, ha.others a hak]
      exact ha.lists _ hother _ (hw.otherChain hl hin hak)
  · rw [htotal] at hj
    have hne : j ≠ ⟨h₀.watchpointCount, hroom⟩ := fun heq => by
      have := congrArg Fin.val heq
      simp only at this
      omega
    rw [← hfinal]
    simp only [HashData.setWatchPtLink, update_of_ne hne]
    exact ha.fresh j (by rw [hl.watchpointCount]; omega)
  · rw [hids, hl.mem, hw.known]
    simp only [List.mem_append, List.mem_singleton, or_and_right, exists_or, exists_eq_left]
    exact or_congr_right eq_comm
  · have hlist : final.previousIDs = h.previousIDs := by
      have hmap : final.previousIDs = (allocated _ final.messageIDsCount).map final.messageKey := rfl
      rw [hmap, hkey, hmessages]
      rfl
    have hsubscribed : final.subscribed = h.subscribed := by
      rw [← ha.subscribed, ← hfinal]
      rfl
    rw [hlist, hsubscribed]
    obtain ⟨-, -, hsame, hold⟩ | ⟨-, -, -, -, hsame, hold⟩ := hl.known
    · rw [hsame, hold, hw.subscribed]
    · rw [hsame, hold, hw.subscribed]
  · exact (hids _).mpr (hl.mem.mpr (.inr rfl))
  · rw [hmembers, if_pos rfl]
    exact List.getLast?_concat

/-- A watchpoint's identifier has a message link. -/
theorem Watched.members_nil {wdt : WpIndex → WDTEntry} {h : HashData} {used : List WpIndex}
    {id : MsgId} (hw : Watched wdt h used) (hid : id ∉ h.previousIDs) :
    members h.watchpointCount (h.watchKey wdt) id = [] := by
  refine List.eq_nil_iff_forall_not_mem.mpr fun j hj => hid ((hw.known id).mpr ?_)
  obtain ⟨hinside, hkey⟩ := mem_members.mp hj
  refine ⟨_, ?_, hkey⟩
  rw [← hw.order]
  exact List.mem_map.mpr ⟨j, mem_allocated.mpr hinside, rfl⟩

/-- The chain of the message a watchpoint is for. -/
theorem Watched.mineChain {wdt : WpIndex → WDTEntry} {h h' : HashData} {used : List WpIndex}
    {id : MsgId} {k : Link} (hw : Watched wdt h used) (hl : Located id h h' k) :
    Chain h'.watchNext (h'.messageLinks k).watchPtList
      (members h'.watchpointCount (h'.watchKey wdt) id) := by
  rw [hl.watchNext, hl.watchKey, hl.watchpointCount]
  obtain ⟨hold, -⟩ | ⟨-, -, hnew, hnone, -⟩ := hl.known
  · rw [(hl.kept k hold).2, ← hl.key, (hl.kept k hold).1]
    exact hw.chains k hold
  · rw [hnone, hw.members_nil hnew]
    rfl

theorem lastWatchPt_eq {h : HashData} {fuel : Nat} {link : Link} {l : List Link}
    (hchain : Chain h.watchNext (some link) l) (hfuel : l.length ≤ fuel) :
    lastWatchPt h fuel link = l.getLast? := by
  induction fuel generalizing link l with
  | zero =>
    obtain ⟨rest, rfl, -⟩ := hchain.cons_of_some
    cases hfuel
  | succ fuel ih =>
    obtain ⟨rest, rfl, hrest⟩ := hchain.cons_of_some
    have hrest : Chain h.watchNext (h.watchPtLinks link).next rest := hrest
    rw [lastWatchPt]
    cases hnext : (h.watchPtLinks link).next with
    | none =>
      rw [hnext] at hrest
      rw [hrest.nil_of_none]
      rfl
    | some next =>
      rw [hnext] at hrest
      dsimp only
      rw [ih hrest (Nat.le_of_succ_le_succ hfuel)]
      obtain ⟨more, rfl, -⟩ := hrest.cons_of_some
      rfl

theorem appendWatchPt_eq {h : HashData} (hroom : h.watchpointCount < LC_MAX_WATCHPOINTS)
    (last : Link) : appendWatchPt last h = some (⟨h.watchpointCount, hroom⟩,
      { h with watchpointCount := h.watchpointCount + 1 }.setWatchPtLink last
        { h.watchPtLinks last with next := some ⟨h.watchpointCount, hroom⟩ }) := by
  rw [appendWatchPt, takeWatchPtLink, dif_pos hroom]
  rfl

/-- The search for the list of a message attaches one link to it. -/
theorem addWatchpoint_attached {wdt : WpIndex → WDTEntry} {h : HashData} {used : List WpIndex}
    (hw : Watched wdt h used) (hroom : h.watchpointCount < LC_MAX_WATCHPOINTS) (id : MsgId) :
    ∃ k mid new h', addWatchpoint id h = some (new, h') ∧ Located id h mid k ∧
      Attached wdt id mid h' k new := by
  obtain ⟨k, mid, hfind, hl⟩ := messageLinkFor_located hw.messages (hw.messageRoom hroom) id
  have hchain := hw.mineChain hl
  have hmidRoom : mid.watchpointCount < LC_MAX_WATCHPOINTS := hl.watchpointCount ▸ hroom
  have hfresh : ∀ j : Link, mid.watchpointCount ≤ j.val → mid.watchPtLinks j = {} := by
    rw [hl.watchpointCount, hl.watchPtLinks]
    exact hw.fresh
  rw [addWatchpoint, hfind, Option.bind_eq_bind, Option.bind_some]
  dsimp only
  cases hlist : (mid.messageLinks k).watchPtList with
  | none =>
    rw [hlist] at hchain
    simp only [takeWatchPtLink, dif_pos hmidRoom, Option.bind_some]
    exact ⟨k, mid, _, _, rfl, hl,
      attached_first hl.messages hl.inside hfresh hchain.nil_of_none hmidRoom⟩
  | some first =>
    have hsome := hchain
    rw [hlist] at hsome
    have hlast := lastWatchPt_eq hsome (Nat.le_succ_of_le
      (length_members_le mid.watchpointCount (mid.watchKey wdt) id))
    obtain ⟨rest, hcons, -⟩ := hsome.cons_of_some
    obtain ⟨last, hget⟩ : ∃ last, (members mid.watchpointCount (mid.watchKey wdt) id).getLast? =
        some last := by
      rw [hcons]
      exact ⟨_, List.getLast?_cons⟩
    dsimp only
    rw [hlast, hget, Option.bind_eq_bind, Option.bind_some, appendWatchPt_eq hmidRoom]
    exact ⟨k, mid, _, _, rfl, hl, attached_last hl.messages hfresh hchain hget hmidRoom⟩

/-- What the loop over the table carries. -/
structure ScanInv (wdt : WpIndex → WDTEntry) (scan : HashScan) (used : List WpIndex) : Prop where
  watched : Watched wdt scan.data used
  last : ∀ link, scan.watchPtLink = some link → LastOf wdt scan.data scan.lastMessageID link

def WDTEntry.inUse (entry : WDTEntry) : Bool := entry.dataType ≠ .notUsed

/-- The shortcut and the search attach a link to the same list. -/
theorem nextWatchPtLink_attached {wdt : WpIndex → WDTEntry} {scan : HashScan}
    {used : List WpIndex} (hs : ScanInv wdt scan used)
    (hroom : scan.data.watchpointCount < LC_MAX_WATCHPOINTS) (id : MsgId) :
    ∃ k mid new h', nextWatchPtLink id scan = some (new, h') ∧ Located id scan.data mid k ∧
      Attached wdt id mid h' k new := by
  rw [nextWatchPtLink]
  cases hlink : scan.watchPtLink with
  | none => exact addWatchpoint_attached hs.watched hroom id
  | some last =>
    dsimp only
    by_cases hsame : scan.lastMessageID = id
    · rw [if_pos hsame, appendWatchPt_eq hroom]
      obtain ⟨hmem, hget⟩ := hs.last last hlink
      rw [hsame] at hmem hget
      obtain ⟨k, hk, hkey⟩ := mem_previousIDs.mp hmem
      have hl := Located.found hs.watched.messages hk
      rw [hkey] at hl
      exact ⟨k, scan.data, _, _, rfl, hl,
        attached_last hs.watched.messages hs.watched.fresh (hs.watched.mineChain hl) hget hroom⟩
    · rw [if_neg hsame]
      exact addWatchpoint_attached hs.watched hroom id

theorem addTableEntry_inv {wdt : WpIndex → WDTEntry} {scan : HashScan} {used : List WpIndex}
    (hs : ScanInv wdt scan used) (hroom : used.length < LC_MAX_WATCHPOINTS) (i : WpIndex) :
    ∃ scan', addTableEntry wdt scan i = some scan' ∧
      ScanInv wdt scan' (used ++ [i].filter fun i => (wdt i).inUse) := by
  rw [addTableEntry]
  by_cases hused : (wdt i).dataType ≠ .notUsed
  · rw [← hs.watched.count] at hroom
    obtain ⟨k, mid, new, h', hnext, hl, ha⟩ := nextWatchPtLink_attached hs hroom (wdt i).messageID
    have hfilter : [i].filter (fun i => (wdt i).inUse) = [i] :=
      List.filter_cons_of_pos (decide_eq_true hused)
    obtain ⟨hwatched, hlast⟩ := hs.watched.setIndex hl ha
    rw [if_pos hused, hfilter]
    dsimp only
    rw [hnext, Option.bind_eq_bind, Option.bind_some]
    refine ⟨_, rfl, hwatched, fun link hlink => ?_⟩
    obtain rfl := Option.some.inj hlink
    exact hlast
  · have hfilter : [i].filter (fun i => (wdt i).inUse) = [] :=
      List.filter_cons_of_neg (by simpa [WDTEntry.inUse] using hused)
    rw [if_neg hused, hfilter, List.append_nil]
    exact ⟨scan, rfl, hs⟩

theorem addTable_inv {wdt : WpIndex → WDTEntry} (list : List WpIndex) {scan : HashScan}
    {used : List WpIndex} (hs : ScanInv wdt scan used)
    (hroom : used.length + list.length ≤ LC_MAX_WATCHPOINTS) :
    ∃ scan', list.foldlM (addTableEntry wdt) scan = some scan' ∧
      ScanInv wdt scan' (used ++ list.filter fun i => (wdt i).inUse) := by
  induction list generalizing scan used with
  | nil => exact ⟨scan, rfl, by simpa using hs⟩
  | cons i rest ih =>
    rw [List.length_cons] at hroom
    obtain ⟨next, hnext, hinv⟩ := addTableEntry_inv hs (by omega) i
    have hshort : (used ++ [i].filter fun i => (wdt i).inUse).length ≤ used.length + 1 := by
      rw [List.length_append]
      exact Nat.add_le_add_left (List.length_filter_le _ _) _
    obtain ⟨final, hfinal, hinv⟩ := ih hinv (by omega)
    refine ⟨final, ?_, ?_⟩
    · rw [List.foldlM_cons, hnext]
      exact hfinal
    · rw [List.append_assoc, ← List.filter_append] at hinv
      exact hinv

/-- The watchpoints in use, in the order of the table. -/
def usedWatchpoints (wdt : WpIndex → WDTEntry) : List WpIndex :=
  (List.finRange LC_MAX_WATCHPOINTS).filter fun i => (wdt i).inUse

theorem foldl_erase_self (l : List MsgId) : l.foldl List.erase l = [] := by
  induction l with
  | nil => rfl
  | cons a rest ih => rw [List.foldl_cons, List.erase_cons_head, ih]

/-- A table is built over any previous one whose subscriptions are in force. -/
theorem createHashTable_watched (wdt : WpIndex → WDTEntry) {h : HashData}
    (hsubscribed : h.subscribed = h.previousIDs) :
    ∃ h', createHashTable wdt h = some h' ∧ Watched wdt h' (usedWatchpoints wdt) := by
  have hstart : ScanInv wdt ⟨{ subscribed := [] }, none, 0⟩ [] := by
    refine ⟨⟨⟨fun b => rfl, List.nodup_nil, fun _ _ => rfl⟩, Nat.zero_le _, rfl, nofun,
      fun _ _ => rfl, fun id => ⟨nofun, nofun⟩, rfl⟩, nofun⟩
  obtain ⟨scan, hscan, hinv⟩ := addTable_inv (List.finRange LC_MAX_WATCHPOINTS) hstart
    (by rw [List.length_finRange]; exact Nat.le_of_eq (Nat.zero_add _))
  refine ⟨scan.data, ?_, hinv.watched⟩
  rw [createHashTable, hsubscribed, foldl_erase_self, hscan]
  rfl

/-- The search of a message goes through its bucket. -/
theorem findMessage_cases {h : HashData} (id : MsgId) {fuel : Nat} {start : Option Link}
    {l : List Link} (hchain : Chain h.messageNext start l) (hfuel : l.length ≤ fuel) :
    (∃ k ∈ l, h.messageKey k = id ∧ findMessage h id fuel start = some (some k)) ∨
      (∀ k ∈ l, h.messageKey k ≠ id) ∧ findMessage h id fuel start = some none := by
  induction l generalizing fuel start with
  | nil =>
    rw [show start = none from hchain]
    exact .inr ⟨nofun, by rw [findMessage]⟩
  | cons link rest ih =>
    obtain ⟨rfl, hrest⟩ := hchain
    cases fuel with
    | zero => cases hfuel
    | succ fuel =>
      rw [findMessage]
      by_cases hkey : (h.messageLinks link).messageID = id
      · rw [if_pos hkey]
        exact .inl ⟨link, List.mem_cons_self, hkey, rfl⟩
      · rw [if_neg hkey]
        obtain ⟨k, hk, hfound⟩ | ⟨hnone, hresult⟩ := ih hrest (Nat.le_of_succ_le_succ hfuel)
        · exact .inl ⟨k, List.mem_cons_of_mem link hk, hfound⟩
        · exact .inr ⟨List.forall_mem_cons.mpr ⟨hkey, hnone⟩, hresult⟩

theorem watchPoints_eq {h : HashData} {fuel : Nat} {start : Option Link} {l : List Link}
    (hchain : Chain h.watchNext start l) (hfuel : l.length ≤ fuel) :
    watchPoints h fuel start = some (l.map fun j => (h.watchPtLinks j).watchIndex) := by
  induction l generalizing fuel start with
  | nil =>
    rw [show start = none from hchain, watchPoints]
    rfl
  | cons link rest ih =>
    obtain ⟨rfl, hrest⟩ := hchain
    cases fuel with
    | zero => cases hfuel
    | succ fuel =>
      have hrest : Chain h.watchNext (h.watchPtLinks link).next rest := hrest
      rw [watchPoints, ih hrest (Nat.le_of_succ_le_succ hfuel)]
      rfl

/-- The dispatch of a message is a scan of the table. -/
theorem watchPointsFor_eq {wdt : WpIndex → WDTEntry} {h : HashData}
    (hw : Watched wdt h (usedWatchpoints wdt)) (id : MsgId) :
    watchPointsFor h id = some ((usedWatchpoints wdt).filter fun i => (wdt i).messageID = id) := by
  have hscan : (members h.watchpointCount (h.watchKey wdt) id).map
      (fun j => (h.watchPtLinks j).watchIndex) =
        (usedWatchpoints wdt).filter fun i => (wdt i).messageID = id := by
    rw [← hw.order, List.filter_map]
    rfl
  rw [watchPointsFor]
  obtain ⟨k, hk, hkey, hresult⟩ | ⟨hno, hresult⟩ :=
    findMessage_cases id (hw.messages.chains (getHashTableIndex id))
      (length_members_le h.messageIDsCount h.bucket _)
  · have hchain := hw.chains k (mem_members.mp hk).1
    rw [hkey] at hchain
    rw [hresult, Option.bind_eq_bind, Option.bind_some]
    exact (watchPoints_eq hchain (length_members_le _ _ _)).trans (congrArg some hscan)
  · rw [hresult, Option.bind_eq_bind, Option.bind_some, ← hscan,
      hw.members_nil (Messages.not_mem hno)]
    rfl

/-- A part of the processing that keeps the watchpoint table and its lists. -/
structure SameTables (s s' : LcState) : Prop where
  wdt : s'.wdt = s.wdt
  hash : s'.hash = s.hash

theorem SameTables.refl (s : LcState) : SameTables s s := ⟨rfl, rfl⟩

theorem SameTables.trans {s s' s'' : LcState} (h : SameTables s s') (h' : SameTables s' s'') :
    SameTables s s'' := ⟨h'.wdt.trans h.wdt, h'.hash.trans h.hash⟩

theorem SameWatch.tables {s s' : LcState} (h : SameWatch s s') : SameTables s s' :=
  ⟨h.wdt, h.hash⟩

theorem sameTables_foldlM {α : Type} {step : LcState → α → Option LcState}
    (hstep : ∀ s a s', step s a = some s' → SameTables s s') (list : List α) {s s' : LcState}
    (h : list.foldlM step s = some s') : SameTables s s' := by
  induction list generalizing s with
  | nil => exact Option.some.inj h ▸ .refl s
  | cons a rest ih =>
    obtain ⟨next, hnext, h⟩ := Option.bind_eq_some_iff.mp h
    exact (hstep s a next hnext).trans (ih h)

theorem sameTables_processWatchIndex {floats : FloatOrder} {message : Message}
    {timestamp : SysTime} (s : LcState) (wp : WpIndex) (s' : LcState)
    (h : processWatchIndex floats message timestamp s wp = some s') : SameTables s s' := by
  obtain ⟨result, -, h⟩ := Option.bind_eq_some_iff.mp h
  exact Option.some.inj h ▸ ⟨rfl, rfl⟩

theorem sameTables_checkMsgForWPs {floats : FloatOrder} {message : Message} {now : SysTime}
    {s s' : LcState} (h : checkMsgForWPs floats message now s = some s') : SameTables s s' := by
  rw [checkMsgForWPs] at h
  split at h
  · obtain ⟨watchIndices, -, h⟩ := Option.bind_eq_some_iff.mp h
    obtain ⟨processed, hprocessed, h⟩ := Option.bind_eq_some_iff.mp h
    have hsame := sameTables_foldlM sameTables_processWatchIndex _ hprocessed
    obtain rfl := Option.some.inj h
    exact ⟨hsame.wdt, hsame.hash⟩
  · exact Option.some.inj h ▸ .refl s

theorem sameTables_sampleAPReq {startIndex endIndex age : BitVec 16} {s s' : LcState}
    (h : sampleAPReq startIndex endIndex age s = some s') : SameTables s s' := by
  rw [sampleAPReq] at h
  split at h
  · split at h
    · obtain ⟨sampled, hsampled, h⟩ := Option.bind_eq_some_iff.mp h
      have hsame := sameTables_foldlM (fun _ _ _ hs => (sameWatch_sampleSingleAP hs).tables) _
        hsampled
      obtain rfl := Option.some.inj h
      split
      · exact ⟨hsame.wdt, hsame.hash⟩
      · exact hsame
    · exact Option.some.inj h ▸ .refl s
  · exact Option.some.inj h ▸ .refl s

theorem sameTables_resetWPStatsCmd (wpNumber : BitVec 16) (s : LcState) :
    SameTables s (resetWPStatsCmd wpNumber s) := by
  rw [resetWPStatsCmd]
  generalize argumentRange wpNumber = list
  induction list generalizing s with
  | nil => exact .refl s
  | cons wp rest ih =>
    have hfirst : SameTables s (resetWPStats s wp) := ⟨rfl, rfl⟩
    rw [List.foldl_cons]
    exact hfirst.trans (ih _)

/-- Only a load of the watchpoint definitions touches their lists. -/
theorem tables_processRequest {floats : FloatOrder} {s s' : LcState} {request : Request}
    (h : processRequest floats s request = some s') :
    SameTables s s' ∨ createHashTable s'.wdt s.hash = some s'.hash := by
  cases request with
  | message message now => exact .inl (sameTables_checkMsgForWPs h)
  | sampleAP startIndex endIndex age => exact .inl (sameTables_sampleAPReq h)
  | setLCState newLCState => exact .inl (Option.some.inj h ▸ ⟨rfl, rfl⟩)
  | resetCounters => exact .inl (Option.some.inj h ▸ ⟨rfl, rfl⟩)
  | setAPState apNumber newAPState =>
    obtain rfl := Option.some.inj h
    have hset := fun list => (sameWatch_foldl (sameWatch_setCurrentState newAPState) list s).tables
    cases newAPState with
    | active | passive | disabled => exact .inl (hset _)
    | permOff | notUsed => exact .inl (.refl s)
  | setAPPermOff apNumber =>
    exact .inl (Option.some.inj h ▸ (sameWatch_foldl sameWatch_setPermOff _ s).tables)
  | resetAPStats apNumber =>
    exact .inl (Option.some.inj h ▸ (sameWatch_foldl (sameWatch_resetAP true) _ s).tables)
  | resetWPStats wpNumber =>
    exact .inl (Option.some.inj h ▸ sameTables_resetWPStatsCmd wpNumber s)
  | loadWDT wdt =>
    obtain ⟨hash, hcreate, h⟩ := Option.bind_eq_some_iff.mp h
    obtain rfl := Option.some.inj h
    exact .inr hcreate
  | loadADT adt => exact .inl (Option.some.inj h ▸ (sameWatch_loadADT adt s).tables)

/-- The lists in a state are those of its watchpoint table. -/
def LcState.Dispatches (s : LcState) : Prop := Watched s.wdt s.hash (usedWatchpoints s.wdt)

theorem dispatches_created {wdt : WpIndex → WDTEntry} {h h' : HashData}
    (hsubscribed : h.subscribed = h.previousIDs) (hcreate : createHashTable wdt h = some h') :
    Watched wdt h' (usedWatchpoints wdt) := by
  obtain ⟨built, hbuilt, hwatched⟩ := createHashTable_watched wdt hsubscribed
  obtain rfl := Option.some.inj (hbuilt.symm.trans hcreate)
  exact hwatched

theorem dispatches_reachable {floats : FloatOrder} {s : LcState}
    (h : (machine floats).Reachable s) : s.Dispatches := by
  refine h.invariant (fun s hstart => ?_) fun s request s' hs hnext => ?_
  · obtain ⟨wdt, adt, loaded, hload, hstate⟩ := hstart
    obtain ⟨hash, hcreate, hload⟩ := Option.bind_eq_some_iff.mp hload
    have hsame := (sameWatch_loadADT adt loaded).tables
    have hwatched := dispatches_created (h := {}) rfl hcreate
    obtain rfl := Option.some.inj hload
    rw [hstate, LcState.Dispatches, hsame.wdt, hsame.hash]
    exact hwatched
  · obtain hsame | hcreate :=
      tables_processRequest (hnext : processRequest floats s request = some s')
    · rw [LcState.Dispatches, hsame.wdt, hsame.hash]
      exact hs
    · exact dispatches_created hs.subscribed hcreate

/-- A message goes through the whole table. -/
def scanTable (floats : FloatOrder) (message : Message) (now : SysTime) (s : LcState) :
    Option LcState := do
  let watchIndices := (usedWatchpoints s.wdt).filter fun i =>
    (s.wdt i).messageID = message.messageID
  let s ← watchIndices.foldlM (processWatchIndex floats message (messageTime message now)) s
  some { s with monitoredMsgCount :=
    if watchIndices ≠ [] then s.monitoredMsgCount + 1 else s.monitoredMsgCount }

/-- In every reachable state the subscriptions are the message identifiers of the
watchpoints in use, each once; every table can be loaded without a link beyond
the pools; and a message is processed as by a scan of the table, or not at all
while the application is disabled. -/
theorem dispatch_complete {floats : FloatOrder} {s : LcState}
    (h : (machine floats).Reachable s) :
    s.hash.subscribed.Nodup ∧
    (∀ id, id ∈ s.hash.subscribed ↔ ∃ i, (s.wdt i).inUse ∧ (s.wdt i).messageID = id) ∧
    (∀ wdt, (loadWDT wdt s).isSome) ∧
    ∀ message now, checkMsgForWPs floats message now s =
      if s.currentLCState = .disabled then some s else scanTable floats message now s := by
  have hw : Watched s.wdt s.hash (usedWatchpoints s.wdt) := dispatches_reachable h
  refine ⟨?_, fun id => ?_, fun wdt => ?_, fun message now => ?_⟩
  · rw [hw.subscribed]
    exact hw.messages.distinct
  · rw [hw.subscribed, hw.known]
    simp only [usedWatchpoints, List.mem_filter, List.mem_finRange, true_and]
  · obtain ⟨hash, hcreate, -⟩ := createHashTable_watched wdt hw.subscribed
    rw [loadWDT, hcreate]
    rfl
  · rw [checkMsgForWPs, watchPointsFor_eq hw]
    by_cases hdisabled : s.currentLCState = .disabled
    · rw [if_neg (not_not.mpr hdisabled), if_pos hdisabled]
    · rw [if_pos hdisabled, if_neg hdisabled]
      rfl

theorem dispatch_complete_watched : ∃ s, (machine fun _ _ _ => false).Reachable s ∧
    s.hash.subscribed = [0x0801] ∧ s.hash.subscribed.Nodup := by
  obtain ⟨s, hs, hsubscribed⟩ := (machine fun _ _ _ => false).exists_reaches (fun _ _ => True)
    (fun s => s.hash.subscribed = [0x0801]) watchedStart_start [] (by decide +kernel)
  exact ⟨s, hs, of_decide_eq_true hsubscribed, (dispatch_complete hs).1⟩

/-- A message of a watchpoint, while the application is disabled as it starts. -/
theorem disabled_dispatches_nothing : ∃ s message, (machine fun _ _ _ => false).Reachable s ∧
    (usedWatchpoints s.wdt).filter (fun i => (s.wdt i).messageID = message.messageID) ≠ [] ∧
    checkMsgForWPs (fun _ _ _ => false) message {} s ≠
      scanTable (fun _ _ _ => false) message {} s := by
  obtain ⟨s, hs, hcheck⟩ := (machine fun _ _ _ => false).exists_reaches (fun _ _ => True)
    (fun s => (checkMsgForWPs (fun _ _ _ => false) ⟨0x0801, [7], {}⟩ {} s).map LcState.history ≠
        (scanTable (fun _ _ _ => false) ⟨0x0801, [7], {}⟩ {} s).map LcState.history ∧
      (usedWatchpoints s.wdt).filter (fun i => (s.wdt i).messageID = 0x0801) ≠ [])
    watchedStart_start [] (by decide +kernel)
  obtain ⟨hdiffer, hused⟩ := of_decide_eq_true hcheck
  exact ⟨s, ⟨0x0801, [7], {}⟩, hs, hused, fun heq => hdiffer (congrArg _ heq)⟩

end Nos3.Lc
