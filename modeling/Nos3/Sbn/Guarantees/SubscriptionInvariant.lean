import Nos3.Sbn.Source.Network
import Nos3.Sbn.Guarantees.SubscriptionMessages
import Mathlib.Algebra.Group.Nat.Defs

/-!
# Reports, peers and links

What the reports so far ask for, what the loop over the peers puts on the links, and what a link
still tells its peer: the messages on the way are read one after the other until the peer's table
lists what it should.
-/
namespace Nos3.Sbn
open Function (update)

/-! ## Reports -/

def Report.msgId : Report → MsgId
  | .sub msgId _ => msgId
  | .unsub msgId => msgId

def Report.isSub (msgId : MsgId) : Report → Bool
  | .sub m _ => m = msgId
  | .unsub _ => false

def Report.isUnsub (msgId : MsgId) : Report → Bool
  | .sub _ _ => false
  | .unsub m => m = msgId

def subsOf (msgId : MsgId) (reports : List Report) : Nat := reports.countP (Report.isSub msgId)

def unsubsOf (msgId : MsgId) (reports : List Report) : Nat :=
  reports.countP (Report.isUnsub msgId)

/-- The MsgIDs a peer should know: those whose subscriptions outnumber the unsubscriptions. -/
def Wanted (reports : List Report) (msgId : MsgId) : Prop :=
  excluded msgId = false ∧ unsubsOf msgId reports < subsOf msgId reports

instance (reports : List Report) (msgId : MsgId) : Decidable (Wanted reports msgId) :=
  inferInstanceAs (Decidable (_ ∧ _))

def wantedIds (reports : List Report) : Finset MsgId :=
  (reports.map Report.msgId).toFinset.filter (Wanted reports)

variable {reports : List Report} {msgId m : MsgId} {qos : Qos}

theorem mem_wantedIds : m ∈ wantedIds reports ↔ Wanted reports m := by
  refine ⟨fun h => (Finset.mem_filter.mp h).2, fun h => Finset.mem_filter.mpr ⟨?_, h⟩⟩
  have hpos : 0 < subsOf m reports := Nat.lt_of_le_of_lt (Nat.zero_le _) h.2
  obtain ⟨report, hmem, hsub⟩ := List.countP_pos_iff.mp hpos
  refine List.mem_toFinset.mpr (List.mem_map.mpr ⟨report, hmem, ?_⟩)
  cases report with
  | sub k _ => exact of_decide_eq_true hsub
  | unsub _ => cases hsub

theorem subsOf_sub : subsOf m (reports ++ [.sub msgId qos]) =
    subsOf m reports + if msgId = m then 1 else 0 := by
  simp [subsOf, Report.isSub, List.countP_append, List.countP_cons]

theorem unsubsOf_sub : unsubsOf m (reports ++ [.sub msgId qos]) = unsubsOf m reports := by
  simp [unsubsOf, Report.isUnsub, List.countP_append]

theorem subsOf_unsub : subsOf m (reports ++ [.unsub msgId]) = subsOf m reports := by
  simp [subsOf, Report.isSub, List.countP_append]

theorem unsubsOf_unsub : unsubsOf m (reports ++ [.unsub msgId]) =
    unsubsOf m reports + if msgId = m then 1 else 0 := by
  simp [unsubsOf, Report.isUnsub, List.countP_append]

/-! ## The loop over the peers -/

theorem mem_netPeers {config : Config} {netIdx : Nat} {peer : PeerAddr} :
    peer ∈ config.netPeers netIdx ↔
      peer.netIdx = netIdx ∧ peer.peerIdx < config.peerCnt netIdx := by
  obtain ⟨net, idx⟩ := peer
  simp [Config.netPeers, eq_comm, and_comm]

theorem peers_nodup (config : Config) : config.peers.Nodup := by
  refine List.nodup_flatMap.mpr ⟨fun netIdx _ => ?_, ?_⟩
  · refine List.nodup_range.map fun a b hab => ?_
    exact congrArg PeerAddr.peerIdx hab
  · refine List.Nodup.pairwise_of_forall_ne List.nodup_range fun a _ b _ hab => ?_
    intro peer ha hb
    exact hab ((mem_netPeers.mp ha).1.symm.trans (mem_netPeers.mp hb).1)

/-- Each of the peers with a connection has the message on its link. -/
def Network.told (config : Config) (msg : PeerAddr → NetMsg) (peers : List PeerAddr)
    (s : Network) : Network :=
  { s with link := fun peer =>
      if peer ∈ peers ∧ s.hasConn config peer = true then s.link peer ++ [msg peer]
      else s.link peer }

theorem sendAll_told {config : Config} {sent : PeerAddr → Bool} {msg : PeerAddr → NetMsg}
    (hsent : ∀ peer, sent peer = true) (peers : List PeerAddr) (hpeers : peers.Nodup)
    (s : Network) : s.sendAll config sent msg peers = (.success, s.told config msg peers) := by
  induction peers generalizing s with
  | nil => simp [Network.sendAll, Network.told]
  | cons first peers ih =>
    obtain ⟨hfirst, hrest⟩ := List.nodup_cons.mp hpeers
    simp only [Network.sendAll, Network.sendNetMsg, hsent, if_true]
    rw [ih hrest]
    refine congrArg (Prod.mk Status.success) ?_
    by_cases hconn : s.hasConn config first = true
    · simp only [hconn, if_true, Network.told, Network.mk.injEq, true_and, and_true]
      funext peer
      have hsame : ∀ link, Network.hasConn config { s with link := link } peer =
          s.hasConn config peer := fun _ => rfl
      by_cases hp : peer = first
      · subst hp
        simp [hfirst, hconn]
      · simp [hp, hsame]
    · simp only [hconn, Bool.false_eq_true, if_false, Network.told, Network.mk.injEq, true_and,
        and_true]
      funext peer
      by_cases hp : peer = first
      · subst hp
        simp [hconn]
      · simp [hp]

/-! ## Links -/

/-- Reading the contents one after the other leads from what is known to the goal, and a table
has room for all there is on the way. -/
def Follows : Finset MsgId → List Content → Finset MsgId → Prop
  | known, [], goal => known = goal ∧ known.card ≤ SBN_MAX_SUBS_PER_PEER
  | known, content :: contents, goal =>
    known.card ≤ SBN_MAX_SUBS_PER_PEER ∧ Follows (content.apply known) contents goal

theorem Follows.room {known goal : Finset MsgId} {contents : List Content}
    (h : Follows known contents goal) : known.card ≤ SBN_MAX_SUBS_PER_PEER := by
  cases contents with
  | nil => exact h.2
  | cons _ _ => exact h.1

theorem Follows.snoc {goal : Finset MsgId} {contents : List Content} {content : Content}
    (hroom : (content.apply goal).card ≤ SBN_MAX_SUBS_PER_PEER) {known : Finset MsgId}
    (h : Follows known contents goal) :
    Follows known (contents ++ [content]) (content.apply goal) := by
  induction contents generalizing known with
  | nil =>
    obtain ⟨rfl, hcard⟩ := h
    exact ⟨hcard, rfl, hroom⟩
  | cons first contents ih => exact ⟨h.1, ih h.2⟩

/-- The table of a peer and its link lead to the goal. -/
structure Told (ident : Ident) (link : List NetMsg) (remote : Table) (goal : Finset MsgId) :
    Prop where
  wf : remote.Wf
  leads : ∃ contents, List.Forall₂ (Delivers ident) link contents ∧
    Follows remote.idSet contents goal

variable {ident : Ident} {link : List NetMsg} {remote : Table} {goal : Finset MsgId}

theorem Told.snoc {msg : NetMsg} {content : Content} (h : Told ident link remote goal)
    (hmsg : Delivers ident msg content)
    (hroom : (content.apply goal).card ≤ SBN_MAX_SUBS_PER_PEER) :
    Told ident (link ++ [msg]) remote (content.apply goal) := by
  obtain ⟨contents, hlink, hfollows⟩ := h.leads
  exact ⟨h.wf, contents ++ [content], List.rel_append hlink (.cons hmsg .nil), hfollows.snoc hroom⟩

theorem Told.deliver {msg : NetMsg} (h : Told ident (msg :: link) remote goal)
    {subscribed : MsgId → Bool} (hsub : ∀ m, subscribed m = true)
    (older stack : Base.ByteMemory.Memory) :
    Told ident link (processNetMsg ident subscribed older stack msg remote) goal := by
  obtain ⟨contents, hlink, hfollows⟩ := h.leads
  cases hlink with
  | @cons _ content _ rest hmsg hrest =>
    obtain ⟨hwf, hset⟩ := hmsg subscribed older stack remote hsub h.wf hfollows.2.room
    exact ⟨hwf, rest, hrest, by rw [hset]; exact hfollows.2⟩

/-- With nothing on the way the peer knows the goal. -/
theorem Told.caughtUp (h : Told ident [] remote goal) : remote.idSet = goal := by
  obtain ⟨contents, hlink, hfollows⟩ := h.leads
  cases hlink
  exact hfollows.1

theorem told_nothing (ident : Ident) (hwf : remote.Wf) (hempty : remote.idSet = ∅) :
    Told ident [] remote ∅ := ⟨hwf, [], .nil, by rw [hempty]; exact ⟨rfl, Nat.zero_le _⟩⟩

end Nos3.Sbn

/-!
## Subscription tables in step

The table of the node lists what the reports ask for, with their surplus as use counter, and every
peer's table and link lead to it. Each report, connection and delivery keeps this while an
unsubscribe message names the MsgID it is sent for and the table packed at a connection fits.
-/
namespace Nos3.Sbn
open Base.Transition
open Function (update)

/-! ## The conditions on a run -/

/-- The last local subscription of a MsgID that peers are told of. -/
def EndsLast (reports : List Report) (msgId : MsgId) : Prop :=
  excluded msgId = false ∧ subsOf msgId reports = unsubsOf msgId reports + 1

/-- The messages of a Software Bus with at most `SBN_MAX_SUBS_PER_PEER` MsgIDs subscribed at any
time, that reports an end only of a subscription it reported. -/
structure Reported (reports : List Report) (msg : PipeMsg) : Prop where
  fits : ∀ entries, msg = .allSubs entries → entries.length ≤ CFE_SB_SUB_ENTRIES_PER_PKT
  room : (wantedIds (reports ++ msg.reports)).card ≤ SBN_MAX_SUBS_PER_PEER
  countable : ∀ msgId, subsOf msgId (reports ++ msg.reports) <
    unsubsOf msgId (reports ++ msg.reports) + 2 ^ 32
  standing : ∀ msgId, msg = .oneSub (.unsub msgId) →
    unsubsOf msgId reports < subsOf msgId reports

/-- Links deliver and the peers' own Software Buses take their subscriptions. -/
def Reliable (s : Network) : Event → Prop
  | .report msg sent => (∀ peer, sent peer = true) ∧ Reported s.reports msg
  | .connect _ outcome => outcome.protoSent = true ∧ outcome.subsSent = true
  | .deliver _ subscribed _ _ => ∀ msgId, subscribed msgId = true

/-- A last subscription ends only while no peer gets the message, or while the entry at the
peer's own index is a blank one and the MsgID is the blank one too; and a peer connects while
the whole table can be packed. -/
def Spared (config : Config) (s : Network) : Event → Prop
  | .report (.oneSub (.unsub msgId)) _ =>
    EndsLast s.reports msgId → ∀ peer ∈ config.peers, s.hasConn config peer = true →
      msgId = 0 ∧ s.own.subCnt ≤ peer.peerIdx + 1
  | .connect peer outcome =>
    s.connected peer = false → outcome.pipe = true → s.own.subCnt ≤ maxPacked
  | _ => True

def Sound (config : Config) (s : Network) (event : Event) : Prop :=
  Reliable s event ∧ Spared config s event

/-! ## The invariant -/

/-- What holds with `reports` processed. -/
structure Inv (config : Config) (reports : List Report) (s : Network) : Prop where
  wf : s.own.Wf
  blank : ∀ i, s.own.subCnt ≤ i → (s.own.subs i).msgId = 0
  counts : ∀ i < s.own.subCnt, (s.own.subs i).inUseCtr.toNat +
    unsubsOf (s.own.subs i).msgId reports = subsOf (s.own.subs i).msgId reports
  wanted : s.own.idSet = wantedIds reports
  standing : ∀ msgId, unsubsOf msgId reports ≤ subsOf msgId reports
  told : ∀ peer ∈ config.peers, s.hasConn config peer = true →
    Told config.ident (s.link peer) (s.remote peer) s.own.idSet
  untold : ∀ peer ∈ config.peers, s.hasConn config peer = false →
    s.link peer = [] ∧ (s.remote peer).Wf ∧ (s.remote peer).idSet = ∅

variable {config : Config} {reports : List Report} {s s' : Network} {msgId : MsgId} {qos : Qos}
  {sent : PeerAddr → Bool}

theorem inv_start : Inv config [] {} where
  wf := empty_wf
  blank _ _ := rfl
  counts _ hi := absurd hi (Nat.not_lt_zero _)
  wanted := rfl
  standing _ := Nat.le_refl _
  told _ _ _ := by
    rw [empty_idSet]
    exact told_nothing _ empty_wf empty_idSet
  untold _ _ _ := ⟨rfl, empty_wf, empty_idSet⟩

/-- An entry of the node's table has a use counter above zero. -/
theorem Inv.inUse (h : Inv config reports s) {i : Nat} (hi : i < s.own.subCnt) :
    0 < (s.own.subs i).inUseCtr.toNat := by
  have hmem : (s.own.subs i).msgId ∈ wantedIds reports :=
    h.wanted ▸ find_mem (h.wf.find_of_index hi)
  have hlt := (mem_wantedIds.mp hmem).2
  have hcount := h.counts i hi
  omega

/-- Only the use counters changed. -/
theorem Inv.recounted (h : Inv config reports s) {i : Nat} {ctr : BitVec 32}
    {reports' : List Report} (hsame : wantedIds reports' = wantedIds reports)
    (hcounts : ∀ j < s.own.subCnt, ((s.own.setInUseCtr i ctr).subs j).inUseCtr.toNat +
      unsubsOf (s.own.subs j).msgId reports' = subsOf (s.own.subs j).msgId reports')
    (hstanding : ∀ m, unsubsOf m reports' ≤ subsOf m reports') :
    Inv config reports' { s with own := s.own.setInUseCtr i ctr } where
  wf := h.wf.setInUseCtr i ctr
  blank j hj := by
    simp only [setInUseCtr_subs]
    exact h.blank j hj
  counts j hj := by
    simp only [setInUseCtr_subs]
    exact hcounts j hj
  wanted := by
    simp only [setInUseCtr_idSet]
    rw [h.wanted, hsame]
  standing := hstanding
  told peer hpeer hconn := by
    simp only [setInUseCtr_idSet]
    exact h.told peer hpeer hconn
  untold := h.untold

/-- A change of the node's table that every peer with a connection is told of. -/
theorem Inv.retold (h : Inv config reports s) {own : Table} {reports' : List Report}
    {msg : PeerAddr → NetMsg} (content : Content) (hwf : own.Wf)
    (hblank : ∀ i, own.subCnt ≤ i → (own.subs i).msgId = 0)
    (hcounts : ∀ i < own.subCnt, (own.subs i).inUseCtr.toNat +
      unsubsOf (own.subs i).msgId reports' = subsOf (own.subs i).msgId reports')
    (hwanted : own.idSet = wantedIds reports')
    (hstanding : ∀ m, unsubsOf m reports' ≤ subsOf m reports')
    (hcontent : own.idSet = content.apply s.own.idSet)
    (hmsg : ∀ peer ∈ config.peers, s.hasConn config peer = true →
      Delivers config.ident (msg peer) content) :
    Inv config reports' ({ s with own := own }.told config msg config.peers) where
  wf := hwf
  blank := hblank
  counts := hcounts
  wanted := hwanted
  standing := hstanding
  told peer hpeer hconn := by
    have hold : s.hasConn config peer = true := hconn
    have hroom : (content.apply s.own.idSet).card ≤ SBN_MAX_SUBS_PER_PEER := by
      rw [← hcontent, hwf.card]
      exact hwf.room
    show Told config.ident (if peer ∈ config.peers ∧ s.hasConn config peer = true then _ else _)
      (s.remote peer) own.idSet
    rw [if_pos ⟨hpeer, hold⟩, hcontent]
    exact (h.told peer hpeer hold).snoc (hmsg peer hpeer hold) hroom
  untold peer hpeer hconn := by
    have hold : s.hasConn config peer = false := hconn
    obtain ⟨hlink, hremote⟩ := h.untold peer hpeer hold
    refine ⟨?_, hremote⟩
    show (if peer ∈ config.peers ∧ s.hasConn config peer = true then _ else s.link peer) = []
    rw [if_neg (by simp [hold]), hlink]

/-- Nothing changed that the node keeps count of. -/
theorem Inv.unnoticed (h : Inv config reports s) {reports' : List Report}
    (hsame : wantedIds reports' = wantedIds reports)
    (hcounts : ∀ m, excluded m = false → subsOf m reports' = subsOf m reports ∧
      unsubsOf m reports' = unsubsOf m reports)
    (hstanding : ∀ m, unsubsOf m reports' ≤ subsOf m reports') : Inv config reports' s where
  wf := h.wf
  blank := h.blank
  counts i hi := by
    have hmem : (s.own.subs i).msgId ∈ wantedIds reports :=
      h.wanted ▸ find_mem (h.wf.find_of_index hi)
    obtain ⟨hsubs, hunsubs⟩ := hcounts _ (mem_wantedIds.mp hmem).1
    rw [hsubs, hunsubs]
    exact h.counts i hi
  wanted := h.wanted.trans hsame.symm
  standing := hstanding
  told := h.told
  untold := h.untold

/-! ## Reports -/

theorem standing_sub (h : ∀ m, unsubsOf m reports ≤ subsOf m reports) (msgId : MsgId) (qos : Qos) :
    ∀ m, unsubsOf m (reports ++ [.sub msgId qos]) ≤ subsOf m (reports ++ [.sub msgId qos]) := by
  intro m
  rw [subsOf_sub, unsubsOf_sub]
  exact Nat.le_trans (h m) (Nat.le_add_right _ _)

theorem standing_unsub (h : ∀ m, unsubsOf m reports ≤ subsOf m reports)
    (hmsg : unsubsOf msgId reports < subsOf msgId reports) :
    ∀ m, unsubsOf m (reports ++ [.unsub msgId]) ≤ subsOf m (reports ++ [.unsub msgId]) := by
  intro m
  rw [subsOf_unsub, unsubsOf_unsub]
  split
  · rename_i heq
    subst heq
    exact hmsg
  · exact h m

theorem wanted_other_sub {m : MsgId} (hm : m ≠ msgId) :
    Wanted (reports ++ [.sub msgId qos]) m ↔ Wanted reports m := by
  rw [Wanted, Wanted, subsOf_sub, unsubsOf_sub, if_neg (Ne.symm hm), Nat.add_zero]

theorem wanted_other_unsub {m : MsgId} (hm : m ≠ msgId) :
    Wanted (reports ++ [.unsub msgId]) m ↔ Wanted reports m := by
  rw [Wanted, Wanted, subsOf_unsub, unsubsOf_unsub, if_neg (Ne.symm hm), Nat.add_zero]

/-- The wanted MsgIDs change at most by the one a report names. -/
theorem wantedIds_same {reports' : List Report}
    (hmsg : Wanted reports' msgId ↔ Wanted reports msgId)
    (hother : ∀ m, m ≠ msgId → (Wanted reports' m ↔ Wanted reports m)) :
    wantedIds reports' = wantedIds reports := by
  ext m
  rw [mem_wantedIds, mem_wantedIds]
  by_cases hm : m = msgId
  · subst hm
    exact hmsg
  · exact hother m hm

theorem wanted_excluded (h : excluded msgId = true) : ¬Wanted reports msgId := by
  rintro ⟨hincl, _⟩
  rw [h] at hincl
  cases hincl

theorem Inv.wanted_find (h : Inv config reports s) {idx : Nat}
    (hfind : s.own.find msgId = some idx) : Wanted reports msgId :=
  mem_wantedIds.mp (h.wanted ▸ find_mem hfind)

theorem Inv.other_entry (h : Inv config reports s) {idx j : Nat}
    (hfind : s.own.find msgId = some idx) (hj : j < s.own.subCnt) (hne : j ≠ idx) :
    msgId ≠ (s.own.subs j).msgId := by
  obtain ⟨hidx, hid⟩ := find_eq_some hfind
  exact fun heq => hne (h.wf.index_unique hj hidx (heq.symm.trans hid.symm))

theorem Inv.sub_excluded (h : Inv config reports s) (hexcl : excluded msgId = true) :
    Inv config (reports ++ [.sub msgId qos]) s := by
  refine h.unnoticed (wantedIds_same (iff_of_false (wanted_excluded hexcl) (wanted_excluded hexcl))
    fun m hm => wanted_other_sub hm) (fun m hm => ?_) (standing_sub h.standing msgId qos)
  have hne : msgId ≠ m := by
    rintro rfl
    rw [hexcl] at hm
    cases hm
  rw [subsOf_sub, unsubsOf_sub, if_neg hne]
  exact ⟨rfl, rfl⟩

theorem Inv.sub_again (h : Inv config reports s) {idx : Nat}
    (hfind : s.own.find msgId = some idx)
    (hcount : subsOf msgId reports + 1 < unsubsOf msgId reports + 2 ^ 32) :
    Inv config (reports ++ [.sub msgId qos])
      { s with own := s.own.setInUseCtr idx ((s.own.subs idx).inUseCtr + 1) } := by
  obtain ⟨_, hid⟩ := find_eq_some hfind
  have hold := h.wanted_find hfind
  have hnow : Wanted (reports ++ [.sub msgId qos]) msgId := by
    refine ⟨hold.1, ?_⟩
    rw [subsOf_sub, unsubsOf_sub, if_pos rfl]
    exact Nat.lt_succ_of_lt hold.2
  refine h.recounted (wantedIds_same (iff_of_true hnow hold) fun m hm => wanted_other_sub hm)
    (fun j hj => ?_) (standing_sub h.standing msgId qos)
  rw [subsOf_sub, unsubsOf_sub]
  have hj := h.counts j hj
  by_cases heq : j = idx
  · subst heq
    rw [hid] at hj ⊢
    have hone : (1 : BitVec 32).toNat = 1 := rfl
    have hsum : ((s.own.subs j).inUseCtr + 1).toNat = (s.own.subs j).inUseCtr.toNat + 1 := by
      rw [BitVec.toNat_add_of_lt (by omega), hone]
    rw [if_pos rfl]
    simp only [Table.setInUseCtr, Function.update_self, hsum]
    omega
  · rw [if_neg (h.other_entry hfind ‹_› heq)]
    simp only [Table.setInUseCtr, Function.update_of_ne heq]
    exact hj

/-- The first subscription of a MsgID is told to every peer. -/
theorem Inv.sub_first (h : Inv config reports s) (hincl : excluded msgId = false)
    (hfind : s.own.find msgId = none)
    (hroom : (wantedIds (reports ++ [.sub msgId qos])).card ≤ SBN_MAX_SUBS_PER_PEER) :
    s.own.subCnt < SBN_MAX_SUBS_PER_PEER ∧
      Inv config (reports ++ [.sub msgId qos]) (({ s with
        own := s.own.append ⟨1, msgId, qos⟩ } : Network).told config
          (fun _ => localSubToPeer config.ident .subMsg msgId qos) config.peers) := by
  have hnew := find_eq_none.mp hfind
  have hsettled : subsOf msgId reports = unsubsOf msgId reports := by
    have hge : ¬unsubsOf msgId reports < subsOf msgId reports := fun hlt =>
      hnew (h.wanted ▸ mem_wantedIds.mpr ⟨hincl, hlt⟩)
    exact Nat.le_antisymm (Nat.le_of_not_lt hge) (h.standing msgId)
  have hnow : Wanted (reports ++ [.sub msgId qos]) msgId := by
    refine ⟨hincl, ?_⟩
    rw [subsOf_sub, unsubsOf_sub, if_pos rfl, hsettled]
    exact Nat.lt_succ_self _
  have hset : (s.own.append ⟨1, msgId, qos⟩).idSet = wantedIds (reports ++ [.sub msgId qos]) := by
    rw [append_idSet]
    ext m
    rw [Finset.mem_insert, mem_wantedIds, h.wanted, mem_wantedIds]
    by_cases hm : m = msgId
    · subst hm
      exact iff_of_true (Or.inl rfl) hnow
    · rw [wanted_other_sub hm]
      exact or_iff_right hm
  have hfree : s.own.subCnt < SBN_MAX_SUBS_PER_PEER := by
    rw [← hset, append_idSet, Finset.card_insert_of_notMem hnew, h.wf.card] at hroom
    exact hroom
  refine ⟨hfree, h.retold (.subs [msgId]) (h.wf.append hnew hfree)
    (append_blank h.blank) ?_ hset (standing_sub h.standing msgId qos) ?_ fun _ _ _ => ?_⟩
  · refine append_forall (P := fun sub => sub.inUseCtr.toNat + unsubsOf sub.msgId _ =
      subsOf sub.msgId _) (fun j hj => ?_) ?_
    · have hne : msgId ≠ (s.own.subs j).msgId := fun heq =>
        hnew (heq ▸ find_mem (h.wf.find_of_index hj))
      rw [subsOf_sub, unsubsOf_sub, if_neg hne]
      exact h.counts j hj
    · rw [subsOf_sub, unsubsOf_sub, if_pos rfl, hsettled]
      exact Nat.add_comm _ _
  · rw [append_idSet]
    ext m
    simp [Content.apply]
  · exact delivers_subs config.ident [{ msgId := msgId, qos := qos }]
      (show 1 ≤ maxPacked by decide)

theorem Inv.localSub (h : Inv config reports s) (hsent : ∀ peer, sent peer = true)
    (hroom : (wantedIds (reports ++ [.sub msgId qos])).card ≤ SBN_MAX_SUBS_PER_PEER)
    (hcount : subsOf msgId reports + 1 < unsubsOf msgId reports + 2 ^ 32) :
    (s.processLocalSub config sent msgId qos).1 = .success ∧
      Inv config (reports ++ [.sub msgId qos]) (s.processLocalSub config sent msgId qos).2 := by
  unfold Network.processLocalSub
  cases hexcl : excluded msgId with
  | true => exact ⟨rfl, h.sub_excluded hexcl⟩
  | false =>
    simp only [Bool.false_eq_true, if_false]
    cases hfind : s.own.find msgId with
    | some idx => exact ⟨rfl, h.sub_again hfind hcount⟩
    | none =>
      obtain ⟨hfree, hinv⟩ := h.sub_first hexcl hfind hroom
      simp only [if_neg (Nat.not_le_of_lt hfree)]
      rw [sendAll_told hsent _ (peers_nodup config)]
      exact ⟨rfl, hinv⟩

theorem Inv.unsub_excluded (h : Inv config reports s) (hfind : s.own.find msgId = none)
    (hmsg : unsubsOf msgId reports < subsOf msgId reports) :
    Inv config (reports ++ [.unsub msgId]) s := by
  have hexcl : excluded msgId = true := by
    by_contra hincl
    refine find_eq_none.mp hfind (h.wanted ▸ mem_wantedIds.mpr ⟨?_, hmsg⟩)
    simpa using hincl
  refine h.unnoticed (wantedIds_same (iff_of_false (wanted_excluded hexcl) (wanted_excluded hexcl))
    fun m hm => wanted_other_unsub hm) (fun m hm => ?_) (standing_unsub h.standing hmsg)
  have hne : msgId ≠ m := by
    rintro rfl
    rw [hexcl] at hm
    cases hm
  rw [subsOf_unsub, unsubsOf_unsub, if_neg hne]
  exact ⟨rfl, rfl⟩

theorem Inv.counter_less (h : Inv config reports s) {idx : Nat} (hidx : idx < s.own.subCnt) :
    ((s.own.subs idx).inUseCtr - 1).toNat = (s.own.subs idx).inUseCtr.toNat - 1 := by
  have hle : (1 : BitVec 32) ≤ (s.own.subs idx).inUseCtr := BitVec.le_def.mpr (h.inUse hidx)
  rw [BitVec.toNat_sub_of_le hle]
  rfl

/-- The counter runs out exactly when the last subscription ends. -/
theorem Inv.counter_spent (h : Inv config reports s) {idx : Nat}
    (hfind : s.own.find msgId = some idx) :
    ¬(s.own.subs idx).inUseCtr - 1 > 0 ↔ EndsLast reports msgId := by
  obtain ⟨hidx, hid⟩ := find_eq_some hfind
  have hcount := h.counts idx hidx
  have hpos := h.inUse hidx
  rw [hid] at hcount
  rw [gt_iff_lt, BitVec.lt_def, h.counter_less hidx]
  have hzero : (0 : BitVec 32).toNat = 0 := rfl
  rw [hzero]
  refine ⟨fun hspent => ⟨(h.wanted_find hfind).1, by omega⟩, fun hends => ?_⟩
  have hlast := hends.2
  omega

theorem Inv.counts_others (h : Inv config reports s) {idx : Nat} (ctr : BitVec 32)
    (hfind : s.own.find msgId = some idx) (j : Nat) (hj : j < s.own.subCnt) (hne : j ≠ idx) :
    ((s.own.setInUseCtr idx ctr).subs j).inUseCtr.toNat +
      unsubsOf ((s.own.setInUseCtr idx ctr).subs j).msgId (reports ++ [.unsub msgId]) =
        subsOf ((s.own.setInUseCtr idx ctr).subs j).msgId (reports ++ [.unsub msgId]) := by
  simp only [Table.setInUseCtr, Function.update_of_ne hne]
  rw [subsOf_unsub, unsubsOf_unsub, if_neg (h.other_entry hfind hj hne)]
  exact h.counts j hj

theorem Inv.unsub_again (h : Inv config reports s) {idx : Nat}
    (hfind : s.own.find msgId = some idx)
    (hmsg : unsubsOf msgId reports < subsOf msgId reports) (hmore : ¬EndsLast reports msgId) :
    Inv config (reports ++ [.unsub msgId])
      { s with own := s.own.setInUseCtr idx ((s.own.subs idx).inUseCtr - 1) } := by
  obtain ⟨hidx, hid⟩ := find_eq_some hfind
  have hold := h.wanted_find hfind
  have hmany : subsOf msgId reports ≠ unsubsOf msgId reports + 1 := fun heq =>
    hmore ⟨hold.1, heq⟩
  have hnow : Wanted (reports ++ [.unsub msgId]) msgId := by
    refine ⟨hold.1, ?_⟩
    rw [subsOf_unsub, unsubsOf_unsub, if_pos rfl]
    omega
  refine h.recounted (wantedIds_same (iff_of_true hnow hold) fun m hm => wanted_other_unsub hm)
    (fun j hj => ?_) (standing_unsub h.standing hmsg)
  by_cases heq : j = idx
  · subst heq
    have hcount := h.counts j hj
    have hless := h.counter_less hidx
    rw [hid] at hcount ⊢
    rw [subsOf_unsub, unsubsOf_unsub, if_pos rfl]
    simp only [Table.setInUseCtr, Function.update_self, hless]
    omega
  · have hother := h.counts_others ((s.own.subs idx).inUseCtr - 1) hfind j hj heq
    rwa [setInUseCtr_subs] at hother

/-- The node's table once the last subscription at `idx` ended. -/
def Network.remaining (s : Network) (idx : Nat) : Table :=
  (s.own.setInUseCtr idx ((s.own.subs idx).inUseCtr - 1)).remove idx

/-- The entry a peer is told by its own index is the blank one, when the table ends there. -/
theorem Inv.named_blank (h : Inv config reports s) {idx peerIdx : Nat}
    (hidx : idx < s.own.subCnt) (hend : s.own.subCnt ≤ peerIdx + 1) :
    ((s.remaining idx).subs peerIdx).msgId = 0 := by
  refine remove_blank (t := s.own.setInUseCtr idx _) hidx (fun j hj => ?_) peerIdx ?_
  · rw [setInUseCtr_subs]
    exact h.blank j hj
  · exact Nat.sub_le_of_le_add hend

theorem Inv.unsub_last (h : Inv config reports s) {idx : Nat}
    (hfind : s.own.find msgId = some idx) (hends : EndsLast reports msgId)
    (hspared : ∀ peer ∈ config.peers, s.hasConn config peer = true →
      ((s.remaining idx).subs peer.peerIdx).msgId = msgId) :
    Inv config (reports ++ [.unsub msgId]) (({ s with own := s.remaining idx } : Network).told
      config (fun peer => localSubToPeer config.ident .unsubMsg
        ((s.remaining idx).subs peer.peerIdx).msgId ((s.remaining idx).subs peer.peerIdx).qos)
      config.peers) := by
  obtain ⟨hidx, _⟩ := find_eq_some hfind
  have hmsg : unsubsOf msgId reports < subsOf msgId reports := by
    rw [hends.2]
    exact Nat.lt_succ_self _
  have hwf := h.wf.setInUseCtr idx ((s.own.subs idx).inUseCtr - 1)
  have herase : (s.remaining idx).idSet = s.own.idSet.erase msgId := by
    rw [← setInUseCtr_idSet (t := s.own) idx ((s.own.subs idx).inUseCtr - 1)]
    exact hwf.remove_idSet ((setInUseCtr_find idx _).trans hfind)
  refine h.retold (.unsub msgId) (hwf.remove hidx)
    (remove_blank hidx fun j hj => ?_) ?_ ?_ (standing_unsub h.standing hmsg) herase
    fun peer hpeer hconn => ?_
  · rw [setInUseCtr_subs]
    exact h.blank j hj
  · exact remove_forall (P := fun sub => sub.inUseCtr.toNat + unsubsOf sub.msgId _ =
      subsOf sub.msgId _) hidx (h.counts_others _ hfind)
  · rw [herase]
    ext m
    rw [Finset.mem_erase, mem_wantedIds, h.wanted, mem_wantedIds]
    by_cases hm : m = msgId
    · subst hm
      refine iff_of_false (fun hc => hc.1 rfl) fun hw => ?_
      have hlt := hw.2
      rw [subsOf_unsub, unsubsOf_unsub, if_pos rfl, hends.2] at hlt
      exact Nat.lt_irrefl _ hlt
    · rw [wanted_other_unsub hm]
      exact and_iff_right hm
  · have hdelivers := delivers_unsub config.ident ⟨0, msgId,
      ((s.remaining idx).subs peer.peerIdx).qos⟩
    rw [hspared peer hpeer hconn]
    exact hdelivers

/-- The three ways an unsubscription goes. -/
theorem Inv.localUnsub_cases (h : Inv config reports s) (msgId : MsgId)
    (hsent : ∀ peer, sent peer = true) :
    s.own.find msgId = none ∧ s.processLocalUnsub config sent msgId = (.success, s) ∨
    ∃ idx, s.own.find msgId = some idx ∧
      (¬EndsLast reports msgId ∧ s.processLocalUnsub config sent msgId =
          (.success, { s with own := s.own.setInUseCtr idx ((s.own.subs idx).inUseCtr - 1) }) ∨
        EndsLast reports msgId ∧ s.processLocalUnsub config sent msgId =
          (.success, ({ s with own := s.remaining idx } : Network).told config
            (fun peer => localSubToPeer config.ident .unsubMsg
              ((s.remaining idx).subs peer.peerIdx).msgId
              ((s.remaining idx).subs peer.peerIdx).qos) config.peers)) := by
  unfold Network.processLocalUnsub
  cases hfind : s.own.find msgId with
  | none => exact Or.inl ⟨rfl, rfl⟩
  | some idx =>
    refine Or.inr ⟨idx, rfl, ?_⟩
    by_cases hctr : (s.own.subs idx).inUseCtr - 1 > 0
    · refine Or.inl ⟨fun hends => (h.counter_spent hfind).mpr hends hctr, ?_⟩
      simp only [if_pos hctr]
    · refine Or.inr ⟨(h.counter_spent hfind).mp hctr, ?_⟩
      simp only [if_neg hctr]
      exact sendAll_told hsent _ (peers_nodup config) _

/-- Peers that are told the entry at their own index are told the right one. -/
theorem Inv.named (h : Inv config reports s) {idx : Nat} (hfind : s.own.find msgId = some idx)
    {peer : PeerAddr} (hspared : msgId = 0 ∧ s.own.subCnt ≤ peer.peerIdx + 1) :
    ((s.remaining idx).subs peer.peerIdx).msgId = msgId := by
  rw [h.named_blank (find_eq_some hfind).1 hspared.2, hspared.1]

theorem Inv.localUnsub (h : Inv config reports s) (hsent : ∀ peer, sent peer = true)
    (hmsg : unsubsOf msgId reports < subsOf msgId reports)
    (hspared : EndsLast reports msgId → ∀ peer ∈ config.peers, s.hasConn config peer = true →
      msgId = 0 ∧ s.own.subCnt ≤ peer.peerIdx + 1) :
    Inv config (reports ++ [.unsub msgId]) (s.processLocalUnsub config sent msgId).2 := by
  obtain ⟨hfind, heq⟩ | ⟨idx, hfind, ⟨hmore, heq⟩ | ⟨hends, heq⟩⟩ :=
    h.localUnsub_cases msgId hsent
  · rw [heq]
    exact h.unsub_excluded hfind hmsg
  · rw [heq]
    exact h.unsub_again hfind hmsg hmore
  · rw [heq]
    exact h.unsub_last hfind hends fun peer hpeer hconn =>
      h.named hfind (hspared hends peer hpeer hconn)

theorem unsubsOf_entries (reports : List Report) (entries : List (MsgId × Qos)) (m : MsgId) :
    unsubsOf m (reports ++ (PipeMsg.allSubs entries).reports) = unsubsOf m reports := by
  rw [unsubsOf, unsubsOf, List.countP_append, Nat.add_eq_left, List.countP_eq_zero]
  intro report hreport
  obtain ⟨entry, _, rfl⟩ := List.mem_map.mp hreport
  exact Bool.false_ne_true

theorem subsOf_append_le (reports more : List Report) (m : MsgId) :
    subsOf m reports ≤ subsOf m (reports ++ more) := by
  rw [subsOf, subsOf, List.countP_append]
  exact Nat.le_add_right _ _

theorem wantedIds_entries_subset (reports : List Report) (entries : List (MsgId × Qos)) :
    wantedIds reports ⊆ wantedIds (reports ++ (PipeMsg.allSubs entries).reports) := by
  intro m hm
  obtain ⟨hincl, hlt⟩ := mem_wantedIds.mp hm
  refine mem_wantedIds.mpr ⟨hincl, ?_⟩
  rw [unsubsOf_entries]
  exact Nat.lt_of_lt_of_le hlt (subsOf_append_le _ _ _)

/-- The entries of a packet are processed one after the other. -/
theorem Inv.entries (hsent : ∀ peer, sent peer = true) (entries : List (MsgId × Qos))
    {reports : List Report} {s : Network} (h : Inv config reports s)
    (hroom : (wantedIds (reports ++ (PipeMsg.allSubs entries).reports)).card ≤
      SBN_MAX_SUBS_PER_PEER)
    (hcount : ∀ m, subsOf m (reports ++ (PipeMsg.allSubs entries).reports) <
      unsubsOf m (reports ++ (PipeMsg.allSubs entries).reports) + 2 ^ 32) :
    Inv config (reports ++ (PipeMsg.allSubs entries).reports)
      (s.processEntries config sent entries).2 := by
  induction entries generalizing reports s with
  | nil => simpa [PipeMsg.reports, Network.processEntries] using h
  | cons entry entries ih =>
    obtain ⟨msgId, qos⟩ := entry
    have hsplit : reports ++ (PipeMsg.allSubs ((msgId, qos) :: entries)).reports =
        (reports ++ [.sub msgId qos]) ++ (PipeMsg.allSubs entries).reports := by
      simp [PipeMsg.reports]
    rw [hsplit] at hroom hcount ⊢
    have hfirst : subsOf msgId reports + 1 < unsubsOf msgId reports + 2 ^ 32 := by
      have hle := subsOf_append_le (reports ++ [.sub msgId qos])
        (PipeMsg.allSubs entries).reports msgId
      have hlt := hcount msgId
      rw [unsubsOf_entries, unsubsOf_sub] at hlt
      rw [subsOf_sub, if_pos rfl] at hle
      omega
    obtain ⟨hstatus, hinv⟩ := h.localSub hsent
      (Nat.le_trans (Finset.card_le_card (wantedIds_entries_subset _ _)) hroom) hfirst
    have hstep : s.processEntries config sent ((msgId, qos) :: entries) =
        (s.processLocalSub config sent msgId qos).2.processEntries config sent entries := by
      rw [Network.processEntries]
      split
      · rename_i heq
        rw [heq]
      · rename_i heq
        rw [heq] at hstatus
        cases hstatus
    rw [hstep]
    exact ih hinv hroom hcount

theorem Inv.report (h : Inv config reports s) {msg : PipeMsg} (hsent : ∀ peer, sent peer = true)
    (hmsg : Reported reports msg)
    (hspared : ∀ msgId, msg = .oneSub (.unsub msgId) → EndsLast reports msgId →
      ∀ peer ∈ config.peers, s.hasConn config peer = true →
        msgId = 0 ∧ s.own.subCnt ≤ peer.peerIdx + 1) :
    Inv config (reports ++ msg.reports) (s.checkSubscriptionPipe config sent msg).2 := by
  cases msg with
  | oneSub report =>
    cases report with
    | sub msgId qos =>
      refine (h.localSub hsent hmsg.room ?_).2
      have hlt := hmsg.countable msgId
      rwa [PipeMsg.reports, subsOf_sub, unsubsOf_sub, if_pos rfl] at hlt
    | unsub msgId => exact h.localUnsub hsent (hmsg.standing msgId rfl) (hspared msgId rfl)
  | allSubs entries =>
    rw [Network.checkSubscriptionPipe, if_neg (Nat.not_lt_of_le (hmsg.fits entries rfl))]
    exact Inv.entries hsent entries h hmsg.room hmsg.countable

/-! ## Connections and deliveries -/

/-- The history is not looked at. -/
theorem Inv.withHistory (h : Inv config reports s) (history : List Report) :
    Inv config reports { s with reports := history } where
  wf := h.wf
  blank := h.blank
  counts := h.counts
  wanted := h.wanted
  standing := h.standing
  told := h.told
  untold := h.untold

/-- A peer that is told the protocol version and the whole table knows it. -/
theorem Inv.greeted (h : Inv config reports s) {peer : PeerAddr} (hpeer : peer ∈ config.peers)
    (hmax : s.own.subCnt ≤ maxPacked) :
    Told config.ident (s.link peer ++ [protoMsg] ++ [localSubsToPeer config.ident s.own])
      (s.remote peer) s.own.idSet := by
  have hids : ((List.range s.own.subCnt).map s.own.subs).map Sub.msgId = s.own.ids := by
    rw [List.map_map]
    rfl
  have hbulk : Delivers config.ident (localSubsToPeer config.ident s.own) (.subs s.own.ids) := by
    have hdelivers := delivers_subs config.ident
      ((List.range s.own.subCnt).map s.own.subs) (by simpa using hmax)
    rw [hids, List.length_map, List.length_range] at hdelivers
    exact hdelivers
  have hroom : s.own.idSet.card ≤ SBN_MAX_SUBS_PER_PEER := h.wf.card ▸ h.wf.room
  have hproto := delivers_other config.ident [SBN_PROTO_VER]
  cases hconn : s.hasConn config peer with
  | true =>
    have hall : Content.apply s.own.idSet (.subs s.own.ids) = s.own.idSet := Finset.union_self _
    have htold := ((h.told peer hpeer hconn).snoc hproto hroom).snoc hbulk (by
      show (Content.apply s.own.idSet (.subs s.own.ids)).card ≤ _
      rwa [hall])
    exact hall ▸ htold
  | false =>
    obtain ⟨hlink, hwf, hempty⟩ := h.untold peer hpeer hconn
    have hall : Content.apply ∅ (.subs s.own.ids) = s.own.idSet := Finset.empty_union _
    have htold := ((told_nothing config.ident hwf hempty).snoc hproto
      (Nat.zero_le _)).snoc hbulk (by
        show (Content.apply ∅ (.subs s.own.ids)).card ≤ _
        rwa [hall])
    rw [hlink]
    exact hall ▸ htold

theorem Inv.connect (h : Inv config reports s) {peer : PeerAddr} {outcome : ConnectOutcome}
    (hpeer : peer ∈ config.peers) (hproto : outcome.protoSent = true)
    (hsubs : outcome.subsSent = true)
    (hmax : s.connected peer = false → outcome.pipe = true → s.own.subCnt ≤ maxPacked) :
    Inv config reports (s.connect config outcome peer) := by
  unfold Network.connect
  cases hconn : s.connected peer with
  | true => exact h
  | false =>
    cases hpipe : outcome.pipe with
    | false => exact h
    | true =>
      have hgreeted := h.greeted hpeer (hmax hconn hpipe)
      simp only [Bool.false_eq_true, if_false, if_true, Network.sendNetMsg, hproto, hsubs]
      refine { h with
        told := fun other hother hconn' => ?_
        untold := fun other hother hconn' => ?_ }
      · by_cases heq : other = peer
        · subst heq
          simpa using hgreeted
        · have hold : s.hasConn config other = true := by
            simpa [Network.hasConn, Function.update_of_ne heq] using hconn'
          simpa [Function.update_of_ne heq] using h.told other hother hold
      · by_cases heq : other = peer
        · subst heq
          simp [Network.hasConn] at hconn'
        · have hold : s.hasConn config other = false := by
            simpa [Network.hasConn, Function.update_of_ne heq] using hconn'
          simpa [Function.update_of_ne heq] using h.untold other hother hold

theorem Inv.deliver (h : Inv config reports s) {peer : PeerAddr} {subscribed : MsgId → Bool}
    {older stack : Base.ByteMemory.Memory} {msg : NetMsg} {rest : List NetMsg}
    (hlink : s.link peer = msg :: rest) (hsub : ∀ m, subscribed m = true) :
    Inv config reports { s with
      link := update s.link peer rest
      remote := update s.remote peer
        (processNetMsg config.ident subscribed older stack msg (s.remote peer)) } := by
  refine { h with told := fun other hother hconn => ?_, untold := fun other hother hconn => ?_ }
  · have hold := h.told other hother hconn
    by_cases heq : other = peer
    · subst heq
      simp only [Function.update_self]
      rw [hlink] at hold
      exact hold.deliver hsub older stack
    · simpa [Function.update_of_ne heq] using hold
  · have hold := h.untold other hother hconn
    by_cases heq : other = peer
    · subst heq
      rw [hlink] at hold
      exact absurd hold.1 (List.cons_ne_nil _ _)
    · simpa [Function.update_of_ne heq] using hold

theorem Inv.step {event : Event} (h : Inv config s.reports s) (hsound : Sound config s event)
    (hnext : s.next config event = some s') : Inv config s'.reports s' := by
  obtain ⟨hreliable, hspared⟩ := hsound
  cases event with
  | report msg sent =>
    cases hnext
    refine (h.report hreliable.1 hreliable.2 fun msgId hmsg => ?_).withHistory _
    subst hmsg
    exact hspared
  | connect peer outcome =>
    simp only [Network.next] at hnext
    split at hnext
    · rename_i hpeer
      cases hnext
      have hkept : (s.connect config outcome peer).reports = s.reports := by
        simp only [Network.connect, Network.sendNetMsg, hreliable.1, hreliable.2, if_true]
        split
        · rfl
        · split <;> rfl
      rw [hkept]
      exact h.connect hpeer hreliable.1 hreliable.2 hspared
    · cases hnext
  | deliver peer subscribed older stack =>
    simp only [Network.next] at hnext
    split at hnext
    · cases hnext
    · rename_i msg rest hlink
      cases hnext
      exact h.deliver hlink hreliable

theorem reaches_inv (h : (network config).Reaches (Sound config) s) : Inv config s.reports s := by
  refine @Machine.Reaches.invariant _ _ (network config) (Sound config)
    (fun s => Inv config s.reports s) ?_ (fun _ _ _ hinv hok hnext => hinv.step hok hnext) _ h
  rintro _ rfl
  exact inv_start

end Nos3.Sbn
