import Nos3.Base.QueueSet
import Nos3.Cf.Source.HandlerOutcomes

/-!
# What the steps of the engine do to the queues

Every step is a few calls on one transaction at most. `Touched` says what such a
step changes: the transaction keeps its identity and stays under way, or it is
freed, or it was free and gets an identity. The other transactions stay where
they are, and the queues hold each transaction of the pool once, where its
`q_index` says (`SeatedIf`).
-/
namespace Nos3.Cf
open Nos3.Base.QueueSet

def TxnRef.inPool (ref : TxnRef) : Prop := ∃ i < numTransactionsPerChannel, ref = .pool i

def World.indexOf (w : World) (ref : TxnRef) : QueueIdx := (w.txnOf ref).com.qIndex

/-- The transactions that `live` allows are linked, each once. -/
def SeatedIf (live : TxnRef → Prop) (w : World) : Prop :=
  Linked w.chan.qs w.indexOf live

variable {w w' mid : World} {ref r : TxnRef} {live : TxnRef → Prop} {cfg : Config}

theorem TxnRef.inPool.ne_stack (h : r.inPool) : r ≠ .stack := by
  obtain ⟨i, -, rfl⟩ := h
  nofun

@[simp] theorem txnOf_self (w : World) : w.txnOf w.self = w.t := if_pos rfl

theorem txnOf_other (hself : w'.self = w.self) (htxns : w'.txns = w.txns) (h : r ≠ w.self) :
    w'.txnOf r = w.txnOf r := by
  unfold World.txnOf
  rw [hself, if_neg h, if_neg h, htxns]

theorem focus_txnOf (hself : w.self = .stack) (hr : r ≠ .stack) :
    (w.focus ref).txnOf r = w.txnOf r := by
  by_cases hsame : r = ref
  · subst hsame
    exact if_pos rfl
  · unfold World.txnOf World.focus
    rw [if_neg hsame, hself, if_neg hr]

theorem rest_txnOf (hr : r ≠ .stack) : w.rest.txnOf r = w.txnOf r := by
  cases r with
  | stack => exact absurd rfl hr
  | pool i =>
    unfold World.rest World.txnOf
    cases hself : w.self with
    | stack => rfl
    | pool j =>
      by_cases hij : i = j
      · subst hij
        simp
      · simp [hij]

@[simp] theorem rest_self (w : World) : w.rest.self = .stack := rfl

@[simp] theorem rest_chan (w : World) : w.rest.chan = w.chan := rfl

@[simp] theorem rest_fault (w : World) : w.rest.fault = w.fault := rfl

theorem SeatedIf.focus (h : SeatedIf TxnRef.inPool w) (hself : w.self = .stack) (ref : TxnRef) :
    SeatedIf TxnRef.inPool (w.focus ref) :=
  h.congr fun _ hy => congrArg (·.com.qIndex) (focus_txnOf hself hy.ne_stack)

theorem SeatedIf.rest (h : SeatedIf TxnRef.inPool w) : SeatedIf TxnRef.inPool w.rest :=
  h.congr fun _ hy => congrArg (·.com.qIndex) (rest_txnOf hy.ne_stack)

/-! ## Calls on a transaction -/

theorem Quiet.indexOf (h : Quiet w w') (r : TxnRef) : w'.indexOf r = w.indexOf r := by
  by_cases hr : r = w.self
  · subst hr
    unfold World.indexOf
    rw [txnOf_self, ← h.self, txnOf_self]
    exact h.t.qIndex
  · exact congrArg (·.com.qIndex) (txnOf_other h.self h.txns hr)

theorem SeatedIf.quiet (hseated : SeatedIf live w) (h : Quiet w w') : SeatedIf live w' := by
  unfold SeatedIf
  rw [h.chan]
  exact hseated.congr fun r _ => h.indexOf r

theorem indexOf_self (w : World) : w.indexOf w.self = w.t.com.qIndex := by
  unfold World.indexOf
  rw [txnOf_self]

theorem indexOf_other (hself : w'.self = w.self) (htxns : w'.txns = w.txns) (h : r ≠ w.self) :
    w'.indexOf r = w.indexOf r := congrArg (·.com.qIndex) (txnOf_other hself htxns h)

/-- The queues without the transaction in use. -/
def World.withoutSelf (w : World) : QueueIdx → List TxnRef :=
  replaced w.chan.qs w.t.com.qIndex ((w.chan.qs w.t.com.qIndex).erase w.self)

theorem SeatedIf.relinked {q : QueueIdx} {refs : List TxnRef} (hseated : SeatedIf live w)
    (hlive : live w.self) (hself : w'.self = w.self) (htxns : w'.txns = w.txns)
    (hindex : w'.t.com.qIndex = q) (hrefs : refs.Perm (w.self :: w.withoutSelf q))
    (hqs : w'.chan.qs = replaced w.withoutSelf q refs) : SeatedIf live w' := by
  unfold SeatedIf
  rw [hqs]
  unfold World.withoutSelf at *
  rw [← indexOf_self] at *
  apply Linked.move hseated hlive hrefs
  · rw [← hself]
    exact hindex
  · exact fun y hy => indexOf_other hself htxns hy

theorem SeatedIf.moved {q : QueueIdx} (hseated : SeatedIf live w) (hlive : live w.self)
    (h : Moved w w' q) : SeatedIf live w' := by
  obtain ⟨refs, hrefs, hchan⟩ := h.chan
  exact hseated.relinked hlive h.self h.txns h.t.qIndex hrefs (congrArg Channel.qs hchan)

theorem SeatedIf.freed (hseated : SeatedIf live w) (hlive : live w.self) (h : Freed w w') :
    SeatedIf live w' :=
  hseated.relinked hlive h.self h.txns (congrArg (·.com.qIndex) h.t) List.perm_append_comm h.qs

/-- The timer that is armed last has nothing to do with the queues. -/
theorem SeatedIf.timer (hseated : SeatedIf live w) (timer : Timer) :
    SeatedIf live { w with t.inactivityTimer := timer } :=
  hseated.quiet (.transaction ⟨rfl, rfl, rfl, rfl, rfl, rfl, rfl, rfl, id⟩)

/-- A reset frees the transaction, or faults where it is free already. -/
theorem resetTransaction_freed_or_fault (w : World) (keepHistory : Bool) :
    Freed w (resetTransaction w keepHistory) ∨
      w.t.chunks = none ∧ resetTransaction w keepHistory = { w with fault := true } := by
  cases hchunks : w.t.chunks with
  | none => exact .inr ⟨rfl, resetTransaction_fault hchunks keepHistory⟩
  | some chunks => exact .inl (resetTransaction_freed (by rw [hchunks]; rfl) keepHistory)

theorem SeatedIf.handled (hseated : SeatedIf live w) (hlive : live w.self) (h : Handled w w') :
    SeatedIf live w' := by
  cases h with
  | stays hquiet => exact hseated.quiet hquiet
  | moves hquiet hq hsender hmoved =>
    exact (hseated.quiet hquiet).moved (hquiet.self ▸ hlive) hmoved
  | ends hquiet keepHistory timer =>
    rename_i mid
    apply SeatedIf.timer
    have hmid := hseated.quiet hquiet
    rcases resetTransaction_freed_or_fault mid keepHistory with hfreed | ⟨-, hfault⟩
    · exact hmid.freed (hquiet.self ▸ hlive) hfreed
    · rw [hfault]
      exact hmid

/-! ## What a step touches -/

/-- The transaction is under way: on a queue that is searched. -/
def World.underWay (w : World) (ref : TxnRef) : Prop :=
  ref.inPool ∧ w.indexOf ref ∈ activeQueues

theorem SeatedIf.underWay_iff (h : SeatedIf TxnRef.inPool w) :
    w.underWay ref ↔ w.chan.isActive ref = true := by
  unfold Channel.isActive
  rw [List.any_eq_true]
  constructor
  · rintro ⟨hpool, hq⟩
    exact ⟨w.indexOf ref, hq, decide_eq_true ((h.mem_iff _ _).mpr ⟨hpool, rfl⟩)⟩
  · rintro ⟨q, hq, hmem⟩
    obtain ⟨hpool, hindex⟩ := (h.mem_iff _ _).mp (of_decide_eq_true hmem)
    exact ⟨hpool, hindex ▸ hq⟩

/-- `(src_eid, seq_num)`. -/
abbrev Identity := EntityId × TransactionSeq

def Transaction.identity (t : Transaction) : Identity := (t.history.srcEid, t.history.seqNum)

/-- A free transaction, with whatever its inactivity timer was. -/
def Cleared (t : Transaction) : Prop :=
  ∃ timer, t = { freedTransaction with inactivityTimer := timer }

/-- `t` is under way after a call: it was before, under the same identity, or it is new. -/
def Continues (new : Identity) (before t : Transaction) : Prop :=
  before.com.qIndex ∈ activeQueues ∧ t.identity = before.identity ∨
    before.com.qIndex = .free ∧ t.identity = new

structure Touched (new : Identity) (w w' : World) (ref : TxnRef) : Prop where
  others : ∀ r, r.inPool → r ≠ ref → w'.txnOf r = w.txnOf r
  result : (w'.txnOf ref).com.qIndex ∈ activeQueues ∧ Continues new (w.txnOf ref) (w'.txnOf ref) ∨
    Cleared (w'.txnOf ref)
  busy : w'.fault = false → (w'.txnOf ref).com.qIndex ∈ activeQueues →
    (w'.txnOf ref).state ≠ .idle
  cur : ∀ r, w'.chan.cur = some r →
    r = ref ∧ (w'.txnOf ref).com.qIndex ∈ activeQueues ∨ r ≠ ref ∧ w.chan.cur = some r

theorem Placed.identity {t t' : Transaction} (h : Placed t t') : t'.identity = t.identity :=
  Prod.ext h.srcEid h.seqNum

theorem Cleared.not_active {t : Transaction} (h : Cleared t) : t.com.qIndex ∉ activeQueues := by
  obtain ⟨timer, rfl⟩ := h
  show QueueIdx.free ∉ activeQueues
  decide

/-- A call on the transaction in use. -/
theorem Handled.outcome (h : Handled w w') (hactive : w.t.com.qIndex ∈ activeQueues) :
    w'.self = w.self ∧ w'.txns = w.txns ∧
      (w'.t.com.qIndex ∈ activeQueues ∧ w'.t.identity = w.t.identity ∧
        (w'.fault = false → w'.t.state = w.t.state) ∧
        (w'.chan.cur = w.chan.cur ∨ w'.chan.cur = some w.self) ∨
      Cleared w'.t ∧ (∀ r, w'.chan.cur = some r → r ≠ w.self ∧ w.chan.cur = some r)) := by
  cases h with
  | stays hquiet =>
    refine ⟨hquiet.self, hquiet.txns, .inl ⟨?_, hquiet.t.identity, fun _ => hquiet.t.state,
      hquiet.cur⟩⟩
    rw [hquiet.t.qIndex]
    exact hactive
  | moves hquiet hq hsender hmoved =>
    rename_i mid q
    have hidentity : w'.t.identity = mid.t.identity := hmoved.t.identity
    refine ⟨hmoved.self.trans hquiet.self, hmoved.txns.trans hquiet.txns, .inl ⟨?_,
      hidentity.trans hquiet.t.identity,
      fun _ => hmoved.t.state.trans hquiet.t.state, ?_⟩⟩
    · rw [hmoved.t.qIndex]
      show q ∈ activeQueues
      rcases hq with rfl | rfl
      · decide
      · decide
    · obtain ⟨refs, -, hchan⟩ := hmoved.chan
      rw [hchan]
      exact hquiet.cur
  | ends hquiet keepHistory timer =>
    rename_i mid
    rcases resetTransaction_freed_or_fault mid keepHistory with hfreed | ⟨-, hfault⟩
    · refine ⟨hfreed.self.trans hquiet.self, hfreed.txns.trans hquiet.txns, .inr ⟨⟨timer, ?_⟩,
        fun r hr => ?_⟩⟩
      · show { (resetTransaction mid keepHistory).t with inactivityTimer := timer } = _
        rw [hfreed.t]
      · have hcur : (resetTransaction mid keepHistory).chan.cur = some r := hr
        rw [hfreed.cur, hquiet.self] at hcur
        split at hcur
        · cases hcur
        · rename_i hother
          rw [hcur] at hother
          refine ⟨fun hsame => hother (congrArg some hsame), ?_⟩
          rcases hquiet.cur with hkept | hself
          · rw [← hkept, hcur]
          · rw [hself] at hcur
            exact absurd hcur.symm hother
    · rw [hfault]
      refine ⟨hquiet.self, hquiet.txns, .inl ⟨?_, hquiet.t.identity, fun _ => hquiet.t.state,
        hquiet.cur⟩⟩
      show mid.t.com.qIndex ∈ activeQueues
      rw [hquiet.t.qIndex]
      exact hactive

variable {new : Identity}

/-- A call, and what prepared the transaction for it. -/
theorem Handled.touched {wf : World} {fault : Bool} (h : Handled wf w') (hself : wf.self = ref)
    (href : ref.inPool) (hothers : ∀ r, r.inPool → r ≠ ref → wf.txnOf r = w.txnOf r)
    (hcontinues : Continues new (w.txnOf ref) wf.t) (hactive : wf.t.com.qIndex ∈ activeQueues)
    (hcur : wf.chan.cur = w.chan.cur)
    (hbusy : fault = false → w'.t.com.qIndex ∈ activeQueues → w'.t.state ≠ .idle) :
    Touched new w { w' with fault := fault }.rest ref := by
  obtain ⟨hself', htxns, houtcome⟩ := h.outcome hactive
  have ht : { w' with fault := fault }.rest.txnOf ref = w'.t := by
    rw [rest_txnOf href.ne_stack, ← hself, ← hself']
    exact txnOf_self w'
  constructor
  · intro r hr hne
    rw [rest_txnOf hr.ne_stack, ← hothers r hr hne]
    exact txnOf_other hself' htxns (hself ▸ hne)
  · rw [ht]
    rcases houtcome with ⟨hindex, hidentity, -, -⟩ | ⟨hcleared, -⟩
    · refine .inl ⟨hindex, ?_⟩
      unfold Continues
      rw [hidentity]
      exact hcontinues
    · exact .inr hcleared
  · rw [ht]
    exact hbusy
  · intro r hr
    rw [ht]
    rcases houtcome with ⟨hindex, -, -, hkept | hpoints⟩ | ⟨-, hgone⟩
    · by_cases hsame : r = ref
      · exact .inl ⟨hsame, hindex⟩
      · exact .inr ⟨hsame, by rw [← hcur, ← hkept]; exact hr⟩
    · have hr : w'.chan.cur = some r := hr
      rw [hpoints, hself] at hr
      exact .inl ⟨(Option.some.inj hr).symm, hindex⟩
    · obtain ⟨hne, hbefore⟩ := hgone r hr
      exact .inr ⟨hself ▸ hne, by rw [← hcur]; exact hbefore⟩

/-- The engine between two steps. -/
structure EngineInv (w : World) : Prop where
  self : w.self = .stack
  linked : SeatedIf TxnRef.inPool w
  places : ∀ r, r.inPool → (w.txnOf r).com.qIndex ∈ activeQueues ∨ Cleared (w.txnOf r)
  busy : w.fault = false → ∀ r, r.inPool → (w.txnOf r).com.qIndex ∈ activeQueues →
    (w.txnOf r).state ≠ .idle

theorem EngineInv.touched (h : EngineInv w) (hok : w.fault = false) (htouched : Touched new w w' ref)
    (hself : w'.self = .stack) (hlinked : SeatedIf TxnRef.inPool w') : EngineInv w' := by
  refine ⟨hself, hlinked, fun r hr => ?_, fun hok' r hr => ?_⟩
  · by_cases hsame : r = ref
    · rw [hsame]
      exact htouched.result.imp And.left id
    · rw [htouched.others r hr hsame]
      exact h.places r hr
  · by_cases hsame : r = ref
    · rw [hsame]
      exact htouched.busy hok'
    · rw [htouched.others r hr hsame]
      exact h.busy hok r hr

/-- A call on a transaction that is under way. -/
theorem EngineInv.call (new : Identity) (h : EngineInv w) (hok : w.fault = false)
    (href : w.underWay ref)
    (hcall : Handled (w.focus ref) w') :
    EngineInv w'.rest ∧ Touched new w w'.rest ref := by
  have ht : (w.focus ref).t = w.txnOf ref := rfl
  have hactive : (w.focus ref).t.com.qIndex ∈ activeQueues := href.2
  have htouched : Touched new w w'.rest ref := by
    apply hcall.touched rfl href.1 _ (.inl ⟨href.2, rfl⟩) hactive rfl
    · intro hok' hindex
      rcases (hcall.outcome hactive).2.2 with ⟨-, -, hstate, -⟩ | ⟨hcleared, -⟩
      · rw [hstate hok']
        exact h.busy hok ref href.1 href.2
      · exact absurd hindex hcleared.not_active
    · exact fun r hr _ => focus_txnOf h.self hr.ne_stack
  have hlinked : SeatedIf TxnRef.inPool w'.rest :=
    ((h.linked.focus h.self ref).handled href.1 hcall).rest
  exact ⟨h.touched hok htouched rfl hlinked, htouched⟩

/-! ## Transactions that are taken from the pool -/

/-- The transaction is in use and on no queue. -/
structure Taken (w w' : World) (ref : TxnRef) : Prop where
  pool : ref.inPool
  free : Cleared (w.txnOf ref)
  self : w'.self = ref
  t : ∃ history timer,
    w'.t = { freedTransaction with inactivityTimer := timer, history := history }
  others : ∀ r, r.inPool → r ≠ ref → w'.txnOf r = w.txnOf r
  linked : SeatedIf (fun r => r.inPool ∧ r ≠ ref) w'
  cur : w'.chan.cur = w.chan.cur
  seqNum : w'.seqNum = w.seqNum

theorem takeHistory_frame {c c' : Channel} {h : History} (htake : takeHistory c = some (h, c')) :
    c'.qs = c.qs ∧ c'.cur = c.cur := by
  unfold takeHistory at htake
  split at htake
  · cases htake
    exact ⟨rfl, rfl⟩
  · cases htake
    exact ⟨rfl, rfl⟩
  · cases htake

theorem findUnusedTransaction_taken (h : EngineInv w) (hfind : findUnusedTransaction w = some w') :
    ∃ ref, Taken w w' ref := by
  unfold findUnusedTransaction at hfind
  split at hfind
  · cases hfind
  · rename_i ref rest hfree
    have hmem : ref ∈ w.chan.qs .free := by
      rw [hfree]
      exact List.mem_cons_self
    obtain ⟨hpool, hindex⟩ := (h.linked.mem_iff _ _).mp hmem
    have hcleared : Cleared (w.txnOf ref) := by
      refine (h.places ref hpool).resolve_left fun hactive => ?_
      rw [show (w.txnOf ref).com.qIndex = .free from hindex] at hactive
      exact absurd hactive (by decide)
    obtain ⟨timer, hfree'⟩ := hcleared
    have hfocused : (w.focus ref).indexOf ref = .free := by
      rw [← hindex]
      exact congrArg (·.com.qIndex) (focus_txnOf h.self hpool.ne_stack)
    have hremoved := (h.linked.focus h.self ref).remove ref
    rw [hfocused] at hremoved
    have htaken (hself : w'.self = ref) (htxns : w'.txns = w.txns)
        (ht : ∃ history timer, w'.t =
          { freedTransaction with inactivityTimer := timer, history := history })
        (hqs : w'.chan.qs = (listRemoveEx w.chan .free ref).qs) (hcur : w'.chan.cur = w.chan.cur)
        (hseqNum : w'.seqNum = w.seqNum) : Taken w w' ref := by
      have hothers (r : TxnRef) (hr : r.inPool) (hne : r ≠ ref) : w'.txnOf r = w.txnOf r :=
        (txnOf_other (w := w.focus ref) hself htxns hne).trans (focus_txnOf h.self hr.ne_stack)
      refine ⟨hpool, ⟨timer, hfree'⟩, hself, ht, hothers, ?_, hcur, hseqNum⟩
      unfold SeatedIf
      rw [hqs]
      refine hremoved.congr fun r hr => ?_
      unfold World.indexOf
      rw [hothers r hr.1 hr.2, focus_txnOf h.self hr.1.ne_stack]
    refine ⟨ref, ?_⟩
    dsimp only at hfind
    split at hfind
    · rename_i history c htake
      obtain ⟨hqs, hcur⟩ := takeHistory_frame htake
      have hfind := (Option.some.inj hfind).symm
      refine htaken ?_ ?_ ⟨{ history with dir := .num }, timer, ?_⟩ ?_ ?_ ?_
      · rw [hfind]
        rfl
      · rw [hfind]
        rfl
      · rw [hfind]
        exact congrArg (fun t : Transaction => { t with history := { history with dir := .num } })
          hfree'
      · rw [hfind]
        exact hqs
      · rw [hfind]
        exact hcur
      · rw [hfind]
        rfl
    · have hfind := (Option.some.inj hfind).symm
      refine htaken ?_ ?_ ⟨freedTransaction.history, timer, ?_⟩ ?_ ?_ ?_
      · rw [hfind]
        rfl
      · rw [hfind]
        rfl
      · rw [hfind]
        exact hfree'
      · rw [hfind]
        rfl
      · rw [hfind]
        rfl
      · rw [hfind]
        rfl

/-- The transaction is put on its first queue. -/
theorem SeatedIf.inserted {q : QueueIdx} {refs : List TxnRef}
    (hseated : SeatedIf (fun r => r.inPool ∧ r ≠ ref) w) (href : ref.inPool) (hself : w'.self = ref)
    (hothers : ∀ r, r.inPool → r ≠ ref → w'.txnOf r = w.txnOf r) (hindex : w'.t.com.qIndex = q)
    (hrefs : refs.Perm (ref :: w.chan.qs q)) (hqs : w'.chan.qs = replaced w.chan.qs q refs) :
    SeatedIf TxnRef.inPool w' := by
  unfold SeatedIf
  rw [hqs]
  have hinserted : Linked (replaced w.chan.qs q refs) w'.indexOf
      fun r => (r.inPool ∧ r ≠ ref) ∨ r = ref := by
    apply Linked.insert hseated (fun hgone => hgone.2 rfl) hrefs
    · rw [← hself, indexOf_self, hindex]
    · exact fun r hr => congrArg (·.com.qIndex) (hothers r hr.1 hr.2)
  refine ⟨hinserted.nodup, fun q' r => (hinserted.mem_iff q' r).trans (and_congr_left fun _ => ?_)⟩
  constructor
  · rintro (hr | rfl)
    · exact hr.1
    · exact href
  · intro hr
    by_cases hsame : r = ref
    · exact .inr hsame
    · exact .inl ⟨hr, hsame⟩

/-- A transaction that was just taken for a PDU and has its queue. -/
theorem startRx_inserted (h : Taken w w' ref) :
    (startRx w').self = ref ∧ (∀ r, r.inPool → r ≠ ref → (startRx w').txnOf r = w.txnOf r) ∧
      SeatedIf TxnRef.inPool (startRx w') := by
  have hothers (r : TxnRef) (hr : r.inPool) (hne : r ≠ ref) :
      (startRx w').txnOf r = w.txnOf r := by
    rw [← h.others r hr hne]
    exact txnOf_other rfl rfl (h.self ▸ hne)
  refine ⟨h.self, hothers, ?_⟩
  refine h.linked.inserted h.pool h.self (fun r hr hne => ?_) rfl ?_ rfl
  · rw [hothers r hr hne, h.others r hr hne]
  · rw [← h.self]
    exact List.perm_append_comm

theorem recvIdle_busy (cfg : Config) (w : World) (ph : PduBuffer)
    (hok : (recvIdle cfg w ph).fault = false)
    (hactive : (recvIdle cfg w ph).t.com.qIndex ∈ activeQueues) :
    (recvIdle cfg w ph).t.state ≠ .idle := by
  unfold recvIdle at *
  dsimp only at *
  generalize (if ph.pduHeader.pduType ≠ 0 then recvIdleFd cfg (bindTransaction w ph.pduHeader) ph
    else recvIdleDirective cfg (bindTransaction w ph.pduHeader) ph) = received at *
  split at hok
  · rename_i hidle
    rw [if_pos hidle] at hactive
    rcases resetTransaction_freed_or_fault received false with hfreed | ⟨-, hfault⟩
    · rw [hfreed.t] at hactive
      exact absurd hactive (by decide)
    · rw [hfault] at hok
      cases hok
  · rename_i hbusy
    rw [if_neg hbusy]
    exact hbusy

/-- The identity a new transaction gets from its first PDU. -/
def PduHeader.identity (hdr : PduHeader) : Identity := (hdr.sourceEid, hdr.sequenceNum)

theorem receiveNew (cfg : Config) (h : EngineInv w) (hok : w.fault = false)
    (htaken : Taken w w' ref) (ph : PduBuffer) :
    EngineInv (dispatchRecv cfg (startRx w') ph).rest ∧
      Touched ph.pduHeader.identity w (dispatchRecv cfg (startRx w') ph).rest ref := by
  obtain ⟨history, timer, ht⟩ := htaken.t
  obtain ⟨hself, hothers, hlinked⟩ := startRx_inserted htaken
  have hidle : (startRx w').t.state = .idle := by
    show w'.t.state = .idle
    rw [ht]
    rfl
  have hbusy := recvIdle_busy cfg (startRx w') ph
  obtain ⟨state, last, -, hhandled, hlast⟩ := recvIdle_handled cfg (startRx w') ph hidle
  unfold dispatchRecv
  dsimp only
  rw [if_pos hidle]
  have hbefore : (w.txnOf ref).com.qIndex = .free := by
    obtain ⟨timer', hfree⟩ := htaken.free
    rw [hfree]
    rfl
  have hseated : SeatedIf TxnRef.inPool
      { bindTransaction (startRx w') ph.pduHeader with t.state := state } := by
    refine hlinked.congr fun r hr => ?_
    by_cases hsame : r = ref
    · subst hsame
      rw [← hself]
      exact (indexOf_self _).trans (indexOf_self (startRx w')).symm
    · exact indexOf_other (w := startRx w') rfl rfl (hself ▸ hsame)
  have hdone {w'' : World} {fault : Bool} (hcall : Handled
        { bindTransaction (startRx w') ph.pduHeader with t.state := state } w'')
      (hstays : fault = false → w''.t.com.qIndex ∈ activeQueues → w''.t.state ≠ .idle) :
      EngineInv { w'' with fault := fault }.rest ∧
        Touched ph.pduHeader.identity w { w'' with fault := fault }.rest ref := by
    have hactive : QueueIdx.rx ∈ activeQueues := by decide
    have htouched : Touched ph.pduHeader.identity w { w'' with fault := fault }.rest ref := by
      refine hcall.touched hself htaken.pool (fun r hr hne => ?_) (.inr ⟨hbefore, rfl⟩) hactive
        htaken.cur hstays
      rw [← hothers r hr hne]
      exact txnOf_other rfl rfl (hself ▸ hne)
    have hseats : SeatedIf TxnRef.inPool w'' := hseated.handled (hself ▸ htaken.pool) hcall
    have hseats : SeatedIf TxnRef.inPool { w'' with fault := fault } := hseats
    have hseats := hseats.rest
    exact ⟨h.touched hok htouched rfl hseats, htouched⟩
  have hcall := hhandled.armInactTimer cfg
  rcases hlast with hlast | hlast
  · rw [hlast] at hbusy ⊢
    exact hdone hcall hbusy
  · rw [hlast]
    exact hdone hcall nofun

theorem Taken.index (h : Taken w w' ref) : (w.txnOf ref).com.qIndex = .free := by
  obtain ⟨timer, hfree⟩ := h.free
  rw [hfree]
  rfl

theorem initiate_frame (cfg : Config) (w : World) (request : FileRequest) :
    (initiate cfg w request).self = w.self ∧ (initiate cfg w request).txns = w.txns ∧
      (initiate cfg w request).chan.cur = w.chan.cur ∧
      (initiate cfg w request).t.com.qIndex = .pend ∧
      (initiate cfg w request).t.identity = (cfg.localEid, w.seqNum + 1) ∧
      (initiate cfg w request).t.state ≠ .idle ∧
      ∃ refs, refs.Perm (w.self :: w.chan.qs .pend) ∧
        (initiate cfg w request).chan.qs = replaced w.chan.qs .pend refs := by
  obtain ⟨prepared, heq, hself, hqs⟩ : ∃ prepared, initiate cfg w request =
      insertSortPrio prepared .pend ∧ prepared.self = w.self ∧ prepared.chan.qs = w.chan.qs :=
    ⟨_, rfl, rfl, rfl⟩
  obtain ⟨refs, hrefs, hchan⟩ := insertSortPrio_chan prepared .pend
  refine ⟨rfl, rfl, rfl, rfl, rfl, ?_, refs, ?_, ?_⟩
  · show ite _ _ _ ≠ TxnState.idle
    split
    · nofun
    · nofun
  · rw [← hself, ← hqs]
    exact hrefs
  · rw [heq, hchan, ← hqs]
    rfl

/-- A file request that got its transaction, and what its origin notes in it. -/
theorem initiateNew (cfg : Config) (request : FileRequest) (last : World) (h : EngineInv w)
    (hok : w.fault = false)
    (htaken : Taken w w' ref) (hself : last.self = w'.self) (htxns : last.txns = w'.txns)
    (hcom : last.t.com = (initiate cfg w' request).t.com)
    (hhistory : last.t.history = (initiate cfg w' request).t.history)
    (hstate : last.t.state = (initiate cfg w' request).t.state)
    (hqs : last.chan.qs = (initiate cfg w' request).chan.qs)
    (hcur : last.chan.cur = (initiate cfg w' request).chan.cur) :
    EngineInv last.rest ∧ Touched (cfg.localEid, w.seqNum + 1) w last.rest ref := by
  obtain ⟨-, -, hkept, hindex, hidentity, hbusy, refs, hrefs, hqueues⟩ :=
    initiate_frame cfg w' request
  have hself : last.self = ref := hself.trans htaken.self
  have hothers (r : TxnRef) (hr : r.inPool) (hne : r ≠ ref) : last.txnOf r = w'.txnOf r :=
    txnOf_other (hself.trans htaken.self.symm) htxns (htaken.self ▸ hne)
  have hlinked : SeatedIf TxnRef.inPool last :=
    htaken.linked.inserted htaken.pool hself hothers ((congrArg FlagsCommon.qIndex hcom).trans hindex)
      (htaken.self ▸ hrefs) (hqs.trans hqueues)
  have htouched : Touched (cfg.localEid, w.seqNum + 1) w last.rest ref := by
    apply (Handled.refl last).touched hself htaken.pool
    · exact fun r hr hne => (hothers r hr hne).trans (htaken.others r hr hne)
    · refine .inr ⟨htaken.index, ?_⟩
      unfold Transaction.identity at *
      rw [hhistory, hidentity, htaken.seqNum]
    · rw [hcom, hindex]
      decide
    · rw [hcur, hkept, htaken.cur]
    · intro _ _
      rw [hstate]
      exact hbusy
  exact ⟨h.touched hok htouched rfl hlinked.rest, htouched⟩

end Nos3.Cf

/-!
## The steps of the engine

A step of the engine leaves the transactions alone or it touches one of them. A
transaction that is new has an identity that was not in use, unless it is a
local file request's.
-/
namespace Nos3.Cf
open Nos3.Base.Transition

variable {cfg : Config} {w w' : World} {ref : TxnRef} {event : EngineEvent} {new : Identity}

/-- No transaction under way has the identity. -/
def World.unused (w : World) (identity : Identity) : Prop :=
  ∀ r, w.underWay r → (w.txnOf r).identity ≠ identity

/-- The identity the next local file request takes. -/
def World.nextIdentity (cfg : Config) (w : World) : Identity := (cfg.localEid, w.seqNum + 1)

/-- Whether a request takes a transaction. -/
def EngineEvent.sends (c : Channel) : EngineEvent → Bool
  | .txFile _ => c.numCmdTx != maxCommandedPlaybackFilesPerChan
  | .playback p _ =>
    decide (p < numPlaybacksPerChannel ∧ c.numTs p < numTransactionsPerPlayback)
  | _ => false

/-- The acknowledgement of an unknown FIN finds the limit reached or no buffer. -/
def World.noBuffer (cfg : Config) (w : World) : Prop :=
  (cfg.chan.maxOutgoingMessagesPerWakeup ≠ 0 ∧
      w.outgoingCounter = cfg.chan.maxOutgoingMessagesPerWakeup) ∨
    w.chan.frozen = false ∧ w.buffers 0 = false

/-- The message is a FIN of a local transaction that is not known any more. -/
def UnknownFin (cfg : Config) (w : World) (octets : List Octet) : Prop :=
  let ph := receivedPdu octets
  (recvPh (decodeStart octets 0 octets.length)).1 = true ∧
    findTransactionBySequenceNumber w ph.pduHeader.sequenceNum ph.pduHeader.sourceEid = none ∧
    ph.pduHeader.sourceEid = cfg.localEid ∧ ph.fdirective.directiveCode = FileDirective.fin ∧
    (recvFin ph).1 = true

def EngineEvent.unacknowledged (cfg : Config) (w : World) : EngineEvent → Prop
  | .receive octets => UnknownFin cfg w octets ∧ w.noBuffer cfg
  | _ => False

inductive StepOutcome (cfg : Config) (event : EngineEvent) (w w' : World) : Prop
  | same (htxns : ∀ r, r.inPool → w'.txnOf r = w.txnOf r)
      (hcur : w'.chan.cur = w.chan.cur ∨ w'.chan.cur = none ∨ event.unacknowledged cfg w)
  | touched (ref : TxnRef) (new : Identity) (hpool : ref.inPool) (h : Touched new w w' ref)
      (hnew : w.indexOf ref = .free →
        event.sends w.chan = true ∧ new = w.nextIdentity cfg ∨ w.unused new)

/-- A step that has nothing to do with transactions. -/
theorem EngineInv.same (h : EngineInv w) (hself : w'.self = .stack)
    (htxns : ∀ r, r.inPool → w'.txnOf r = w.txnOf r) (hqs : w'.chan.qs = w.chan.qs)
    (hok : w.fault = false) : EngineInv w' := by
  refine ⟨hself, ?_, fun r hr => ?_, fun _ r hr => ?_⟩
  · unfold SeatedIf
    rw [hqs]
    exact h.linked.congr fun r hr => congrArg (·.com.qIndex) (htxns r hr)
  · rw [htxns r hr]
    exact h.places r hr
  · rw [htxns r hr]
    exact h.busy hok r hr

/-- A call on a transaction that is under way. -/
theorem EngineInv.callStep (cfg : Config) (event : EngineEvent) (h : EngineInv w)
    (hok : w.fault = false) (href : w.underWay ref) (hcall : Handled (w.focus ref) w') :
    EngineInv w'.rest ∧ StepOutcome cfg event w w'.rest := by
  obtain ⟨hinv, htouched⟩ := h.call default hok href hcall
  refine ⟨hinv, .touched ref default href.1 htouched fun hfree => ?_⟩
  have hactive := href.2
  rw [hfree] at hactive
  exact absurd hactive (by decide)

theorem EngineInv.mem_underWay (h : EngineInv w) {q : QueueIdx} (hq : q ∈ activeQueues)
    (hmem : ref ∈ w.chan.qs q) : w.underWay ref := by
  obtain ⟨hpool, hindex⟩ := (h.linked.mem_iff q ref).mp hmem
  exact ⟨hpool, hindex ▸ hq⟩

/-! ## Received messages -/

theorem findTransaction_some (h : EngineInv w) {seqNum : TransactionSeq} {srcEid : EntityId}
    (hfind : findTransactionBySequenceNumber w seqNum srcEid = some ref) : w.underWay ref := by
  obtain ⟨q, hq, hmem⟩ := List.mem_flatMap.mp (List.mem_of_find?_eq_some hfind)
  exact h.mem_underWay hq hmem

theorem findTransaction_none (h : EngineInv w) {seqNum : TransactionSeq} {srcEid : EntityId}
    (hfind : findTransactionBySequenceNumber w seqNum srcEid = none) :
    w.unused (srcEid, seqNum) := by
  intro r hr hidentity
  have hmem : r ∈ activeQueues.flatMap w.chan.qs :=
    List.mem_flatMap.mpr ⟨_, hr.2, (h.linked.mem_iff _ _).mpr ⟨hr.1, rfl⟩⟩
  have hno := List.find?_eq_none.mp hfind r hmem
  have hsrc : (w.txnOf r).history.srcEid = srcEid := congrArg Prod.fst hidentity
  have hseq : (w.txnOf r).history.seqNum = seqNum := congrArg Prod.snd hidentity
  rw [hsrc, hseq] at hno
  simp at hno

theorem msgOutGet_cur_kept {cfg : Config} {w : World} (h : ¬w.noBuffer cfg)
    (hactive : w.t.com.suspended = false) : (msgOutGet cfg w).2.chan.cur = w.chan.cur := by
  unfold World.noBuffer at h
  unfold msgOutGet
  dsimp only
  split
  · rename_i hlimit
    exact absurd (.inl hlimit) h
  · split
    · rename_i hopen
      split
      · rfl
      · rename_i hnone
        refine absurd (.inr ⟨?_, by simpa using hnone⟩) h
        simpa [hactive] using hopen
    · rfl

theorem sendAck_cur (cfg : Config) (w : World) (ts dirCode cc : Octet) (peerEid : EntityId)
    (tsn : TransactionSeq) :
    (sendAck cfg w ts dirCode cc peerEid tsn).2.chan.cur = (msgOutGet cfg w).2.chan.cur := by
  simp only [sendAck, constructPduHeader, sendDirective]
  cases (msgOutGet cfg w).1 with
  | none => rfl
  | some ph => rfl

theorem ackUnknownFin_outcome (h : EngineInv w) (hok : w.fault = false) (ph : PduBuffer)
    (hevent : (recvFin ph).1 = true → w.noBuffer cfg → event.unacknowledged cfg w) :
    EngineInv (ackUnknownFin cfg w ph) ∧ StepOutcome cfg event w (ackUnknownFin cfg w ph) := by
  unfold ackUnknownFin
  dsimp only
  split
  · rename_i hdecoded
    generalize (recvFin ph).2.intHeader.asFin.cc = cc
    generalize (recvFin ph).2.pduHeader.destinationEid = peerEid
    generalize (recvFin ph).2.pduHeader.sequenceNum = tsn
    have hcur (hbuffer : ¬w.noBuffer cfg) :
        (sendAck cfg { w with t := initTxnTxFile default .class2 true 0 } AckTxnStatus.unrecognized
          FileDirective.fin cc peerEid tsn).2.chan.cur = w.chan.cur :=
      (sendAck_cur ..).trans (msgOutGet_cur_kept hbuffer rfl)
    have hframe := sendAck_frame cfg { w with t := initTxnTxFile default .class2 true 0 }
      AckTxnStatus.unrecognized FileDirective.fin cc peerEid tsn
    generalize sendAck cfg { w with t := initTxnTxFile default .class2 true 0 }
      AckTxnStatus.unrecognized FileDirective.fin cc peerEid tsn = out at hcur hframe
    have htxns (last : World) (hself : last.self = out.2.self) (htxns : last.txns = out.2.txns)
        (r : TxnRef) (hr : r.inPool) : last.rest.txnOf r = w.txnOf r := by
      rw [rest_txnOf hr.ne_stack]
      exact txnOf_other (w := w) (hself.trans hframe.self) (htxns.trans hframe.txns)
        (h.self ▸ hr.ne_stack)
    have hqs : out.2.chan.qs = w.chan.qs := by rw [hframe.chan]
    split
    · refine ⟨h.same rfl (htxns _ rfl rfl) hqs hok, .same (htxns _ rfl rfl) (.inr (.inl rfl))⟩
    · refine ⟨h.same rfl (htxns _ rfl rfl) hqs hok, .same (htxns _ rfl rfl) ?_⟩
      by_cases hbuffer : w.noBuffer cfg
      · exact .inr (.inr (hevent hdecoded hbuffer))
      · exact .inl (hcur hbuffer)
  · exact ⟨h, .same (fun _ _ => rfl) (.inl rfl)⟩

/-- A transaction that is taken, or the fault where there is none. -/
theorem findUnused_outcome (h : EngineInv w) (hok : w.fault = false) (next : World → World)
    (hnext : ∀ w' ref, Taken w w' ref →
      EngineInv (next w') ∧ StepOutcome cfg event w (next w')) :
    EngineInv (match findUnusedTransaction w with
      | some w' => next w'
      | none => { w with fault := true }) ∧
    StepOutcome cfg event w (match findUnusedTransaction w with
      | some w' => next w'
      | none => { w with fault := true }) := by
  cases hfind : findUnusedTransaction w with
  | none =>
    exact ⟨h.same h.self (fun _ _ => rfl) rfl hok, .same (fun _ _ => rfl) (.inl rfl)⟩
  | some w' =>
    obtain ⟨ref, htaken⟩ := findUnusedTransaction_taken h hfind
    exact hnext w' ref htaken

theorem receiveUnknown_outcome (h : EngineInv w) (hok : w.fault = false) (ph : PduBuffer)
    (hfind : findTransactionBySequenceNumber w ph.pduHeader.sequenceNum ph.pduHeader.sourceEid = none)
    (hevent : ph.pduHeader.sourceEid = cfg.localEid →
      ph.fdirective.directiveCode = FileDirective.fin → (recvFin ph).1 = true → w.noBuffer cfg →
      event.unacknowledged cfg w) :
    EngineInv (receiveUnknown cfg w ph) ∧ StepOutcome cfg event w (receiveUnknown cfg w ph) := by
  unfold receiveUnknown
  split
  · rename_i hfin
    exact ackUnknownFin_outcome h hok ph (hevent hfin.1 hfin.2)
  · split
    · split
      · exact ⟨h, .same (fun _ _ => rfl) (.inl rfl)⟩
      · apply findUnused_outcome h hok fun w' => (dispatchRecv cfg (startRx w') ph).rest
        intro w' ref htaken
        obtain ⟨hinv, htouched⟩ := receiveNew cfg h hok htaken ph
        exact ⟨hinv, .touched ref _ htaken.pool htouched fun _ => .inr (findTransaction_none h hfind)⟩
    · exact ⟨h, .same (fun _ _ => rfl) (.inl rfl)⟩

theorem receiveMessage_outcome (h : EngineInv w) (hok : w.fault = false) (octets : List Octet) :
    EngineInv (receiveMessage cfg w octets) ∧
      StepOutcome cfg (.receive octets) w (receiveMessage cfg w octets) := by
  unfold receiveMessage
  dsimp only
  split
  · rename_i hdecoded
    split
    · rename_i ref hfind
      have href := findTransaction_some h hfind
      exact h.callStep cfg _ hok href (dispatchRecv_handled cfg (h.busy hok ref href.1 href.2) _)
    · rename_i hfind
      exact receiveUnknown_outcome h hok _ hfind fun hlocal hfin hrecv hbuffer =>
        ⟨⟨hdecoded, hfind, hlocal, hfin, hrecv⟩, hbuffer⟩
  · exact ⟨h, .same (fun _ _ => rfl) (.inl rfl)⟩

/-! ## Requests -/

theorem txFile_outcome (h : EngineInv w) (hok : w.fault = false) (request : FileRequest) :
    EngineInv (txFile cfg w request) ∧
      StepOutcome cfg (.txFile request) w (txFile cfg w request) := by
  unfold txFile
  split
  · exact ⟨h, .same (fun _ _ => rfl) (.inl rfl)⟩
  · rename_i hroom
    refine findUnused_outcome h hok _ fun w' ref htaken => ?_
    obtain ⟨hinv, htouched⟩ := initiateNew cfg request
      { initiate cfg w' request with
        chan.numCmdTx := (initiate cfg w' request).chan.numCmdTx + 1
        t.tx.cmdTx := true } h hok htaken rfl rfl rfl rfl rfl rfl rfl
    exact ⟨hinv, .touched ref _ htaken.pool htouched fun _ => .inl ⟨bne_iff_ne.mpr hroom, rfl⟩⟩

theorem processPlaybackDirectory_outcome (h : EngineInv w) (hok : w.fault = false) (p : Nat)
    (request : FileRequest) :
    EngineInv (processPlaybackDirectory cfg w p request) ∧
      StepOutcome cfg (.playback p request) w (processPlaybackDirectory cfg w p request) := by
  unfold processPlaybackDirectory
  split
  · rename_i hroom
    refine findUnused_outcome h hok _ fun w' ref htaken => ?_
    obtain ⟨hinv, htouched⟩ := initiateNew cfg request
      { initiate cfg w' request with
        t.p := some p
        chan.numTs := fun p' =>
          if p' = p then (initiate cfg w' request).chan.numTs p + 1
          else (initiate cfg w' request).chan.numTs p' } h hok htaken rfl rfl rfl rfl rfl rfl rfl
    exact ⟨hinv, .touched ref _ htaken.pool htouched fun _ =>
      .inl ⟨decide_eq_true hroom, rfl⟩⟩
  · exact ⟨h, .same (fun _ _ => rfl) (.inl rfl)⟩

/-! ## Ticks and the transmit cycle -/

theorem StepOutcome.afterCur
    (h : StepOutcome cfg event { w with chan.cur := none } w')
    (hevent : ¬event.unacknowledged cfg { w with chan.cur := none }) :
    StepOutcome cfg event w w' := by
  cases h with
  | same htxns hcur =>
    refine .same htxns (.inr (.inl ?_))
    rcases hcur with hcur | hcur | hcur
    · exact hcur
    · exact hcur
    · exact absurd hcur hevent
  | touched ref new hpool h hnew =>
    refine .touched ref new hpool ⟨h.others, h.result, h.busy, fun r hr => ?_⟩ hnew
    exact (h.cur r hr).imp_right fun hbefore => nomatch hbefore.2

theorem doTick_outcome (h : EngineInv w) (hok : w.fault = false) (href : w.underWay ref) :
    EngineInv (doTick cfg w ref) ∧ StepOutcome cfg (.tick ref) w (doTick cfg w ref) := by
  have hcleared : EngineInv { w with chan.cur := none } := h.same h.self (fun _ _ => rfl) rfl hok
  unfold doTick
  split
  · dsimp only
    split
    · exact ⟨hcleared, .same (fun _ _ => rfl) (.inr (.inl rfl))⟩
    · have hcall := tickFn_handled cfg w.chan.tickType (({ w with chan.cur := none } : World).focus ref)
      obtain ⟨hinv, houtcome⟩ := hcleared.callStep cfg (.tick ref) hok href hcall
      exact ⟨hinv, houtcome.afterCur id⟩
  · exact ⟨h, .same (fun _ _ => rfl) (.inl rfl)⟩

theorem activatePending_outcome (h : EngineInv w) (hok : w.fault = false) :
    EngineInv (activatePending w) ∧ StepOutcome cfg .activate w (activatePending w) := by
  unfold activatePending
  split
  · exact ⟨h, .same (fun _ _ => rfl) (.inl rfl)⟩
  · rename_i ref rest hpend
    have hmem : ref ∈ w.chan.qs .pend := by
      rw [hpend]
      exact List.mem_cons_self
    have href : w.underWay ref := h.mem_underWay (by decide) hmem
    apply h.callStep cfg _ hok href
    refine .moves (.refl _) (.inl rfl) (.inl ?_) (moveTransaction_moved _ .txa)
    exact (h.linked.index hmem)

/-! ## Every step -/

theorem engineStep_outcome {dequeueEnabled : Bool} (h : EngineInv w) (hok : w.fault = false)
    (henabled : event.enabled w.chan dequeueEnabled = true) :
    EngineInv (engineStep cfg w event) ∧
      StepOutcome cfg event w (engineStep cfg w event) := by
  have hactive {ref : TxnRef} (h' : w.chan.isActive ref = true) : w.underWay ref :=
    h.linked.underWay_iff.mpr h'
  cases event with
  | receive octets => exact receiveMessage_outcome h hok octets
  | txFile request => exact txFile_outcome h hok request
  | playback p request => exact processPlaybackDirectory_outcome h hok p request
  | tick ref =>
    have hmem : ref ∈ w.chan.qs w.chan.tickType.queue := by
      simp only [EngineEvent.enabled, Bool.and_eq_true, decide_eq_true_eq] at henabled
      exact henabled.2
    refine doTick_outcome h hok (h.mem_underWay ?_ hmem)
    cases w.chan.tickType <;> decide
  | nextTickType tickType =>
    exact ⟨h.same h.self (fun _ _ => rfl) rfl hok, .same (fun _ _ => rfl) (.inl rfl)⟩
  | cycleTx ref =>
    have hmem : ref ∈ w.chan.qs .txa := by
      simp only [EngineEvent.enabled, Bool.and_eq_true, decide_eq_true_eq] at henabled
      exact henabled.2
    simp only [engineStep, cycleTxActive]
    split
    · exact ⟨h, .same (fun _ _ => rfl) (.inl rfl)⟩
    · exact h.callStep cfg _ hok (h.mem_underWay (by decide) hmem) (dispatchTx_handled cfg _)
  | activate => exact activatePending_outcome h hok
  | cycleEnd =>
    exact ⟨h.same h.self (fun _ _ => rfl) rfl hok, .same (fun _ _ => rfl) (.inr (.inl rfl))⟩
  | suspend ref action =>
    apply h.callStep cfg _ hok (hactive henabled)
    exact .stays (.transaction ⟨rfl, rfl, rfl, rfl, rfl, rfl, rfl, rfl, id⟩)
  | cancel ref => exact h.callStep cfg _ hok (hactive henabled) (cancelTransaction_handled _)
  | abandon ref => exact h.callStep cfg _ hok (hactive henabled) (resetTransaction_handled _ false)
  | freeze frozen =>
    exact ⟨h.same h.self (fun _ _ => rfl) rfl hok, .same (fun _ _ => rfl) (.inl rfl)⟩

theorem EngineInv.facing (h : EngineInv w) (hok : w.fault = false) (o : Outside) :
    EngineInv (w.facing o) :=
  h.same h.self (fun _ _ => rfl) rfl hok

theorem initEngine_inv (maxChunks : Direction → Nat) : EngineInv (initEngine maxChunks) := by
  have htxn (r : TxnRef) (hr : r.inPool) : (initEngine maxChunks).txnOf r = freedTransaction := by
    obtain ⟨i, -, rfl⟩ := hr
    rfl
  refine ⟨rfl, ⟨fun q => ?_, fun q r => ?_⟩, fun r hr => .inr ?_, fun _ r hr hactive => ?_⟩
  · show (ite _ _ _ : List TxnRef).Nodup
    split
    · exact List.nodup_range.map fun i j hij => TxnRef.pool.inj hij
    · exact List.nodup_nil
  · show r ∈ (ite _ _ _ : List TxnRef) ↔ _
    have hindex (hr : r.inPool) : (initEngine maxChunks).indexOf r = .free :=
      congrArg (·.com.qIndex) (htxn r hr)
    split
    · rename_i hq
      rw [List.mem_map]
      constructor
      · rintro ⟨i, hi, rfl⟩
        have hpool : (TxnRef.pool i).inPool := ⟨i, List.mem_range.mp hi, rfl⟩
        exact ⟨hpool, (hindex hpool).trans hq.symm⟩
      · rintro ⟨⟨i, hi, rfl⟩, -⟩
        exact ⟨i, List.mem_range.mpr hi, rfl⟩
    · rename_i hq
      constructor
      · intro hmem
        cases hmem
      · rintro ⟨hpool, hqueue⟩
        exact absurd (hqueue.symm.trans (hindex hpool)) hq
  · rw [htxn r hr]
    exact ⟨_, rfl⟩
  · rw [htxn r hr] at hactive
    exact absurd hactive (by decide)

/-- The engine's invariant and the outcome of a step. -/
theorem engine_step {maxChunks : Direction → Nat} {label : EngineLabel} (h : EngineInv w)
    (hnext : (engine cfg maxChunks).next w label = some w') :
    EngineInv w' ∧ StepOutcome cfg label.event (w.facing label.outside) w' := by
  simp only [engine] at hnext
  split at hnext
  · rename_i henabled
    cases hnext
    exact engineStep_outcome (h.facing henabled.1 _) henabled.1 henabled.2
  · cases hnext

/-- An outside that refuses nothing, with this sequence number and these answers about buffers. -/
def outsideWith (seqNum : TransactionSeq) (buffers : Answers) : Outside :=
  ⟨seqNum, 0, buffers, fun _ => true, fun _ => none⟩

end Nos3.Cf
