import Nos3.Sbn.Guarantees.SubscriptionInvariant

/-!
# Peers learn the local subscriptions

With everything delivered a connected peer lists what the reports ask for, and the unsubscribe
message for a MsgID names it, in the runs that meet the conditions. A run that ends the older of
two subscriptions leaves it in the peer's table and takes the other one out.
-/
namespace Nos3.Sbn
open Base.Transition

variable {config : Config} {s s' : Network} {msgId : MsgId}

/-- The last subscription's end puts its MsgID on every link, and any other end puts nothing. -/
theorem Inv.unsub_link {sent : PeerAddr → Bool} (h : Inv config s.reports s)
    (hsound : Sound config s (.report (.oneSub (.unsub msgId)) sent))
    (hnext : s.next config (.report (.oneSub (.unsub msgId)) sent) = some s')
    {peer : PeerAddr} (hpeer : peer ∈ config.peers) (hconn : s.hasConn config peer = true) :
    (EndsLast s.reports msgId → ∃ qos,
      s'.link peer = s.link peer ++ [localSubToPeer config.ident .unsubMsg msgId qos]) ∧
      (¬EndsLast s.reports msgId → s'.link peer = s.link peer) := by
  obtain ⟨⟨hsent, hreported⟩, hspared⟩ := hsound
  cases hnext
  show (_ → ∃ qos, (s.processLocalUnsub config sent msgId).2.link peer = _) ∧
    (_ → (s.processLocalUnsub config sent msgId).2.link peer = _)
  obtain ⟨hfind, heq⟩ | ⟨idx, hfind, ⟨hmore, heq⟩ | ⟨hends, heq⟩⟩ :=
    h.localUnsub_cases msgId hsent
  · rw [heq]
    refine ⟨fun hends => absurd (h.wanted ▸ mem_wantedIds.mpr ⟨hends.1, ?_⟩)
      (find_eq_none.mp hfind), fun _ => rfl⟩
    exact hreported.standing msgId rfl
  · rw [heq]
    exact ⟨fun hends => absurd hends hmore, fun _ => rfl⟩
  · rw [heq]
    refine ⟨fun _ => ⟨((s.remaining idx).subs peer.peerIdx).qos, ?_⟩,
      fun hmore => absurd hends hmore⟩
    have hnamed := h.named hfind (hspared hends peer hpeer hconn)
    show (if peer ∈ config.peers ∧ s.hasConn config peer = true then s.link peer ++
      [localSubToPeer _ _ ((s.remaining idx).subs peer.peerIdx).msgId _] else s.link peer) = _
    rw [if_pos ⟨hpeer, hconn⟩, hnamed]

theorem peers_learn_subscriptions (h : (network config).Reaches (Sound config) s) :
    (∀ peer ∈ config.peers, s.connected peer = true → s.link peer = [] →
      ∀ m, m ∈ (s.remote peer).ids ↔
        excluded m = false ∧ unsubsOf m s.reports < subsOf m s.reports) ∧
    ∀ m sent s', Sound config s (.report (.oneSub (.unsub m)) sent) →
      s.next config (.report (.oneSub (.unsub m)) sent) = some s' →
      ∀ peer ∈ config.peers, s.hasConn config peer = true →
        (EndsLast s.reports m → ∃ qos,
          s'.link peer = s.link peer ++ [localSubToPeer config.ident .unsubMsg m qos]) ∧
        (¬EndsLast s.reports m → s'.link peer = s.link peer) := by
  have hinv := reaches_inv h
  refine ⟨fun peer hpeer hconn hlink m => ?_, fun m sent s' hsound hnext peer hpeer hconn =>
    hinv.unsub_link hsound hnext hpeer hconn⟩
  have hhas : s.hasConn config peer = true := by simp [Network.hasConn, hconn]
  have htold := hinv.told peer hpeer hhas
  rw [hlink] at htold
  rw [← mem_idSet, htold.caughtUp, hinv.wanted, mem_wantedIds]
  exact Iff.rfl

/-! ## One peer -/

def onePeer : Config where
  netCnt := 1
  peerCnt := fun _ => 1
  datagram := fun _ => false
  ident := ⟨[0x24, 0x49, 0x64, 0x24] ++ List.replicate 44 0, by decide, by decide⟩

def thePeer : PeerAddr := ⟨0, 0⟩

/-- Steps in which everything outside the node goes well. -/
inductive Step
  | connect
  | deliver
  | report (report : Report)

def Step.event : Step → Event
  | .connect => .connect thePeer ⟨true, true, true⟩
  | .deliver => .deliver thePeer (fun _ => true) (fun _ => 0) fun _ => 0
  | .report r => .report (.oneSub r) fun _ => true

/-- A report of an end follows one of a subscription, and there were few reports. -/
def Step.Plain (s : Network) : Step → Prop
  | .report (.unsub msgId) =>
    s.reports.length < SBN_MAX_SUBS_PER_PEER ∧ unsubsOf msgId s.reports < subsOf msgId s.reports
  | .report (.sub _ _) => s.reports.length < SBN_MAX_SUBS_PER_PEER
  | _ => True

instance (s : Network) : ∀ step : Step, Decidable (step.Plain s)
  | .connect => inferInstanceAs (Decidable True)
  | .deliver => inferInstanceAs (Decidable True)
  | .report (.sub _ _) => inferInstanceAs (Decidable (_ < _))
  | .report (.unsub _) => inferInstanceAs (Decidable (_ ∧ _))

theorem wantedIds_card_le (reports : List Report) : (wantedIds reports).card ≤ reports.length :=
  calc (wantedIds reports).card ≤ (reports.map Report.msgId).toFinset.card :=
        Finset.card_filter_le _ _
    _ ≤ (reports.map Report.msgId).length := List.toFinset_card_le _
    _ = reports.length := List.length_map _

theorem reported_one {reports : List Report} {report : Report}
    (hfew : reports.length < SBN_MAX_SUBS_PER_PEER)
    (hstanding : ∀ m, report = .unsub m → unsubsOf m reports < subsOf m reports) :
    Reported reports (.oneSub report) where
  fits _ h := nomatch h
  room := Nat.le_trans (wantedIds_card_le _) (by
    simpa [PipeMsg.reports] using Nat.succ_le_of_lt hfew)
  countable m := by
    have hle : subsOf m (reports ++ [report]) ≤ (reports ++ [report]).length :=
      List.countP_le_length
    rw [List.length_append, List.length_singleton] at hle
    have hmax : SBN_MAX_SUBS_PER_PEER < 2 ^ 32 := by decide
    show subsOf m (reports ++ [report]) < unsubsOf m (reports ++ [report]) + 2 ^ 32
    omega
  standing m h := hstanding m (PipeMsg.oneSub.inj h)

theorem Step.Plain.reliable {step : Step} (h : step.Plain s) : Reliable s step.event := by
  match step, h with
  | .connect, _ => exact And.intro rfl rfl
  | .deliver, _ =>
    intro msgId
    rfl
  | .report (.sub _ _), h =>
    refine And.intro (fun _ => rfl) (reported_one h fun m hm => ?_)
    cases hm
  | .report (.unsub _), h =>
    refine And.intro (fun _ => rfl) (reported_one h.1 fun m hm => ?_)
    cases hm
    exact h.2

def subscriptionEnds : List Step :=
  [.connect, .deliver, .deliver, .report (.sub 0x801 ⟨0, 0⟩), .deliver,
    .report (.sub 0x802 ⟨0, 0⟩), .deliver, .report (.unsub 0x801), .deliver]

/-- The peer's own index names the subscription that is left. -/
theorem unsubscribe_names_other : ∃ (config : Config) (s : Network),
    (network config).Reaches Reliable s ∧ ∃ peer ∈ config.peers, s.connected peer = true ∧
      s.link peer = [] ∧ ∃ gone left, unsubsOf gone s.reports = subsOf gone s.reports ∧
        gone ∈ (s.remote peer).ids ∧
        excluded left = false ∧ unsubsOf left s.reports < subsOf left s.reports ∧
        left ∉ (s.remote peer).ids := by
  obtain ⟨s, hreaches, hcheck⟩ := ((network onePeer).relabel Step.event).exists_reaches
    (fun s step => Step.Plain s step) (fun s => decide (s.connected thePeer = true ∧
      s.link thePeer = [] ∧ unsubsOf 0x801 s.reports = subsOf 0x801 s.reports ∧
      0x801 ∈ (s.remote thePeer).ids ∧ unsubsOf 0x802 s.reports < subsOf 0x802 s.reports ∧
      0x802 ∉ (s.remote thePeer).ids)) (s := {}) rfl subscriptionEnds (by decide +kernel)
  obtain ⟨hconn, hlink, hgone, hlisted, hleft, hmissing⟩ := of_decide_eq_true hcheck
  exact ⟨onePeer, s, hreaches.of_relabel fun _ _ h => h.reliable, thePeer, by decide, hconn,
    hlink, 0x801, 0x802, hgone, hlisted, by decide, hleft, hmissing⟩

/-- No subscription ends, and the table can be packed. -/
def Step.Gentle (s : Network) (step : Step) : Prop :=
  step.Plain s ∧ s.own.subCnt ≤ maxPacked ∧
    match step with
    | .report (.unsub _) => False
    | _ => True

instance (s : Network) : ∀ step : Step, Decidable (step.Gentle s)
  | .connect => inferInstanceAs (Decidable (_ ∧ _ ∧ True))
  | .deliver => inferInstanceAs (Decidable (_ ∧ _ ∧ True))
  | .report (.sub _ _) => inferInstanceAs (Decidable (_ ∧ _ ∧ True))
  | .report (.unsub _) => inferInstanceAs (Decidable (_ ∧ _ ∧ False))

theorem Step.Gentle.sound {step : Step} (h : step.Gentle s) :
    Sound onePeer s step.event := by
  refine ⟨h.1.reliable, ?_⟩
  match step, h with
  | .connect, h => exact fun _ _ => h.2.1
  | .deliver, _ => exact trivial
  | .report (.sub _ _), _ => exact trivial
  | .report (.unsub _), h => exact h.2.2.elim

def subscriptionStays : List Step :=
  [.connect, .deliver, .deliver, .report (.sub 0x801 ⟨0, 0⟩), .deliver]

theorem subscription_learned : ∃ s : Network, s.connected thePeer = true ∧
    s.link thePeer = [] ∧ 0x801 ∈ (s.remote thePeer).ids := by
  obtain ⟨s, hreaches, hcheck⟩ := ((network onePeer).relabel Step.event).exists_reaches
    (fun s step => Step.Gentle s step) (fun s => decide (s.connected thePeer = true ∧
      s.link thePeer = [] ∧ excluded 0x801 = false ∧
      unsubsOf 0x801 s.reports < subsOf 0x801 s.reports)) (s := {}) rfl subscriptionStays
    (by decide +kernel)
  obtain ⟨hconn, hlink, hwanted⟩ := of_decide_eq_true hcheck
  have hsound : (network onePeer).Reaches (Sound onePeer) s :=
    hreaches.of_relabel fun _ _ h => h.sound
  exact ⟨s, hconn, hlink,
    ((peers_learn_subscriptions hsound).1 thePeer (by decide) hconn hlink 0x801).mpr hwanted⟩

end Nos3.Sbn
