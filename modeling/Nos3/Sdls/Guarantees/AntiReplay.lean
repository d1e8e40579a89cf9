import Nos3.Base.Transition
import Nos3.Sdls.Source.CounterRules
import Nos3.Sdls.Source.TcState

/-!
# No counter value is accepted twice

A session passes counter pairs to the anti-replay check of one association. The
invariant is that the stored counter is the last accepted one, so each accepted
value lies inside the window of the one before and a value comes back only after
the counter went round once.
-/
namespace Nos3.Sdls
open Nos3.Base.BigEndian (Octet)
open Nos3.Base.Counter
open Nos3.Base.Transition

/-! ## Sessions -/

structure ReceivedCounters where
  arsn : List Octet
  iv : List Octet
  deriving DecidableEq

inductive CounterField where
  | iv
  | arsn
  deriving DecidableEq

def CounterField.length (sa : SecurityAssociation) : CounterField → Nat
  | .iv => sa.ivLen
  | .arsn => sa.arsnLen

def CounterField.stored (sa : SecurityAssociation) : CounterField → List Octet
  | .iv => sa.iv.cells.take sa.ivLen
  | .arsn => sa.arsn.cells.take sa.arsnLen

def CounterField.received (sa : SecurityAssociation) (counters : ReceivedCounters) :
    CounterField → List Octet
  | .iv => counters.iv.take sa.ivLen
  | .arsn => counters.arsn.take sa.arsnLen

/-- The association's service uses the counter against replay. -/
def CounterField.Used (sa : SecurityAssociation) : CounterField → Prop
  | .iv => sa.ecs.isGcm = true ∧ 0 < (sa.ivLen : Nat) ∧ 0 < (sa.shivfLen : Nat)
  | .arsn => (sa.shsnfLen : Nat) = sa.arsnLen ∧ 0 < (sa.shsnfLen : Nat)

instance (sa : SecurityAssociation) : (field : CounterField) → Decidable (field.Used sa)
  | .iv => inferInstanceAs (Decidable (_ ∧ _ ∧ _))
  | .arsn => inferInstanceAs (Decidable (_ ∧ _))

/-- The check compares the whole counter and stores it when it passes, and the
window does not reach round to the stored value. -/
def CounterField.Tracked (config : Config) (sa : SecurityAssociation) (field : CounterField) :
    Prop :=
  (match field with
    | .iv => sa.ecs = .aes256Gcm ∧
        (config.incrementNontransmittedIv = true ∨ (sa.shivfLen : Nat) = sa.ivLen) ∧
        ((sa.arsnLen : Nat) = 0 ∨ 0 < (sa.shsnfLen : Nat))
    | .arsn => sa.ecs.isGcm = true → sa.ecs = .aes256Gcm ∧ 0 < (sa.ivLen : Nat)) ∧
  (sa.arsnw : Nat) < 256 ^ field.length sa

instance (config : Config) (sa : SecurityAssociation) :
    (field : CounterField) → Decidable (field.Tracked config sa)
  | .iv => inferInstanceAs (Decidable ((_ ∧ _ ∧ _) ∧ _))
  | .arsn => inferInstanceAs (Decidable ((_ → _) ∧ _))

structure Session where
  sa : SecurityAssociation
  /-- the accepted values of the counter, the last one at the end -/
  accepted : List (List Octet)
  deriving DecidableEq

def Session.receive (config : Config) (field : CounterField) (s : Session)
    (counters : ReceivedCounters) : Session :=
  match checkAntiReplay config s.sa counters.arsn counters.iv with
  | (.ok (), sa) => ⟨sa, s.accepted ++ [field.received s.sa counters]⟩
  | (.error _, sa) => ⟨sa, s.accepted⟩

def sessionMachine (config : Config) (field : CounterField) : Machine Session ReceivedCounters where
  start s := field.Used s.sa ∧ 0 < (s.sa.arsnw : Nat) ∧ s.accepted = []
  next s counters := some (s.receive config field counters)

/-- A counter that is zero again is taken for one that has not started. -/
def RestartsAtZero (field : CounterField) (s : Session) (counters : ReceivedCounters) : Prop :=
  s.accepted ≠ [] ∧ AllZero (field.stored s.sa) ∧ AllZero (field.received s.sa counters)

def ReplayChecked (config : Config) (field : CounterField) (s : Session)
    (counters : ReceivedCounters) : Prop :=
  field.Tracked config s.sa ∧ ¬RestartsAtZero field s counters

instance (config : Config) (field : CounterField) (s : Session) (counters : ReceivedCounters) :
    Decidable (ReplayChecked config field s counters) :=
  inferInstanceAs (Decidable (_ ∧ ¬(_ ∧ _ ∧ _)))

/-- No accepted value comes back before the counter went round. -/
def ReplaySafe (field : CounterField) (s : Session) : Prop :=
  StepsWithin (256 ^ field.length s.sa) s.sa.arsnw (s.accepted.map value) ∧
    ReturnsAfterCycle (256 ^ field.length s.sa) (s.accepted.map value)

/-! ## One frame -/

variable {config : Config} {field : CounterField}

theorem SameConfiguration.keeps {sa sa' : SecurityAssociation} (h : SameConfiguration sa sa') :
    (field.Used sa' ↔ field.Used sa) ∧ field.length sa' = field.length sa ∧ sa'.arsnw = sa.arsnw := by
  obtain ⟨iv, arsn, rfl⟩ := h
  cases field <;> exact ⟨Iff.rfl, rfl, rfl⟩

/-- An accepted counter was inside its window and is the stored one afterwards. -/
structure AcceptedFrame (field : CounterField) (sa sa' : SecurityAssociation)
    (counters : ReceivedCounters) : Prop where
  same : SameConfiguration sa sa'
  stores : field.stored sa' = field.received sa counters
  full : (field.received sa counters).length = field.length sa
  stored_full : (field.stored sa).length = field.length sa
  inside : (AllZero (field.received sa counters) ∧ AllZero (field.stored sa)) ∨
    windowSearch (field.received sa counters) (field.stored sa) sa.arsnw = true

theorem ivWindow_whole {sa : SecurityAssociation} {iv : List Octet} {result}
    (hwhole : config.incrementNontransmittedIv = true ∨ (sa.shivfLen : Nat) = sa.ivLen)
    (h : ivWindow config sa iv = result) : window iv sa.iv.cells sa.ivLen sa.arsnw = result := by
  rw [ivWindow] at h
  split at h
  · exact h
  · rename_i hmode
    have hlen := hwhole.resolve_left hmode
    rw [if_neg (by omega), hlen, Nat.sub_self] at h
    exact h

theorem accepted_frame_iv {sa sa' : SecurityAssociation} {counters : ReceivedCounters}
    (hused : CounterField.iv.Used sa) (htracked : CounterField.iv.Tracked config sa)
    (h : checkAntiReplay config sa counters.arsn counters.iv = (.ok (), sa')) :
    AcceptedFrame .iv sa sa' counters := by
  obtain ⟨⟨hecs, hwhole, harsn⟩, -⟩ := htracked
  obtain ⟨_, hbad, -⟩ | ⟨-, arsnValid, ivValid, htest, hgcm, hstore⟩ := checkAntiReplay_cases h
  · cases hbad
  · obtain ⟨hnot, -⟩ | ⟨-, -, ⟨_, hbad, -⟩ | ⟨-, rfl, hinside⟩⟩ := checkAntiReplayGcm_cases hgcm
    · exact absurd ⟨hused.2.1, hecs⟩ hnot
    · cases hbad
    · obtain ⟨hfull, hstored, hin⟩ := window_take (ivWindow_whole hwhole hinside)
      have hkept := storeCounters_iv (by simp [EncCipherSuite.isGcm, hecs])
        (harsn.imp_right fun hpos => checkAntiReplayArsnw_tested htest hpos) hstore
      have hsame := storeCounters_same hstore
      refine ⟨hsame, ?_, hfull, hstored, hin⟩
      obtain ⟨_, _, rfl⟩ := hsame
      exact hkept

theorem accepted_frame_arsn {sa sa' : SecurityAssociation} {counters : ReceivedCounters}
    (hused : CounterField.arsn.Used sa) (htracked : CounterField.arsn.Tracked config sa)
    (h : checkAntiReplay config sa counters.arsn counters.iv = (.ok (), sa')) :
    AcceptedFrame .arsn sa sa' counters := by
  obtain ⟨_, hbad, -⟩ | ⟨-, arsnValid, ivValid, htest, hgcm, hstore⟩ := checkAntiReplay_cases h
  · cases hbad
  · obtain rfl := checkAntiReplayArsnw_tested htest hused.2
    obtain ⟨-, -, hinside⟩ := checkAntiReplayArsnw_valid htest
    obtain ⟨hfull, hstored, hin⟩ := window_take hinside
    have hvalid : sa.ecs.isGcm = true → ivValid = true := by
      intro hisGcm
      obtain ⟨hecs, hpos⟩ := htracked.1 hisGcm
      obtain ⟨hnot, -⟩ | ⟨-, -, ⟨_, hbad, -⟩ | ⟨-, hvalid, -⟩⟩ := checkAntiReplayGcm_cases hgcm
      · exact absurd ⟨hpos, hecs⟩ hnot
      · cases hbad
      · exact hvalid
    have hpos : 0 < (sa.arsnLen : Nat) := hused.1 ▸ hused.2
    have hkept := storeCounters_arsn hpos hvalid hstore
    have hsame := storeCounters_same hstore
    refine ⟨hsame, ?_, hfull, hstored, hin⟩
    obtain ⟨_, _, rfl⟩ := hsame
    exact hkept

theorem accepted_frame {sa sa' : SecurityAssociation} {counters : ReceivedCounters}
    (hused : field.Used sa) (htracked : field.Tracked config sa)
    (h : checkAntiReplay config sa counters.arsn counters.iv = (.ok (), sa')) :
    AcceptedFrame field sa sa' counters := by
  cases field with
  | iv => exact accepted_frame_iv hused htracked h
  | arsn => exact accepted_frame_arsn hused htracked h

/-! ## A whole session -/

/-- The stored counter is the last accepted one. -/
structure SessionInv (field : CounterField) (s : Session) : Prop where
  used : field.Used s.sa
  full : ∀ octets ∈ s.accepted, octets.length = field.length s.sa
  last : ∀ octets, s.accepted.getLast? = some octets → octets = field.stored s.sa
  steps : StepsWithin (256 ^ field.length s.sa) s.sa.arsnw (s.accepted.map value)

theorem stepsWithin_concat {n window : Nat} {octets : List (List Octet)} {next : List Octet}
    (h : StepsWithin n window (octets.map value))
    (hnext : ∀ last, octets.getLast? = some last →
      0 < advance n (value last) (value next) ∧ advance n (value last) (value next) ≤ window) :
    StepsWithin n window ((octets ++ [next]).map value) := by
  rw [StepsWithin, List.map_append, List.map_singleton]
  refine List.IsChain.append h (List.isChain_singleton _) ?_
  intro x hx y hy
  rw [List.getLast?_map, Option.mem_def, Option.map_eq_some_iff] at hx
  obtain ⟨last, hlast, rfl⟩ := hx
  rw [List.head?_singleton, Option.mem_some_iff] at hy
  subst hy
  exact hnext last hlast

theorem sessionInv_receive {s : Session} {counters : ReceivedCounters} (h : SessionInv field s)
    (hok : ReplayChecked config field s counters) :
    SessionInv field (s.receive config field counters) := by
  rw [Session.receive]
  split
  · rename_i sa' hrun
    have haccepted := accepted_frame h.used hok.1 hrun
    obtain ⟨hused, hlength, harsnw⟩ : (field.Used sa' ↔ field.Used s.sa) ∧
        field.length sa' = field.length s.sa ∧ sa'.arsnw = s.sa.arsnw := haccepted.same.keeps
    refine ⟨hused.mpr h.used, ?_, ?_, ?_⟩
    · intro octets hmem
      rcases List.mem_append.mp hmem with hold | hnew
      · exact (h.full octets hold).trans hlength.symm
      · rw [List.mem_singleton.mp hnew]
        exact haccepted.full.trans hlength.symm
    · intro octets hlast
      rw [List.getLast?_concat] at hlast
      cases hlast
      exact haccepted.stores.symm
    · rw [hlength, harsnw]
      refine stepsWithin_concat h.steps ?_
      intro last hlast
      have hne : s.accepted ≠ [] := by
        rintro hnil
        simp [hnil] at hlast
      have hsearch := haccepted.inside.resolve_left fun hzero => hok.2 ⟨hne, hzero.2, hzero.1⟩
      have hin := withinWindow_of_search (by rw [haccepted.stored_full]; exact hok.1.2) hsearch
      rw [WithinWindow, haccepted.stored_full] at hin
      rw [h.last last hlast]
      exact hin
  · rename_i hrun
    rw [checkAntiReplay_error hrun]
    exact ⟨h.used, h.full, h.last, h.steps⟩

theorem sessionInv_reaches {s : Session}
    (h : (sessionMachine config field).Reaches (ReplayChecked config field) s) :
    SessionInv field s := by
  refine h.invariant ?_ ?_
  · rintro s ⟨hused, -, hnone⟩
    refine ⟨hused, ?_, ?_, ?_⟩
    · simp [hnone]
    · simp [hnone]
    · simp [hnone, StepsWithin]
  · intro s counters s' hinv hok hnext
    cases hnext
    exact sessionInv_receive hinv hok

/-- In every run whose frames all meet `ReplayChecked`. -/
theorem replay_safe {s : Session}
    (h : (sessionMachine config field).Reaches (ReplayChecked config field) s) :
    ReplaySafe field s := by
  have hinv := sessionInv_reaches h
  refine ⟨hinv.steps, hinv.steps.returnsAfterCycle ?_⟩
  intro x hx
  obtain ⟨octets, hmem, rfl⟩ := List.mem_map.mp hx
  rw [← hinv.full octets hmem]
  exact value_lt octets

/-! ## Two sessions -/

/-- `sa[4]` without a sequence number: authenticated encryption, the whole IV transmitted. -/
def authenticatedEncryptionSa (ecs : EncCipherSuite) : SecurityAssociation :=
  { blankSa 4 with
    ekid := 4
    saState := .operational
    gvcid := ⟨0, 3, 0, 0⟩
    est := true
    ast := true
    shivfLen := 12
    stmacfLen := 16
    ecs := ecs
    ivLen := 12
    abmLen := ⟨ABM_SIZE, ABM_SIZE_lt⟩
    arsnw := 5 }

def counterFrame (last : Octet) : ReceivedCounters :=
  ⟨List.replicate SN_SIZE 0, List.replicate 11 0 ++ last :: List.replicate 4 0⟩

/-- With GCM-SIV the IV is never tested: the same frame passes twice. -/
theorem siv_frame_replayed : ∃ s : Session, (sessionMachine scConfig .iv).Reachable s ∧
    ¬ReplaySafe .iv s := by
  have hstart : (sessionMachine scConfig .iv).start
      ⟨authenticatedEncryptionSa .aes256GcmSiv, []⟩ := ⟨by decide, by decide, rfl⟩
  obtain ⟨s, hreach, hcheck⟩ := Machine.exists_reaches (fun _ _ => True)
    (fun s => s.accepted = [List.replicate 11 0 ++ [1], List.replicate 11 0 ++ [1]] ∧
      s.sa.ivLen = 12) hstart [counterFrame 1, counterFrame 1] (by decide +kernel)
  refine ⟨s, hreach, ?_⟩
  obtain ⟨haccepted, hlen⟩ := of_decide_eq_true hcheck
  rintro ⟨-, hcycle⟩
  have hwrap := hcycle [] _ [] [] (by rw [haccepted]; rfl)
  rw [CounterField.length, hlen] at hwrap
  revert hwrap
  decide +kernel

/-- Three frames with GCM, one of them lost and one repeated. -/
theorem replay_safe_gcm : ∃ s : Session, ReplaySafe .iv s ∧ s.accepted.length = 2 := by
  have hstart : (sessionMachine scConfig .iv).start
      ⟨authenticatedEncryptionSa .aes256Gcm, []⟩ := ⟨by decide, by decide, rfl⟩
  obtain ⟨s, hreach, hcheck⟩ := Machine.exists_reaches (ReplayChecked scConfig .iv)
    (fun s => s.accepted.length = 2) hstart [counterFrame 1, counterFrame 3, counterFrame 3]
    (by decide +kernel)
  exact ⟨s, replay_safe hreach, of_decide_eq_true hcheck⟩

end Nos3.Sdls
