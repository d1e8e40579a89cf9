import Nos3.Sdls.Guarantees.KeyLifecycle
import Nos3.Base.Transition

/-!
# The counters of the monitoring log

`Crypto_increment` is given the four octets of `log_summary` as one number. Its
last octet belongs to `rs`, so on either byte order an event adds to the remaining
space and never to the number of events. The counters stay in step as long as no
event is logged, and no longer.
-/
namespace Nos3.Sdls
open Nos3.Base.BigEndian (Octet)
open Nos3.Base.Program
open Nos3.Base.CheckedSequence
open Nos3.Base.Transition

/-- What the log's counters are to satisfy. -/
structure InStep (log : MonitorLog) : Prop where
  bounded : log.logCount.toNat ≤ LOG_SIZE
  events : log.numSe.toNat = log.logCount.toNat
  space : log.numSe.toNat + log.rs.toNat = LOG_SIZE

/-- Initialisation, key management and the log's commands; `present` is whether the
command's pointer is not null. -/
inductive LogCommand where
  | config
  | keyMgmt (procedure : KeyProcedure) (pktLength : Nat) (pdu : TlvPdu)
  | status (present : Bool)
  | dump (present : Bool)
  | erase (present : Bool)

/-- The state and the PDU of the reply, where there is one. -/
def logCommand (order : ByteOrder) (decrypt : OtarDecrypt) (s : KeyStore) :
    LogCommand → Option (KeyStore × List Octet)
  | .config => some ({ s with log := localConfig s.log }, [])
  | .keyMgmt procedure pktLength pdu =>
    let run := sgKeyMgmt order decrypt pktLength pdu procedure s
    if run.1 = .error .memoryFault then none else some (run.2, [])
  | .status present => some (s, if present then statusReply s.log else [])
  | .dump present => some (s, if present then dumpReply s.log else [])
  | .erase present =>
    if present then some ({ s with log := mcErase s.log }, statusReply (mcErase s.log))
    else some (s, [])

/-- The library from its initialisation on. -/
def keyLog (order : ByteOrder) (decrypt : OtarDecrypt) : Machine KeyStore LogCommand where
  start s := ∃ log : MonitorLog, log.logCount = 0 ∧ s.log = localConfig log
  next s command := (logCommand order decrypt s command).map Prod.fst

/-! ## Commands that log nothing -/

/-- OTAR names a master key, and the first block that is not for a session key of the
ring, if there is one, is not for a master key either. -/
def OtarQuiet (decrypt : OtarDecrypt) (pdu : TlvPdu) (s : KeyStore) : Prop :=
  pduOctets pdu < 30 ∨ otarMkid pdu < MKID_MAX ∧
    ((s.ring (otarMkid pdu)).keyState = KEY_ACTIVE →
      ∀ plaintext, otarCiphertext decrypt pdu (s.ring (otarMkid pdu)) = .ok plaintext →
        ∀ block ∈ (keyBlocks pdu plaintext).find? (fun block => ¬ Changeable block.ekid),
          NUM_KEYS ≤ block.ekid)

/-- The first key that cannot be moved, or was listed before, is none of the ring. -/
def IdsQuiet (ring : KeyRing) (state : BitVec 4) (ids : List Nat) : Prop :=
  ∀ front keyId back, ids = front ++ keyId :: back →
    front.Nodup → (∀ other ∈ front, Eligible ring state other) →
      (keyId ∈ front ∨ ¬ Eligible ring state keyId) → NUM_KEYS ≤ keyId

def UpdateQuiet (pktLength : Nat) (pdu : TlvPdu) (s : KeyStore) (state : BitVec 4) : Prop :=
  ((state = KEY_DEACTIVATED ∨ state = KEY_ACTIVE) ∧
      (SDLS_MAX_KEY_UPDATE_LEN < pduOctets pdu ∨ pktLength < pduOctets pdu)) ∨
    SDLS_MAX_KEY_UPDATES < pduOctets pdu / 2 ∨ IdsQuiet s.ring state (updateIds pdu)

def KeyQuiet (decrypt : OtarDecrypt) (pktLength : Nat) (pdu : TlvPdu) (s : KeyStore) :
    KeyProcedure → Prop
  | .otar => OtarQuiet decrypt pdu s
  | procedure => UpdateQuiet pktLength pdu s procedure.target

def LogQuiet (decrypt : OtarDecrypt) (s : KeyStore) : LogCommand → Prop
  | .keyMgmt procedure pktLength pdu => KeyQuiet decrypt pktLength pdu s procedure
  | _ => True

/-- A run leaves the log, where the condition holds, or puts one event into it. -/
def Logs (order : ByteOrder) (quiet : Prop) (before after : MonitorLog) : Prop :=
  (quiet ∧ after = before) ∨ (¬ quiet ∧ ∃ emt, after = logEvent order emt before)

theorem otarKeys_logs (order : ByteOrder) (s : KeyStore) (blocks : List KeyBlock) :
    Logs order (∀ block ∈ blocks.find? (fun block => ¬ Changeable block.ekid),
      NUM_KEYS ≤ block.ekid) s.log (otarKeys order blocks s).2.log := by
  rw [otarKeys_run]
  have hstep : ∀ (done : List KeyBlock) (reached : KeyRing) (block : KeyBlock),
      (∀ other ∈ done, Changeable other.ekid) → otarChecked.check reached block = true →
      ∀ other ∈ done ++ [block], Changeable other.ekid := by
    intro done reached block hdone hcheck other hother
    rcases List.mem_append.mp hother with hold | hnew
    · exact hdone other hold
    · rw [List.mem_singleton.mp hnew]
      exact of_decide_eq_true hcheck
  have hrun := Checked.run_invariant hstep blocks [] s.ring nofun
  cases heq : otarChecked.run s.ring blocks with
  | mk reached refused =>
    rw [heq] at hrun
    cases refused with
    | none =>
      refine .inl ⟨fun block hblock => ?_, rfl⟩
      have hmem := List.mem_of_find?_eq_some hblock
      have hnot := List.find?_some hblock
      exact absurd (hrun block hmem) (by simpa using hnot)
    | some block =>
      obtain ⟨front, back, hsplit, hfront, hfalse⟩ := hrun
      have hnot : ¬ Changeable block.ekid := of_decide_eq_false hfalse
      have hfind : blocks.find? (fun block => ¬ Changeable block.ekid) = some block := by
        rw [hsplit, List.find?_append, List.find?_eq_none.mpr (fun other hother => by
          simpa using hfront other hother), List.find?_cons_of_pos (by simpa using hnot)]
        rfl
      rw [hfind]
      change Logs order _ s.log (otarRefused order { s with ring := reached } block).2.log
      unfold otarRefused
      by_cases hmaster : block.ekid < MKID_MAX
      · rw [if_pos hmaster]
        refine .inr ⟨fun hquiet => ?_, OTAR_MK_ERR_EID, rfl⟩
        have hknown := hquiet block rfl
        unfold MKID_MAX at hmaster
        unfold NUM_KEYS at hknown
        omega
      · rw [if_neg hmaster]
        refine .inl ⟨fun other hother => ?_, rfl⟩
        obtain rfl : block = other := Option.some.inj hother
        exact Nat.le_of_not_lt fun hlt => hnot ⟨Nat.le_of_not_lt hmaster, hlt⟩

theorem updateKeys_logs (order : ByteOrder) (state : BitVec 4) (s : KeyStore) (ids : List Nat) :
    Logs order (IdsQuiet s.ring state ids) s.log (updateKeys order state ids s).2.log := by
  rw [updateKeys_run]
  rcases update_run s.ring state ids with
    ⟨hrun, hall⟩ | ⟨front, keyId, back, hsplit, hrun, hfront, hnot⟩
  · rw [hrun]
    refine .inl ⟨fun front keyId back hsplit _ _ hrefused => ?_, rfl⟩
    exfalso
    have hmem : keyId ∈ ids := by
      rw [hsplit]
      exact List.mem_append_right _ List.mem_cons_self
    rcases hrefused with hlisted | hnot
    · have hdifferent := hall.different
      rw [hsplit] at hdifferent
      exact (List.nodup_append.mp hdifferent).2.2 keyId hlisted keyId List.mem_cons_self rfl
    · exact hnot (hall.eligible keyId hmem)
  · rw [hrun]
    change Logs order _ s.log
      (updateRefused order { s with ring := s.ring.promote state front } keyId).2.log
    -- the refused key is the one that the condition is about
    have hrefused : keyId ∈ front ∨ ¬ Eligible s.ring state keyId := by
      by_cases hmem : keyId ∈ front
      · exact .inl hmem
      · right
        have hsame : s.ring.promote state front keyId = s.ring keyId := if_neg hmem
        exact fun heligible => hnot ⟨heligible.1, by rw [hsame]; exact heligible.2⟩
    have hquiet : IdsQuiet s.ring state ids ↔ NUM_KEYS ≤ keyId := by
      constructor
      · exact fun h => h front keyId back hsplit hfront.different hfront.eligible hrefused
      · intro hunknown front' keyId' back' hsplit' hnodup' heligible' hrefused'
        rw [hsplit] at hsplit'
        rcases List.append_eq_append_iff.mp hsplit' with
          ⟨more, hfront', hback'⟩ | ⟨more, hfront', hback'⟩
        · cases more with
          | nil =>
            obtain rfl : keyId = keyId' := (List.cons.inj hback').1
            exact hunknown
          | cons first rest =>
            obtain rfl : keyId = first := (List.cons.inj hback').1
            have hmem : keyId ∈ front' := by
              rw [hfront']
              exact List.mem_append_right _ List.mem_cons_self
            exact absurd (heligible' keyId hmem).1.2 (Nat.not_lt.mpr hunknown)
        · cases more with
          | nil =>
            obtain rfl : keyId' = keyId := (List.cons.inj hback').1
            exact hunknown
          | cons first rest =>
            obtain rfl : keyId' = first := (List.cons.inj hback').1
            exfalso
            have hmem : keyId' ∈ front := by
              rw [hfront']
              exact List.mem_append_right _ List.mem_cons_self
            rcases hrefused' with hlisted | hineligible
            · have hdifferent := hfront.different
              rw [hfront'] at hdifferent
              exact (List.nodup_append.mp hdifferent).2.2 keyId' hlisted keyId'
                List.mem_cons_self rfl
            · exact hineligible (hfront.eligible keyId' hmem)
    unfold updateRefused
    by_cases hmaster : keyId < MKID_MAX
    · rw [if_pos hmaster]
      refine .inr ⟨fun h => ?_, MKID_STATE_ERR_EID, rfl⟩
      have hunknown := hquiet.mp h
      unfold MKID_MAX at hmaster
      unfold NUM_KEYS at hunknown
      omega
    · rw [if_neg hmaster]
      by_cases hknown : keyId < NUM_KEYS
      · rw [if_pos hknown]
        exact .inr ⟨fun h => absurd (hquiet.mp h) (Nat.not_le.mpr hknown),
          KEY_TRANSITION_ERR_EID, rfl⟩
      · rw [if_neg hknown]
        exact .inl ⟨hquiet.mpr (Nat.le_of_not_lt hknown), rfl⟩

theorem Logs.unchanged {order : ByteOrder} {quiet : Prop} {log : MonitorLog} (h : quiet) :
    Logs order quiet log log := .inl ⟨h, rfl⟩

theorem Logs.congr {order : ByteOrder} {quiet quiet' : Prop} {before after : MonitorLog}
    (h : Logs order quiet before after) (hiff : quiet ↔ quiet') : Logs order quiet' before after := by
  rw [← propext hiff]
  exact h

theorem keyOtar_logs (order : ByteOrder) (decrypt : OtarDecrypt) (pdu : TlvPdu) (s : KeyStore)
    (hreturns : (keyOtar order decrypt pdu s).1 ≠ .error .memoryFault) :
    Logs order (OtarQuiet decrypt pdu s) s.log (keyOtar order decrypt pdu s).2.log := by
  revert hreturns
  unfold keyOtar
  by_cases hshort : pduOctets pdu < 30
  · rw [if_pos ((otarTooShort_iff pdu).mpr hshort)]
    exact fun _ => .unchanged (.inl hshort)
  rw [if_neg (mt (otarTooShort_iff pdu).mp hshort)]
  by_cases hmaster : MKID_MAX ≤ otarMkid pdu
  · rw [if_pos hmaster]
    refine fun _ => .inr ⟨?_, MKID_INVALID_EID, rfl⟩
    rintro (hlow | ⟨hlow, -⟩)
    · exact hshort hlow
    · exact absurd hlow (Nat.not_lt.mpr hmaster)
  rw [if_neg hmaster]
  have hmkid : otarMkid pdu < MKID_MAX := Nat.lt_of_not_le hmaster
  by_cases hlong : TLV_DATA_SIZE < pduOctets pdu
  · rw [if_pos hlong]
    exact fun hreturns => absurd rfl hreturns
  rw [if_neg hlong]
  intro _
  have hkey : getKey s (otarMkid pdu) = .ok (s.ring (otarMkid pdu)) :=
    if_pos (Nat.lt_trans hmkid (by decide))
  rw [get_bind, lift_bind hkey]
  by_cases hactive : (s.ring (otarMkid pdu)).keyState = KEY_ACTIVE
  · rw [if_neg (not_not.mpr hactive)]
    cases hplain : otarCiphertext decrypt pdu (s.ring (otarMkid pdu)) with
    | error code =>
      have herror : decryptError (.error code : Except Nat (List Octet)) =
          .error (.cryptography code) := rfl
      rw [lift_bind_error herror]
      refine .unchanged (.inr ⟨hmkid, fun _ plaintext hok => ?_⟩)
      rw [hplain] at hok
      cases hok
    | ok plaintext =>
      have hdecrypted : decryptError (.ok plaintext) = .ok plaintext := rfl
      rw [lift_bind hdecrypted]
      refine (otarKeys_logs order s (keyBlocks pdu plaintext)).congr ⟨fun hquiet => ?_, ?_⟩
      · refine .inr ⟨hmkid, fun _ other hok => ?_⟩
        obtain rfl : plaintext = other := Except.ok.inj (hplain.symm.trans hok)
        exact hquiet
      · rintro (hlow | ⟨-, hquiet⟩)
        · exact absurd hlow hshort
        · exact hquiet hactive plaintext hplain
  · rw [if_pos hactive]
    exact .unchanged (.inr ⟨hmkid, fun hstate => absurd hstate hactive⟩)

theorem keyUpdate_logs (order : ByteOrder) (pktLength : Nat) (pdu : TlvPdu) (s : KeyStore)
    (state : BitVec 4) :
    Logs order (UpdateQuiet pktLength pdu s state) s.log
      (keyUpdate order pktLength pdu state s).2.log := by
  unfold keyUpdate UpdateQuiet
  by_cases hlong : (state = KEY_DEACTIVATED ∨ state = KEY_ACTIVE) ∧
      (SDLS_MAX_KEY_UPDATE_LEN < pduOctets pdu ∨ pktLength < pduOctets pdu)
  · rw [if_pos hlong]
    exact .unchanged (.inl hlong)
  rw [if_neg hlong]
  by_cases hmany : SDLS_MAX_KEY_UPDATES < pduOctets pdu / 2
  · rw [if_pos hmany]
    exact .unchanged (.inr (.inl hmany))
  rw [if_neg hmany]
  refine (updateKeys_logs order state s (updateIds pdu)).congr ⟨fun h => .inr (.inr h), ?_⟩
  exact fun h => (h.resolve_left hlong).resolve_left hmany

theorem sgKeyMgmt_logs (order : ByteOrder) (decrypt : OtarDecrypt) (pktLength : Nat) (pdu : TlvPdu)
    (procedure : KeyProcedure) (s : KeyStore)
    (hreturns : (sgKeyMgmt order decrypt pktLength pdu procedure s).1 ≠ .error .memoryFault) :
    Logs order (KeyQuiet decrypt pktLength pdu s procedure) s.log
      (sgKeyMgmt order decrypt pktLength pdu procedure s).2.log := by
  cases procedure with
  | otar => exact keyOtar_logs order decrypt pdu s hreturns
  | activation => exact keyUpdate_logs order pktLength pdu s _
  | deactivation => exact keyUpdate_logs order pktLength pdu s _
  | destruction => exact keyUpdate_logs order pktLength pdu s _

/-! ## Runs -/

/-- The log after initialisation or after it was erased. -/
def Fresh (log : MonitorLog) : Prop :=
  (log.numSe = 2 ∧ log.rs = 48 ∧ log.logCount = 2) ∨
    (log.numSe = 0 ∧ log.rs = 50 ∧ log.logCount = 0)

theorem Fresh.inStep {log : MonitorLog} (h : Fresh log) : InStep log := by
  rcases h with ⟨hnum, hrs, hcount⟩ | ⟨hnum, hrs, hcount⟩
  · exact ⟨by rw [hcount]; decide, by rw [hnum, hcount]; decide, by rw [hnum, hrs]; decide⟩
  · exact ⟨by rw [hcount]; decide, by rw [hnum, hcount]; decide, by rw [hnum, hrs]; decide⟩

theorem fresh_localConfig {log : MonitorLog} (h : Fresh log ∨ log.logCount = 0) :
    Fresh (localConfig log) := by
  unfold localConfig
  split
  · rename_i hcount
    left
    rw [hcount]
    exact ⟨rfl, rfl, rfl⟩
  · rename_i hcount
    exact h.resolve_right hcount

theorem logEvent_counters (order : ByteOrder) {log : MonitorLog} (h : 0 < log.rs.toNat)
    (emt : Octet) : (logEvent order emt log).numSe = (incrementNumSe order log).numSe ∧
      (logEvent order emt log).logCount = log.logCount + 1 := by
  unfold logEvent
  rw [if_pos h]
  exact ⟨rfl, rfl⟩

/-- The increment ends at the last octet, which is not one of `num_se`. -/
theorem incrementNumSe_fresh (order : ByteOrder) {log : MonitorLog} (h : Fresh log) :
    (incrementNumSe order log).numSe = log.numSe := by
  unfold incrementNumSe
  rcases h with ⟨hnum, hrs, -⟩ | ⟨hnum, hrs, -⟩
  · rw [hnum, hrs]
    dsimp only
    cases order <;> decide +kernel
  · rw [hnum, hrs]
    dsimp only
    cases order <;> decide +kernel

/-- One event, and the counters are out of step. -/
theorem Fresh.event {order : ByteOrder} {log : MonitorLog} (h : Fresh log) (emt : Octet) :
    ¬ InStep (logEvent order emt log) := by
  have hroom : 0 < log.rs.toNat := by
    rcases h with ⟨-, hrs, -⟩ | ⟨-, hrs, -⟩ <;> rw [hrs] <;> decide
  obtain ⟨hnumSe, hlogCount⟩ := logEvent_counters order hroom emt
  intro hstep
  have hevents := hstep.events
  rw [hnumSe, hlogCount, incrementNumSe_fresh order h] at hevents
  rcases h with ⟨hnum, -, hcount⟩ | ⟨hnum, -, hcount⟩
  · rw [hnum, hcount] at hevents
    exact absurd hevents (by decide)
  · rw [hnum, hcount] at hevents
    exact absurd hevents (by decide)

variable {order : ByteOrder} {decrypt : OtarDecrypt}

/-- Commands that log nothing keep the log fresh. -/
theorem fresh_step {s s' : KeyStore} {command : LogCommand} (h : Fresh s.log)
    (hquiet : LogQuiet decrypt s command)
    (hnext : (keyLog order decrypt).next s command = some s') : Fresh s'.log := by
  obtain ⟨⟨after, reply⟩, hcommand, rfl⟩ := Option.map_eq_some_iff.mp hnext
  cases command with
  | config =>
    cases hcommand
    exact fresh_localConfig (.inl h)
  | keyMgmt procedure pktLength pdu =>
    obtain ⟨hreturns, hrun⟩ := Option.ite_none_left_eq_some.mp hcommand
    cases hrun
    rcases sgKeyMgmt_logs order decrypt pktLength pdu procedure s hreturns with
      ⟨-, hsame⟩ | ⟨hnot, -⟩
    · exact hsame.symm ▸ h
    · exact absurd hquiet hnot
  | status present =>
    cases hcommand
    exact h
  | dump present =>
    cases hcommand
    exact h
  | erase present =>
    cases present with
    | false =>
      cases hcommand
      exact h
    | true =>
      cases hcommand
      exact .inr ⟨rfl, rfl, rfl⟩

/-- In every run whose commands log nothing the counters are in step, and the first
command that logs an event puts them out of step. -/
theorem log_in_step {s : KeyStore} (h : (keyLog order decrypt).Reaches (LogQuiet decrypt) s) :
    InStep s.log ∧ ∀ command s', ¬ LogQuiet decrypt s command →
      (keyLog order decrypt).next s command = some s' → ¬ InStep s'.log := by
  have hfresh : Fresh s.log := by
    refine h.invariant (fun s hstart => ?_) (fun s command s' hinv hquiet hnext =>
      fresh_step hinv hquiet hnext)
    obtain ⟨log, hcount, hlog⟩ := hstart
    rw [hlog]
    exact fresh_localConfig (.inr hcount)
  refine ⟨hfresh.inStep, fun command s' hnot hnext => ?_⟩
  obtain ⟨⟨after, reply⟩, hcommand, rfl⟩ := Option.map_eq_some_iff.mp hnext
  cases command with
  | keyMgmt procedure pktLength pdu =>
    obtain ⟨hreturns, hrun⟩ := Option.ite_none_left_eq_some.mp hcommand
    cases hrun
    rcases sgKeyMgmt_logs order decrypt pktLength pdu procedure s hreturns with
      ⟨hquiet, -⟩ | ⟨-, emt, hevent⟩
    · exact absurd hquiet hnot
    · dsimp only
      rw [hevent]
      exact hfresh.event emt
  | config => exact absurd trivial hnot
  | status present => exact absurd trivial hnot
  | dump present => exact absurd trivial hnot
  | erase present => exact absurd trivial hnot

/-! ## An OTAR with a master key id that is none -/

def noDecrypt : OtarDecrypt := fun _ _ _ _ => .error 0

theorem preactiveStore_start (order : ByteOrder) : (keyLog order noDecrypt).start preactiveStore :=
  ⟨⟨0, 0, 0, List.replicate LOG_SIZE ⟨0, 0, [0, 0, 0, 0]⟩⟩, rfl, by decide +kernel⟩

/-- The log is erased and read after initialisation. -/
theorem log_in_step_erased : ∃ s, (keyLog .little noDecrypt).Reaches (LogQuiet noDecrypt) s ∧
    s.log.logCount = 0 ∧ InStep s.log := by
  have hstart : (keyLog .little noDecrypt).Reaches (LogQuiet noDecrypt) preactiveStore :=
    .start (preactiveStore_start .little)
  have hquiet : ∀ s present, LogQuiet noDecrypt s (.erase present) := fun _ _ => trivial
  have herased := Machine.Reaches.step hstart (hquiet _ true) rfl
  have hquiet : ∀ s present, LogQuiet noDecrypt s (.status present) := fun _ _ => trivial
  have hread := Machine.Reaches.step herased (hquiet _ true) rfl
  exact ⟨_, hread, rfl, (log_in_step hread).1⟩

/-- After one event there are three entries and two counted. -/
theorem event_not_counted :
    (∃ s, (keyLog .little noDecrypt).Reachable s ∧ s.log.logCount = 3 ∧ s.log.numSe = 2 ∧
      s.log.rs = 303 ∧ ¬ InStep s.log) ∧
    ∃ s, (keyLog .big noDecrypt).Reachable s ∧ s.log.logCount = 3 ∧ s.log.numSe = 2 ∧
      s.log.rs = 48 ∧ ¬ InStep s.log := by
  have hlogged : ∀ order, ∃ s, (keyLog order noDecrypt).Reachable s ∧
      s = (sgKeyMgmt order noDecrypt 40 (dataPdu 30 [0, 128]) .otar preactiveStore).2 := by
    intro order
    refine ⟨_, Machine.Reaches.step (a := .keyMgmt .otar 40 (dataPdu 30 [0, 128]))
      (.start (preactiveStore_start order)) trivial ?_, rfl⟩
    cases order <;> rfl
  constructor
  · obtain ⟨s, hreach, rfl⟩ := hlogged .little
    refine ⟨_, hreach, by decide +kernel, by decide +kernel, by decide +kernel, fun h => ?_⟩
    exact absurd h.events (by decide +kernel)
  · obtain ⟨s, hreach, rfl⟩ := hlogged .big
    refine ⟨_, hreach, by decide +kernel, by decide +kernel, by decide +kernel, fun h => ?_⟩
    exact absurd h.events (by decide +kernel)

end Nos3.Sdls
