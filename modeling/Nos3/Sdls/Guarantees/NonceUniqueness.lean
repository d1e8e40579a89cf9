import Mathlib.Data.List.Nodup
import Mathlib.Data.Nat.ModEq
import Nos3.Base.Transition
import Nos3.Sdls.Source.ApplyRules
import Nos3.Sdls.Source.TcState

/-!
# The sender's nonces

Every frame of an association takes the stored IV and counts it on. The invariant
is the history: the counted parts of the nonces used so far are consecutive
values, and the stored one comes next.
-/
namespace Nos3.Sdls
open Nos3.Base
open Nos3.Base.BigEndian (Octet)
open Nos3.Base.Counter
open Nos3.Base.FixedArray
open Nos3.Base.Program
open Nos3.Base.Transition

/-! ## Runs of the sender -/

abbrev Nonce := Option CryptoKey × List Octet

/-- What the AEAD encryption was called with. -/
def aeadNonces (calls : List CryptoCall) : List Nonce :=
  (calls.filter fun call => call.primitive = .aeadEncrypt).map fun call =>
    (call.request.key, call.request.iv)

def selectedSa (env : TcEnv) (inFrame : List Octet) (sas : SaTable) :
    Except Error (Fin NUM_SA) := do
  let header ← tcHeader env.config inFrame
  let current ← getManagedParametersForGvcid env header
  let mapId ← mapIdOf current inFrame
  saGetOperationalSaFromGvcid env.config sas header mapId

structure Sending where
  tc : TcState
  /-- the frames that went out on the association -/
  frames : Nat
  nonces : List Nonce

def Sending.sent (s : Sending) (tc : TcState) : Sending :=
  ⟨tc, s.frames + 1, s.nonces ++ aeadNonces (tc.calls.drop s.tc.calls.length)⟩

/-- Successful calls on any association, observed at association `i`. -/
def sendingMachine (env : TcEnv) (i : Fin NUM_SA) : Machine Sending (List Octet) where
  start s := (s.tc.sas i).ecs.isGcm = true ∧ 0 < ((s.tc.sas i).ivLen : Nat) ∧ s.frames = 0 ∧
    s.nonces = []
  next s inFrame :=
    match applySecurity env inFrame s.tc with
    | (.error _, _) => none
    | (.ok _, tc) =>
      if selectedSa env inFrame s.tc.sas = .ok i then some (s.sent tc) else some { s with tc := tc }

/-- The part of the IV that is counted. -/
def noncePart (config : Config) (sa : SecurityAssociation) (iv : List Octet) : List Octet :=
  if config.incrementNontransmittedIv then iv else iv.drop (sa.ivLen - sa.shivfLen)

def noncePeriod (config : Config) (sa : SecurityAssociation) : Nat :=
  256 ^ if config.incrementNontransmittedIv then (sa.ivLen : Nat) else sa.shivfLen

def NoncesUnique (env : TcEnv) (i : Fin NUM_SA) (s : Sending) : Prop :=
  s.frames < noncePeriod env.config (s.tc.sas i) → s.nonces.Nodup

/-- The increment depends on the transmitted length. -/
def TransmitsIv (i : Fin NUM_SA) (s : Sending) (_ : List Octet) : Prop :=
  0 < ((s.tc.sas i).shivfLen : Nat)

instance (i : Fin NUM_SA) (s : Sending) (inFrame : List Octet) :
    Decidable (TransmitsIv i s inFrame) :=
  inferInstanceAs (Decidable (0 < ((s.tc.sas i).shivfLen : Nat)))

/-! ## One frame -/

variable {env : TcEnv} {i : Fin NUM_SA}

def currentNonce (sa : SecurityAssociation) : List Octet := FileImage.window sa.iv.cells 0 sa.ivLen

theorem noncePart_low {config : Config} {sa : SecurityAssociation}
    (hmode : config.incrementNontransmittedIv = false) (hle : (sa.shivfLen : Nat) ≤ sa.ivLen) :
    noncePart config sa (currentNonce sa) =
      FileImage.window sa.iv.cells (sa.ivLen - sa.shivfLen) sa.shivfLen := by
  rw [noncePart, hmode, if_neg (by decide), currentNonce, FileImage.window, List.drop_zero,
    List.drop_take, FileImage.window, Nat.sub_sub_self hle]

theorem noncePart_lt (config : Config) (sa : SecurityAssociation) :
    value (noncePart config sa (currentNonce sa)) < noncePeriod config sa := by
  refine Nat.lt_of_lt_of_le (value_lt _) (Nat.pow_le_pow_right (by decide) ?_)
  have hlen : (currentNonce sa).length ≤ sa.ivLen := List.length_take_le _ _
  rw [noncePart]
  split
  · exact hlen
  · rw [List.length_drop]
    omega

/-- The stored IV counts on by one. -/
theorem nextIv_counts {config : Config} {sa : SecurityAssociation} {iv : Buffer Octet IV_SIZE}
    (hivLen : 0 < (sa.ivLen : Nat)) (hpos : 0 < (sa.shivfLen : Nat))
    (hle : (sa.shivfLen : Nat) ≤ sa.ivLen) (h : nextIv config sa = .ok iv) :
    value (noncePart config sa (currentNonce { sa with iv := iv })) =
      (value (noncePart config sa (currentNonce sa)) + 1) % noncePeriod config sa := by
  rw [nextIv, if_pos (by simp [hpos, Nat.ne_of_gt hivLen])] at h
  cases hmode : config.incrementNontransmittedIv with
  | true =>
    rw [hmode, if_pos rfl] at h
    obtain ⟨hlen, hnext⟩ := incrementAt_window h
    simp only [noncePart, noncePeriod, hmode, ↓reduceIte, currentNonce]
    rw [hnext, value_increment, hlen]
  | false =>
    rw [hmode, if_neg (by decide)] at h
    obtain ⟨hlen, hnext⟩ := incrementAt_window h
    have hlow : noncePart config { sa with iv := iv } (currentNonce { sa with iv := iv }) =
        FileImage.window iv.cells (sa.ivLen - sa.shivfLen) sa.shivfLen := noncePart_low hmode hle
    rw [noncePart] at hlow ⊢
    rw [hlow, hnext, value_increment, hlen, noncePart_low hmode hle, noncePeriod, hmode]
    rfl

theorem validateSa_shivfLen {config : Config} {sas : SaTable} {j : Fin NUM_SA}
    (h : validateSa config sas j = .ok ()) : ((sas j).shivfLen : Nat) ≤ (sas j).ivLen := by
  obtain ⟨_, -, h⟩ := bind_eq_ok.mp h
  obtain ⟨_, -, h⟩ := bind_eq_ok.mp h
  obtain ⟨_, -, h⟩ := bind_eq_ok.mp h
  obtain ⟨_, hle, -⟩ := bind_eq_ok.mp h
  rw [guardWith_ok, decide_eq_true_eq] at hle
  exact hle

theorem isAead_of_isGcm {ecs : EncCipherSuite} (h : ecs.isGcm = true) :
    isAeadAlgorithm ecs = true := by
  cases ecs <;> first | rfl | cases h

/-- With a GCM cipher a frame is sent in the clear or takes the stored IV as nonce. -/
theorem encryptRun_nonces {sa : SecurityAssociation} {setup : FrameSetup}
    {inFrame clear secured : List Octet} {index : Nat} {calls : List CryptoCall}
    (hgcm : sa.ecs.isGcm = true) (h : EncryptRun env sa setup inFrame clear index secured calls) :
    (sa.serviceType = .plaintext ∧ aeadNonces calls = []) ∨
      (sa.serviceType ≠ .plaintext ∧ ∃ key, aeadNonces calls = [(key, currentNonce sa)]) := by
  have haead := isAead_of_isGcm hgcm
  cases h with
  | clear hplain => exact .inl ⟨hplain, rfl⟩
  | nothing hservice _ _ _ hcall =>
    obtain ⟨iv, -, hcall⟩ := bind_eq_ok.mp hcall
    rw [if_pos haead] at hcall
    obtain ⟨_, -, hcall⟩ := bind_eq_ok.mp hcall
    obtain ⟨_, -, hcall⟩ := bind_eq_ok.mp hcall
    cases hcall
  | called hservice _ _ _ hcall _ _ =>
    obtain ⟨iv, hiv, hcall⟩ := bind_eq_ok.mp hcall
    obtain ⟨-, rfl⟩ := octetsAt_window hiv
    rw [if_pos haead] at hcall
    obtain ⟨_, -, hcall⟩ := bind_eq_ok.mp hcall
    obtain ⟨_, -, hcall⟩ := bind_eq_ok.mp hcall
    cases hcall
    exact .inr ⟨hservice, _, rfl⟩

/-! ## A whole run -/

/-- The history of the association: consecutive values, the stored one next. -/
structure SendingInv (env : TcEnv) (i : Fin NUM_SA) (s : Sending) : Prop where
  gcm : (s.tc.sas i).ecs.isGcm = true
  ivLen : 0 < ((s.tc.sas i).ivLen : Nat)
  bound : s.nonces.length ≤ s.frames
  history : ∃ first,
    s.nonces.map (fun nonce => value (noncePart env.config (s.tc.sas i) nonce.2)) =
      (List.range s.nonces.length).map
        (fun k => (first + k) % noncePeriod env.config (s.tc.sas i)) ∧
    value (noncePart env.config (s.tc.sas i) (currentNonce (s.tc.sas i))) =
      (first + s.nonces.length) % noncePeriod env.config (s.tc.sas i)

theorem nodup_consecutive {n : Nat} (first : Nat) {count : Nat} (h : count ≤ n) :
    ((List.range count).map fun k => (first + k) % n).Nodup := by
  refine List.Nodup.map_on ?_ List.nodup_range
  intro a ha b hb hsame
  have ha := List.mem_range.mp ha
  have hb := List.mem_range.mp hb
  have hmod : Nat.ModEq n a b := Nat.ModEq.add_left_cancel' first hsame
  exact hmod.eq_of_lt_of_lt (by omega) (by omega)

theorem SendingInv.unique {s : Sending} (h : SendingInv env i s) : NoncesUnique env i s := by
  intro hframes
  obtain ⟨first, hhistory, -⟩ := h.history
  have hbound := h.bound
  refine List.Nodup.of_map (fun nonce => value (noncePart env.config (s.tc.sas i) nonce.2)) ?_
  rw [hhistory]
  exact nodup_consecutive first (by omega)

theorem currentNonce_counted (config : Config) (sa : SecurityAssociation) {n : Nat}
    (h : value (noncePart config sa (currentNonce sa)) = n) (key : Option CryptoKey) :
    [(key, currentNonce sa)].map (fun nonce : Nonce => value (noncePart config sa nonce.2)) =
      [n] := by
  rw [List.map_singleton, h]

/-- A frame of the association itself. -/
theorem sendingInv_sent {s : Sending} {tc : TcState} {sa : SecurityAssociation}
    {calls : List CryptoCall} {setup : FrameSetup} {inFrame clear secured : List Octet}
    {index : Nat} {current : ManagedParameters} (h : SendingInv env i s)
    (hpos : 0 < ((s.tc.sas i).shivfLen : Nat))
    (hvalid : validateSa env.config s.tc.sas i = .ok ())
    (hencrypt : EncryptRun env (s.tc.sas i) setup inFrame clear index secured calls)
    (hcounters : incrementIvArsn env.config (s.tc.sas i) = .ok sa)
    (hstate : tc = { s.tc with sas := Function.update s.tc.sas i sa, current := current,
                               calls := s.tc.calls ++ calls }) :
    SendingInv env i (s.sent tc) := by
  have hcalls : tc.calls.drop s.tc.calls.length = calls := by
    rw [hstate]
    exact List.drop_left' rfl
  have hsa : tc.sas i = sa := by
    rw [hstate]
    exact Function.update_self ..
  obtain ⟨first, hhistory, hnext⟩ := h.history
  have hbound := h.bound
  rw [Sending.sent, hcalls]
  obtain ⟨hplain, hnone⟩ | ⟨hservice, key, hone⟩ := encryptRun_nonces h.gcm hencrypt
  · obtain ⟨-, rfl⟩ | ⟨hnot, -⟩ := incrementIvArsn_cases hcounters
    · rw [hnone, List.append_nil]
      refine ⟨?_, ?_, by dsimp only; omega, first, ?_, ?_⟩ <;> dsimp only <;> rw [hsa]
      · exact h.gcm
      · exact h.ivLen
      · exact hhistory
      · exact hnext
    · exact absurd hplain hnot
  · obtain ⟨hplain, -⟩ | ⟨-, iv, arsn, hiv, -, rfl⟩ := incrementIvArsn_cases hcounters
    · exact absurd hplain hservice
    · have hcounted := nextIv_counts h.ivLen hpos (validateSa_shivfLen hvalid) hiv
      rw [hone]
      refine ⟨?_, ?_, ?_, first, ?_, ?_⟩
      · rw [hsa]
        exact h.gcm
      · rw [hsa]
        exact h.ivLen
      · simpa using hbound
      · dsimp only
        rw [hsa, List.length_append, List.length_singleton, List.range_succ, List.map_append,
          List.map_append]
        exact congrArg₂ _ hhistory (currentNonce_counted env.config _ hnext key)
      · dsimp only
        rw [hsa, List.length_append, List.length_singleton, ← Nat.add_assoc]
        refine hcounted.trans ?_
        rw [hnext, Nat.mod_add_mod]
        rfl

theorem Applied.selectedSa_eq {inFrame frame clear secured : List Octet} {s s' : TcState}
    {header : TcHeader} {j : Fin NUM_SA} {current : ManagedParameters} {setup : FrameSetup}
    {index : Nat} {calls : List CryptoCall} {sa : SecurityAssociation}
    (h : Applied env inFrame s frame s' header j current setup clear index secured calls sa) :
    selectedSa env inFrame s.sas = .ok j := by
  obtain ⟨mapId, hmap, hsa⟩ := h.selected
  exact bind_eq_ok.mpr ⟨header, h.parsed, bind_eq_ok.mpr ⟨current, h.managed,
    bind_eq_ok.mpr ⟨mapId, hmap, hsa⟩⟩⟩

theorem sendingInv_step {s s' : Sending} {inFrame : List Octet} (h : SendingInv env i s)
    (hpos : TransmitsIv i s inFrame) (hnext : (sendingMachine env i).next s inFrame = some s') :
    SendingInv env i s' := by
  dsimp only [sendingMachine] at hnext
  split at hnext
  · cases hnext
  · rename_i frame tc hrun
    obtain ⟨header, j, current, setup, clear, index, secured, calls, sa, happlied⟩ :=
      applySecurity_ok hrun
    rw [happlied.selectedSa_eq] at hnext
    split at hnext
    · rename_i hsame
      cases hsame
      cases hnext
      exact sendingInv_sent h hpos happlied.valid happlied.encrypted happlied.counters
        happlied.state
    · rename_i hother
      cases hnext
      have hkept : tc.sas i = s.tc.sas i := by
        rw [happlied.state]
        exact Function.update_of_ne (fun hij => hother (by rw [hij])) ..
      obtain ⟨first, hhistory, hcurrent⟩ := h.history
      refine ⟨?_, ?_, h.bound, first, ?_, ?_⟩ <;> dsimp only <;> rw [hkept]
      · exact h.gcm
      · exact h.ivLen
      · exact hhistory
      · exact hcurrent

/-- In every run on associations that transmit some of the IV. -/
theorem nonces_unique {s : Sending}
    (h : (sendingMachine env i).Reaches (TransmitsIv i) s) : NoncesUnique env i s := by
  refine SendingInv.unique (h.invariant ?_ ?_)
  · rintro s ⟨hgcm, hivLen, hframes, hnone⟩
    refine ⟨hgcm, hivLen, by rw [hnone, hframes]; rfl, ?_⟩
    refine ⟨value (noncePart env.config (s.tc.sas i) (currentNonce (s.tc.sas i))), ?_, ?_⟩
    · rw [hnone]
      rfl
    · rw [hnone, List.length_nil, Nat.add_zero]
      exact (Nat.mod_eq_of_lt (noncePart_lt env.config (s.tc.sas i))).symm
  · intro s inFrame s' hinv hpos hnext
    exact sendingInv_step hinv hpos hnext

/-! ## Two frames -/

def sendingStart (sa : SecurityAssociation) : Sending := ⟨startState sa, 0, []⟩

/-- With the whole IV kept back no increment happens: both frames take the same one. -/
theorem nonce_repeated : ∃ s : Sending,
    (sendingMachine (scEnv 2 (tabledAead shortFrameCalls)) ⟨2, by decide⟩).Reachable s ∧
    ¬NoncesUnique (scEnv 2 (tabledAead shortFrameCalls)) ⟨2, by decide⟩ s := by
  have hstart : (sendingMachine (scEnv 2 (tabledAead shortFrameCalls)) ⟨2, by decide⟩).start
      (sendingStart (encryptionSa .aes256Gcm 12 0)) := by
    refine ⟨?_, ?_, rfl, rfl⟩ <;> decide +kernel
  obtain ⟨s, hreach, hcheck⟩ := Machine.exists_reaches (fun _ _ => True)
    (fun s : Sending => s.frames < noncePeriod scConfig (s.tc.sas ⟨2, by decide⟩) &&
      s.nonces = [(scKey 2, List.replicate 12 0), (scKey 2, List.replicate 12 0)])
    hstart [shortFrame, shortFrame] (by decide +kernel)
  refine ⟨s, hreach, fun hunique => ?_⟩
  obtain ⟨hframes, hnonces⟩ := (Bool.and_eq_true _ _).mp hcheck
  have hnodup := hunique (of_decide_eq_true hframes)
  rw [of_decide_eq_true hnonces] at hnodup
  exact absurd hnodup (by simp)

theorem nonces_unique_two_frames : ∃ s : Sending,
    NoncesUnique (scEnv 2 (tabledAead shortFrameCalls)) ⟨2, by decide⟩ s ∧
    s.nonces = [(scKey 2, List.replicate 12 0), (scKey 2, List.replicate 11 0 ++ [1])] := by
  have hstart : (sendingMachine (scEnv 2 (tabledAead shortFrameCalls)) ⟨2, by decide⟩).start
      (sendingStart (encryptionSa .aes256Gcm 12 12)) := by
    refine ⟨?_, ?_, rfl, rfl⟩ <;> decide +kernel
  obtain ⟨s, hreach, hcheck⟩ := Machine.exists_reaches (TransmitsIv ⟨2, by decide⟩)
    (fun s => s.nonces = [(scKey 2, List.replicate 12 0), (scKey 2, List.replicate 11 0 ++ [1])])
    hstart [shortFrame, shortFrame] (by decide +kernel)
  exact ⟨s, nonces_unique hreach, of_decide_eq_true hcheck⟩

end Nos3.Sdls
