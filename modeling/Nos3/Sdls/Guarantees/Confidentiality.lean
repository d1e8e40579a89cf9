import Nos3.Sdls.Source.ApplyRules
import Nos3.Sdls.Source.TcState

/-!
# Where an encrypting service encrypts

The payload is copied in the clear before the cryptography interface is called,
so it leaves encrypted exactly when a call writes over it. AEAD ciphers make that
call for every service, the others not for authenticated encryption.
-/
namespace Nos3.Sdls
open Nos3.Base
open Nos3.Base.BigEndian (Octet)
open Nos3.Base.FixedArray
open Nos3.Base.Program

/-- What the interface documents of its encrypting functions: they write as many
octets as they read, and a tag of the requested size when they authenticate. -/
structure Cryptography.Documented (crypto : Cryptography) : Prop where
  encrypts : ∀ request reply, crypto.encrypt request = .ok reply →
    (∃ data, reply.data = some data ∧ data.length = request.input.length) ∧ reply.mac = none
  aeadEncrypts : ∀ request reply, crypto.aeadEncrypt request = .ok reply →
    request.encrypt = true →
    ∃ data, reply.data = some data ∧ data.length = request.input.length
  aeadTags : ∀ request reply, crypto.aeadEncrypt request = .ok reply →
    if request.authenticate then ∃ mac, reply.mac = some mac ∧ mac.length = request.macSize
    else reply.mac = none

def Primitive.Encrypts : Primitive → Prop
  | .encrypt | .aeadEncrypt => True
  | _ => False

def Primitive.Authenticates : Primitive → Prop
  | .authenticate | .aeadEncrypt => True
  | _ => False

def macStart (sa : SecurityAssociation) (setup : FrameSetup) : Nat :=
  TC_FRAME_HEADER_SIZE + setup.segmentHdrLen + sa.headerLen +
    (setup.payloadLen + setup.pkcsPadding)

/-- The payload that goes out came from an encrypting call on the payload that came
in, and with authentication the MAC field from an authenticating call. -/
structure PayloadProtected (env : TcEnv) (sa : SecurityAssociation) (current : ManagedParameters)
    (setup : FrameSetup) (inFrame frame : List Octet) (calls : List CryptoCall) : Prop where
  encrypted : ∃ call ∈ calls, call.primitive.Encrypts ∧ call.request.encrypt = true ∧
    call.request.input = clearPayload setup inFrame ∧
    call.reply.data = some (FileImage.window frame
      (clearFront env.config sa current setup inFrame).length
      (setup.payloadLen + setup.pkcsPadding))
  authenticated : sa.ast = true → ∃ call ∈ calls, call.primitive.Authenticates ∧
    call.request.authenticate = true ∧
    call.reply.mac = some (FileImage.window frame (macStart sa setup) sa.stmacfLen)

variable {env : TcEnv} {inFrame frame clear secured : List Octet} {s s' : TcState}
  {header : TcHeader} {i : Fin NUM_SA} {current : ManagedParameters} {setup : FrameSetup}
  {index : Nat} {calls : List CryptoCall} {sa : SecurityAssociation}

/-! ## What the output frame keeps -/

theorem serviceType_of_est {sa : SecurityAssociation} (h : sa.est = true) :
    sa.serviceType = if sa.ast then .authenticatedEncryption else .encryption := by
  cases hast : sa.ast <;> simp [SecurityAssociation.serviceType, h, hast]

theorem createFecf_window {config : Config} {secured frame : List Octet} {start count : Nat}
    (h : createFecf config current secured = .ok frame)
    (hbefore : start + count + current.fecfLen ≤ secured.length) :
    FileImage.window frame start count = FileImage.window secured start count := by
  rw [createFecf] at h
  split at h
  · rename_i hfecf
    obtain ⟨hroom, rfl⟩ := pokeAt_cases h
    simp only [ManagedParameters.fecfLen, hfecf, reduceCtorEq, ↓reduceIte, FECF_SIZE] at hbefore
    exact window_patch_before (by omega) hroom
  · cases h
    rfl

/-- The reply's data stands at the payload, its tag at the MAC field behind it. -/
theorem writeReply_windows {reply : CryptoReply} {data : List Octet} {macLoc : Option Nat}
    (hdata : reply.data = some data) (hmacLoc : ∀ loc, macLoc = some loc → index + data.length ≤ loc)
    (h : writeReply clear index macLoc reply = .ok secured) :
    FileImage.window secured index data.length = data ∧
      ∀ mac, reply.mac = some mac → ∃ loc, macLoc = some loc ∧
        FileImage.window secured loc mac.length = mac := by
  obtain ⟨mid, hmid, h⟩ := bind_eq_ok.mp h
  rw [hdata, Option.getD_some] at hmid
  obtain ⟨hroom, rfl⟩ := pokeAt_cases hmid
  have hwritten := window_patch_same hroom
  cases hmac : reply.mac with
  | none =>
    simp only [hmac] at h
    cases h
    exact ⟨hwritten, fun mac hsome => by cases hsome⟩
  | some mac =>
    cases macLoc with
    | none =>
      simp only [hmac] at h
      cases h
    | some loc =>
      simp only [hmac] at h
      obtain ⟨hmacRoom, rfl⟩ := pokeAt_cases h
      refine ⟨?_, ?_⟩
      · rw [window_patch_before (hmacLoc loc rfl) hmacRoom, hwritten]
      · intro mac' hsome
        cases hsome
        exact ⟨loc, rfl, window_patch_same hmacRoom⟩

/-! ## The calls of an encrypting service -/

/-- One call on the payload, and its reply in the frame before the error control field. -/
structure EncryptingCall (sa : SecurityAssociation) (setup : FrameSetup) (inFrame : List Octet)
    (index : Nat) (secured : List Octet) (call : CryptoCall) : Prop where
  primitive : call.primitive.Encrypts
  encrypts : call.request.encrypt = true
  input : call.request.input = clearPayload setup inFrame
  data : call.reply.data =
    some (FileImage.window secured index (setup.payloadLen + setup.pkcsPadding))
  mac : sa.ast = true → call.primitive.Authenticates ∧ call.request.authenticate = true ∧
    call.reply.mac = some (FileImage.window secured (macStart sa setup) sa.stmacfLen)

theorem encryptAad_macLoc {aad : AadSetup} (h : encryptAad sa setup clear = .ok aad) :
    aad.macLoc = if sa.ast then some (macStart sa setup) else none := by
  rw [encryptAad] at h
  split at h
  · rename_i hast
    obtain ⟨_, -, h⟩ := bind_eq_ok.mp h
    obtain ⟨_, -, h⟩ := bind_eq_ok.mp h
    obtain ⟨_, -, h⟩ := bind_eq_ok.mp h
    cases h
    rw [if_pos hast]
    rfl
  · rename_i hast
    cases h
    rw [if_neg hast]

theorem encPadding_aead (h : isAeadAlgorithm sa.ecs = true) (payloadLen : Nat) :
    encPadding sa payloadLen = 0 := by
  rw [encPadding]
  cases hecs : sa.ecs <;> simp_all [isAeadAlgorithm]

theorem encryptingCall_reply (hdoc : env.crypto.Documented) {aad : AadSetup} {ekp akp}
    {primitive : Primitive} {request : CryptoRequest} {reply : CryptoReply}
    (hlayout : ClearLayout env.config sa current setup inFrame clear index)
    (hpad : setup.pkcsPadding = encPadding sa setup.payloadLen)
    (hest : sa.est = true) (hcase : sa.ast = false ∨ isAeadAlgorithm sa.ecs = true)
    (haad : encryptAad sa setup clear = .ok aad)
    (hcall : encryptionCall env sa setup inFrame clear index ekp akp aad.aad =
      .ok (some (primitive, request)))
    (hreply : env.crypto.run primitive request = .ok reply)
    (hwrite : writeReply clear index aad.macLoc reply = .ok secured) :
    EncryptingCall sa setup inFrame index secured ⟨primitive, request, reply⟩ := by
  have hmacLoc := encryptAad_macLoc haad
  have hinside : ∀ loc, aad.macLoc = some loc →
      index + (setup.payloadLen + setup.pkcsPadding) ≤ loc := by
    intro loc hloc
    rw [hmacLoc] at hloc
    split at hloc
    · cases hloc
      have hle := hlayout.index_le
      rw [← hlayout.source] at hle
      exact Nat.add_le_add_right hle _
    · cases hloc
  obtain ⟨iv, -, hcall⟩ := bind_eq_ok.mp hcall
  split at hcall
  · rename_i haead
    obtain ⟨_, -, hcall⟩ := bind_eq_ok.mp hcall
    obtain ⟨input, hinput, hcall⟩ := bind_eq_ok.mp hcall
    obtain ⟨hlen, hwindow⟩ := frameAt_window hinput
    cases hcall
    have hnone : setup.pkcsPadding = 0 := hpad.trans (encPadding_aead haead _)
    obtain ⟨data, hdata, hdataLen⟩ := hdoc.aeadEncrypts _ _ hreply hest
    have htag := hdoc.aeadTags _ _ hreply
    dsimp only at hdataLen htag
    rw [hlen] at hdataLen
    obtain ⟨hpayload, hmac⟩ := writeReply_windows hdata (hdataLen.symm ▸ hinside) hwrite
    rw [hdataLen] at hpayload
    refine ⟨trivial, hest, ?_, by rw [hdata, hpayload], ?_⟩
    · simp [clearPayload, hwindow, hnone]
    · intro hast
      rw [hast, if_pos rfl] at htag
      obtain ⟨mac, hsome, hsize⟩ := htag
      obtain ⟨loc, hloc, htagAt⟩ := hmac mac hsome
      rw [hmacLoc, if_pos hast] at hloc
      cases hloc
      exact ⟨trivial, hast, by rw [hsome, ← hsize, htagAt]⟩
  · rename_i haead
    have hast : sa.ast = false := hcase.resolve_right haead
    rw [serviceType_of_est hest, hast] at hcall
    obtain ⟨_, -, hcall⟩ := bind_eq_ok.mp hcall
    obtain ⟨input, hinput, hcall⟩ := bind_eq_ok.mp hcall
    obtain ⟨hlen, hwindow⟩ := octetsAt_window hinput
    cases hcall
    obtain ⟨⟨data, hdata, hdataLen⟩, -⟩ := hdoc.encrypts _ _ hreply
    dsimp only at hdataLen
    rw [hlen] at hdataLen
    obtain ⟨hpayload, -⟩ := writeReply_windows hdata (hdataLen.symm ▸ hinside) hwrite
    rw [hdataLen] at hpayload
    refine ⟨trivial, rfl, ?_, by rw [hdata, hpayload], ?_⟩
    · rw [hwindow, hlayout.window_payload]
    · intro hast'
      rw [hast] at hast'
      cases hast'

/-- With a call to make, exactly one is made. -/
theorem encryptRun_encrypts (hdoc : env.crypto.Documented)
    (hlayout : ClearLayout env.config sa current setup inFrame clear index)
    (hpad : setup.pkcsPadding = encPadding sa setup.payloadLen)
    (hest : sa.est = true) (hcase : sa.ast = false ∨ isAeadAlgorithm sa.ecs = true)
    (h : EncryptRun env sa setup inFrame clear index secured calls) :
    ∃ call, calls = [call] ∧ EncryptingCall sa setup inFrame index secured call := by
  cases h with
  | clear hplain =>
    rw [serviceType_of_est hest] at hplain
    split at hplain <;> cases hplain
  | nothing _ _ _ _ hcall =>
    obtain ⟨iv, -, hcall⟩ := bind_eq_ok.mp hcall
    split at hcall
    · obtain ⟨_, -, hcall⟩ := bind_eq_ok.mp hcall
      obtain ⟨_, -, hcall⟩ := bind_eq_ok.mp hcall
      cases hcall
    · rename_i haead
      rw [serviceType_of_est hest, hcase.resolve_right haead] at hcall
      obtain ⟨_, -, hcall⟩ := bind_eq_ok.mp hcall
      obtain ⟨_, -, hcall⟩ := bind_eq_ok.mp hcall
      cases hcall
  | called _ _ _ haad hcall hreply hwrite =>
    exact ⟨_, rfl, encryptingCall_reply hdoc hlayout hpad hest hcase haad hcall hreply hwrite⟩

/-- Authenticated encryption without an AEAD cipher makes no call at all. -/
theorem encryptRun_nothing (hest : sa.est = true) (hast : sa.ast = true)
    (haead : isAeadAlgorithm sa.ecs = false)
    (h : EncryptRun env sa setup inFrame clear index secured calls) : calls = [] := by
  cases h with
  | clear => rfl
  | nothing => rfl
  | called _ _ _ _ hcall =>
    obtain ⟨iv, -, hcall⟩ := bind_eq_ok.mp hcall
    rw [haead, if_neg (by decide), serviceType_of_est hest, hast] at hcall
    cases hcall

/-! ## The service as a whole -/

theorem encrypted_service_iff (hdoc : env.crypto.Documented)
    (hselect : Selects env inFrame s i current setup) (hest : (s.sas i).est = true)
    (h : applySecurity env inFrame s = (.ok frame, s')) :
    PayloadProtected env (s.sas i) current setup inFrame frame (s'.calls.drop s.calls.length) ↔
      (s.sas i).ast = false ∨ isAeadAlgorithm (s.sas i).ecs = true := by
  obtain ⟨header, j, current', setup', clear, index, secured, calls, sa, happlied⟩ :=
    applySecurity_ok h
  obtain ⟨rfl, rfl, rfl⟩ := hselect.unique happlied.selects
  have hnew : s'.calls.drop s.calls.length = calls := by
    rw [happlied.state]
    exact List.drop_left' rfl
  rw [hnew]
  constructor
  · rintro ⟨⟨call, hmem, -⟩, -⟩
    by_contra hneither
    rw [not_or, Bool.not_eq_false, Bool.not_eq_true] at hneither
    rw [encryptRun_nothing hest hneither.1 hneither.2 happlied.encrypted] at hmem
    cases hmem
  · intro hcase
    obtain ⟨-, hpad, htotal, -⟩ := happlied.sizes
    have hlayout := happlied.layout
    obtain ⟨call, rfl, hcall⟩ :=
      encryptRun_encrypts hdoc hlayout hpad hest hcase happlied.encrypted
    have hlen : secured.length = setup.encFrameLen :=
      happlied.encrypted.length_eq.trans (buildFrame_length happlied.built)
    have hindex := hlayout.index_le
    refine ⟨⟨call, by simp, hcall.primitive, hcall.encrypts, hcall.input, ?_⟩, ?_⟩
    · rw [← hlayout.index, createFecf_window happlied.fecf (by omega)]
      exact hcall.data
    · intro hast
      obtain ⟨hauth, hon, hmac⟩ := hcall.mac hast
      refine ⟨call, by simp, hauth, hon, ?_⟩
      have hsource := hlayout.source
      rw [createFecf_window happlied.fecf (by rw [macStart]; omega)]
      exact hmac

/-! ## One association of each kind -/

/-- Authenticated encryption with CBC, set up like `sa[8]`. -/
def cbcSa : SecurityAssociation :=
  { encryptionSa .aes256Cbc 16 16 with
    ast := true
    shplfLen := 1
    stmacfLen := 16
    abmLen := ⟨ABM_SIZE, ABM_SIZE_lt⟩ }

/-- The frame leaves with its payload in the clear and a MAC field of zeros. -/
theorem cbc_payload_in_clear : ∃ frame s' current setup,
    Selects (scEnv 2 rejectingCrypto) shortFrame (startState cbcSa) ⟨2, by decide⟩ current setup ∧
    applySecurity (scEnv 2 rejectingCrypto) shortFrame (startState cbcSa) = (.ok frame, s') ∧
    cbcSa.est = true ∧ FileImage.window frame 24 4 = [0x5A, 0x5A, 0x5A, 0x5A] ∧
    ¬PayloadProtected (scEnv 2 rejectingCrypto) cbcSa current setup shortFrame frame
      (s'.calls.drop 0) := by
  have hrun : (applySecurity (scEnv 2 rejectingCrypto) shortFrame (startState cbcSa)).1 =
      .ok ([0x20, 0x03, 0x08, 0x2C, 0x00, 0x00, 0x00, 0x02] ++ List.replicate 16 0 ++
        [0x5A, 0x5A, 0x5A, 0x5A] ++ List.replicate 17 0) := by
    decide +kernel
  have hcalls : (applySecurity (scEnv 2 rejectingCrypto) shortFrame (startState cbcSa)).2.calls =
      [] := by
    decide +kernel
  refine ⟨_, _, scManagedParameters 2, ⟨1, 4, 0, 45⟩, ⟨⟨0, 0, 3, 2, 9⟩, 0, ?_⟩, run_eq hrun,
    rfl, by decide +kernel, ?_⟩
  · decide +kernel
  · rintro ⟨⟨call, hmem, -⟩, -⟩
    rw [hcalls] at hmem
    cases hmem

theorem tabledAead_documented {table : List (CryptoRequest × CryptoReply)}
    (hdata : ∀ entry ∈ table, ∃ data, entry.2.data = some data ∧
      data.length = entry.1.input.length)
    (hmac : ∀ entry ∈ table,
      if entry.1.authenticate then ∃ mac, entry.2.mac = some mac ∧ mac.length = entry.1.macSize
      else entry.2.mac = none) :
    (tabledAead table).Documented := by
  have hentry : ∀ request reply, (tabledAead table).aeadEncrypt request = .ok reply →
      (request, reply) ∈ table := by
    intro request reply h
    dsimp only [tabledAead] at h
    split at h
    · rename_i entry hfind
      cases h
      have hsame := List.find?_some hfind
      obtain rfl := of_decide_eq_true hsame
      exact List.mem_of_find?_eq_some hfind
    · cases h
  refine ⟨fun _ _ h => (nomatch h), fun request reply h _ => ?_, fun request reply h => ?_⟩
  · exact hdata _ (hentry request reply h)
  · exact hmac _ (hentry request reply h)

theorem gcm_payload_encrypted : ∃ frame s' current setup,
    applySecurity (scEnv 2 (tabledAead shortFrameCalls)) shortFrame
      (startState (encryptionSa .aes256Gcm 12 12)) = (.ok frame, s') ∧
    PayloadProtected (scEnv 2 (tabledAead shortFrameCalls)) (encryptionSa .aes256Gcm 12 12)
      current setup shortFrame frame (s'.calls.drop 0) := by
  have hdoc : (tabledAead shortFrameCalls).Documented :=
    tabledAead_documented (by simp [shortFrameCalls, shortFrameCall]) (by simp [shortFrameCalls, shortFrameCall])
  have hrun : (applySecurity (scEnv 2 (tabledAead shortFrameCalls)) shortFrame
      (startState (encryptionSa .aes256Gcm 12 12))).1 =
      .ok ([0x20, 0x03, 0x08, 0x17, 0x00, 0x00, 0x00, 0x02] ++ List.replicate 12 0 ++
        [0xAB, 0xE3, 0x5E, 0x9E]) := by
    decide +kernel
  have hselect : Selects (scEnv 2 (tabledAead shortFrameCalls)) shortFrame
      (startState (encryptionSa .aes256Gcm 12 12)) ⟨2, by decide⟩ (scManagedParameters 2) ⟨1, 4, 0, 24⟩ :=
    ⟨⟨0, 0, 3, 2, 9⟩, 0, by decide +kernel⟩
  exact ⟨_, _, _, _, run_eq hrun,
    (encrypted_service_iff hdoc hselect (by decide +kernel) (run_eq hrun)).mpr
      (.inr (by decide +kernel))⟩

end Nos3.Sdls
