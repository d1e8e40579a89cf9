import Nos3.Sdls.Source.TcRules

/-!
# What a successful call of the sender did

The frame built before encryption in closed form, one run of the encryption step,
and the whole call taken apart.
-/
namespace Nos3.Sdls
open Nos3.Base
open Nos3.Base.BigEndian (Octet)
open Nos3.Base.FixedArray
open Nos3.Base.Program

/-! ## The frame in the clear -/

/-- The primary header with the new frame length. -/
def frameHeader (inFrame : List Octet) (length : Nat) : List Octet :=
  match inFrame with
  | o0 :: o1 :: o2 :: _ :: o4 :: _ =>
    [o0, o1, (o2 &&& 0xFC) ||| BitVec.ofNat 8 (length / 2 ^ 8 % 4), BitVec.ofNat 8 length, o4]
  | _ => []

def segmentOctets (current : ManagedParameters) (inFrame : List Octet) : List Octet :=
  if current.hasSegmentationHdr = .tcHasSegmentHdrs then FileImage.window inFrame 5 1 else []

def spiOctets (sa : SecurityAssociation) : List Octet :=
  [BitVec.ofNat 8 (sa.spi / 2 ^ 8), BitVec.ofNat 8 sa.spi]

/-- A cryptography module fills the field later; until then it is zero. -/
def transmittedIv (config : Config) (sa : SecurityAssociation) : List Octet :=
  match config.ivType with
  | .internal => FileImage.window sa.iv.cells (sa.ivLen - sa.shivfLen) sa.shivfLen
  | .cryptoModule => List.replicate sa.shivfLen 0

def transmittedSn (sa : SecurityAssociation) : List Octet :=
  FileImage.window sa.arsn.cells (sa.arsnLen - sa.shsnfLen) sa.shsnfLen

/-- Everything in front of the payload. -/
def clearFront (config : Config) (sa : SecurityAssociation) (current : ManagedParameters)
    (setup : FrameSetup) (inFrame : List Octet) : List Octet :=
  frameHeader inFrame (setup.encFrameLen - 1) ++ segmentOctets current inFrame ++ spiOctets sa ++
    transmittedIv config sa ++ transmittedSn sa ++ handlePadding setup.pkcsPadding sa

def clearPayload (setup : FrameSetup) (inFrame : List Octet) : List Octet :=
  FileImage.window inFrame (TC_FRAME_HEADER_SIZE + setup.segmentHdrLen) setup.payloadLen ++
    List.replicate setup.pkcsPadding (BitVec.ofNat 8 setup.pkcsPadding)

theorem pokeAt_fill {front octets frame : List Octet} {n : Nat}
    (h : pokeAt (front ++ List.replicate n 0) front.length octets = .ok frame) :
    octets.length ≤ n ∧ frame = front ++ octets ++ List.replicate (n - octets.length) 0 := by
  obtain ⟨hroom, rfl⟩ := pokeAt_cases h
  rw [patch_append, List.drop_replicate]
  rw [List.length_append, List.length_replicate] at hroom
  exact ⟨by omega, rfl⟩

theorem frameAt_cases {frame octets : List Octet} {offset count : Nat}
    (h : frameAt frame offset count = .ok octets) :
    (0 < count → offset + count ≤ frame.length) ∧
      octets = FileImage.window frame offset count := by
  rw [frameAt] at h
  split at h
  · rename_i hzero
    cases h
    simp [hzero, FileImage.window]
  · split at h
    · rename_i hread
      cases h
      obtain ⟨hle, rfl⟩ := readAt_cases hread
      exact ⟨fun _ => hle, rfl⟩
    · cases h

theorem octetsAt_window {cells octets : List Octet} {offset count : Nat}
    (h : octetsAt cells offset count = .ok octets) :
    octets.length = count ∧ octets = FileImage.window cells offset count :=
  ⟨readAt_length (octetsAt_cases h), (readAt_cases (octetsAt_cases h)).2⟩

theorem checkIvSetup_fill {config : Config} {sa : SecurityAssociation} {front frame : List Octet}
    {n index : Nat} (hroom : (sa.shivfLen : Nat) ≤ n)
    (h : checkIvSetup config sa (front ++ List.replicate n 0) front.length = .ok (frame, index)) :
    frame = front ++ transmittedIv config sa ++ List.replicate (n - sa.shivfLen) 0 ∧
      (transmittedIv config sa).length = sa.shivfLen ∧
      index = front.length + sa.shivfLen := by
  cases hiv : config.ivType with
  | internal =>
    simp only [checkIvSetup, hiv] at h
    simp only [transmittedIv, hiv]
    obtain ⟨octets, hoctets, h⟩ := bind_eq_ok.mp h
    obtain ⟨mid, hmid, hret⟩ := bind_eq_ok.mp h
    obtain ⟨hlen, hwindow⟩ := octetsAt_window hoctets
    obtain ⟨-, hfill⟩ := pokeAt_fill hmid
    cases hret
    rw [hfill, hlen, hwindow]
    exact ⟨rfl, hwindow ▸ hlen, rfl⟩
  | cryptoModule =>
    have hskip : List.replicate n (0 : Octet) =
        List.replicate sa.shivfLen 0 ++ List.replicate (n - sa.shivfLen) 0 := by
      rw [List.replicate_append_replicate, Nat.add_sub_cancel' hroom]
    simp only [checkIvSetup, hiv] at h
    simp only [transmittedIv, hiv]
    split at h
    · cases h
      exact ⟨by rw [List.append_assoc, ← hskip], List.length_replicate, rfl⟩
    · split at h
      · rename_i hzero
        cases h
        simp [hzero]
      · cases h

theorem tcHeader_octets {config : Config} {inFrame : List Octet} {header : TcHeader}
    (h : tcHeader config inFrame = .ok header) :
    ∃ o0 o1 o2 o3 o4 rest, inFrame = o0 :: o1 :: o2 :: o3 :: o4 :: rest := by
  obtain ⟨_, -, h⟩ := bind_eq_ok.mp h
  obtain ⟨_, -, h⟩ := bind_eq_ok.mp h
  obtain ⟨_, -, h⟩ := bind_eq_ok.mp h
  obtain ⟨_, -, h⟩ := bind_eq_ok.mp h
  obtain ⟨o4, h4, -⟩ := bind_eq_ok.mp h
  match inFrame, h4 with
  | o0 :: o1 :: o2 :: o3 :: o4 :: rest, _ => exact ⟨o0, o1, o2, o3, o4, rest, rfl⟩
  | [_, _, _, _], h4 => cases h4
  | [_, _, _], h4 => cases h4
  | [_, _], h4 => cases h4
  | [_], h4 => cases h4
  | [], h4 => cases h4

/-- The new length goes into the third and fourth octet. -/
theorem setFrameLength_header {o0 o1 o2 o3 o4 : Octet} {back frame : List Octet} {length : Nat}
    (h : setFrameLength (o0 :: o1 :: o2 :: o3 :: o4 :: back) length = .ok frame) :
    frame = [o0, o1, (o2 &&& 0xFC) ||| BitVec.ofNat 8 (length / 2 ^ 8 % 4),
      BitVec.ofNat 8 length, o4] ++ back := by
  obtain ⟨_, hread, h⟩ := bind_eq_ok.mp h
  obtain ⟨-, rfl⟩ := octetsAt_window hread
  obtain ⟨mid, hmid, h⟩ := bind_eq_ok.mp h
  obtain ⟨-, rfl⟩ := pokeAt_cases hmid
  obtain ⟨-, rfl⟩ := pokeAt_cases h
  simp [patch, FileImage.window]

theorem headerCopy_fill {config : Config} {header : TcHeader} {current : ManagedParameters}
    {inFrame octets frame frame' frame'' : List Octet} {total : Nat} {sa : SecurityAssociation}
    (hheader : tcHeader config inFrame = .ok header)
    (hread : frameAt inFrame 0 (TC_FRAME_HEADER_SIZE + current.segmentHdrLen) = .ok octets)
    (hcopy : pokeAt (List.replicate total 0) 0 octets = .ok frame)
    (hlen : setFrameLength frame (total - 1) = .ok frame')
    (hspi : pokeAt frame' (TC_FRAME_HEADER_SIZE +
      if current.hasSegmentationHdr = .tcHasSegmentHdrs then 1 else 0) (spiOctets sa) = .ok frame'') :
    frameHeader inFrame (total - 1) ++ segmentOctets current inFrame ++ spiOctets sa ++
      List.replicate (total - (TC_FRAME_HEADER_SIZE + (segmentOctets current inFrame).length + 2)) 0
      = frame'' ∧
      (frameHeader inFrame (total - 1)).length = TC_FRAME_HEADER_SIZE := by
  obtain ⟨o0, o1, o2, o3, o4, rest, rfl⟩ := tcHeader_octets hheader
  obtain ⟨hinside, rfl⟩ := frameAt_cases hread
  obtain ⟨-, hcopied⟩ : _ ∧ frame = [] ++ FileImage.window _ _ _ ++ _ := pokeAt_fill hcopy
  refine ⟨?_, rfl⟩
  cases hseg : current.hasSegmentationHdr with
  | tcNoSegmentHdrs =>
    have hframe : frame = o0 :: o1 :: o2 :: o3 :: o4 :: List.replicate (total - 5) 0 := by
      simpa [ManagedParameters.segmentHdrLen, hseg, TC_FRAME_HEADER_SIZE, FileImage.window]
        using hcopied
    subst hframe
    obtain rfl := setFrameLength_header hlen
    rw [hseg, if_neg (by decide)] at hspi
    obtain ⟨-, rfl⟩ := pokeAt_fill hspi
    simp [segmentOctets, hseg, frameHeader, spiOctets, TC_FRAME_HEADER_SIZE, Nat.sub_sub]
  | tcHasSegmentHdrs =>
    obtain ⟨x, rest, rfl⟩ : ∃ x xs, rest = x :: xs := by
      refine List.exists_cons_of_length_pos ?_
      have hle := hinside (Nat.add_pos_left (by decide) _)
      simp [ManagedParameters.segmentHdrLen, hseg, TC_FRAME_HEADER_SIZE, TC_SEGMENT_HDR_SIZE] at hle
      omega
    have hframe : frame = o0 :: o1 :: o2 :: o3 :: o4 :: x :: List.replicate (total - 6) 0 := by
      simpa [ManagedParameters.segmentHdrLen, hseg, TC_FRAME_HEADER_SIZE, TC_SEGMENT_HDR_SIZE,
        FileImage.window] using hcopied
    subst hframe
    obtain rfl := setFrameLength_header hlen
    rw [hseg, if_pos rfl, ← List.singleton_append (x := x), ← List.append_assoc] at hspi
    obtain ⟨-, rfl⟩ := pokeAt_fill hspi
    simp [segmentOctets, hseg, frameHeader, spiOctets, TC_FRAME_HEADER_SIZE, FileImage.window,
      Nat.sub_sub]
  | notApplicable =>
    obtain ⟨x, rest, rfl⟩ : ∃ x xs, rest = x :: xs := by
      refine List.exists_cons_of_length_pos ?_
      have hle := hinside (Nat.add_pos_left (by decide) _)
      simp [ManagedParameters.segmentHdrLen, hseg, TC_FRAME_HEADER_SIZE, TC_SEGMENT_HDR_SIZE] at hle
      omega
    have hframe : frame = o0 :: o1 :: o2 :: o3 :: o4 :: x :: List.replicate (total - 6) 0 := by
      simpa [ManagedParameters.segmentHdrLen, hseg, TC_FRAME_HEADER_SIZE, TC_SEGMENT_HDR_SIZE,
        FileImage.window] using hcopied
    subst hframe
    obtain rfl := setFrameLength_header hlen
    obtain ⟨-, rfl⟩ := pokeAt_cases hspi
    simp [segmentOctets, hseg, frameHeader, spiOctets, TC_FRAME_HEADER_SIZE, patch, Nat.sub_sub]

theorem frameAt_window {frame octets : List Octet} {offset count : Nat}
    (h : frameAt frame offset count = .ok octets) :
    octets.length = count ∧ octets = FileImage.window frame offset count :=
  ⟨frameAt_length h, (frameAt_cases h).2⟩

/-- How the clear frame lies in the buffer. -/
structure ClearLayout (config : Config) (sa : SecurityAssociation) (current : ManagedParameters)
    (setup : FrameSetup) (inFrame frame : List Octet) (index : Nat) : Prop where
  octets : frame = clearFront config sa current setup inFrame ++ clearPayload setup inFrame ++
    List.replicate (setup.encFrameLen - (index + setup.payloadLen + setup.pkcsPadding)) 0
  index : index = (clearFront config sa current setup inFrame).length
  header : (frameHeader inFrame (setup.encFrameLen - 1)).length = TC_FRAME_HEADER_SIZE
  segment : (segmentOctets current inFrame).length =
    if current.hasSegmentationHdr = .tcHasSegmentHdrs then 1 else 0
  iv : (transmittedIv config sa).length = sa.shivfLen
  sn : (transmittedSn sa).length = sa.shsnfLen
  payload : (clearPayload setup inFrame).length = setup.payloadLen + setup.pkcsPadding
  source : setup.segmentHdrLen = current.segmentHdrLen

theorem segmentOctets_length {current : ManagedParameters} {inFrame octets : List Octet}
    (h : frameAt inFrame 0 (TC_FRAME_HEADER_SIZE + current.segmentHdrLen) = .ok octets) :
    (segmentOctets current inFrame).length =
      if current.hasSegmentationHdr = .tcHasSegmentHdrs then 1 else 0 := by
  rw [segmentOctets]
  split
  · rename_i hseg
    have hle := (frameAt_cases h).1 (Nat.add_pos_left (by decide) _)
    simp only [ManagedParameters.segmentHdrLen, hseg, TC_FRAME_HEADER_SIZE,
      TC_SEGMENT_HDR_SIZE] at hle
    exact FileImage.window_full (by simpa using hle)
  · rfl

theorem buildFrame_layout {config : Config} {sa : SecurityAssociation}
    {current : ManagedParameters} {setup : FrameSetup} {inFrame frame : List Octet} {index : Nat}
    {header : TcHeader} (hheader : tcHeader config inFrame = .ok header)
    (hseg : setup.segmentHdrLen = current.segmentHdrLen)
    (hroom : TC_FRAME_HEADER_SIZE + current.segmentHdrLen + sa.headerLen ≤ setup.encFrameLen)
    (h : buildFrame config sa current setup inFrame = .ok (frame, index)) :
    ClearLayout config sa current setup inFrame frame index := by
  obtain ⟨_, hread, h⟩ := bind_eq_ok.mp h
  obtain ⟨_, hcopy, h⟩ := bind_eq_ok.mp h
  obtain ⟨_, hlen, h⟩ := bind_eq_ok.mp h
  obtain ⟨_, hspi, h⟩ := bind_eq_ok.mp h
  rw [hseg] at hread
  obtain ⟨rfl, hfront⟩ := headerCopy_fill hheader hread hcopy hlen hspi
  have hsegment := segmentOctets_length hread
  obtain ⟨_, -, h⟩ := bind_eq_ok.mp h
  obtain ⟨⟨_, _⟩, hiv, h⟩ := bind_eq_ok.mp h
  have hstart : TC_FRAME_HEADER_SIZE +
        (if current.hasSegmentationHdr = .tcHasSegmentHdrs then 1 else 0) + 2 =
      (frameHeader inFrame (setup.encFrameLen - 1) ++ segmentOctets current inFrame ++
        spiOctets sa).length := by
    rw [List.length_append, List.length_append, hfront, hsegment]
    rfl
  have hsegLe : (if current.hasSegmentationHdr = .tcHasSegmentHdrs then 1 else 0) ≤
      current.segmentHdrLen := by
    cases hkind : current.hasSegmentationHdr <;>
      simp [ManagedParameters.segmentHdrLen, hkind, TC_SEGMENT_HDR_SIZE]
  rw [hstart] at hiv
  clear hlen hspi hcopy
  -- from here on every field is appended to what is there
  generalize hopening : frameHeader inFrame (setup.encFrameLen - 1) ++
    segmentOctets current inFrame ++ spiOctets sa = opening at *
  obtain ⟨rfl, hivLen, rfl⟩ := checkIvSetup_fill (by
    rw [hsegment]
    simp only [SecurityAssociation.headerLen, SPI_LEN] at hroom
    omega) hiv
  obtain ⟨sn, hsn, h⟩ := bind_eq_ok.mp h
  obtain ⟨_, hpoke, h⟩ := bind_eq_ok.mp h
  obtain ⟨hsnLen, hsnEq⟩ := octetsAt_window hsn
  rw [← hivLen, ← List.length_append] at hpoke
  obtain ⟨-, rfl⟩ := pokeAt_fill hpoke
  obtain ⟨_, hpad, h⟩ := bind_eq_ok.mp h
  have hpadAt : opening.length + sa.shivfLen + sa.shsnfLen =
      (opening ++ transmittedIv config sa ++ sn).length := by
    rw [List.length_append, List.length_append, hivLen, hsnLen]
  rw [hpadAt] at hpad h
  obtain ⟨-, rfl⟩ := pokeAt_fill hpad
  obtain ⟨payload, hpayload, h⟩ := bind_eq_ok.mp h
  obtain ⟨_, hcopy, h⟩ := bind_eq_ok.mp h
  obtain ⟨hpayloadLen, hpayloadEq⟩ := frameAt_window hpayload
  rw [← List.length_append] at hcopy
  obtain ⟨-, rfl⟩ := pokeAt_fill hcopy
  obtain ⟨_, hfill, h⟩ := bind_eq_ok.mp h
  rw [← hpayloadLen, ← List.length_append, ← List.length_append] at hfill
  obtain ⟨-, rfl⟩ := pokeAt_fill hfill
  cases h
  have hfrontEq : clearFront config sa current setup inFrame =
      opening ++ transmittedIv config sa ++ sn ++ handlePadding setup.pkcsPadding sa := by
    rw [clearFront, hopening, transmittedSn, hsnEq]
  have hpayloadAll : clearPayload setup inFrame =
      payload ++ List.replicate setup.pkcsPadding (BitVec.ofNat 8 setup.pkcsPadding) := by
    rw [clearPayload, hpayloadEq]
  refine ⟨?_, ?_, hfront, hsegment, hivLen, by rw [transmittedSn, ← hsnEq, hsnLen], ?_, hseg⟩
  · rw [hfrontEq, hpayloadAll, ← List.append_assoc]
    congr 2
    simp only [List.length_append, List.length_replicate, hsnLen, hivLen, hpayloadLen]
    omega
  · rw [hfrontEq]
    exact List.length_append.symm
  · rw [hpayloadAll, List.length_append, hpayloadLen, List.length_replicate]

theorem handlePadding_length (pkcsPadding : Nat) (sa : SecurityAssociation) :
    (handlePadding pkcsPadding sa).length = if pkcsPadding = 0 then 0 else (sa.shplfLen : Nat) := by
  rw [handlePadding]
  split
  · rfl
  · rw [List.length_drop]
    exact Nat.sub_sub_self (Nat.le_of_lt_succ sa.shplfLen.isLt)

/-- Where the payload starts. -/
theorem ClearLayout.front_length {config : Config} {sa : SecurityAssociation}
    {current : ManagedParameters} {setup : FrameSetup} {inFrame frame : List Octet} {index : Nat}
    (h : ClearLayout config sa current setup inFrame frame index) :
    index = TC_FRAME_HEADER_SIZE +
      (if current.hasSegmentationHdr = .tcHasSegmentHdrs then 1 else 0) + SPI_LEN + sa.shivfLen +
      sa.shsnfLen + (if setup.pkcsPadding = 0 then 0 else (sa.shplfLen : Nat)) := by
  rw [h.index, clearFront]
  simp only [List.length_append, h.header, h.segment, h.iv, h.sn, handlePadding_length]
  rfl

theorem ClearLayout.index_le {config : Config} {sa : SecurityAssociation}
    {current : ManagedParameters} {setup : FrameSetup} {inFrame frame : List Octet} {index : Nat}
    (h : ClearLayout config sa current setup inFrame frame index) :
    index ≤ TC_FRAME_HEADER_SIZE + current.segmentHdrLen + sa.headerLen := by
  have hsegment : (if current.hasSegmentationHdr = .tcHasSegmentHdrs then 1 else 0) ≤
      current.segmentHdrLen := by
    cases hkind : current.hasSegmentationHdr <;>
      simp [ManagedParameters.segmentHdrLen, hkind, TC_SEGMENT_HDR_SIZE]
  have hpad : (if setup.pkcsPadding = 0 then 0 else (sa.shplfLen : Nat)) ≤ sa.shplfLen := by
    split
    · exact Nat.zero_le _
    · exact Nat.le_refl _
  rw [h.front_length, SecurityAssociation.headerLen]
  omega

/-- The payload in the clear stands at `index`. -/
theorem ClearLayout.window_payload {config : Config} {sa : SecurityAssociation}
    {current : ManagedParameters} {setup : FrameSetup} {inFrame frame : List Octet} {index : Nat}
    (h : ClearLayout config sa current setup inFrame frame index) :
    FileImage.window frame index (setup.payloadLen + setup.pkcsPadding) =
      clearPayload setup inFrame := by
  rw [h.octets, List.append_assoc, h.index, FileImage.window, List.drop_left' rfl,
    ← h.payload, List.take_left' rfl]

/-! ## The encryption step -/

theorem callCryptography_ok {env : TcEnv} {primitive : Primitive} {request : CryptoRequest}
    {reply : CryptoReply} {s s' : TcState} :
    callCryptography env primitive request s = (.ok reply, s') ↔
      env.crypto.run primitive request = .ok reply ∧
        s' = { s with calls := s.calls ++ [⟨primitive, request, reply⟩] } := by
  rw [callCryptography]
  cases hrun : env.crypto.run primitive request with
  | error code => simp [Routine.fail]
  | ok got =>
    constructor
    · intro h
      cases h
      exact ⟨rfl, rfl⟩
    · rintro ⟨h, rfl⟩
      cases h
      rfl

/-- A run of `tcEncrypt`: the output frame and the calls made. -/
inductive EncryptRun (env : TcEnv) (sa : SecurityAssociation) (setup : FrameSetup)
    (inFrame frame : List Octet) (index : Nat) : List Octet → List CryptoCall → Prop
  | clear : sa.serviceType = .plaintext → EncryptRun env sa setup inFrame frame index frame []
  | nothing {aad : AadSetup} {ekp akp : Option CryptoKey} :
      sa.serviceType ≠ .plaintext → activeKey env sa.est sa.ekid = .ok ekp →
      activeKey env sa.ast sa.akid = .ok akp → encryptAad sa setup frame = .ok aad →
      encryptionCall env sa setup inFrame frame index ekp akp aad.aad = .ok none →
      EncryptRun env sa setup inFrame frame index frame []
  | called {aad : AadSetup} {ekp akp : Option CryptoKey} {primitive : Primitive}
      {request : CryptoRequest} {reply : CryptoReply} {frame' : List Octet} :
      sa.serviceType ≠ .plaintext → activeKey env sa.est sa.ekid = .ok ekp →
      activeKey env sa.ast sa.akid = .ok akp → encryptAad sa setup frame = .ok aad →
      encryptionCall env sa setup inFrame frame index ekp akp aad.aad =
        .ok (some (primitive, request)) →
      env.crypto.run primitive request = .ok reply →
      writeReply frame index aad.macLoc reply = .ok frame' →
      EncryptRun env sa setup inFrame frame index frame' [⟨primitive, request, reply⟩]

theorem tcEncrypt_run {env : TcEnv} {sa : SecurityAssociation} {setup : FrameSetup}
    {inFrame frame frame' : List Octet} {index : Nat} {s s' : TcState}
    (h : tcEncrypt env sa setup inFrame frame index s = (.ok frame', s')) :
    ∃ calls, EncryptRun env sa setup inFrame frame index frame' calls ∧
      s' = { s with calls := s.calls ++ calls } := by
  obtain ⟨ekp, hekp, h⟩ := lift_bind_ok.mp h
  obtain ⟨akp, hakp, h⟩ := lift_bind_ok.mp h
  split at h
  · rename_i hclear
    cases h
    exact ⟨[], .clear hclear, by simp⟩
  · rename_i hservice
    obtain ⟨aad, haad, h⟩ := lift_bind_ok.mp h
    obtain ⟨call, hcall, h⟩ := lift_bind_ok.mp h
    cases call with
    | none =>
      cases h
      exact ⟨[], .nothing hservice hekp hakp haad hcall, by simp⟩
    | some call =>
      obtain ⟨primitive, request⟩ := call
      obtain ⟨reply, _, hrun, h⟩ := bind_ok.mp h
      obtain ⟨hreply, rfl⟩ := callCryptography_ok.mp hrun
      obtain ⟨hwrite, rfl⟩ := lift_ok.mp h
      exact ⟨_, .called hservice hekp hakp haad hcall hreply hwrite, rfl⟩

theorem EncryptRun.length_eq {env : TcEnv} {sa : SecurityAssociation} {setup : FrameSetup}
    {inFrame frame frame' : List Octet} {index : Nat} {calls : List CryptoCall}
    (h : EncryptRun env sa setup inFrame frame index frame' calls) :
    frame'.length = frame.length := by
  cases h with
  | clear => rfl
  | nothing => rfl
  | called _ _ _ _ _ _ hwrite => exact writeReply_length hwrite

/-! ## The whole call -/

/-- The association a frame goes out on, and the lengths it is secured with. -/
structure Selects (env : TcEnv) (inFrame : List Octet) (s : TcState) (i : Fin NUM_SA)
    (current : ManagedParameters) (setup : FrameSetup) : Prop where
  selected : ∃ header mapId, tcHeader env.config inFrame = .ok header ∧
    getManagedParametersForGvcid env header = .ok current ∧
    mapIdOf current inFrame = .ok mapId ∧
    saGetOperationalSaFromGvcid env.config s.sas header mapId = .ok i ∧
    calcFrameSetup (s.sas i) current header = .ok setup

theorem Selects.unique {env : TcEnv} {inFrame : List Octet} {s : TcState} {i j : Fin NUM_SA}
    {current current' : ManagedParameters} {setup setup' : FrameSetup}
    (h : Selects env inFrame s i current setup) (h' : Selects env inFrame s j current' setup') :
    i = j ∧ current = current' ∧ setup = setup' := by
  obtain ⟨header, mapId, hparsed, hmanaged, hmap, hsa, hplanned⟩ := h
  obtain ⟨header', mapId', hparsed', hmanaged', hmap', hsa', hplanned'⟩ := h'
  cases hparsed.symm.trans hparsed'
  cases hmanaged.symm.trans hmanaged'
  cases hmap.symm.trans hmap'
  cases hsa.symm.trans hsa'
  cases hplanned.symm.trans hplanned'
  exact ⟨rfl, rfl, rfl⟩

/-- What a successful call looked up, computed and changed. -/
structure Applied (env : TcEnv) (inFrame : List Octet) (s : TcState) (frame : List Octet)
    (s' : TcState) (header : TcHeader) (i : Fin NUM_SA) (current : ManagedParameters)
    (setup : FrameSetup) (clear : List Octet) (index : Nat) (secured : List Octet)
    (calls : List CryptoCall) (sa : SecurityAssociation) : Prop where
  parsed : tcHeader env.config inFrame = .ok header
  managed : getManagedParametersForGvcid env header = .ok current
  selected : ∃ mapId, mapIdOf current inFrame = .ok mapId ∧
    saGetOperationalSaFromGvcid env.config s.sas header mapId = .ok i
  valid : validateSa env.config s.sas i = .ok ()
  length : header.fl + 1 = inFrame.length
  planned : calcFrameSetup (s.sas i) current header = .ok setup
  built : buildFrame env.config (s.sas i) current setup inFrame = .ok (clear, index)
  encrypted : EncryptRun env (s.sas i) setup inFrame clear index secured calls
  counters : incrementIvArsn env.config (s.sas i) = .ok sa
  fecf : createFecf env.config current secured = .ok frame
  state : s' = { s with sas := Function.update s.sas i sa, current := current,
                        calls := s.calls ++ calls }

section Applied
variable {env : TcEnv} {inFrame frame clear secured : List Octet} {s s' : TcState}
  {header : TcHeader} {i : Fin NUM_SA} {current : ManagedParameters} {setup : FrameSetup}
  {index : Nat} {calls : List CryptoCall} {sa : SecurityAssociation}

/-- The lengths the buffer was sized with. -/
theorem Applied.sizes
    (h : Applied env inFrame s frame s' header i current setup clear index secured calls sa) :
    setup.segmentHdrLen = current.segmentHdrLen ∧
      setup.pkcsPadding = encPadding (s.sas i) setup.payloadLen ∧
      setup.encFrameLen = TC_FRAME_HEADER_SIZE + current.segmentHdrLen + (s.sas i).headerLen +
        setup.payloadLen + setup.pkcsPadding + (s.sas i).stmacfLen + 2 * current.ocfLen +
        current.fecfLen ∧
      TC_FRAME_HEADER_SIZE + current.segmentHdrLen + setup.payloadLen + current.ocfLen +
        current.fecfLen = inFrame.length := by
  obtain ⟨_, -, -, htaken, rfl, -, -⟩ := calcFrameSetup_cases h.planned
  have hlength := h.length
  dsimp only
  refine ⟨rfl, rfl, ?_, ?_⟩ <;> omega

theorem Applied.layout
    (h : Applied env inFrame s frame s' header i current setup clear index secured calls sa) :
    ClearLayout env.config (s.sas i) current setup inFrame clear index := by
  obtain ⟨hseg, -, htotal, -⟩ := h.sizes
  exact buildFrame_layout h.parsed hseg (by omega) h.built

theorem Applied.selects
    (h : Applied env inFrame s frame s' header i current setup clear index secured calls sa) :
    Selects env inFrame s i current setup := by
  obtain ⟨mapId, hmap, hsa⟩ := h.selected
  exact ⟨header, mapId, h.parsed, h.managed, hmap, hsa, h.planned⟩

end Applied

theorem applySecurity_ok {env : TcEnv} {inFrame frame : List Octet} {s s' : TcState}
    (h : applySecurity env inFrame s = (.ok frame, s')) :
    ∃ header i current setup clear index secured calls sa,
      Applied env inFrame s frame s' header i current setup clear index secured calls sa := by
  obtain ⟨_, -, h⟩ := lift_bind_ok.mp h
  obtain ⟨header, hheader, h⟩ := lift_bind_ok.mp h
  obtain ⟨i, _, hselect, h⟩ := bind_ok.mp h
  obtain ⟨_, -, hselect⟩ := lift_bind_ok.mp hselect
  obtain ⟨current, hcurrent, hselect⟩ := lift_bind_ok.mp hselect
  rw [modify_bind] at hselect
  obtain ⟨mapId, hmap, hselect⟩ := lift_bind_ok.mp hselect
  obtain ⟨_, -, hselect⟩ := lift_bind_ok.mp hselect
  rw [get_bind] at hselect
  obtain ⟨j, hsa, hselect⟩ := lift_bind_ok.mp hselect
  obtain ⟨_, hvalid, hselect⟩ := lift_bind_ok.mp hselect
  cases hselect
  obtain ⟨_, hlength, h⟩ := lift_bind_ok.mp h
  rw [get_bind] at h
  obtain ⟨setup, hsetup, h⟩ := lift_bind_ok.mp h
  obtain ⟨⟨clear, index⟩, hclear, h⟩ := lift_bind_ok.mp h
  dsimp only [doEncrypt] at h
  rw [get_bind] at h
  obtain ⟨secured, _, hrun, h⟩ := bind_ok.mp h
  obtain ⟨calls, hencrypt, rfl⟩ := tcEncrypt_run hrun
  obtain ⟨sa, hcounters, h⟩ := lift_bind_ok.mp h
  rw [modify_bind] at h
  obtain ⟨hfecf, rfl⟩ := lift_ok.mp h
  rw [guardWith_ok, decide_eq_true_eq] at hlength
  exact ⟨header, i, current, setup, clear, index, secured, calls, sa, hheader, hcurrent,
    ⟨mapId, hmap, hsa⟩, hvalid, hlength, hsetup, hclear, hencrypt, hcounters, hfecf, rfl⟩

/-! ## The sender's counters -/

theorem incrementAt_window {n : Nat} {buffer next : Buffer Octet n} {offset count : Nat}
    (h : incrementAt buffer offset count = .ok next) :
    (FileImage.window buffer.cells offset count).length = count ∧
      FileImage.window next.cells offset count =
        Counter.increment (FileImage.window buffer.cells offset count) := by
  obtain ⟨octets, hread, h⟩ := bind_eq_ok.mp h
  obtain ⟨hlen, rfl⟩ := octetsAt_window hread
  obtain ⟨hroom, hcells⟩ := buffer.write_cases (copyInto_cases h)
  refine ⟨hlen, ?_⟩
  have hsame := window_patch_same (Nat.le_trans hroom (Nat.le_of_eq buffer.length_cells.symm))
  rw [Counter.increment_length, hlen] at hsame
  rw [hcells, hsame]

theorem incrementIvArsn_cases {config : Config} {sa sa' : SecurityAssociation}
    (h : incrementIvArsn config sa = .ok sa') :
    (sa.serviceType = .plaintext ∧ sa' = sa) ∨
      (sa.serviceType ≠ .plaintext ∧ ∃ iv arsn, nextIv config sa = .ok iv ∧
        nextArsn sa = .ok arsn ∧ sa' = { sa with iv := iv, arsn := arsn }) := by
  rw [incrementIvArsn] at h
  split at h
  · rename_i hplain
    cases h
    exact .inl ⟨hplain, rfl⟩
  · rename_i hservice
    obtain ⟨iv, hiv, h⟩ := bind_eq_ok.mp h
    obtain ⟨arsn, harsn, h⟩ := bind_eq_ok.mp h
    cases h
    exact .inr ⟨hservice, iv, arsn, hiv, harsn, rfl⟩

end Nos3.Sdls
