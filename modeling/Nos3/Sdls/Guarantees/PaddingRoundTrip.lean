import Nos3.Sdls.Guarantees.Confidentiality
import Nos3.Sdls.Guarantees.ReceiveBounds

/-!
# Padding from the sender to the receiver

The pad count goes out in the last field of the security header, most significant
octet first. The receiver takes the first octet of that field for the count: with one
octet it is, with more it is zero.
-/
namespace Nos3.Sdls
open Nos3.Base
open Nos3.Base.BigEndian (Octet)
open Nos3.Base.Counter
open Nos3.Base.FixedArray
open Nos3.Base.Program

/-! ## The receiver -/

theorem setSegmentHeader_ok {current : ManagedParameters} {ingest : List Octet} {byteIdx : Nat}
    {s s' : TcState} (h : setSegmentHeader current ingest s = (.ok byteIdx, s')) :
    byteIdx = spiIndex current ∧ ∃ sh, s' = s.setFrame ({ · with sh := sh }) := by
  rw [setSegmentHeader] at h
  rw [spiIndex]
  split at h
  · rename_i hseg
    obtain ⟨sh, -, h⟩ := lift_bind_ok.mp h
    rw [modify_bind] at h
    cases h
    exact ⟨by rw [if_pos hseg], sh, rfl⟩
  · rename_i hseg
    cases h
    exact ⟨by rw [if_neg hseg]; rfl, s.frame.sh, rfl⟩

/-- What the headers name, and the frame length. -/
theorem parseHeaders_ok {env : TcEnv} {ingest : List Octet} {i : Fin NUM_SA} {s s' : TcState}
    (h : parseHeaders env ingest s = (.ok i, s')) :
    receiveParameters env ingest = .ok s'.current ∧
      namedSa s'.current ingest s.sas = .ok i ∧ s'.sas = s.sas ∧
      s'.frame.header.fl + 1 = ingest.length := by
  obtain ⟨_, -, h⟩ := lift_bind_ok.mp h
  obtain ⟨header, hheader, h⟩ := lift_bind_ok.mp h
  rw [modify_bind] at h
  obtain ⟨_, hlength, h⟩ := lift_bind_ok.mp h
  obtain ⟨current, hcurrent, h⟩ := lift_bind_ok.mp h
  rw [modify_bind] at h
  obtain ⟨byteIdx, t, hsegment, h⟩ := bind_ok.mp h
  obtain ⟨rfl, sh, rfl⟩ := setSegmentHeader_ok hsegment
  obtain ⟨spi, hspi, h⟩ := lift_bind_ok.mp h
  rw [modify_bind, get_bind] at h
  obtain ⟨j, hsa, h⟩ := lift_bind_ok.mp h
  obtain ⟨_, -, h⟩ := lift_bind_ok.mp h
  cases h
  rw [guardWith_ok, decide_eq_true_eq] at hlength
  refine ⟨?_, ?_, rfl, hlength⟩
  · rw [receiveParameters, hheader]
    exact hcurrent
  · rw [namedSa]
    exact bind_eq_ok.mpr ⟨spi, hspi, hsa⟩

theorem removePadding_ok {sa : SecurityAssociation} {current : ManagedParameters}
    {ingest : List Octet} {s s' : TcState} (hpad : (sa.shplfLen : Nat) ≠ 0)
    (h : removePadding sa current.segmentHdrLen ingest s = (.ok (), s')) :
    ∃ octet, frameOctet ingest (padIndex sa current) = .ok octet ∧
      s'.frame.tcPduLen = subWord s.frame.tcPduLen octet.toNat := by
  rw [removePadding, if_pos hpad] at h
  obtain ⟨octet, hoctet, h⟩ := lift_bind_ok.mp h
  cases h
  exact ⟨octet, hoctet, rfl⟩

/-- An encrypting service without authentication whose cipher is not an AEAD one. -/
structure EncryptsOnly (sa : SecurityAssociation) : Prop where
  service : sa.serviceType = .encryption
  cipher : isAeadAlgorithm sa.ecs = false
  padded : (sa.shplfLen : Nat) ≠ 0

theorem EncryptsOnly.est {sa : SecurityAssociation} (h : EncryptsOnly sa) :
    sa.est = true ∧ sa.ast = false := by
  have hservice := h.service
  cases hest : sa.est <;> cases hast : sa.ast <;>
    simp [SecurityAssociation.serviceType, hest, hast] at hservice ⊢

theorem doDecrypt_ok {env : TcEnv} {sa : SecurityAssociation} {current : ManagedParameters}
    {ingest aad : List Octet} {start : Nat} {ekp akp : Option CryptoKey} {s s' : TcState}
    (hsa : EncryptsOnly sa)
    (h : doDecrypt env sa current ingest start aad ekp akp s = (.ok (), s')) :
    ∃ octet, frameOctet ingest (padIndex sa current) = .ok octet ∧
      s'.frame.tcPduLen = subWord s.frame.tcPduLen octet.toNat := by
  obtain ⟨hest, hast⟩ := hsa.est
  rw [doDecrypt, get_bind] at h
  obtain ⟨input, -, h⟩ := lift_bind_ok.mp h
  rw [if_neg (by rw [hsa.service]; decide)] at h
  obtain ⟨request, -, h⟩ := lift_bind_ok.mp h
  rw [if_neg (by rw [hsa.cipher]; decide)] at h
  obtain ⟨validated, t, hvalidated, h⟩ := bind_ok.mp h
  have hvalidate : ReadsInside (validateMac env sa request akp) s _ := validateMac_inside request akp
  have hsame := (hvalidate.ok hvalidated).2
  rw [decryptPayload, if_pos hest] at h
  obtain ⟨_, -, h⟩ := lift_bind_ok.mp h
  obtain ⟨decrypted, t', hdecrypted, h⟩ := bind_ok.mp h
  have hkept := ((callStatus_inside (s := t) _ _).ok hdecrypted).2
  obtain ⟨_, t'', hremoved, h⟩ := bind_ok.mp h
  obtain ⟨-, rfl⟩ := lift_ok.mp h
  obtain ⟨octet, hoctet, hlen⟩ := removePadding_ok hsa.padded hremoved
  exact ⟨octet, hoctet, by rw [hlen, hkept, hsame]⟩

/-- The length of the data that a processed frame leaves. -/
theorem processFrame_pduLen {env : TcEnv} {ingest : List Octet} {s s' : TcState}
    (h : processFrame env ingest s = (.ok (), s')) :
    ∃ current i, receiveParameters env ingest = .ok current ∧
      namedSa current ingest s.sas = .ok i ∧
      (EncryptsOnly (s.sas i) → ∃ octet,
        frameOctet ingest (padIndex (s.sas i) current) = .ok octet ∧
        s'.frame.tcPduLen =
          subWord (pduLength (s.sas i) current (ingest.length - 1)) octet.toNat) := by
  obtain ⟨i, t, hparsed, h⟩ := bind_ok.mp h
  obtain ⟨hcurrent, hnamed, hsas, hlength⟩ := parseHeaders_ok hparsed
  have hfl : t.frame.header.fl = ingest.length - 1 := by omega
  rw [get_bind] at h
  obtain ⟨_, -, h⟩ := lift_bind_ok.mp h
  obtain ⟨_, _, -, h⟩ := bind_ok.mp h
  obtain ⟨aad, _, -, h⟩ := bind_ok.mp h
  rw [modify_bind] at h
  obtain ⟨_, -, h⟩ := lift_bind_ok.mp h
  obtain ⟨keys, -, h⟩ := lift_bind_ok.mp h
  obtain ⟨_, t', hdecrypt, h⟩ := bind_ok.mp h
  have hframe := (checkIvArsn_inside (s := t') env.config i).ok h
  refine ⟨t.current, i, hcurrent, hnamed, fun hsa => ?_⟩
  rw [← hsas] at hsa ⊢
  obtain ⟨octet, hoctet, hlen⟩ := doDecrypt_ok hsa hdecrypt
  refine ⟨octet, hoctet, ?_⟩
  rw [hframe, hlen, ← hfl]
  rfl

/-! ## The sender -/

/-- Encryption with the block cipher, and a field for the pad count. -/
structure PadsBlocks (sa : SecurityAssociation) : Prop where
  service : sa.serviceType = .encryption
  cipher : sa.ecs = .aes256Cbc
  field : 1 ≤ (sa.shplfLen : Nat)

/-- A TC channel has segment headers or has none, and no operational control field. -/
structure TcChannel (current : ManagedParameters) : Prop where
  segments : current.hasSegmentationHdr ≠ .notApplicable
  noOcf : current.hasOcf = false

theorem PadsBlocks.encryptsOnly {sa : SecurityAssociation} (h : PadsBlocks sa) :
    EncryptsOnly sa :=
  ⟨h.service, by rw [h.cipher]; rfl, by have := h.field; omega⟩

theorem PadsBlocks.encPadding_eq {sa : SecurityAssociation} (h : PadsBlocks sa)
    (payloadLen : Nat) :
    encPadding sa payloadLen = TC_BLOCK_SIZE - payloadLen % TC_BLOCK_SIZE := by
  simp [encPadding, h.service, h.cipher]

/-- At least one octet is filled in, at most a block, and the blocks come out even. -/
theorem PadsBlocks.encPadding_blocks {sa : SecurityAssociation} (h : PadsBlocks sa)
    (payloadLen : Nat) :
    0 < encPadding sa payloadLen ∧ encPadding sa payloadLen ≤ TC_BLOCK_SIZE ∧
      TC_BLOCK_SIZE ∣ payloadLen + encPadding sa payloadLen := by
  rw [h.encPadding_eq, TC_BLOCK_SIZE]
  omega

/-- The count as the field has it, and as the first octet of the field has it. -/
theorem handlePadding_value {sa : SecurityAssociation} (h : PadsBlocks sa) {pkcsPadding : Nat}
    (hpos : 0 < pkcsPadding) (hle : pkcsPadding ≤ TC_BLOCK_SIZE) :
    value (handlePadding pkcsPadding sa) = pkcsPadding ∧
      ∃ octet rest, handlePadding pkcsPadding sa = octet :: rest ∧
        octet.toNat = if (sa.shplfLen : Nat) = 1 then pkcsPadding else 0 := by
  have hone := h.field
  have hthree := sa.shplfLen.isLt
  rw [TC_BLOCK_SIZE] at hle
  have hhigh : pkcsPadding / 2 ^ 16 = 0 := Nat.div_eq_of_lt (by omega)
  have hmiddle : pkcsPadding / 2 ^ 8 = 0 := Nat.div_eq_of_lt (by omega)
  have hlow : pkcsPadding % 256 = pkcsPadding := Nat.mod_eq_of_lt (by omega)
  have hwidth : (sa.shplfLen : Nat) = 1 ∨ (sa.shplfLen : Nat) = 2 ∨ (sa.shplfLen : Nat) = 3 := by
    omega
  rw [handlePadding, if_neg (by omega), hhigh, hmiddle]
  rcases hwidth with hwidth | hwidth | hwidth <;> simp [hwidth, value, hlow]

theorem ClearLayout.padField {config : Config} {sa : SecurityAssociation}
    {current : ManagedParameters} {setup : FrameSetup} {inFrame frame : List Octet} {index : Nat}
    (h : ClearLayout config sa current setup inFrame frame index) (htc : TcChannel current)
    (hpad : 0 < setup.pkcsPadding) :
    padField sa current frame = handlePadding setup.pkcsPadding sa ∧
      padIndex sa current + sa.shplfLen = index := by
  have hsegment : (if current.hasSegmentationHdr = .tcHasSegmentHdrs then 1 else 0) =
      current.segmentHdrLen := by
    have hsegments := htc.segments
    cases hkind : current.hasSegmentationHdr <;>
      simp [ManagedParameters.segmentHdrLen, hkind, TC_SEGMENT_HDR_SIZE] at hsegments ⊢
  have hlen := handlePadding_length setup.pkcsPadding sa
  rw [if_neg (Nat.ne_of_gt hpad)] at hlen
  have hindex := h.front_length
  rw [hsegment, if_neg (Nat.ne_of_gt hpad)] at hindex
  have hstart : padIndex sa current + sa.shplfLen = index := hindex.symm
  refine ⟨?_, hstart⟩
  have hfront := h.index
  rw [clearFront, List.length_append, hlen] at hfront
  rw [Sdls.padField, h.octets, clearFront, List.append_assoc, List.append_assoc, FileImage.window,
    List.drop_left' (by omega), List.take_left' hlen]

theorem createFecf_length {config : Config} {current : ManagedParameters}
    {secured frame : List Octet} (h : createFecf config current secured = .ok frame) :
    frame.length = secured.length := by
  rw [createFecf] at h
  split at h
  · exact pokeAt_length h
  · cases h
    rfl

/-- The one call gets the payload with its fill, and what it writes stands behind the
security header. -/
theorem EncryptRun.blocks {env : TcEnv} {sa : SecurityAssociation} {current : ManagedParameters}
    {setup : FrameSetup} {inFrame clear secured : List Octet} {index : Nat}
    {calls : List CryptoCall} (hsa : PadsBlocks sa)
    (hlayout : ClearLayout env.config sa current setup inFrame clear index)
    (h : EncryptRun env sa setup inFrame clear index secured calls) :
    (∃ call, calls = [call] ∧ call.request.input = clearPayload setup inFrame) ∧
      ∀ start count, start + count ≤ index →
        FileImage.window secured start count = FileImage.window clear start count := by
  obtain ⟨-, hast⟩ := hsa.encryptsOnly.est
  have hcalled : ∀ {ekp akp : Option CryptoKey} {aad : List Octet} {call},
      encryptionCall env sa setup inFrame clear index ekp akp aad = .ok call →
      ∃ primitive request, call = some (primitive, request) ∧
        request.input = clearPayload setup inFrame := by
    intro ekp akp aad call hcall
    obtain ⟨iv, -, hcall⟩ := bind_eq_ok.mp hcall
    rw [hsa.cipher, hsa.service] at hcall
    obtain ⟨_, -, hcall⟩ := bind_eq_ok.mp hcall
    obtain ⟨input, hinput, hcall⟩ := bind_eq_ok.mp hcall
    cases hcall
    exact ⟨_, _, rfl, (octetsAt_window hinput).2.trans hlayout.window_payload⟩
  cases h with
  | clear hplain =>
    rw [hsa.service] at hplain
    cases hplain
  | nothing _ _ _ _ hcall =>
    obtain ⟨_, _, hsome, -⟩ := hcalled hcall
    cases hsome
  | called _ _ _ haad hcall _ hwrite =>
    obtain ⟨_, _, hsome, hinput⟩ := hcalled hcall
    cases hsome
    refine ⟨⟨_, rfl, hinput⟩, fun start count hbefore => ?_⟩
    have hmacLoc := encryptAad_macLoc haad
    rw [hast, if_neg (by decide)] at hmacLoc
    obtain ⟨mid, hmid, hwrite⟩ := bind_eq_ok.mp hwrite
    obtain ⟨hroom, rfl⟩ := pokeAt_cases hmid
    rw [hmacLoc] at hwrite
    split at hwrite
    · cases hwrite
      exact window_patch_before hbefore hroom
    · rename_i hsome
      cases hsome
    · cases hwrite

/-! ## From the sender to the receiver -/

/-- The data of the frame that came in. -/
def payloadOctets (current : ManagedParameters) (inFrame : List Octet) : List Octet :=
  FileImage.window inFrame (TC_FRAME_HEADER_SIZE + current.segmentHdrLen)
    (inFrame.length - (TC_FRAME_HEADER_SIZE + current.segmentHdrLen + current.fecfLen))

/-- The pad count is the number of octets behind the payload in what is encrypted,
whole blocks are, and the receiver is left with the payload's length. -/
structure PaddingRoundTrip (sa : SecurityAssociation) (current : ManagedParameters)
    (inFrame frame : List Octet) (calls : List CryptoCall) (tcPduLen : Nat) : Prop where
  filled : ∃ call fill, calls = [call] ∧
    call.request.input = payloadOctets current inFrame ++ fill ∧
    value (padField sa current frame) = fill.length ∧
    TC_BLOCK_SIZE ∣ call.request.input.length
  removed : tcPduLen = (payloadOctets current inFrame).length

section RoundTrip
variable {env env' : TcEnv} {inFrame frame : List Octet} {s s' r r' : TcState}
  {i j : Fin NUM_SA} {current : ManagedParameters} {setup : FrameSetup}

/-- What the sender wrote: the field with the count, the call with the fill. -/
structure Padded (sa : SecurityAssociation) (current : ManagedParameters)
    (inFrame frame : List Octet) (calls : List CryptoCall) (pkcsPadding : Nat) : Prop where
  positive : 0 < pkcsPadding
  block : pkcsPadding ≤ TC_BLOCK_SIZE
  field : padField sa current frame = handlePadding pkcsPadding sa
  call : ∃ call, calls = [call] ∧ call.request.input = payloadOctets current inFrame ++
    List.replicate pkcsPadding (BitVec.ofNat 8 pkcsPadding)
  whole : TC_BLOCK_SIZE ∣ (payloadOctets current inFrame).length + pkcsPadding
  length : frame.length = TC_FRAME_HEADER_SIZE + current.segmentHdrLen + sa.headerLen +
    (payloadOctets current inFrame).length + pkcsPadding + sa.stmacfLen + current.fecfLen
  short : frame.length ≤ 1024

theorem applySecurity_padded (hselect : Selects env inFrame s i current setup)
    (htc : TcChannel current) (hsa : PadsBlocks (s.sas i))
    (h : applySecurity env inFrame s = (.ok frame, s')) :
    Padded (s.sas i) current inFrame frame (s'.calls.drop s.calls.length) setup.pkcsPadding := by
  obtain ⟨header, k, current', setup', clear, index, secured, calls, sa, happlied⟩ :=
    applySecurity_ok h
  obtain ⟨rfl, rfl, rfl⟩ := hselect.unique happlied.selects
  have hocf : current.ocfLen = 0 := by rw [ManagedParameters.ocfLen, htc.noOcf]; rfl
  obtain ⟨hsource, hpad, htotal, hlength⟩ := happlied.sizes
  rw [hocf] at htotal hlength
  have hpayloadLen : setup.payloadLen =
      inFrame.length - (TC_FRAME_HEADER_SIZE + current.segmentHdrLen + current.fecfLen) := by
    omega
  have hpayload : FileImage.window inFrame (TC_FRAME_HEADER_SIZE + setup.segmentHdrLen)
      setup.payloadLen = payloadOctets current inFrame := by
    rw [payloadOctets, hsource, hpayloadLen]
  have hpayloadSize : (payloadOctets current inFrame).length = setup.payloadLen := by
    rw [← hpayload, FileImage.window_full (by omega)]
  obtain ⟨hpositive, hblock, hwhole⟩ := hsa.encPadding_blocks setup.payloadLen
  rw [← hpad] at hpositive hblock hwhole
  have hlayout := happlied.layout
  obtain ⟨hfield, hindex⟩ := hlayout.padField htc hpositive
  obtain ⟨⟨call, rfl, hinput⟩, hkept⟩ := happlied.encrypted.blocks hsa hlayout
  have hsecured : secured.length = setup.encFrameLen :=
    happlied.encrypted.length_eq.trans (buildFrame_length happlied.built)
  have hframe : frame.length = setup.encFrameLen := (createFecf_length happlied.fecf).trans hsecured
  have hle := hlayout.index_le
  refine ⟨hpositive, hblock, ?_, ⟨call, ?_, ?_⟩, ?_, ?_, ?_⟩
  · rw [← hfield, padField, createFecf_window happlied.fecf (by omega),
      hkept _ _ (Nat.le_of_eq hindex), padField]
  · rw [happlied.state]
    exact List.drop_left' rfl
  · rw [hinput, clearPayload, hpayload]
  · rwa [hpayloadSize]
  · rw [hframe, hpayloadSize, htotal]
    omega
  · obtain ⟨_, -, -, -, -, -, hmax⟩ := calcFrameSetup_cases happlied.planned
    rwa [hframe]

theorem Padded.pduLength_eq {sa sa' : SecurityAssociation} {calls : List CryptoCall}
    {pkcsPadding : Nat} (h : Padded sa current inFrame frame calls pkcsPadding)
    (hsame : SameConfiguration sa sa') :
    pduLength sa' current (frame.length - 1) =
      (payloadOctets current inFrame).length + pkcsPadding := by
  obtain ⟨iv, arsn, rfl⟩ := hsame
  have hlength := h.length
  have hshort := h.short
  have hheader : ({ sa with iv := iv, arsn := arsn } : SecurityAssociation).headerLen =
      sa.headerLen := rfl
  have hpositive := h.positive
  rw [pduLength, hheader, subWord_eq (by dsimp only; omega) (by omega)]
  dsimp only
  omega

/-- The padding makes the round trip exactly when the count has one octet. -/
theorem padding_round_trip_iff (hselect : Selects env inFrame s i current setup)
    (htc : TcChannel current) (hsa : PadsBlocks (s.sas i))
    (happly : applySecurity env inFrame s = (.ok frame, s'))
    (hcurrent : receiveParameters env' frame = .ok current)
    (hnamed : namedSa current frame r.sas = .ok j)
    (hsame : SameConfiguration (s.sas i) (r.sas j))
    (hprocess : processFrame env' frame r = (.ok (), r')) :
    PaddingRoundTrip (s.sas i) current inFrame frame (s'.calls.drop s.calls.length)
        r'.frame.tcPduLen ↔
      ((s.sas i).shplfLen : Nat) = 1 := by
  have hpadded := applySecurity_padded hselect htc hsa happly
  obtain ⟨current', k, hcurrent', hnamed', hremoved⟩ := processFrame_pduLen hprocess
  cases hcurrent.symm.trans hcurrent'
  cases hnamed.symm.trans hnamed'
  obtain ⟨octet, hoctet, hpduLen⟩ := hremoved (by
    obtain ⟨iv, arsn, heq⟩ := hsame
    rw [heq]
    exact ⟨hsa.service, by rw [hsa.cipher]; rfl, Nat.ne_of_gt hsa.field⟩)
  rw [hpadded.pduLength_eq hsame] at hpduLen
  have hindex : padIndex (r.sas j) current = padIndex (s.sas i) current := by
    obtain ⟨iv, arsn, heq⟩ := hsame
    rw [heq]
    rfl
  rw [hindex] at hoctet
  obtain ⟨hvalue, first, rest, hfirst, hcount⟩ :=
    handlePadding_value hsa hpadded.positive hpadded.block
  -- the receiver's octet is the first of the field
  have hsameOctet : octet = first := by
    have hread : frame[padIndex (s.sas i) current]? = some octet := by
      rw [frameOctet] at hoctet
      split at hoctet
      · cases hoctet
        assumption
      · cases hoctet
    have hwindow := hpadded.field.trans hfirst
    rw [padField, FileImage.window] at hwindow
    have hhead := congrArg List.head? hwindow
    rw [List.head?_take, if_neg (Nat.ne_of_gt hsa.field), List.head?_drop, hread] at hhead
    exact Option.some.inj hhead
  rw [hsameOctet, hcount] at hpduLen
  have hpositive := hpadded.positive
  have hblock := hpadded.block
  have hlength := hpadded.length
  have hshort := hpadded.short
  rw [TC_BLOCK_SIZE] at hblock
  constructor
  · rintro ⟨-, hround⟩
    by_contra hmore
    rw [if_neg hmore, hround, subWord_eq (Nat.zero_le _) (by omega)] at hpduLen
    omega
  · intro hone
    obtain ⟨call, hcalls, hinput⟩ := hpadded.call
    refine ⟨⟨call, _, hcalls, hinput, ?_, ?_⟩, ?_⟩
    · rw [hpadded.field, hvalue, List.length_replicate]
    · rw [hinput, List.length_append, List.length_replicate]
      exact hpadded.whole
    · rw [hpduLen, if_pos hone, subWord_eq (by omega) (by omega), Nat.add_sub_cancel]

end RoundTrip

/-! ## One block -/

/-- `sa[2]` with CBC and a pad count of the given width. -/
def paddingSa (shplfLen : Fin 4) : SecurityAssociation :=
  { encryptionSa .aes256Cbc 16 16 with shplfLen := shplfLen }

/-- The payload of `shortFrame` with its fill, and what AES makes of the block. -/
def shortBlock : List Octet := [0x5A, 0x5A, 0x5A, 0x5A] ++ List.replicate 12 0x0C

def shortCiphertext : List Octet :=
  [0x65, 0x16, 0x7F, 0xF8, 0x5A, 0xD8, 0x50, 0xE1, 0x16, 0xDA, 0x04, 0x7B, 0x0F, 0x9E, 0x52, 0x54]

/-- The cipher on one block, under key 2 and a zero IV. -/
def blockCrypto (clear ciphertext : List Octet) : Cryptography :=
  let knows := fun (request : CryptoRequest) (input : List Octet) =>
    request.input = input ∧ request.key = scKey 2 ∧ request.iv = List.replicate 16 0
  { rejectingCrypto with
    encrypt := fun request =>
      if knows request clear then .ok { data := some ciphertext } else .error 0
    decrypt := fun request =>
      if knows request ciphertext then .ok { data := some clear } else .error 0 }

def blockEnv : TcEnv := scEnv 2 (blockCrypto shortBlock shortCiphertext)

/-- The security header of the frame up to the pad count. -/
def paddedFront (fl : Octet) : List Octet :=
  [0x20, 0x03, 0x08, fl, 0x00, 0x00, 0x00, 0x02] ++ List.replicate 16 0

theorem blockEnv_selects (shplfLen : Fin 4) (h : 1 ≤ (shplfLen : Nat)) :
    Selects blockEnv shortFrame (startState (paddingSa shplfLen)) ⟨2, by decide⟩
      (scManagedParameters 2) ⟨1, 4, 12, 40 + shplfLen⟩ := by
  refine ⟨⟨0, 0, 3, 2, 9⟩, 0, ?_⟩
  match shplfLen, h with
  | 1, _ => decide +kernel
  | 2, _ => decide +kernel
  | 3, _ => decide +kernel

theorem paddingSa_pads (shplfLen : Fin 4) (h : 1 ≤ (shplfLen : Nat)) :
    PadsBlocks (paddingSa shplfLen) :=
  ⟨rfl, rfl, h⟩

theorem scManagedParameters_tcChannel (vcid : Fin 64) : TcChannel (scManagedParameters vcid) :=
  ⟨nofun, rfl⟩

theorem padding_round_trip_one_octet : ∃ frame s' r',
    applySecurity blockEnv shortFrame (startState (paddingSa 1)) = (.ok frame, s') ∧
    processFrame blockEnv frame (startState (paddingSa 1)) = (.ok (), r') ∧
    PaddingRoundTrip (paddingSa 1) (scManagedParameters 2) shortFrame frame (s'.calls.drop 0)
      r'.frame.tcPduLen := by
  have happly : (applySecurity blockEnv shortFrame (startState (paddingSa 1))).1 =
      .ok (paddedFront 0x28 ++ [0x0C] ++ shortCiphertext) := by
    decide +kernel
  have hprocess : (processFrame blockEnv (paddedFront 0x28 ++ [0x0C] ++ shortCiphertext)
      (startState (paddingSa 1))).1 = .ok () := by
    decide +kernel
  refine ⟨_, _, _, run_eq happly, run_eq hprocess, ?_⟩
  exact (padding_round_trip_iff (blockEnv_selects 1 (by decide)) (scManagedParameters_tcChannel 2)
    (paddingSa_pads 1 (by decide)) (run_eq happly) (j := ⟨2, by decide⟩) (by decide +kernel)
    (by decide +kernel) ⟨_, _, rfl⟩ (run_eq hprocess)).mpr rfl

/-- With two octets for the count the fill stays in the data: sixteen octets instead of four. -/
theorem two_octet_count_kept : ∃ frame s' r',
    PadsBlocks (paddingSa 2) ∧ TcChannel (scManagedParameters 2) ∧
    applySecurity blockEnv shortFrame (startState (paddingSa 2)) = (.ok frame, s') ∧
    processFrame blockEnv frame (startState (paddingSa 2)) = (.ok (), r') ∧
    ¬PaddingRoundTrip (paddingSa 2) (scManagedParameters 2) shortFrame frame (s'.calls.drop 0)
      r'.frame.tcPduLen := by
  have happly : (applySecurity blockEnv shortFrame (startState (paddingSa 2))).1 =
      .ok (paddedFront 0x29 ++ [0x00, 0x0C] ++ shortCiphertext) := by
    decide +kernel
  have hprocess : (processFrame blockEnv (paddedFront 0x29 ++ [0x00, 0x0C] ++ shortCiphertext)
      (startState (paddingSa 2))).1 = .ok () := by
    decide +kernel
  refine ⟨_, _, _, paddingSa_pads 2 (by decide), scManagedParameters_tcChannel 2, run_eq happly,
    run_eq hprocess, fun hround => ?_⟩
  have hlength : (processFrame blockEnv (paddedFront 0x29 ++ [0x00, 0x0C] ++ shortCiphertext)
      (startState (paddingSa 2))).2.frame.tcPduLen = 16 := by
    decide +kernel
  have hremoved := hround.removed
  rw [hlength] at hremoved
  revert hremoved
  decide +kernel

end Nos3.Sdls
