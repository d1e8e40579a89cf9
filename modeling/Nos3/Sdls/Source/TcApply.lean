import Nos3.Sdls.Source.TcState

/-!
# Securing a TC frame

`Crypto_TC_ApplySecurity` of `crypto_tc.c` with the functions it calls. The
output buffer is a list of the computed length; a write outside it is a memory
fault.
-/
namespace Nos3.Sdls
open Nos3.Base.BigEndian (Octet)
open Nos3.Base.Counter
open Nos3.Base.FixedArray
open Nos3.Base.Program

def pokeAt (frame : List Octet) (offset : Nat) (octets : List Octet) : Except Error (List Octet) :=
  if offset + octets.length ≤ frame.length then .ok (patch frame offset octets)
  else .error .memoryFault

def sanitySetup (config : Config) (inFrame : List Octet) : Except Error Unit := do
  guardWith config.initialized .noConfig
  guardWith (inFrame.length ≥ 5) .inputFrameTooShortForTcStandard

/-! ## The association of the frame -/

def SecurityAssociation.serves (sa : SecurityAssociation) (config : Config) (header : TcHeader)
    (mapId : Nat) : Bool :=
  sa.gvcid.tfvn = header.tfvn && sa.gvcid.scid = header.scid && sa.gvcid.vcid = header.vcid &&
    sa.saState = .operational && (!config.uniqueSaPerMapid || sa.gvcid.mapid = mapId)

/-- Only the first association is looked at for a better error code: the status is
an error from the start, so the loop ends there. -/
def saMismatchCode (sas : SaTable) (header : TcHeader) (mapId : Nat) (code : Error) : Error :=
  let sa := sas ⟨0, by decide⟩
  if sa.gvcid.tfvn ≠ header.tfvn && sa.gvcid.scid = header.scid && sa.gvcid.vcid = header.vcid &&
      sa.gvcid.mapid = mapId && sa.saState = .operational then .invalidTfvn
  else code

def saGetOperationalSaFromGvcid (config : Config) (sas : SaTable) (header : TcHeader)
    (mapId : Nat) : Except Error (Fin NUM_SA) :=
  match (List.finRange NUM_SA).find? fun i => (sas i).serves config header mapId with
  | some i =>
    if (sas i).ast && (sas i).abmLen = (0 : Nat) then
      .error (saMismatchCode sas header mapId .nullAbm)
    else .ok i
  | none => .error (saMismatchCode sas header mapId .noOperationalSa)

/-- The MAP identifier of the segment header, zero on a channel without one. -/
def mapIdOf (current : ManagedParameters) (inFrame : List Octet) : Except Error Nat := do
  if current.hasSegmentationHdr = .tcHasSegmentHdrs then
    let sh ← frameOctet inFrame 5
    return (sh &&& 0x3F).toNat
  else return 0

def validateTcTempHeader (env : TcEnv) (inFrame : List Octet) (header : TcHeader) :
    Tc (Fin NUM_SA) := do
  Routine.lift (guardWith (inFrame.length ≥ header.fl + 1)
    .inputFrameLengthShorterThanFrameHeadersLength)
  let current ← Routine.lift (getManagedParametersForGvcid env header)
  Routine.modify fun s => { s with current := current }
  let mapId ← Routine.lift (mapIdOf current inFrame)
  Routine.lift (guardWith (header.cc ≠ 1) .invalidCcFlag)
  let s ← Routine.get
  let i ← Routine.lift (saGetOperationalSaFromGvcid env.config s.sas header mapId)
  Routine.lift (validateSa env.config s.sas i)
  return i

/-! ## Lengths -/

def getCipherModeTca (sa : SecurityAssociation) : Except Error EncCipherSuite :=
  let cipher := if sa.serviceType = .plaintext then .none else sa.ecs
  if cipher = .none && sa.est then .error .noEcsSetForEncryptionMode else .ok cipher

/-- The lengths the output frame is built with. -/
structure FrameSetup where
  segmentHdrLen : Nat
  payloadLen : Nat
  pkcsPadding : Nat
  encFrameLen : Nat
  deriving DecidableEq, Repr

def encPadding (sa : SecurityAssociation) (payloadLen : Nat) : Nat :=
  if sa.serviceType = .encryption && sa.ecs = .aes256Cbc then
    TC_BLOCK_SIZE - payloadLen % TC_BLOCK_SIZE
  else 0

def frameValidation (current : ManagedParameters) (encFrameLen : Nat) : Except Error Unit := do
  guardWith (encFrameLen ≥ TC_MIN_FRAME_SIZE) .tcFrameTooShort
  guardWith (encFrameLen ≤ current.maxFrameSize) .frameSizeExceedsManagedParamMaxLimit
  guardWith (encFrameLen ≤ 1024) .frameSizeExceedsSpecLimit

def finalizeFrameSetup (sa : SecurityAssociation) (current : ManagedParameters)
    (payloadLen encFrameLen : Nat) : Except Error FrameSetup := do
  let padding := encPadding sa payloadLen
  guardWith (padding = 0 || encFrameLen + padding ≤ TC_MAX_FRAME_SIZE) .frameSizeExceedsSpecLimit
  frameValidation current (encFrameLen + padding)
  return ⟨current.segmentHdrLen, payloadLen, padding, encFrameLen + padding⟩

def calcFrameSetup (sa : SecurityAssociation) (current : ManagedParameters) (header : TcHeader) :
    Except Error FrameSetup := do
  let cipher ← getCipherModeTca sa
  guardWith (!((cipher = .aes256Cbc || cipher = .aes256CbcMac) && (sa.shplfLen : Nat) = 0))
    .shplfLenLessThanMinPadSize
  let taken := TC_FRAME_HEADER_SIZE + current.segmentHdrLen + current.ocfLen + current.fecfLen
  guardWith (taken ≤ header.fl + 1) .tcFrameLengthUnderflow
  -- the OCF is part of the incoming length already and is added once more
  finalizeFrameSetup sa current (header.fl + 1 - taken)
    (header.fl + 1 + sa.headerLen + sa.stmacfLen + current.ocfLen)

/-! ## The clear part of the output frame -/

def acsAlgoCheck (sa : SecurityAssociation) : Except Error Unit :=
  guardWith (!(sa.serviceType = .authentication && (sa.acsLen : Nat) > 0 && isAcsOnlyAlgo sa.acs &&
    (sa.ivLen : Nat) > 0)) .ivNotSupportedForAcsAlgo

/-- The transmitted part of the IV, and where the next field starts. A cryptography
module fills the field itself. -/
def checkIvSetup (config : Config) (sa : SecurityAssociation) (frame : List Octet) (index : Nat) :
    Except Error (List Octet × Nat) := do
  match config.ivType with
  | .internal => do
    let octets ← octetsAt sa.iv.cells (sa.ivLen - sa.shivfLen) sa.shivfLen
    let frame ← pokeAt frame index octets
    return (frame, index + sa.shivfLen)
  | .cryptoModule =>
    if (sa.shivfLen : Nat) > 0 && config.cryptographyType = .kmccrypto then
      return (frame, index + sa.shivfLen)
    else if (sa.shivfLen : Nat) = 0 then return (frame, index)
    else .error .nullIv

/-- The low `shplf_len` octets of the pad count; without padding nothing is written. -/
def handlePadding (pkcsPadding : Nat) (sa : SecurityAssociation) : List Octet :=
  if pkcsPadding = 0 then []
  else ([BitVec.ofNat 8 (pkcsPadding / 2 ^ 16), BitVec.ofNat 8 (pkcsPadding / 2 ^ 8),
    BitVec.ofNat 8 pkcsPadding] : List Octet).drop (3 - sa.shplfLen)

def setFrameLength (frame : List Octet) (length : Nat) : Except Error (List Octet) := do
  let o2 ← octetsAt frame 2 1
  let frame ← pokeAt frame 2 (o2.map fun o => (o &&& 0xFC) ||| BitVec.ofNat 8 (length / 2 ^ 8 % 4))
  pokeAt frame 3 [BitVec.ofNat 8 length]

/-- The frame up to the payload in the clear, and where the payload starts. -/
def buildFrame (config : Config) (sa : SecurityAssociation) (current : ManagedParameters)
    (setup : FrameSetup) (inFrame : List Octet) : Except Error (List Octet × Nat) := do
  let headerLen := TC_FRAME_HEADER_SIZE + setup.segmentHdrLen
  let frame : List Octet := List.replicate setup.encFrameLen 0
  let frame ← pokeAt frame 0 (← frameAt inFrame 0 headerLen)
  let frame ← setFrameLength frame (setup.encFrameLen - 1)
  let index := TC_FRAME_HEADER_SIZE +
    if current.hasSegmentationHdr = .tcHasSegmentHdrs then 1 else 0
  let frame ← pokeAt frame index [BitVec.ofNat 8 (sa.spi / 2 ^ 8), BitVec.ofNat 8 sa.spi]
  let index := index + 2
  acsAlgoCheck sa
  let (frame, index) ← checkIvSetup config sa frame index
  let sn ← octetsAt sa.arsn.cells (sa.arsnLen - sa.shsnfLen) sa.shsnfLen
  let frame ← pokeAt frame index sn
  let index := index + sa.shsnfLen
  let pad := handlePadding setup.pkcsPadding sa
  let frame ← pokeAt frame index pad
  let index := index + pad.length
  let frame ← pokeAt frame index (← frameAt inFrame headerLen setup.payloadLen)
  let frame ← pokeAt frame (index + setup.payloadLen)
    (List.replicate setup.pkcsPadding (BitVec.ofNat 8 setup.pkcsPadding))
  return (frame, index)

/-! ## Encryption and authentication -/

/-- The key of a service that is on; a key management service keeps its keys itself. -/
def activeKey (env : TcEnv) (used : Bool) (id : Fin (2 ^ 16)) : Except Error (Option CryptoKey) :=
  if used && env.config.keyType ≠ .kmc then
    match env.getKey id with
    | none => .error .keyIdError
    | some key => if key.active then .ok (some key) else .error .keyStateInvalid
  else .ok none

/-- Where the MAC goes and the additional data, for the authenticating services. -/
structure AadSetup where
  macLoc : Option Nat
  aad : List Octet
  deriving DecidableEq, Repr

def encryptAad (sa : SecurityAssociation) (setup : FrameSetup) (frame : List Octet) :
    Except Error AadSetup := do
  if sa.ast then
    let headerLen := TC_FRAME_HEADER_SIZE + setup.segmentHdrLen + sa.headerLen
    let payloadLen := setup.payloadLen + setup.pkcsPadding
    let aadLen := if sa.serviceType = .authentication then headerLen + payloadLen else headerLen
    guardWith ((sa.abmLen : Nat) ≥ aadLen) .abmTooShortForAad
    let aad ← prepareTcAad (← octetsAt frame 0 aadLen) sa.abm
    return ⟨some (headerLen + payloadLen), aad⟩
  else return ⟨none, []⟩

/-- The reply written into the frame: data at the payload, the tag at the MAC field. -/
def writeReply (frame : List Octet) (index : Nat) (macLoc : Option Nat) (reply : CryptoReply) :
    Except Error (List Octet) := do
  let frame ← pokeAt frame index (reply.data.getD [])
  match reply.mac, macLoc with
  | none, _ => return frame
  | some mac, some macLoc => pokeAt frame macLoc mac
  | some _, none => throw .memoryFault

/-- The call each service makes: AEAD ciphers one call for every service, the others
one for encryption and one for authentication, and none for both together. -/
def encryptionCall (env : TcEnv) (sa : SecurityAssociation) (setup : FrameSetup)
    (inFrame frame : List Octet) (index : Nat) (ekp akp : Option CryptoKey) (aad : List Octet) :
    Except Error (Option (Primitive × CryptoRequest)) := do
  let payloadLen := setup.payloadLen + setup.pkcsPadding
  let iv ← octetsAt sa.iv.cells 0 sa.ivLen
  if isAeadAlgorithm sa.ecs then
    checkKeylen env.config ekp (getEcsAlgoKeylen sa.ecs)
    let input ← frameAt inFrame (TC_FRAME_HEADER_SIZE + setup.segmentHdrLen) payloadLen
    let request : CryptoRequest := {
      input := input, key := ekp, keyLen := getEcsAlgoKeylen sa.ecs, iv := iv
      macSize := sa.stmacfLen, aad := aad, encrypt := sa.est, authenticate := sa.ast
      ecs := sa.ecs, acs := sa.acs }
    return some (.aeadEncrypt, request)
  else
    match sa.serviceType with
    | .encryption => do
      checkKeylen env.config ekp (getEcsAlgoKeylen sa.ecs)
      let input ← octetsAt frame index payloadLen
      let request : CryptoRequest := {
        input := input, key := ekp, keyLen := getEcsAlgoKeylen sa.ecs, iv := iv, ecs := sa.ecs }
      return some (.encrypt, request)
    | .authentication => do
      checkKeylen env.config akp (getAcsAlgoKeylen sa.acs)
      let input ← frameAt inFrame (TC_FRAME_HEADER_SIZE + setup.segmentHdrLen) payloadLen
      let request : CryptoRequest := {
        input := input, key := akp, keyLen := getAcsAlgoKeylen sa.acs, iv := iv
        macSize := sa.stmacfLen, aad := aad, encrypt := false, authenticate := true
        ecs := sa.ecs, acs := sa.acs }
      return some (.authenticate, request)
    | _ => return none

def tcEncrypt (env : TcEnv) (sa : SecurityAssociation) (setup : FrameSetup)
    (inFrame frame : List Octet) (index : Nat) : Tc (List Octet) := do
  let ekp ← Routine.lift (activeKey env sa.est sa.ekid)
  let akp ← Routine.lift (activeKey env sa.ast sa.akid)
  if sa.serviceType = .plaintext then return frame
  else
    let aad ← Routine.lift (encryptAad sa setup frame)
    match ← Routine.lift (encryptionCall env sa setup inFrame frame index ekp akp aad.aad) with
    | none => return frame
    | some (primitive, request) =>
      let reply ← callCryptography env primitive request
      Routine.lift (writeReply frame index aad.macLoc reply)

/-- `Crypto_increment` on part of an array. -/
def incrementAt {n : Nat} (buffer : Buffer Octet n) (offset count : Nat) :
    Except Error (Buffer Octet n) := do
  let octets ← octetsAt buffer.cells offset count
  copyInto buffer offset (increment octets)

def nextIv (config : Config) (sa : SecurityAssociation) : Except Error (Buffer Octet IV_SIZE) :=
  if (sa.shivfLen : Nat) > 0 && (sa.ivLen : Nat) ≠ 0 then
    if config.incrementNontransmittedIv then incrementAt sa.iv 0 sa.ivLen
    else incrementAt sa.iv (sa.ivLen - sa.shivfLen) sa.shivfLen
  else .ok sa.iv

def nextArsn (sa : SecurityAssociation) : Except Error (Buffer Octet ARSN_SIZE) :=
  if (sa.shsnfLen : Nat) > 0 then incrementAt sa.arsn 0 sa.arsnLen else .ok sa.arsn

def incrementIvArsn (config : Config) (sa : SecurityAssociation) :
    Except Error SecurityAssociation := do
  if sa.serviceType = .plaintext then return sa
  else
    let iv ← nextIv config sa
    let arsn ← nextArsn sa
    return { sa with iv := iv, arsn := arsn }

/-- The last two octets of the frame, when the channel has the field. -/
def createFecf (config : Config) (current : ManagedParameters) (frame : List Octet) :
    Except Error (List Octet) := do
  if current.hasFecf = .tcHasFecf then
    let fecf := if config.createFecf then calcFecf (frame.take (frame.length - 2)) else 0
    pokeAt frame (frame.length - 2) [(fecf >>> 8).setWidth 8, fecf.setWidth 8]
  else return frame

def doEncrypt (env : TcEnv) (i : Fin NUM_SA) (setup : FrameSetup) (inFrame frame : List Octet)
    (index : Nat) : Tc (List Octet) := do
  let s ← Routine.get
  let frame ← tcEncrypt env (s.sas i) setup inFrame frame index
  let sa ← Routine.lift (incrementIvArsn env.config (s.sas i))
  Routine.modify fun s => s.setSa i sa
  Routine.lift (createFecf env.config s.current frame)

/-- The stored association is a table entry already, so saving it does nothing here. -/
def applySecurity (env : TcEnv) (inFrame : List Octet) : Tc (List Octet) := do
  Routine.lift (sanitySetup env.config inFrame)
  let header ← Routine.lift (tcHeader env.config inFrame)
  let i ← validateTcTempHeader env inFrame header
  Routine.lift (guardWith (header.fl + 1 = inFrame.length) .tcFrameLengthMismatch)
  let s ← Routine.get
  let setup ← Routine.lift (calcFrameSetup (s.sas i) s.current header)
  let (frame, index) ← Routine.lift (buildFrame env.config (s.sas i) s.current setup inFrame)
  doEncrypt env i setup inFrame frame index

end Nos3.Sdls
