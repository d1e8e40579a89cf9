import Nos3.Sdls.Source.TcState

/-!
# Processing a TC frame

`Crypto_TC_ProcessSecurity` of `crypto_tc.c` with the functions it calls, up to
the extended procedures, which are a parameter here. Lengths are 16-bit words and
wrap around.
-/
namespace Nos3.Sdls
open Nos3.Base.BigEndian (Octet)
open Nos3.Base.FixedArray
open Nos3.Base.Program

def TcState.setFrame (s : TcState) (f : TcFrame → TcFrame) : TcState := { s with frame := f s.frame }

/-- `a - b` in 16-bit arithmetic. -/
def subWord (a b : Nat) : Nat := (BitVec.ofNat 16 a - BitVec.ofNat 16 b).toNat

def processSanityCheck (config : Config) (ingest : List Octet) : Except Error Unit := do
  guardWith config.initialized .noConfig
  guardWith (ingest.length ≥ 5) .inputFrameTooShortForTcStandard

def setSegmentHeader (current : ManagedParameters) (ingest : List Octet) : Tc Nat := do
  if current.hasSegmentationHdr = .tcHasSegmentHdrs then
    let sh ← Routine.lift (frameOctet ingest TC_FRAME_HEADER_SIZE)
    Routine.modify (·.setFrame ({ · with sh := sh }))
    return TC_FRAME_HEADER_SIZE + 1
  else return TC_FRAME_HEADER_SIZE

def readWord (ingest : List Octet) (offset : Nat) : Except Error Nat := do
  let high ← frameOctet ingest offset
  let low ← frameOctet ingest (offset + 1)
  return high.toNat * 256 + low.toNat

/-- The primary header, the managed parameters and the association of the SPI. -/
def parseHeaders (env : TcEnv) (ingest : List Octet) : Tc (Fin NUM_SA) := do
  Routine.lift (processSanityCheck env.config ingest)
  let header ← Routine.lift (tcHeader env.config ingest)
  Routine.modify (·.setFrame ({ · with header := header }))
  Routine.lift (guardWith (header.fl + 1 = ingest.length) .tcFrameLengthMismatch)
  let current ← Routine.lift (getManagedParametersForGvcid env header)
  Routine.modify fun s => { s with current := current }
  let byteIdx ← setSegmentHeader current ingest
  let spi ← Routine.lift (readWord ingest byteIdx)
  Routine.modify (·.setFrame ({ · with spi := spi }))
  let s ← Routine.get
  let i ← Routine.lift (saGetFromSpi s.sas spi)
  Routine.lift (validateSa env.config s.sas i)
  return i

def parseCheckFecf (config : Config) (current : ManagedParameters) (ingest : List Octet)
    (fl : Nat) : Except Error Unit := do
  if current.hasFecf = .tcHasFecf then
    let received ← readWord ingest (fl - 1)
    if config.checkFecf then
      guardWith (received = (calcFecf (ingest.take (ingest.length - 2))).toNat) .invalidFecf

/-! ## Counters and the pad length -/

def nontransmittedIvIncrement (config : Config) (sa : SecurityAssociation)
    (iv : Buffer Octet IV_SIZE) : Except Error (Buffer Octet IV_SIZE) := do
  if (sa.shivfLen : Nat) < sa.ivLen && !config.ignoreAntiReplay &&
      config.incrementNontransmittedIv then
    handleIncrementingNontransmittedCounter iv sa.iv.cells sa.ivLen sa.shivfLen sa.arsnw
  else copyInto iv 0 (← octetsAt sa.iv.cells 0 (sa.ivLen - sa.shivfLen))

def nontransmittedSnIncrement (config : Config) (sa : SecurityAssociation)
    (sn : Buffer Octet SN_SIZE) : Except Error (Buffer Octet SN_SIZE) := do
  if (sa.shsnfLen : Nat) < sa.arsnLen && !config.ignoreAntiReplay then
    handleIncrementingNontransmittedCounter sn sa.arsn.cells sa.arsnLen sa.shsnfLen sa.arsnw
  else copyInto sn 0 (← octetsAt sa.arsn.cells 0 (sa.arsnLen - sa.shsnfLen))

/-- The fields of the security header behind the SPI. -/
def parseSecurityHeader (config : Config) (sa : SecurityAssociation) (current : ManagedParameters)
    (ingest : List Octet) : Tc Unit := do
  let start := TC_FRAME_HEADER_SIZE + current.segmentHdrLen + SPI_LEN
  let s ← Routine.get
  let octets ← Routine.lift (frameAt ingest start sa.shivfLen)
  let iv ← Routine.lift (copyInto s.frame.iv (sa.ivLen - sa.shivfLen) octets)
  Routine.modify (·.setFrame ({ · with iv := iv }))
  let iv ← Routine.lift (nontransmittedIvIncrement config sa iv)
  Routine.modify (·.setFrame ({ · with iv := iv }))
  let octets ← Routine.lift (frameAt ingest (start + sa.shivfLen) sa.shsnfLen)
  let sn ← Routine.lift (copyInto s.frame.sn (sa.arsnLen - sa.shsnfLen) octets)
  Routine.modify (·.setFrame ({ · with sn := sn }))
  let sn ← Routine.lift (nontransmittedSnIncrement config sa sn)
  Routine.modify (·.setFrame ({ · with sn := sn }))
  let octets ← Routine.lift (frameAt ingest (start + sa.shivfLen + sa.shsnfLen) sa.shplfLen)
  let pad ← Routine.lift (copyInto s.frame.pad 0 octets)
  Routine.modify (·.setFrame ({ · with pad := pad }))

/-! ## MAC, payload and decryption -/

/-- Unsigned 16-bit arithmetic: with lengths that do not fit this is a large number. -/
def pduLength (sa : SecurityAssociation) (current : ManagedParameters) (fl : Nat) : Nat :=
  subWord (fl + 1) (TC_FRAME_HEADER_SIZE + current.segmentHdrLen + sa.headerLen + sa.stmacfLen +
    current.fecfLen)

def prepAad (sa : SecurityAssociation) (current : ManagedParameters) (ingest : List Octet)
    (fl : Nat) : Tc (List Octet) := do
  if sa.ast then
    let macStart := subWord (fl + 1) (current.fecfLen + sa.stmacfLen)
    Routine.lift (guardWith (macStart ≤ current.maxFrameSize) .tcFrameLengthUnderflow)
    let octets ← Routine.lift (frameAt ingest macStart sa.stmacfLen)
    let s ← Routine.get
    let mac ← Routine.lift (copyInto s.frame.mac 0 octets)
    Routine.modify (·.setFrame ({ · with mac := mac }))
    let aadLen :=
      if sa.est && isAeadAlgorithm sa.ecs then
        TC_FRAME_HEADER_SIZE + current.segmentHdrLen + sa.headerLen
      else macStart
    Routine.lift (guardWith ((sa.abmLen : Nat) ≥ aadLen) .abmTooShortForAad)
    let octets ← Routine.lift (frameAt ingest 0 aadLen)
    Routine.lift (prepareTcAad octets sa.abm)
  else return []

/-- A key the service needs is looked at before the error for a missing one is returned. -/
def checkedKey (used : Bool) (key : Option CryptoKey) : Except Error Unit :=
  if used then
    match key with
    | none => .error .memoryFault
    | some key => guardWith key.active .keyStateInvalid
  else .ok ()

def getKeys (env : TcEnv) (sa : SecurityAssociation) :
    Except Error (Option CryptoKey × Option CryptoKey) := do
  if env.config.keyType = .kmc then return (none, none)
  else
    let ekp := env.getKey sa.ekid
    let akp := env.getKey sa.akid
    checkedKey sa.est ekp
    checkedKey sa.ast akp
    return (ekp, akp)

/-- The output of a call goes to the start of the processed frame's data. -/
def writePdu (reply : CryptoReply) : Tc Unit := do
  let s ← Routine.get
  let pdu ← Routine.lift (copyInto s.frame.tcPdu 0 (reply.data.getD []))
  Routine.modify (·.setFrame ({ · with tcPdu := pdu }))

def requestBase (sa : SecurityAssociation) (frame : TcFrame) (input aad : List Octet) :
    Except Error CryptoRequest := do
  let iv ← octetsAt frame.iv.cells 0 sa.ivLen
  return {
    input := input, key := none, keyLen := none, iv := iv
    mac := frame.mac.cells.take sa.stmacfLen
    macSize := sa.stmacfLen, aad := aad, encrypt := sa.est, authenticate := sa.ast
    ecs := sa.ecs, acs := sa.acs }

/-- Only the first octet of the pad length is taken off. -/
def removePadding (sa : SecurityAssociation) (segmentHdrLen : Nat) (ingest : List Octet) :
    Tc Unit := do
  if (sa.shplfLen : Nat) ≠ 0 then
    let location := TC_FRAME_HEADER_SIZE + segmentHdrLen + SPI_LEN + sa.shivfLen + sa.shsnfLen
    let padding ← Routine.lift (frameOctet ingest location)
    Routine.modify (·.setFrame fun frame =>
      { frame with tcPduLen := subWord frame.tcPduLen padding.toNat })
  else return ()

def aeadDecrypt (env : TcEnv) (sa : SecurityAssociation) (request : CryptoRequest)
    (ekp : Option CryptoKey) : Tc Unit := do
  Routine.lift (checkKeylen env.config ekp (getEcsAlgoKeylen sa.ecs))
  let reply ← callCryptography env .aeadDecrypt
    { request with key := ekp, keyLen := getEcsAlgoKeylen sa.ecs }
  writePdu reply

/-- A call whose status is not looked at at once. -/
def callStatus (env : TcEnv) (primitive : Primitive) (request : CryptoRequest) :
    Tc (Except Error Unit) := do
  match ← Routine.attempt (callCryptography env primitive request) with
  | .error code => return .error code
  | .ok reply =>
    writePdu reply
    return .ok ()

def validateMac (env : TcEnv) (sa : SecurityAssociation) (request : CryptoRequest)
    (akp : Option CryptoKey) : Tc (Except Error Unit) := do
  if sa.ast then
    Routine.lift (checkKeylen env.config akp (getAcsAlgoKeylen sa.acs))
    callStatus env .validateAuthentication
      { request with key := akp, keyLen := getAcsAlgoKeylen sa.acs, ecs := .none }
  else return .ok ()

/-- The status of the decryption replaces that of the validation, and the padding is
taken off in any case. -/
def decryptPayload (env : TcEnv) (sa : SecurityAssociation) (segmentHdrLen : Nat)
    (ingest : List Octet) (request : CryptoRequest) (ekp : Option CryptoKey)
    (validated : Except Error Unit) : Tc Unit := do
  if sa.est then
    Routine.lift (checkKeylen env.config ekp (getEcsAlgoKeylen sa.ecs))
    let decrypted ← callStatus env .decrypt
      { request with key := ekp, keyLen := getEcsAlgoKeylen sa.ecs }
    removePadding sa segmentHdrLen ingest
    Routine.lift decrypted
  else Routine.lift validated

def doDecrypt (env : TcEnv) (sa : SecurityAssociation) (current : ManagedParameters)
    (ingest : List Octet) (start : Nat) (aad : List Octet) (ekp akp : Option CryptoKey) :
    Tc Unit := do
  let s ← Routine.get
  let input ← Routine.lift (frameAt ingest start s.frame.tcPduLen)
  if sa.serviceType = .plaintext then writePdu { data := some input }
  else
    let request ← Routine.lift (requestBase sa s.frame input aad)
    if isAeadAlgorithm sa.ecs then aeadDecrypt env sa request ekp
    else
      let validated ← validateMac env sa request akp
      decryptPayload env sa current.segmentHdrLen ingest request ekp validated

def checkIvArsn (config : Config) (i : Fin NUM_SA) : Tc Unit := do
  if config.ignoreAntiReplay then return ()
  else
    let s ← Routine.get
    let (status, sa) := checkAntiReplay config (s.sas i) s.frame.sn.cells s.frame.iv.cells
    Routine.modify (·.setSa i sa)
    Routine.lift status

/-! ## The whole function -/

/-- Everything before the extended procedures. -/
def processFrame (env : TcEnv) (ingest : List Octet) : Tc Unit := do
  let i ← parseHeaders env ingest
  let s ← Routine.get
  let sa := s.sas i
  let current := s.current
  let fl := s.frame.header.fl
  Routine.lift (parseCheckFecf env.config current ingest fl)
  parseSecurityHeader env.config sa current ingest
  let aad ← prepAad sa current ingest fl
  Routine.modify (·.setFrame ({ · with tcPduLen := pduLength sa current fl }))
  Routine.lift (guardWith (pduLength sa current fl ≤ fl) .invalidHeader)
  let (ekp, akp) ← Routine.lift (getKeys env sa)
  let start := TC_FRAME_HEADER_SIZE + current.segmentHdrLen + sa.headerLen
  doDecrypt env sa current ingest start aad ekp akp
  checkIvArsn env.config i

def processSecurity (env : TcEnv) (processExtendedProcedurePdu : List Octet → Tc Unit)
    (ingest : List Octet) : Tc Unit := do
  processFrame env ingest
  if env.config.processSdlsPdus then processExtendedProcedurePdu ingest else return ()

end Nos3.Sdls
