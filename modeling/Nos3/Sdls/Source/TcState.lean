import Nos3.Base.Program
import Nos3.Sdls.Source.SecurityAssociation

/-!
# State and surroundings of the TC functions

The association database, the frame being processed and the calls made to the
cryptography interface, and what both directions look up: managed parameters,
associations, lengths of the optional fields. The interface itself is code
outside the library and stays a parameter.
-/
namespace Nos3.Sdls
open Nos3.Base.BigEndian (Octet)
open Nos3.Base.FixedArray
open Nos3.Base.Program

/-! ## Keys and the cryptography interface -/

structure CryptoKey where
  value : List Octet
  keyLen : Nat
  active : Bool
  deriving DecidableEq, Repr

/-- The arguments of one call. `mac` is the tag to be checked, `encrypt` and
`authenticate` are the flags of the AEAD functions. -/
structure CryptoRequest where
  input : List Octet
  key : Option CryptoKey
  keyLen : Option Nat
  iv : List Octet
  mac : List Octet := []
  macSize : Nat := 0
  aad : List Octet := []
  encrypt : Bool := true
  authenticate : Bool := false
  ecs : EncCipherSuite
  acs : AuthCipherSuite := .none
  deriving DecidableEq, Repr

/-- What a call wrote through its output pointers. -/
structure CryptoReply where
  data : Option (List Octet) := none
  mac : Option (List Octet) := none
  deriving DecidableEq, Repr

structure Cryptography where
  encrypt : CryptoRequest → Except Nat CryptoReply
  aeadEncrypt : CryptoRequest → Except Nat CryptoReply
  authenticate : CryptoRequest → Except Nat CryptoReply
  decrypt : CryptoRequest → Except Nat CryptoReply
  aeadDecrypt : CryptoRequest → Except Nat CryptoReply
  validateAuthentication : CryptoRequest → Except Nat CryptoReply

inductive Primitive where
  | encrypt
  | aeadEncrypt
  | authenticate
  | decrypt
  | aeadDecrypt
  | validateAuthentication
  deriving DecidableEq, Repr

def Cryptography.run (crypto : Cryptography) : Primitive → CryptoRequest → Except Nat CryptoReply
  | .encrypt => crypto.encrypt
  | .aeadEncrypt => crypto.aeadEncrypt
  | .authenticate => crypto.authenticate
  | .decrypt => crypto.decrypt
  | .aeadDecrypt => crypto.aeadDecrypt
  | .validateAuthentication => crypto.validateAuthentication

/-- A call that returned success. -/
structure CryptoCall where
  primitive : Primitive
  request : CryptoRequest
  reply : CryptoReply
  deriving DecidableEq, Repr

/-- What the library is configured with before it sees a frame. -/
structure TcEnv where
  config : Config
  managedParameters : List ManagedParameters
  getKey : Fin (2 ^ 16) → Option CryptoKey
  crypto : Cryptography

/-! ## State -/

structure TcHeader where
  tfvn : Nat
  cc : Nat
  scid : Nat
  vcid : Nat
  fl : Nat
  deriving DecidableEq, Repr

/-- `TC_t`, the processed frame. -/
structure TcFrame where
  header : TcHeader
  sh : Octet
  spi : Nat
  iv : Buffer Octet IV_SIZE
  sn : Buffer Octet SN_SIZE
  pad : Buffer Octet PAD_SIZE
  mac : Buffer Octet MAC_SIZE
  tcPdu : Buffer Octet TC_FRAME_DATA_SIZE
  tcPduLen : Nat
  deriving DecidableEq

abbrev SaTable := Fin NUM_SA → SecurityAssociation

structure TcState where
  sas : SaTable
  current : ManagedParameters
  frame : TcFrame
  calls : List CryptoCall

abbrev Tc := Routine Error TcState

def TcState.setSa (s : TcState) (i : Fin NUM_SA) (sa : SecurityAssociation) : TcState :=
  { s with sas := Function.update s.sas i sa }

/-- A read of the frame that came in; copying nothing reads nothing. -/
def frameAt (frame : List Octet) (offset count : Nat) : Except Error (List Octet) :=
  if count = 0 then .ok []
  else
    match readAt frame offset count with
    | some octets => .ok octets
    | none => .error .readBeyondFrame

def frameOctet (frame : List Octet) (offset : Nat) : Except Error Octet :=
  match frame[offset]? with
  | some octet => .ok octet
  | none => .error .readBeyondFrame

def guardWith (condition : Bool) (code : Error) : Except Error Unit :=
  if condition then .ok () else .error code

/-- Reading the length of a key that was not fetched goes through a null pointer. -/
def checkKeylen (config : Config) (key : Option CryptoKey) (keylen : Option Nat) :
    Except Error Unit :=
  if config.keyType = .kmc then .ok ()
  else
    match key with
    | none => .error .memoryFault
    | some key => guardWith (some key.keyLen = keylen) .keyLengthError

/-- One call of the interface; the log keeps those that succeed. -/
def callCryptography (env : TcEnv) (primitive : Primitive) (request : CryptoRequest) :
    Tc CryptoReply := do
  match env.crypto.run primitive request with
  | .error code => Routine.fail (.cryptography code)
  | .ok reply =>
    Routine.modify fun s => { s with calls := s.calls ++ [⟨primitive, request, reply⟩] }
    return reply

/-! ## Look-ups of both directions -/

def tcHeader (config : Config) (frame : List Octet) : Except Error TcHeader := do
  let o0 ← frameOctet frame 0
  let o1 ← frameOctet frame 1
  let o2 ← frameOctet frame 2
  let o3 ← frameOctet frame 3
  let _ ← frameOctet frame 4
  return {
    tfvn := ((o0 &&& 0xC0) >>> 6).toNat
    cc := ((o0 &&& 0x10) >>> 4).toNat
    scid := (o0 &&& 0x03).toNat * 256 + o1.toNat
    vcid := (((o2 &&& 0xFC) >>> 2) &&& config.vcidBitmask).toNat
    fl := (o2 &&& 0x03).toNat * 256 + o3.toNat }

def NUM_GVCID : Nat := 64

def getManagedParametersForGvcid (env : TcEnv) (header : TcHeader) :
    Except Error ManagedParameters :=
  if env.managedParameters.length > NUM_GVCID then .error .exceedsManagedParameterMaxLimit
  else
    match env.managedParameters.find? fun entry =>
        entry.tfvn = header.tfvn && entry.scid = header.scid && entry.vcid = header.vcid with
    | some entry => .ok entry
    | none => .error .managedParametersForGvcidNotFound

/-- `none` and `notApplicable` keep the default length: only `TC_NO_…` clears it. -/
def ManagedParameters.segmentHdrLen (current : ManagedParameters) : Nat :=
  if current.hasSegmentationHdr = .tcNoSegmentHdrs then 0 else TC_SEGMENT_HDR_SIZE

def ManagedParameters.fecfLen (current : ManagedParameters) : Nat :=
  if current.hasFecf = .tcNoFecf then 0 else FECF_SIZE

def ManagedParameters.ocfLen (current : ManagedParameters) : Nat :=
  if current.hasOcf then OCF_SIZE else 0

inductive ServiceType where
  | plaintext
  | authentication
  | encryption
  | authenticatedEncryption
  deriving DecidableEq, Repr

def SecurityAssociation.serviceType (sa : SecurityAssociation) : ServiceType :=
  match sa.est, sa.ast with
  | false, false => .plaintext
  | false, true => .authentication
  | true, false => .encryption
  | true, true => .authenticatedEncryption

/-- The security header from the SPI to the pad length. -/
def SecurityAssociation.headerLen (sa : SecurityAssociation) : Nat :=
  SPI_LEN + sa.shivfLen + sa.shsnfLen + sa.shplfLen

def saGetFromSpi (sas : SaTable) (spi : Nat) : Except Error (Fin NUM_SA) :=
  if h : spi < NUM_SA then
    let sa := sas ⟨spi, h⟩
    if (sa.abmLen : Nat) = 0 && sa.ast then .error .nullAbm
    else if !sa.ast && (sa.shsnfLen : Nat) ≠ 0 && (sa.arsnLen : Nat) ≠ 0 then
      .error .invalidSvcTypeWithArsn
    else if (sa.shsnfLen : Nat) > sa.arsnLen then .error .arsnLtShsnf
    else .ok ⟨spi, h⟩
  else .error .spiIndexOob

/-- The association has to stand at the place its own SPI names. Beyond the table the
look-up leaves the compared pointer unset. -/
def validateSaIndex (i : Fin NUM_SA) (sa : SecurityAssociation) : Except Error Unit :=
  if (sa.spi : Nat) ≥ NUM_SA then .error .memoryFault
  else guardWith (sa.spi = (i : Nat)) .spiIndexMismatch

def validateSa (config : Config) (sas : SaTable) (i : Fin NUM_SA) : Except Error Unit := do
  let sa := sas i
  validateSaIndex i sa
  guardWith (sa.saState = .operational) .saNotOperational
  let module := config.ivType = .cryptoModule
  let kmc := config.cryptographyType = .kmccrypto
  guardWith (!((sa.shivfLen : Nat) > 0 && module && !kmc)) .nullIv
  guardWith ((sa.shivfLen : Nat) ≤ sa.ivLen) .ivLenShorterThanSecHeaderLength
  guardWith (!((sa.ivLen : Nat) > 0 && module && !kmc)) .nullIv
  guardWith (!(module && config.cryptographyType = .libgcrypt)) .nullIv
  guardWith ((sa.shsnfLen : Nat) ≤ sa.arsnLen) .arsnLenShorterThanSecHeaderLength

/-- The additional data: the frame under the authentication bit mask. -/
def prepareTcAad (octets : List Octet) (abm : Buffer Octet ABM_SIZE) : Except Error (List Octet) := do
  let mask ← octetsAt abm.cells 0 octets.length
  return List.zipWith (· &&& ·) octets mask

/-- One bit of the frame error control field. -/
def fecfBit (fecf : BitVec 16) (bit : Bool) : BitVec 16 :=
  if fecf.msb ^^ bit then (fecf <<< 1) ^^^ 0x1021 else fecf <<< 1

def calcFecf (octets : List Octet) : BitVec 16 :=
  octets.foldl (fun fecf octet =>
    (List.range 8).foldl (fun fecf j => fecfBit fecf (octet.getMsbD j)) fecf) 0xFFFF

end Nos3.Sdls

/-!
## Error control fields of frames and frame headers

The table-driven CRC and the frame header error control of `crypto.c`, and the
table of `Crypto_Calc_CRC_Init_Table` as far as sixteen bits go. The bit-serial
CRC is `calcFecf`.
-/
namespace Nos3.Sdls
open Nos3.Base.BigEndian (Octet)

/-! ## The table-driven CRC -/

/-- The words of the bits that are set in `i`. -/
def crc16Entry (i : Nat) : BitVec 16 :=
  let val : BitVec 16 := 0
  let val := if i &&& 1 ≠ 0 then val ^^^ 0x1021 else val
  let val := if i &&& 2 ≠ 0 then val ^^^ 0x2042 else val
  let val := if i &&& 4 ≠ 0 then val ^^^ 0x4084 else val
  let val := if i &&& 8 ≠ 0 then val ^^^ 0x8108 else val
  let val := if i &&& 16 ≠ 0 then val ^^^ 0x1231 else val
  let val := if i &&& 32 ≠ 0 then val ^^^ 0x2462 else val
  let val := if i &&& 64 ≠ 0 then val ^^^ 0x48C4 else val
  if i &&& 128 ≠ 0 then val ^^^ 0x9188 else val

/-- `crc16Table` as `Crypto_Calc_CRC_Init_Table` leaves it. -/
def crc16Table : List (BitVec 16) := (List.range 256).map crc16Entry

/-- The loop body of `Crypto_Calc_CRC16`; the index is below 256. -/
def crc16Octet (crc : BitVec 16) (octet : Octet) : BitVec 16 :=
  ((crc <<< 8) &&& (0xFF00 : BitVec 16)) ^^^ crc16Table.getD ((crc >>> 8).toNat ^^^ octet.toNat) 0

def calcCrc16 (data : List Octet) : BitVec 16 := data.foldl crc16Octet 0xFFFF

/-! ## The frame header error control -/

def RS_DATA : Nat := 6
def RS_PARITY : Nat := 4
def GF_SIZE : Nat := 16

def cryptoGfExp : List Octet := [1, 2, 4, 8, 3, 6, 12, 11, 5, 10, 7, 14, 15, 13, 9]

def cryptoGfLog : List Nat := [0, 0, 1, 4, 2, 8, 5, 10, 3, 14, 9, 7, 6, 13, 11, 12]

def cryptoGenPoly : List Octet := [1, 8, 2, 8, 1]

def gfMul (a b : Octet) : Octet :=
  if a = 0 ∨ b = 0 then 0
  else cryptoGfExp.getD ((cryptoGfLog.getD a.toNat 0 + cryptoGfLog.getD b.toNat 0) % (GF_SIZE - 1)) 0

/-- What is fed back into the register when `symbol` comes in. -/
def fhecfFeedback (parity : List Octet) (symbol : Octet) : Octet :=
  (symbol ^^^ parity.getD 0 0) % BitVec.ofNat 8 (GF_SIZE - 1)

/-- One round of the outer loop of `Crypto_Calc_FHECF`. -/
def fhecfSymbol (parity : List Octet) (symbol : Octet) : List Octet :=
  let feedback := fhecfFeedback parity symbol
  List.zipWith (fun kept coefficient => kept ^^^ gfMul feedback coefficient)
    (parity.drop 1 ++ [0]) (cryptoGenPoly.drop 1)

/-- The register after the given symbols. -/
def fhecfParity (symbols : List Octet) : List Octet :=
  symbols.foldl fhecfSymbol (List.replicate RS_PARITY 0)

/-- The four parity symbols packed into a word. -/
def fhecfWord (parity : List Octet) : BitVec 16 :=
  (parity.getD 0 0).setWidth 16 <<< 12 ||| (parity.getD 1 0).setWidth 16 <<< 8 |||
    (parity.getD 2 0).setWidth 16 <<< 4 ||| (parity.getD 3 0).setWidth 16

/-- `Crypto_Calc_FHECF` on the first octets of a frame. -/
def calcFhecf (data : Fin RS_DATA → Octet) : BitVec 16 := fhecfWord (fhecfParity (List.ofFn data))

end Nos3.Sdls

/-!
## The configuration the spacecraft starts with

The settings of `Crypto_SC_Init` and the TC associations of `sa_populate` as far
as the examples of this development use them.
-/
namespace Nos3.Sdls
open Nos3.Base.BigEndian (Octet)

def scConfig : Config where
  initialized := true
  keyType := .internal
  cryptographyType := .libgcrypt
  ivType := .internal
  createFecf := true
  processSdlsPdus := true
  hasPusHdr := false
  ignoreAntiReplay := false
  uniqueSaPerMapid := false
  checkFecf := true
  vcidBitmask := 0x3F
  incrementNontransmittedIv := true

def scManagedParameters (vcid : Fin 64) : ManagedParameters where
  tfvn := 0
  scid := 3
  vcid := vcid
  hasFecf := .tcNoFecf
  hasSegmentationHdr := .tcHasSegmentHdrs
  maxFrameSize := 1024
  hasOcf := false

/-- The table lies in static memory, which starts as zero. -/
def blankSa (spi : Fin (2 ^ 16)) : SecurityAssociation where
  spi := spi
  ekid := 0
  akid := 0
  saState := .none
  gvcid := ⟨0, 0, 0, 0⟩
  est := false
  ast := false
  shivfLen := 0
  shsnfLen := 0
  shplfLen := 0
  stmacfLen := 0
  ecs := .none
  iv := .replicate IV_SIZE 0
  ivLen := 0
  acsLen := 0
  acs := .none
  abmLen := 0
  abm := .replicate ABM_SIZE 0
  arsnLen := 0
  arsn := .replicate ARSN_SIZE 0
  arsnw := 0

/-- `sa[2]`: encryption only with the given cipher and field lengths. -/
def encryptionSa (ecs : EncCipherSuite) (ivLen : Fin 256) (shivfLen : Fin 64) :
    SecurityAssociation :=
  { blankSa 2 with
    ekid := 2
    saState := .operational
    gvcid := ⟨0, 3, 2, 0⟩
    est := true
    ecs := ecs
    shivfLen := shivfLen
    ivLen := ivLen
    arsnw := 5 }

/-- One association under test among blank ones. -/
def tableWith (sa : SecurityAssociation) : SaTable := fun i =>
  if (i : Nat) = sa.spi then sa else blankSa ⟨i, Nat.lt_trans i.isLt (by decide)⟩

def blankFrame : TcFrame where
  header := ⟨0, 0, 0, 0, 0⟩
  sh := 0
  spi := 0
  iv := .replicate IV_SIZE 0
  sn := .replicate SN_SIZE 0
  pad := .replicate PAD_SIZE 0
  mac := .replicate MAC_SIZE 0
  tcPdu := .replicate TC_FRAME_DATA_SIZE 0
  tcPduLen := 0

/-- The internal key ring without its session keys. -/
def scKey (id : Fin (2 ^ 16)) : Option CryptoKey :=
  if (id : Nat) ≤ 4 ∨ (id : Nat) = 9 then
    some ⟨(List.range 32).map fun j => BitVec.ofNat 8 (16 * id + j % 16), 32, true⟩
  else if (id : Nat) < 256 then some ⟨List.replicate 32 0, 0, false⟩
  else none

/-- For examples that end before a primitive runs. -/
def rejectingCrypto : Cryptography :=
  let reject := fun _ : CryptoRequest => Except.error 0
  ⟨reject, reject, reject, reject, reject, reject⟩

/-- The AEAD encryption as the given table has it, nothing else. -/
def tabledAead (table : List (CryptoRequest × CryptoReply)) : Cryptography :=
  { rejectingCrypto with
    aeadEncrypt := fun request =>
      match table.find? fun entry => entry.1 = request with
      | some entry => .ok entry.2
      | none => .error 0 }

def scEnv (vcid : Fin 64) (crypto : Cryptography) : TcEnv :=
  ⟨scConfig, [scManagedParameters vcid], scKey, crypto⟩

def startState (sa : SecurityAssociation) : TcState :=
  ⟨tableWith sa, scManagedParameters sa.gvcid.vcid, blankFrame, []⟩

/-- A frame on virtual channel 2 with a segment header and four octets of payload. -/
def shortFrame : List Octet :=
  [0x20, 0x03, 0x08, 0x09, 0x00, 0x00, 0x5A, 0x5A, 0x5A, 0x5A]

/-- The call `sa[2]` makes for it, with the given last octet of the IV. -/
def shortFrameCall (last : Octet) (data : List Octet) : CryptoRequest × CryptoReply :=
  ({ input := [0x5A, 0x5A, 0x5A, 0x5A], key := scKey 2, keyLen := some 32
     iv := List.replicate 11 0 ++ [last], ecs := .aes256Gcm },
   { data := some data })

def shortFrameCalls : List (CryptoRequest × CryptoReply) :=
  [shortFrameCall 0 [0xAB, 0xE3, 0x5E, 0x9E], shortFrameCall 1 [0x3D, 0xD6, 0xF6, 0xF6]]

end Nos3.Sdls
