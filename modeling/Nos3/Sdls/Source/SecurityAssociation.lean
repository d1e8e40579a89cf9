import Nos3.Base.BigEndian
import Nos3.Base.FixedArray
import Nos3.Base.Counter

/-!
# Security associations and the configuration

The records of `crypto_structs.h` and `crypto_config_structs.h` as far as the TC
functions read them. Bit fields are `Fin` of their width, octet fields of fixed
size are buffers of that size. Two-valued configuration enums are `Bool`, true
for the value the code compares with.
-/
namespace Nos3.Sdls
open Nos3.Base.BigEndian (Octet)
open Nos3.Base.FixedArray (Buffer readAt)

/-! ## `crypto_config.h` -/

def IV_SIZE : Nat := 16
def ARSN_SIZE : Nat := 20
def SN_SIZE : Nat := 16
def PAD_SIZE : Nat := 32
def MAC_SIZE : Nat := 16
def ABM_SIZE : Nat := 1786
theorem ABM_SIZE_lt : ABM_SIZE < 2 ^ 16 := by decide
def MAX_IV_LEN : Nat := 32
def NUM_SA : Nat := 64
def TC_FRAME_DATA_SIZE : Nat := 1019
def TC_MAX_FRAME_SIZE : Nat := 1024
def TC_MIN_FRAME_SIZE : Nat := 5
def TC_FRAME_HEADER_SIZE : Nat := 5
def TC_SEGMENT_HDR_SIZE : Nat := 1
def TC_BLOCK_SIZE : Nat := 16
def SPI_LEN : Nat := 2
def FECF_SIZE : Nat := 2
def OCF_SIZE : Nat := 4

/-- The return codes the modelled functions produce, and two that the library does
not have: `memoryFault` stands for an access outside an array or through a null
pointer, `readBeyondFrame` for one outside the frame that came in. -/
inductive Error where
  | error
  | noConfig
  | nullBuffer
  | invalidTfvn
  | invalidCcFlag
  | noOperationalSa
  | invalidFecf
  | arsnOutsideWindow
  | ivOutsideWindow
  | ivGreaterThanMaxLength
  | nullIv
  | nullAbm
  | abmTooShortForAad
  | invalidHeader
  | frameSizeExceedsManagedParamMaxLimit
  | frameSizeExceedsSpecLimit
  | keyLengthError
  | keyIdError
  | keyStateInvalid
  | ivNotSupportedForAcsAlgo
  | noEcsSetForEncryptionMode
  | ivLenShorterThanSecHeaderLength
  | arsnLenShorterThanSecHeaderLength
  | frameCounterDoesntMatchSa
  | inputFrameTooShortForTcStandard
  | inputFrameLengthShorterThanFrameHeadersLength
  | spiIndexOob
  | spiIndexMismatch
  | saNotOperational
  | invalidSvcTypeWithArsn
  | arsnLtShsnf
  | tcFrameLengthUnderflow
  | tcFrameLengthMismatch
  | tcFrameTooShort
  | ivExceedsIncrementSize
  | shplfLenLessThanMinPadSize
  | managedParametersForGvcidNotFound
  | sdlsEpWrongSpi
  | sdlsEpNotBuilt
  | badTlvLength
  | exceedsManagedParameterMaxLimit
  | cryptography (code : Nat)
  | memoryFault
  | readBeyondFrame
  deriving DecidableEq, Repr

inductive EncCipherSuite where
  | none
  | aes256Gcm
  | aes256Cbc
  | aes256CbcMac
  | aes256Ccm
  | aes256GcmSiv
  | unlisted
  deriving DecidableEq, Repr

inductive AuthCipherSuite where
  | none
  | cmacAes256
  | hmacSha256
  | hmacSha512
  | unlisted
  deriving DecidableEq, Repr

def isAeadAlgorithm : EncCipherSuite → Bool
  | .aes256Gcm | .aes256CbcMac | .aes256GcmSiv => true
  | _ => false

def isAcsOnlyAlgo : AuthCipherSuite → Bool
  | .cmacAes256 | .hmacSha256 | .hmacSha512 => true
  | _ => false

/-- `none` is the length −1, which no key has. -/
def getEcsAlgoKeylen : EncCipherSuite → Option Nat
  | .aes256Gcm | .aes256GcmSiv | .aes256Cbc | .aes256Ccm => some 32
  | _ => none

def getAcsAlgoKeylen : AuthCipherSuite → Option Nat
  | .cmacAes256 | .hmacSha256 => some 32
  | .hmacSha512 => some 64
  | _ => none

inductive SaState where
  | none
  | unkeyed
  | keyed
  | operational
  deriving DecidableEq, Repr

/-! A bit field has a bit, so its numerals are values. -/

scoped instance twoBits : NeZero 4 := ⟨by decide⟩

scoped instance fourBits : NeZero 16 := ⟨by decide⟩

scoped instance sixBits : NeZero 64 := ⟨by decide⟩

scoped instance eightBits : NeZero 256 := ⟨by decide⟩

scoped instance sixteenBits : NeZero (2 ^ 16) := ⟨by decide⟩

/-- Global virtual channel and MAP identifier. -/
structure Gvcid where
  tfvn : Fin 16
  scid : Fin (2 ^ 16)
  vcid : Fin 64
  mapid : Fin 64
  deriving DecidableEq

structure SecurityAssociation where
  spi : Fin (2 ^ 16)
  ekid : Fin (2 ^ 16)
  akid : Fin (2 ^ 16)
  saState : SaState
  gvcid : Gvcid
  est : Bool
  ast : Bool
  shivfLen : Fin 64
  shsnfLen : Fin 64
  shplfLen : Fin 4
  stmacfLen : Fin 256
  ecs : EncCipherSuite
  iv : Buffer Octet IV_SIZE
  ivLen : Fin 256
  acsLen : Fin 256
  acs : AuthCipherSuite
  abmLen : Fin (2 ^ 16)
  abm : Buffer Octet ABM_SIZE
  arsnLen : Fin 256
  arsn : Buffer Octet ARSN_SIZE
  arsnw : Fin (2 ^ 16)
  deriving DecidableEq

inductive KeyType where
  | uninitialized
  | custom
  | internal
  | kmc
  deriving DecidableEq, Repr

inductive CryptographyType where
  | uninitialized
  | libgcrypt
  | kmccrypto
  | wolfssl
  | custom
  deriving DecidableEq, Repr

inductive IvType where
  | internal
  | cryptoModule
  deriving DecidableEq, Repr

structure Config where
  initialized : Bool
  keyType : KeyType
  cryptographyType : CryptographyType
  ivType : IvType
  createFecf : Bool
  processSdlsPdus : Bool
  hasPusHdr : Bool
  ignoreAntiReplay : Bool
  uniqueSaPerMapid : Bool
  checkFecf : Bool
  vcidBitmask : Octet
  incrementNontransmittedIv : Bool
  deriving DecidableEq, Repr

inductive FecfPresent where
  | tcNoFecf
  | tcHasFecf
  | otherService
  deriving DecidableEq, Repr

inductive SegmentHdrsPresent where
  | tcNoSegmentHdrs
  | tcHasSegmentHdrs
  | notApplicable
  deriving DecidableEq, Repr

structure ManagedParameters where
  tfvn : Fin 16
  scid : Fin (2 ^ 10)
  vcid : Fin 64
  hasFecf : FecfPresent
  hasSegmentationHdr : SegmentHdrsPresent
  maxFrameSize : Fin (2 ^ 16)
  /-- anything but `TC_OCF_NA` -/
  hasOcf : Bool
  deriving DecidableEq, Repr

/-- A read of an array that is not the frame. -/
def octetsAt (cells : List Octet) (offset count : Nat) : Except Error (List Octet) :=
  match readAt cells offset count with
  | some octets => .ok octets
  | none => .error .memoryFault

def copyInto {n : Nat} (buffer : Buffer Octet n) (offset : Nat) (octets : List Octet) :
    Except Error (Buffer Octet n) :=
  match buffer.write offset octets with
  | some result => .ok result
  | none => .error .memoryFault

theorem octetsAt_cases {cells octets : List Octet} {offset count : Nat}
    (h : octetsAt cells offset count = .ok octets) : readAt cells offset count = some octets := by
  rw [octetsAt] at h
  split at h
  · cases h
    assumption
  · cases h

theorem copyInto_cases {n : Nat} {buffer result : Buffer Octet n} {offset : Nat}
    {octets : List Octet} (h : copyInto buffer offset octets = .ok result) :
    buffer.write offset octets = some result := by
  rw [copyInto] at h
  split at h
  · cases h
    assumption
  · cases h

end Nos3.Sdls

/-!
## Anti-replay counters

`Crypto_window` and the anti-replay check of `crypto.c`, and the receiver's
reconstruction of the untransmitted part in `crypto_tc.c`. Counters are
big-endian octet strings.
-/
namespace Nos3.Sdls
open Nos3.Base.BigEndian (Octet)
open Nos3.Base.Counter
open Nos3.Base.FixedArray

/-- The search of `window`: `actual` is compared with the next `count` values. -/
def windowSearch (actual : List Octet) : List Octet → Nat → Bool
  | _, 0 => false
  | temp, count + 1 =>
    let temp := increment temp
    if actual = temp then true else windowSearch actual temp count

/-- Both arrays are read over the whole length before the search starts. -/
def window (actual expected : List Octet) (length window : Nat) : Except Error Bool := do
  let actual ← octetsAt actual 0 length
  let expected ← octetsAt expected 0 length
  -- the stored value starts at zero, so zero counts as its own successor
  if actual.all (· = 0) && expected.all (· = 0) then .ok true
  else .ok (windowSearch actual expected window)

/-- The result of a check and the flag it sets. -/
abbrev Check := Except Error Unit × Bool

def checkAntiReplayArsnw (sa : SecurityAssociation) (arsn : List Octet) : Check :=
  if (sa.shsnfLen : Nat) > 0 then
    match window arsn sa.arsn.cells sa.arsnLen sa.arsnw with
    | .error fault => (.error fault, false)
    | .ok false => (.error .arsnOutsideWindow, false)
    | .ok true => (.ok (), true)
  else (.ok (), false)

def checkAntiReplayGcm (config : Config) (sa : SecurityAssociation) (iv : List Octet) : Check :=
  if (sa.ivLen : Nat) > 0 ∧ sa.ecs = .aes256Gcm then
    if (sa.ivLen : Nat) > IV_SIZE then (.error .ivGreaterThanMaxLength, false)
    else
      let inside :=
        if config.incrementNontransmittedIv then window iv sa.iv.cells sa.ivLen sa.arsnw
        else if (sa.ivLen : Nat) < sa.shivfLen then .error .memoryFault
        else window iv (sa.iv.cells.drop (sa.ivLen - sa.shivfLen)) sa.shivfLen sa.arsnw
      match inside with
      | .error fault => (.error fault, false)
      | .ok false => (.error .ivOutsideWindow, false)
      | .ok true => (.ok (), true)
  else (.ok (), false)

def EncCipherSuite.isGcm (ecs : EncCipherSuite) : Bool :=
  ecs = .aes256Gcm || ecs = .aes256GcmSiv

def storeIv (sa : SecurityAssociation) (iv : List Octet) : Except Error SecurityAssociation := do
  let octets ← octetsAt iv 0 sa.ivLen
  let stored ← copyInto sa.iv 0 octets
  .ok { sa with iv := stored }

def storeArsn (sa : SecurityAssociation) (arsn : List Octet) :
    Except Error SecurityAssociation := do
  let octets ← octetsAt arsn 0 sa.arsnLen
  let stored ← copyInto sa.arsn 0 octets
  .ok { sa with arsn := stored }

/-- The stores that follow the checks; they happen whatever the status is. -/
def storeCounters (sa : SecurityAssociation) (arsn iv : List Octet) (arsnValid ivValid : Bool) :
    Except Error SecurityAssociation :=
  if sa.ecs.isGcm then
    if !ivValid then .ok sa
    else if (sa.arsnLen : Nat) > 0 then
      if arsnValid then do storeArsn (← storeIv sa iv) arsn else .ok sa
    else storeIv sa iv
  else if arsnValid then storeArsn sa arsn else .ok sa

/-- The pointers are never null, so their verification is left out. -/
def checkAntiReplay (config : Config) (sa : SecurityAssociation) (arsn iv : List Octet) :
    Except Error Unit × SecurityAssociation :=
  let (status, arsnValid) := checkAntiReplayArsnw sa arsn
  let (status, ivValid) := match status with
    | .ok () => checkAntiReplayGcm config sa iv
    | .error code => (.error code, false)
  match storeCounters sa arsn iv arsnValid ivValid with
  | .ok sa => (status, sa)
  | .error fault => (.error fault, sa)

/-- The search of the receiver: the first of the next `count` values of `temp` that
ends with the transmitted octets. Past the last one the comparison stands. -/
def matchTransmitted (transmitted : List Octet) : List Octet → Nat → Option (List Octet)
  | _, 0 => none
  | temp, count + 1 =>
    let temp := increment temp
    if temp.drop (temp.length - transmitted.length) = transmitted then some temp
    else matchTransmitted transmitted temp count

/-- `dest` holds the received octets at the end of the counter and receives the part
in front of them. With a window of zero nothing is compared. -/
def handleIncrementingNontransmittedCounter {n : Nat} (dest : Buffer Octet n) (src : List Octet)
    (srcFullLen transmittedLen window : Nat) : Except Error (Buffer Octet n) := do
  if srcFullLen > MAX_IV_LEN then .error .ivExceedsIncrementSize
  else
    let temp ← octetsAt src 0 srcFullLen
    if window = 0 then copyInto dest 0 (temp.take (srcFullLen - transmittedLen))
    else
      let transmitted ← octetsAt dest.cells (srcFullLen - transmittedLen) transmittedLen
      match matchTransmitted transmitted temp window with
      | some counter => copyInto dest 0 (counter.take (srcFullLen - transmittedLen))
      | none => .error .frameCounterDoesntMatchSa

end Nos3.Sdls
