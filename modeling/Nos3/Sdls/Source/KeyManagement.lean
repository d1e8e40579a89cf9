import Nos3.Sdls.Source.ExtendedProcedure
import Nos3.Base.FixedArray
import Nos3.Base.CheckedSequence
import Mathlib.Data.BitVec

/-!
# Key management procedures

`crypto_key_mgmt.c` over the key ring of `key_interface_internal`, and the
monitoring log its error branches write to. The log's counters are two `uint16`
fields of one record; `Crypto_increment` is given the record as four octets, so
what it does to them depends on the byte order of the machine.
-/
namespace Nos3.Sdls
open Nos3.Base.BigEndian (Octet)
open Nos3.Base.FixedArray
open Nos3.Base.Program

def MKID_MAX : Nat := 128
def NUM_KEYS : Nat := 256
def KEY_SIZE : Nat := 512
def SDLS_OTAR_IV_OFFSET : Nat := 2
def SDLS_IV_LEN : Nat := 12
def SDLS_KEYID_LEN : Nat := 2
def SDLS_KEY_LEN : Nat := 32
def SDLS_MAX_KEY_UPDATES : Nat := 16
def SDLS_MAX_KEY_UPDATE_LEN : Nat := 35
def LOG_SIZE : Nat := 50

def KEY_PREACTIVE : BitVec 4 := 0
def KEY_ACTIVE : BitVec 4 := 1
def KEY_DEACTIVATED : BitVec 4 := 2
def KEY_DESTROYED : BitVec 4 := 3

def MKID_INVALID_EID : Octet := 1
def MKID_STATE_ERR_EID : Octet := 2
def KEY_TRANSITION_ERR_EID : Octet := 3
def OTAR_MK_ERR_EID : Octet := 7
def STARTUP_EID : Octet := 10

/-- The return codes of the procedures; `memoryFault` stands for an access outside
the TLV data. -/
inductive KeyError where
  | error
  | keyIdError
  | keyStateInvalid
  | keyStateTransitionError
  | otarBadTlvLength
  | cryptography (code : Nat)
  | memoryFault
  deriving DecidableEq

/-- `crypto_key_t` with its state; frames are processed with its `view`. -/
structure RingKey where
  value : List Octet
  keyLen : Nat
  keyState : BitVec 4
  deriving DecidableEq

def RingKey.view (key : RingKey) : CryptoKey := ⟨key.value, key.keyLen, key.keyState = KEY_ACTIVE⟩

/-! ## The monitoring log -/

inductive ByteOrder where
  | little
  | big

/-- `SDLS_MC_DUMP_RPLY_t`. -/
structure LogBlock where
  emt : Octet
  emLen : BitVec 16
  emv : List Octet
  deriving DecidableEq

/-- `log_summary`, `log_count` and `mc_log`. -/
structure MonitorLog where
  numSe : BitVec 16
  rs : BitVec 16
  logCount : BitVec 8
  blk : List LogBlock
  deriving DecidableEq

/-- `Crypto_increment`: the last octet is the least significant. -/
def incrementOctets (num : List Octet) : List Octet := (go num.reverse).reverse
where
  go : List Octet → List Octet
    | [] => []
    | low :: rest => if low + 1 = 0 then 0 :: go rest else (low + 1) :: rest

/-- The octets of `log_summary` in memory. -/
def summaryOctets (order : ByteOrder) (numSe rs : BitVec 16) : List Octet :=
  match order with
  | .little => [numSe.setWidth 8, (numSe >>> 8).setWidth 8, rs.setWidth 8, (rs >>> 8).setWidth 8]
  | .big => [(numSe >>> 8).setWidth 8, numSe.setWidth 8, (rs >>> 8).setWidth 8, rs.setWidth 8]

def summaryWord (order : ByteOrder) (first second : Octet) : BitVec 16 :=
  match order with
  | .little => second.setWidth 16 <<< 8 ||| first.setWidth 16
  | .big => first.setWidth 16 <<< 8 ||| second.setWidth 16

/-- `Crypto_increment((uint8_t *)&log_summary.num_se, 4)`. -/
def incrementNumSe (order : ByteOrder) (log : MonitorLog) : MonitorLog :=
  let octets := incrementOctets (summaryOctets order log.numSe log.rs)
  { log with
    numSe := summaryWord order (octets.getD 0 0) (octets.getD 1 0)
    rs := summaryWord order (octets.getD 2 0) (octets.getD 3 0) }

def eventBlock (emt : Octet) : LogBlock := ⟨emt, 4, [0x4E, 0x41, 0x53, 0x41]⟩

/-- An error branch's entry, made while there is room. A block behind the last one,
which the code also writes, is outside of `mc_log`. -/
def logEvent (order : ByteOrder) (emt : Octet) (log : MonitorLog) : MonitorLog :=
  if 0 < log.rs.toNat then
    let log := incrementNumSe order log
    { log with
      rs := log.rs - 1
      blk := log.blk.set log.logCount.toNat (eventBlock emt)
      logCount := log.logCount + 1 }
  else log

/-- `Crypto_Local_Config`. -/
def localConfig (log : MonitorLog) : MonitorLog :=
  if log.logCount = 0 then
    { numSe := 2
      rs := BitVec.ofNat 16 LOG_SIZE - 1 - 1
      blk := (log.blk.set 0 (eventBlock STARTUP_EID)).set 1 (eventBlock STARTUP_EID)
      logCount := log.logCount + 1 + 1 }
  else log

/-- The PDU of the replies of `Crypto_MC_status` and `Crypto_MC_erase`. -/
def statusReply (log : MonitorLog) : List Octet :=
  summaryOctets .big log.numSe log.rs

/-- The PDU of the reply of `Crypto_MC_dump`. -/
def dumpReply (log : MonitorLog) : List Octet :=
  (log.blk.take log.logCount.toNat).flatMap fun blk : LogBlock =>
    [blk.emt, (blk.emLen >>> 8).setWidth 8, blk.emLen.setWidth 8] ++ blk.emv

/-- `Crypto_MC_erase`. -/
def mcErase (log : MonitorLog) : MonitorLog where
  numSe := 0
  rs := BitVec.ofNat 16 LOG_SIZE
  logCount := 0
  blk := log.blk.map fun _ => ⟨0, 0, [0, 0, 0, 0]⟩

/-! ## The key ring -/

/-- `key_ring`; keys are those with an id below `NUM_KEYS`. -/
abbrev KeyRing := Nat → RingKey

/-- The key ring, the log and `report.af`. -/
structure KeyStore where
  ring : KeyRing
  log : MonitorLog
  af : Bool

abbrev KeyProc := Routine KeyError KeyStore

/-- `get_key`. -/
def getKey (s : KeyStore) (keyId : Nat) : Except KeyError RingKey :=
  if keyId < NUM_KEYS then .ok (s.ring keyId) else .error .keyIdError

def setKey (s : KeyStore) (keyId : Nat) (key : RingKey) : KeyStore :=
  { s with ring := fun i => if i = keyId then key else s.ring i }

/-- An entry in the log, then the error. -/
def failLogged {α : Type} (order : ByteOrder) (emt : Octet) (e : KeyError) : KeyProc α := do
  Routine.modify fun s => { s with log := logEvent order emt s.log }
  Routine.fail e

/-- The same with `report.af` set before. -/
def failAlarmed {α : Type} (order : ByteOrder) (emt : Octet) (e : KeyError) : KeyProc α := do
  Routine.modify fun s => { s with af := true }
  failLogged order emt e

/-! ## OTAR -/

/-- `cryptography_aead_decrypt` with the master key on IV, MAC and encrypted key
blocks. -/
abbrev OtarDecrypt := CryptoKey → List Octet → List Octet → List Octet → Except Nat (List Octet)

/-- The octets of the TLV data, from its length in bits. -/
def pduOctets (pdu : TlvPdu) : Nat := pdu.hdr.pduLen.toNat / 8

def dataWord (data : List Octet) (i : Nat) : Nat :=
  (data.getD i 0).toNat * 256 + (data.getD (i + 1) 0).toNat

/-- `int` division rounds towards zero. -/
def otarPduKeys (pdu : TlvPdu) : Nat :=
  (pduOctets pdu - (SDLS_KEYID_LEN + SDLS_IV_LEN + MAC_SIZE)) / (SDLS_KEYID_LEN + SDLS_KEY_LEN)

/-- An upload key of the decrypted data, with its id. -/
structure KeyBlock where
  ekid : Nat
  ek : List Octet
  deriving DecidableEq

def keyBlockAt (data : List Octet) (x : Nat) : KeyBlock where
  ekid := dataWord data (14 + x * (SDLS_KEYID_LEN + SDLS_KEY_LEN))
  ek := Base.FileImage.window data (14 + x * (SDLS_KEYID_LEN + SDLS_KEY_LEN) + 2) SDLS_KEY_LEN

def keyBlocks (pdu : TlvPdu) (plaintext : List Octet) : List KeyBlock :=
  let count := otarPduKeys pdu
  let data := patch pdu.data.cells 14
    (plaintext.take (count * (SDLS_KEYID_LEN + SDLS_KEY_LEN)))
  (List.range count).map (keyBlockAt data)

def installKey (key : RingKey) (ek : List Octet) : RingKey :=
  { key with value := patch key.value 0 ek, keyState := KEY_PREACTIVE }

/-- The loop of `Crypto_Key_OTAR` over the decrypted key blocks. -/
def otarKeys (order : ByteOrder) : List KeyBlock → KeyProc Unit
  | [] => return ()
  | block :: rest => do
    if block.ekid < MKID_MAX then failAlarmed order OTAR_MK_ERR_EID .error
    else
      let s ← Routine.get
      let key ← Routine.lift (getKey s block.ekid)
      Routine.modify fun s => setKey s block.ekid (installKey key block.ek)
      otarKeys order rest

def otarMkid (pdu : TlvPdu) : Nat := dataWord pdu.data.cells 0

/-- IV, MAC and encrypted key blocks of the PDU. -/
def otarCiphertext (decrypt : OtarDecrypt) (pdu : TlvPdu) (key : RingKey) :
    Except Nat (List Octet) :=
  decrypt key.view (Base.FileImage.window pdu.data.cells SDLS_OTAR_IV_OFFSET SDLS_IV_LEN)
    (Base.FileImage.window pdu.data.cells (pduOctets pdu - MAC_SIZE) MAC_SIZE)
    (Base.FileImage.window pdu.data.cells 14 (otarPduKeys pdu * (SDLS_KEYID_LEN + SDLS_KEY_LEN)))

def decryptError {α : Type} : Except Nat α → Except KeyError α
  | .ok a => .ok a
  | .error code => .error (.cryptography code)

/-- `Crypto_Key_OTAR`. -/
def keyOtar (order : ByteOrder) (decrypt : OtarDecrypt) (pdu : TlvPdu) : KeyProc Unit := do
  if pduOctets pdu < SDLS_KEYID_LEN + SDLS_IV_LEN +
      (SDLS_KEYID_LEN + SDLS_KEY_LEN) * otarPduKeys pdu + MAC_SIZE then
    Routine.fail .otarBadTlvLength
  else if MKID_MAX ≤ otarMkid pdu then failAlarmed order MKID_INVALID_EID .keyIdError
  else if TLV_DATA_SIZE < pduOctets pdu then Routine.fail .memoryFault
  else
    let s ← Routine.get
    let key ← Routine.lift (getKey s (otarMkid pdu))
    if key.keyState ≠ KEY_ACTIVE then Routine.fail .keyStateInvalid
    else
      let plaintext ← Routine.lift (decryptError (otarCiphertext decrypt pdu key))
      otarKeys order (keyBlocks pdu plaintext)

/-! ## Key update -/

def updateIds (pdu : TlvPdu) : List Nat :=
  (List.range (pduOctets pdu / 2)).map fun x => dataWord pdu.data.cells (2 * x)

/-- The second loop of `Crypto_Key_update`. -/
def updateKeys (order : ByteOrder) (state : BitVec 4) : List Nat → KeyProc Unit
  | [] => return ()
  | kid :: rest => do
    if kid < MKID_MAX then failAlarmed order MKID_STATE_ERR_EID .keyIdError
    else
      let s ← Routine.get
      let key ← Routine.lift (getKey s kid)
      if key.keyState.toNat + 1 = state.toNat then do
        Routine.modify fun s => setKey s kid { key with keyState := state }
        updateKeys order state rest
      else failLogged order KEY_TRANSITION_ERR_EID .keyStateTransitionError

/-- `Crypto_Key_update`; the first loop, which copies the ids, ends with an error at
the seventeenth. -/
def keyUpdate (order : ByteOrder) (pktLength : Nat) (pdu : TlvPdu) (state : BitVec 4) :
    KeyProc Unit := do
  if (state = KEY_DEACTIVATED ∨ state = KEY_ACTIVE) ∧
      (SDLS_MAX_KEY_UPDATE_LEN < pduOctets pdu ∨ pktLength < pduOctets pdu) then
    Routine.fail .error
  else if SDLS_MAX_KEY_UPDATES < pduOctets pdu / 2 then Routine.fail .error
  else updateKeys order state (updateIds pdu)

/-! ## The procedures of the service group -/

inductive KeyProcedure where
  | otar
  | activation
  | deactivation
  | destruction
  deriving DecidableEq

/-- The cases of `Crypto_SG_KEY_MGMT` that change keys. -/
def sgKeyMgmt (order : ByteOrder) (decrypt : OtarDecrypt) (pktLength : Nat) (pdu : TlvPdu) :
    KeyProcedure → KeyProc Unit
  | .otar => keyOtar order decrypt pdu
  | .activation => keyUpdate order pktLength pdu KEY_ACTIVE
  | .deactivation => keyUpdate order pktLength pdu KEY_DEACTIVATED
  | .destruction => keyUpdate order pktLength pdu KEY_DESTROYED

end Nos3.Sdls

/-!
## Replies to extended procedures

`Crypto_Prep_Reply` and `Crypto_Get_Sdls_Ep_Reply` of `crypto.c` with the two
procedures whose replies are lists: `Crypto_Key_inventory` and `Crypto_MC_dump`. The
place in the reply is an eight-bit count; the lengths are computed before anything is
written.
-/
namespace Nos3.Sdls
open Nos3.Base.BigEndian (Octet)
open Nos3.Base.FixedArray
open Nos3.Base.Program

def CRYPTOLIB_APPID : Octet := 128
def EMV_SIZE : Nat := 4
def SDLS_KEY_INVENTORY_RPLY_SIZE : Nat := 3
def SDLS_MC_DUMP_RPLY_SIZE : Nat := 7

/-- `sdls_frame` and `sdls_ep_reply`. -/
structure EpState where
  frame : SdlsFrame
  reply : Buffer Octet TC_MAX_FRAME_SIZE

abbrev EpProc := Routine KeyError EpState

def highOctet (word : BitVec 16) : Octet := (word >>> 8).setWidth 8

def lowOctet (word : BitVec 16) : Octet := word.setWidth 8

def wordOctets (word : BitVec 16) : List Octet := [highOctet word, lowOctet word]

/-- Each octet with `sdls_ep_reply[count++]`. -/
def EpState.write (s : EpState) (count : BitVec 8) (octets : List Octet) : EpState × BitVec 8 :=
  let (reply, count) := s.reply.putAll count octets
  ({ s with reply := reply }, count)

/-! ## The header of a reply -/

/-- The mask of the application id is shifted before it is applied. -/
def sppOctets (hdr : SppHeader) : List Octet :=
  [hdr.pvn.setWidth 8 <<< 5 ||| hdr.type.setWidth 8 <<< 4 ||| hdr.shdr.setWidth 8 <<< 3 |||
      (hdr.appId &&& (0x700 >>> 8)).setWidth 8,
    hdr.appId.setWidth 8,
    hdr.seq.setWidth 8 <<< 6 ||| ((hdr.pktid &&& 0x3F00) >>> 8).setWidth 8,
    hdr.pktid.setWidth 8] ++ wordOctets hdr.pktLength

def pusOctets (pus : PusHeader) : List Octet :=
  [pus.shf.setWidth 8 <<< 7 ||| pus.pusv.setWidth 8 <<< 4 ||| pus.ack.setWidth 8, pus.st, pus.sst,
    pus.sid.setWidth 8 <<< 4 ||| pus.spare.setWidth 8]

def tlvOctets (hdr : TlvHeader) : List Octet :=
  (hdr.type.setWidth 8 <<< 7 ||| hdr.uf.setWidth 8 <<< 6 ||| hdr.sg.setWidth 8 <<< 4 |||
    hdr.pid.setWidth 8) :: wordOctets hdr.pduLen

def replyHeader (config : Config) (frame : SdlsFrame) : List Octet :=
  sppOctets frame.hdr ++ (if config.hasPusHdr then pusOctets frame.pus else []) ++
    tlvOctets frame.tlvPdu.hdr

def SdlsFrame.setTlvType (frame : SdlsFrame) (type : BitVec 1) : SdlsFrame :=
  { frame with tlvPdu := { frame.tlvPdu with hdr := { frame.tlvPdu.hdr with type := type } } }

def SdlsFrame.setLengths (frame : SdlsFrame) (pduLen pktLength : BitVec 16) : SdlsFrame :=
  { frame with
    hdr := { frame.hdr with pktLength := pktLength }
    tlvPdu := { frame.tlvPdu with hdr := { frame.tlvPdu.hdr with pduLen := pduLen } } }

/-- `sdls_frame` while the header is written. -/
def SdlsFrame.prepared (frame : SdlsFrame) (appId : Octet) : SdlsFrame :=
  let hdr := { frame.hdr with pvn := 0, type := 0, shdr := 1, appId := appId.setWidth 11 }
  { frame with hdr := hdr }.setTlvType 1

/-- `Crypto_Prep_Reply`: the type field is set for the reply only. -/
def prepReply (config : Config) (appId : Octet) (s : EpState) : EpState × BitVec 8 :=
  let frame := s.frame.prepared appId
  let (s, count) := { s with frame := frame }.write 0 (replyHeader config frame)
  ({ s with frame := frame.setTlvType 0 }, count)

/-- The headers as the lengths count them, the PUS header whether there is one or not. -/
def REPLY_HDR_SIZE : Nat := CCSDS_HDR_SIZE + ECSS_PUS_SIZE + SDLS_TLV_HDR_SIZE

/-! ## Key inventory -/

def SdlsFrame.kidFirst (frame : SdlsFrame) : Nat := dataWord frame.tlvPdu.data.cells 0

def SdlsFrame.kidLast (frame : SdlsFrame) : Nat := dataWord frame.tlvPdu.data.cells 2

/-- The loop over the key ids; the id of a key that is not there is written already. -/
def inventoryKeys (store : KeyStore) (count : BitVec 8) : List Nat → EpProc Unit
  | [] => return ()
  | x :: rest => do
    let s ← Routine.get
    let (s, count) := s.write count (wordOctets (BitVec.ofNat 16 x))
    Routine.modify fun _ => s
    let ekp ← Routine.lift (getKey store x)
    let (s, count) := s.write count [ekp.keyState.setWidth 8]
    Routine.modify fun _ => s
    inventoryKeys store count rest

/-- `Crypto_Key_inventory`. No key has the last id there is, so the loop variable does
not wrap around. -/
def keyInventory (config : Config) (store : KeyStore) : EpProc Unit := do
  let s ← Routine.get
  let frame := s.frame
  let range := BitVec.ofNat 16 frame.kidLast - BitVec.ofNat 16 frame.kidFirst + 1
  let pduLen := BitVec.ofNat 16 (SDLS_KEY_INVENTORY_RPLY_SIZE * range.toNat * 8)
  -- the two octets more are the number of keys
  let pktLength := BitVec.ofNat 16 (REPLY_HDR_SIZE + pduLen.toNat / 8 - 1 + 2)
  let s := { s with frame := frame.setLengths pduLen pktLength }
  let (s, count) := prepReply config CRYPTOLIB_APPID s
  let (s, count) := s.write count (wordOctets range)
  Routine.modify fun _ => s
  inventoryKeys store count (List.range' frame.kidFirst (frame.kidLast + 1 - frame.kidFirst))

/-! ## Log dump -/

/-- `Crypto_MC_dump`. -/
def mcDump (config : Config) (log : MonitorLog) : EpProc Unit :=
  Routine.modify fun s =>
    let pduLen := BitVec.ofNat 16 (SDLS_MC_DUMP_RPLY_SIZE * log.logCount.toNat * 8)
    let pktLength := BitVec.ofNat 16 (REPLY_HDR_SIZE + pduLen.toNat / 8 - 1)
    let s := { s with frame := s.frame.setLengths pduLen pktLength }
    let (s, count) := prepReply config CRYPTOLIB_APPID s
    (s.write count (dumpReply log)).1

/-! ## Fetching the reply -/

/-- `Crypto_Get_Sdls_Ep_Reply`: as many octets as the packet header says. -/
def getSdlsEpReply (s : EpState) : Except Error (List Octet) :=
  let pktLength := s.frame.hdr.pktLength + 1
  if pktLength.toNat > TC_MAX_FRAME_SIZE then .error .frameSizeExceedsSpecLimit
  else .ok (s.reply.cells.take pktLength.toNat)

inductive ReplyProcedure where
  | keyInventory
  | mcDump
  deriving DecidableEq

def replyTo (config : Config) (store : KeyStore) : ReplyProcedure → EpProc Unit
  | .keyInventory => keyInventory config store
  | .mcDump => mcDump config store.log

end Nos3.Sdls

/-!
## What the key lists do to the ring

Both procedures work off a list of keys, checking each against the ring reached so
far. A run is that of a checked sequence on the ring, with the log entry of the
key that was refused.
-/
namespace Nos3.Sdls
open Nos3.Base.BigEndian (Octet)
open Nos3.Base.FixedArray
open Nos3.Base.Program
open Nos3.Base.CheckedSequence

def KeyRing.set (ring : KeyRing) (keyId : Nat) (key : RingKey) : KeyRing :=
  fun i => if i = keyId then key else ring i

/-- Ids of keys that may be changed. -/
def Changeable (keyId : Nat) : Prop := MKID_MAX ≤ keyId ∧ keyId < NUM_KEYS

instance (keyId : Nat) : Decidable (Changeable keyId) := inferInstanceAs (Decidable (_ ∧ _))

/-! ## OTAR -/

def otarChecked : Checked KeyRing KeyBlock where
  check _ block := Changeable block.ekid
  apply ring block := ring.set block.ekid (installKey (ring block.ekid) block.ek)

/-- How the procedure ends when it refuses a block. -/
def otarRefused (order : ByteOrder) (s : KeyStore) (block : KeyBlock) :
    Except KeyError Unit × KeyStore :=
  if block.ekid < MKID_MAX then
    (.error .error, { s with log := logEvent order OTAR_MK_ERR_EID s.log, af := true })
  else (.error .keyIdError, s)

theorem otarKeys_run (order : ByteOrder) : ∀ (blocks : List KeyBlock) (s : KeyStore),
    otarKeys order blocks s = match otarChecked.run s.ring blocks with
      | (ring, none) => (.ok (), { s with ring := ring })
      | (ring, some block) => otarRefused order { s with ring := ring } block
  | [], s => rfl
  | block :: rest, s => by
    by_cases hmaster : block.ekid < MKID_MAX
    · have hcheck : otarChecked.check s.ring block = false :=
        decide_eq_false fun h => absurd h.1 (Nat.not_le.mpr hmaster)
      rw [Checked.run_refused_first hcheck, otarKeys, if_pos hmaster]
      exact (if_pos hmaster : otarRefused order s block = _).symm
    · by_cases hknown : block.ekid < NUM_KEYS
      · have hcheck : otarChecked.check s.ring block = true :=
          decide_eq_true ⟨Nat.le_of_not_lt hmaster, hknown⟩
        have hkey : getKey s block.ekid = .ok (s.ring block.ekid) := if_pos hknown
        rw [Checked.run_cons hcheck, otarKeys, if_neg hmaster, get_bind, lift_bind hkey,
          modify_bind, otarKeys_run order rest]
        rfl
      · have hcheck : otarChecked.check s.ring block = false :=
          decide_eq_false fun h => absurd h.2 hknown
        have hkey : getKey s block.ekid = .error .keyIdError := if_neg hknown
        rw [Checked.run_refused_first hcheck, otarKeys, if_neg hmaster, get_bind,
          lift_bind_error hkey]
        exact (if_neg hmaster : otarRefused order s block = _).symm

/-! ## Key update -/

/-- A key that may go to `state`. -/
def Eligible (ring : KeyRing) (state : BitVec 4) (keyId : Nat) : Prop :=
  Changeable keyId ∧ (ring keyId).keyState.toNat + 1 = state.toNat

instance (ring : KeyRing) (state : BitVec 4) (keyId : Nat) : Decidable (Eligible ring state keyId) :=
  inferInstanceAs (Decidable (_ ∧ _))

def RingKey.withState (key : RingKey) (state : BitVec 4) : RingKey := { key with keyState := state }

def updateChecked (state : BitVec 4) : Checked KeyRing Nat where
  check ring keyId := Eligible ring state keyId
  apply ring keyId := ring.set keyId ((ring keyId).withState state)

def updateRefused (order : ByteOrder) (s : KeyStore) (keyId : Nat) :
    Except KeyError Unit × KeyStore :=
  if keyId < MKID_MAX then
    (.error .keyIdError, { s with log := logEvent order MKID_STATE_ERR_EID s.log, af := true })
  else if keyId < NUM_KEYS then
    (.error .keyStateTransitionError,
      { s with log := logEvent order KEY_TRANSITION_ERR_EID s.log })
  else (.error .keyIdError, s)

theorem updateKeys_run (order : ByteOrder) (state : BitVec 4) : ∀ (ids : List Nat) (s : KeyStore),
    updateKeys order state ids s = match (updateChecked state).run s.ring ids with
      | (ring, none) => (.ok (), { s with ring := ring })
      | (ring, some keyId) => updateRefused order { s with ring := ring } keyId
  | [], s => rfl
  | keyId :: rest, s => by
    by_cases hmaster : keyId < MKID_MAX
    · have hcheck : (updateChecked state).check s.ring keyId = false :=
        decide_eq_false fun h => absurd h.1.1 (Nat.not_le.mpr hmaster)
      rw [Checked.run_refused_first hcheck, updateKeys, if_pos hmaster]
      exact (if_pos hmaster : updateRefused order s keyId = _).symm
    · by_cases hknown : keyId < NUM_KEYS
      · have hkey : getKey s keyId = .ok (s.ring keyId) := if_pos hknown
        rw [updateKeys, if_neg hmaster, get_bind, lift_bind hkey]
        by_cases hstate : (s.ring keyId).keyState.toNat + 1 = state.toNat
        · have hcheck : (updateChecked state).check s.ring keyId = true :=
            decide_eq_true ⟨⟨Nat.le_of_not_lt hmaster, hknown⟩, hstate⟩
          rw [Checked.run_cons hcheck, if_pos hstate, modify_bind, updateKeys_run order state rest]
          rfl
        · have hcheck : (updateChecked state).check s.ring keyId = false :=
            decide_eq_false fun h => hstate h.2
          rw [Checked.run_refused_first hcheck, if_neg hstate]
          exact ((if_neg hmaster).trans (if_pos hknown) : updateRefused order s keyId = _).symm
      · have hcheck : (updateChecked state).check s.ring keyId = false :=
          decide_eq_false fun h => absurd h.1.2 hknown
        have hkey : getKey s keyId = .error .keyIdError := if_neg hknown
        rw [Checked.run_refused_first hcheck, updateKeys, if_neg hmaster, get_bind,
          lift_bind_error hkey]
        exact ((if_neg hmaster).trans (if_neg hknown) : updateRefused order s keyId = _).symm

/-- The ring after the keys of a list were moved. -/
def KeyRing.promote (ring : KeyRing) (state : BitVec 4) (ids : List Nat) : KeyRing :=
  fun i => if i ∈ ids then (ring i).withState state else ring i

/-- The keys worked off were different ones, each one step before `state`. -/
structure Promoted (ring : KeyRing) (state : BitVec 4) (done : List Nat) (reached : KeyRing) : Prop
    where
  reached_eq : reached = ring.promote state done
  different : done.Nodup
  eligible : ∀ keyId ∈ done, Eligible ring state keyId

theorem Promoted.step {ring reached : KeyRing} {state : BitVec 4} {done : List Nat} {keyId : Nat}
    (h : Promoted ring state done reached) (hcheck : (updateChecked state).check reached keyId = true) :
    Promoted ring state (done ++ [keyId]) ((updateChecked state).apply reached keyId) := by
  have heligible : Eligible reached state keyId := of_decide_eq_true hcheck
  have hreached := h.reached_eq
  have hnew : keyId ∉ done := by
    intro hmem
    have hstate := heligible.2
    rw [hreached, KeyRing.promote, if_pos hmem] at hstate
    exact absurd hstate (Nat.succ_ne_self _)
  have hsame : reached keyId = ring keyId := by rw [hreached, KeyRing.promote, if_neg hnew]
  refine ⟨?_, ?_, ?_⟩
  · funext i
    change (if i = keyId then (reached keyId).withState state else reached i) = _
    unfold KeyRing.promote
    by_cases hi : i = keyId
    · rw [if_pos hi, if_pos (by simp [hi]), hsame, hi]
    · rw [if_neg hi, hreached, KeyRing.promote]
      simp [hi]
  · exact List.nodup_append.mpr ⟨h.different, List.nodup_singleton _, by
      intro a ha b hb
      rw [List.mem_singleton.mp hb]
      exact fun heq => hnew (heq ▸ ha)⟩
  · intro i hi
    rcases List.mem_append.mp hi with hold | hlast
    · exact h.eligible i hold
    · rw [List.mem_singleton.mp hlast]
      exact ⟨heligible.1, hsame ▸ heligible.2⟩

theorem Promoted.nil (ring : KeyRing) (state : BitVec 4) : Promoted ring state [] ring := by
  refine ⟨?_, List.nodup_nil, nofun⟩
  funext i
  exact (if_neg List.not_mem_nil).symm

end Nos3.Sdls
