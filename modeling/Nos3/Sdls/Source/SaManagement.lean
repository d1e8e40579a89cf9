import Nos3.Sdls.Source.KeyManagement
import Mathlib.Logic.Function.Basic

/-!
# Security association procedures

`sa_create`, `sa_rekey`, `sa_start`, `sa_stop`, `sa_expire` and `sa_delete` of the
in-memory association interface. Five of them change an association that is in
the state they start from; `sa_create` looks at no state.
-/
namespace Nos3.Sdls
open Nos3.Base.BigEndian (Octet)
open Nos3.Base.FixedArray
open Nos3.Base.Program

def REF_SIZE : Nat := 250
def TYPE_TC : Nat := 0
def TYPE_MAP : Nat := 1
def TYPE_TM : Nat := 2

/-- The return codes; `undefined` stands for a write behind an array of the
association or a shift by the width of an `int`. -/
inductive SaError where
  | sdlsEpWrongSpi
  | saNotOperational
  | spiIndexOob
  | error
  | shivfLenGreaterThanMaxIvSize
  | shsnfLenGreaterThanMaxArsnSize
  | abmLenGreaterThanMaxAbmSize
  | stmacfLenGreaterThanMaxMacSize
  | shplfLenGreaterThanMaxPadSize
  | undefined
  deriving DecidableEq

/-- The fields of an association that only the procedures use. -/
structure SaEntry extends SecurityAssociation where
  ekRef : Buffer Octet REF_SIZE
  akRef : Buffer Octet REF_SIZE
  lpid : Octet
  ecsLen : Fin 256
  arsnwLen : Fin 256
  deriving DecidableEq

abbrev SaStore := Fin NUM_SA → SaEntry

abbrev SaProc := Routine SaError SaStore

/-- What a procedure reads: the PDU, the association and virtual channel of the frame
that carried it, the virtual channel of the TM frame and whether the managed
parameters have segment headers. -/
structure SaRequest where
  pdu : TlvPdu
  controlSpi : Nat
  vcid : Fin 64
  tmVcid : Nat
  hasSegmentHdrs : Bool

def SaRequest.octet (r : SaRequest) (i : Nat) : Nat := (r.pdu.data.cells.getD i 0).toNat

def SaRequest.spi (r : SaRequest) : Nat := r.octet 0 * 256 + r.octet 1

/-- Bits from L-R: type, user flag, service group, procedure identification. -/
def SaRequest.lpid (r : SaRequest) : Octet :=
  r.pdu.hdr.type.setWidth 8 <<< 7 ||| r.pdu.hdr.uf.setWidth 8 <<< 6 |||
    r.pdu.hdr.sg.setWidth 8 <<< 4 ||| r.pdu.hdr.pid.setWidth 8

/-! ## What the procedures have in common -/

/-- The association named in the PDU gets the last PID before its state is looked at.
`sa_start` alone does not compare it with the one in use. -/
def saProcedure (r : SaRequest) (comparesControl : Bool) (absent : Except SaError Unit)
    (body : Fin NUM_SA → SaProc Unit) : SaProc Unit :=
  if comparesControl = true ∧ r.spi = r.controlSpi then Routine.fail .sdlsEpWrongSpi
  else if h : r.spi < NUM_SA then do
    Routine.modify fun sas => Function.update sas ⟨r.spi, h⟩ { sas ⟨r.spi, h⟩ with lpid := r.lpid }
    body ⟨r.spi, h⟩
  else Routine.lift absent

/-- The change of an association in `state`. -/
def inState (state : SaState) (otherwise : Except SaError Unit)
    (change : SaEntry → Except SaError SaEntry) (i : Fin NUM_SA) : SaProc Unit := do
  let sas ← Routine.get
  if (sas i).saState = state then do
    let sa ← Routine.lift (change (sas i))
    Routine.modify fun sas => Function.update sas i sa
  else Routine.lift otherwise

/-! ## Start and stop -/

def gvcidAt (r : SaRequest) (count : Nat) : Gvcid where
  tfvn := Fin.ofNat 16 (r.octet count / 16)
  scid := Fin.ofNat (2 ^ 16) (r.octet count * 4096 + r.octet (count + 1) * 16 +
    r.octet (count + 2) / 16)
  vcid := Fin.ofNat 64 (r.octet (count + 2) % 16 * 4 + r.octet (count + 3) / 64)
  mapid := if r.hasSegmentHdrs then Fin.ofNat 64 (r.octet (count + 3)) else 0

/-- One channel of `sa_start`. -/
def startGvcid (r : SaRequest) (sa : SaEntry) (gvcid : Gvcid) : SaEntry :=
  let sa := if gvcid.vcid ≠ r.vcid then
      let sa := if gvcid.mapid.val = TYPE_TC then { sa with gvcid := ⟨0, 0, 0, 0⟩ } else sa
      if gvcid.mapid.val ≠ TYPE_MAP then
        { sa with gvcid := ⟨gvcid.tfvn, gvcid.scid, sa.gvcid.vcid, gvcid.mapid⟩ }
      else sa
    else sa
  let sa := if gvcid.vcid.val ≠ r.tmVcid then
      let sa := if gvcid.mapid.val = TYPE_TM then { sa with gvcid := ⟨0, 0, 0, 0⟩ } else sa
      if gvcid.mapid.val ≠ TYPE_MAP then { sa with gvcid := gvcid } else sa
    else sa
  { sa with saState := .operational }

/-- The loop runs once more than there are channels; `count` is a `uint8`. -/
def startSa (r : SaRequest) (sa : SaEntry) : SaEntry :=
  (List.range ((pduOctets r.pdu - 2) / 4 + 1)).foldl
    (fun sa x => startGvcid r sa (gvcidAt r ((2 + 4 * x) % 256))) sa

def saStart (r : SaRequest) : SaProc Unit :=
  saProcedure r false (.ok ()) (inState .keyed (.ok ()) fun sa => .ok (startSa r sa))

def saStop (r : SaRequest) : SaProc Unit :=
  saProcedure r true (.error .spiIndexOob)
    (inState .operational (.error .saNotOperational) fun sa =>
      .ok { sa with gvcid := ⟨0, 0, 0, 0⟩, saState := .keyed })

/-! ## Rekey and expire -/

/-- A copy into an array of the association. -/
def fillField {n : Nat} (field : Buffer Octet n) (octets : List Octet) :
    Except SaError (Buffer Octet n) :=
  match field.write 0 octets with
  | some result => .ok result
  | none => .error .undefined

/-- `n` octets of the data from `count` on, which is a `uint8` where `wraps`. -/
def SaRequest.octets (r : SaRequest) (wraps : Bool) (count n : Nat) : List Octet :=
  (List.range n).map fun x =>
    r.pdu.data.cells.getD (if wraps then (count + x) % 256 else count + x) 0

def rekeySa (r : SaRequest) (sa : SaEntry) : Except SaError SaEntry := do
  let iv ← fillField sa.iv (r.octets false 4 sa.shivfLen.val)
  return { sa with
    ekid := Fin.ofNat (2 ^ 16) (r.octet 2 * 256 + r.octet 3)
    iv := iv
    saState := .keyed }

def saRekey (r : SaRequest) : SaProc Unit :=
  saProcedure r true (.ok ()) (inState .unkeyed (.ok ()) (rekeySa r))

def saExpire (r : SaRequest) : SaProc Unit :=
  saProcedure r true (.ok ())
    (inState .keyed (.ok ()) fun sa => .ok { sa with saState := .unkeyed })

/-! ## Create -/

def encCipherSuite (octet : Nat) : EncCipherSuite :=
  match octet with
  | 0 => .none
  | 1 => .aes256Gcm
  | 2 => .aes256Cbc
  | 3 => .aes256CbcMac
  | 4 => .aes256Ccm
  | 5 => .aes256GcmSiv
  | _ => .unlisted

def authCipherSuite (octet : Nat) : AuthCipherSuite :=
  match octet with
  | 0 => .none
  | 1 => .cmacAes256
  | 2 => .hmacSha256
  | 3 => .hmacSha512
  | _ => .unlisted

/-- The last of the octets a loop stores in one field, if it stores any. -/
def lastStored (octets : List Octet) : Option Nat := octets.getLast?.map BitVec.toNat

def arsnWindow (arsnw arsnwLen : Nat) (octets : List Octet) : Nat :=
  octets.zipIdx.foldl
    (fun arsnw octet => (arsnw ||| octet.1.toNat <<< (arsnwLen - octet.2)) % 2 ^ 16) arsnw

/-- The association configuration of the PDU; `count` is a `uint8`. -/
def createSa (r : SaRequest) (sa : SaEntry) : Except SaError SaEntry := do
  let ecsLen := r.octet 5
  let ecs := lastStored (r.octets true 6 ecsLen)
  let count := (6 + ecsLen) % 256
  let shivfLen := r.octet count % 64
  let count := (count + 1) % 256
  let iv ← fillField sa.iv (r.octets true count shivfLen)
  let count := (count + shivfLen) % 256
  let acsLen := r.octet count
  let count := (count + 1) % 256
  let acs := lastStored (r.octets true count acsLen)
  let count := (count + acsLen) % 256
  -- only the second octet is left of the two
  let abmLen := r.octet (count + 1)
  let count := (count + 2) % 256
  let abm ← fillField sa.abm (r.octets true count abmLen)
  let count := (count + abmLen) % 256
  let arsnLen := r.octet count
  let count := (count + 1) % 256
  let arsn ← fillField sa.arsn (r.octets true count arsnLen)
  let count := (count + arsnLen) % 256
  let arsnwLen := r.octet count
  let count := (count + 1) % 256
  if 32 ≤ arsnwLen then .error .undefined
  else
    return { sa with
      est := decide (128 ≤ r.octet 2)
      ast := decide (64 ≤ r.octet 2 % 128)
      shivfLen := Fin.ofNat 64 shivfLen
      shsnfLen := Fin.ofNat 64 (r.octet 3 / 4)
      shplfLen := Fin.ofNat 4 (r.octet 3)
      stmacfLen := Fin.ofNat 256 (r.octet 4)
      ecsLen := Fin.ofNat 256 ecsLen
      ecs := (ecs.map encCipherSuite).getD sa.ecs
      iv := iv
      acsLen := Fin.ofNat 256 acsLen
      acs := (acs.map authCipherSuite).getD sa.acs
      abmLen := Fin.ofNat (2 ^ 16) abmLen
      abm := abm
      arsnLen := Fin.ofNat 256 arsnLen
      arsn := arsn
      arsnwLen := Fin.ofNat 256 arsnwLen
      arsnw := Fin.ofNat (2 ^ 16) (arsnWindow sa.arsnw.val arsnwLen (r.octets true count arsnwLen))
      saState := .unkeyed }

/-- `sa_verify_data`: the last length that is too large decides. -/
def saVerifyData (sa : SaEntry) : Except SaError Unit :=
  if PAD_SIZE < sa.shplfLen.val then .error .shplfLenGreaterThanMaxPadSize
  else if MAC_SIZE < sa.stmacfLen.val then .error .stmacfLenGreaterThanMaxMacSize
  else if ABM_SIZE < sa.abmLen.val then .error .abmLenGreaterThanMaxAbmSize
  else if ARSN_SIZE < sa.shsnfLen.val then .error .shsnfLenGreaterThanMaxArsnSize
  else if IV_SIZE < sa.shivfLen.val then .error .shivfLenGreaterThanMaxIvSize
  else .ok ()

/-- `temp_sa` is the association itself, which is written before it is verified. -/
def saCreate (r : SaRequest) : SaProc Unit :=
  saProcedure r true (.ok ()) fun i => do
    let sas ← Routine.get
    let sa ← Routine.lift (createSa r (sas i))
    Routine.modify fun sas => Function.update sas i sa
    Routine.lift (saVerifyData sa)

/-! ## Delete -/

def deleteSa (r : SaRequest) (sa : SaEntry) : SaEntry :=
  { sa with
    spi := Fin.ofNat (2 ^ 16) r.spi
    ekid := Fin.ofNat (2 ^ 16) r.spi
    akid := Fin.ofNat (2 ^ 16) r.spi
    saState := .none
    ecsLen := 0
    ecs := .none
    shivfLen := 0
    iv := Buffer.replicate IV_SIZE 0
    ivLen := 0
    abm := Buffer.replicate ABM_SIZE 0
    ekRef := Buffer.replicate REF_SIZE 0
    akRef := Buffer.replicate REF_SIZE 0
    abmLen := 0
    acsLen := 0
    acs := .none
    shsnfLen := 0
    arsnLen := 0
    stmacfLen := 0
    arsn := Buffer.replicate ARSN_SIZE 0 }

def saDelete (r : SaRequest) : SaProc Unit :=
  saProcedure r true (.error .spiIndexOob)
    (inState .unkeyed (.error .error) fun sa => .ok (deleteSa r sa))

/-! ## The procedures of the service group -/

inductive SaProcedure where
  | create
  | rekey
  | start
  | stop
  | expire
  | delete
  deriving DecidableEq

/-- The cases of `Crypto_SG_SA_MGMT` that move associations. -/
def sgSaMgmt (r : SaRequest) : SaProcedure → SaProc Unit
  | .create => saCreate r
  | .rekey => saRekey r
  | .start => saStart r
  | .stop => saStop r
  | .expire => saExpire r
  | .delete => saDelete r

end Nos3.Sdls
