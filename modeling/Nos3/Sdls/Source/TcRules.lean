import Nos3.Sdls.Source.CounterRules
import Nos3.Sdls.Source.TcApply
import Nos3.Sdls.Source.TcProcess

/-!
# Rules for the TC functions

What each step needs and keeps: checks and reads taken apart, the output frame
keeps its length, and the association table is left alone by everything before
the counters are moved.
-/
namespace Nos3.Sdls
open Nos3.Base.BigEndian (Octet)
open Nos3.Base.Counter
open Nos3.Base.FixedArray
open Nos3.Base
open Nos3.Base.Program

theorem guardWith_ok {condition : Bool} {code : Error} :
    guardWith condition code = .ok () ↔ condition = true := by
  cases condition <;> simp [guardWith]

theorem guardWith_error {condition : Bool} {code e : Error} :
    guardWith condition code = .error e ↔ condition = false ∧ e = code := by
  cases condition <;> simp [guardWith, eq_comm]

theorem frameAt_length {frame octets : List Octet} {offset count : Nat}
    (h : frameAt frame offset count = .ok octets) : octets.length = count := by
  rw [frameAt] at h
  split at h
  · cases h
    simp_all
  · split at h
    · cases h
      exact readAt_length ‹_›
    · cases h

theorem frameAt_inside {frame : List Octet} {offset count : Nat}
    (h : offset + count ≤ frame.length) :
    frameAt frame offset count = .ok (FileImage.window frame offset count) := by
  rw [frameAt]
  split
  · rename_i hzero
    simp [hzero, FileImage.window]
  · rw [readAt_eq_some h]

theorem octetsAt_inside {cells : List Octet} {offset count : Nat}
    (h : offset + count ≤ cells.length) :
    octetsAt cells offset count = .ok (FileImage.window cells offset count) := by
  rw [octetsAt, readAt_eq_some h]

theorem pokeAt_cases {frame frame' octets : List Octet} {offset : Nat}
    (h : pokeAt frame offset octets = .ok frame') :
    offset + octets.length ≤ frame.length ∧ frame' = patch frame offset octets := by
  rw [pokeAt] at h
  split at h
  · cases h
    exact ⟨‹_›, rfl⟩
  · cases h

theorem pokeAt_length {frame frame' octets : List Octet} {offset : Nat}
    (h : pokeAt frame offset octets = .ok frame') : frame'.length = frame.length := by
  obtain ⟨hroom, rfl⟩ := pokeAt_cases h
  exact patch_length hroom

/-! ## The output frame -/

theorem setFrameLength_length {frame frame' : List Octet} {length : Nat}
    (h : setFrameLength frame length = .ok frame') : frame'.length = frame.length := by
  obtain ⟨o2, -, h⟩ := bind_eq_ok.mp h
  obtain ⟨mid, hmid, h⟩ := bind_eq_ok.mp h
  exact (pokeAt_length h).trans (pokeAt_length hmid)

theorem calcFrameSetup_cases {sa : SecurityAssociation} {current : ManagedParameters}
    {header : TcHeader} {setup : FrameSetup} (h : calcFrameSetup sa current header = .ok setup) :
    let taken := TC_FRAME_HEADER_SIZE + current.segmentHdrLen + current.ocfLen + current.fecfLen
    ∃ cipher, getCipherModeTca sa = .ok cipher ∧
      ((cipher = .aes256Cbc ∨ cipher = .aes256CbcMac) → 0 < (sa.shplfLen : Nat)) ∧
      taken ≤ header.fl + 1 ∧
      setup = ⟨current.segmentHdrLen, header.fl + 1 - taken,
        encPadding sa (header.fl + 1 - taken),
        header.fl + 1 + sa.headerLen + sa.stmacfLen + current.ocfLen +
          encPadding sa (header.fl + 1 - taken)⟩ ∧
      TC_MIN_FRAME_SIZE ≤ setup.encFrameLen ∧ setup.encFrameLen ≤ 1024 := by
  obtain ⟨cipher, hcipher, h⟩ := bind_eq_ok.mp h
  obtain ⟨⟨⟩, hpad, h⟩ := bind_eq_ok.mp h
  obtain ⟨⟨⟩, htaken, h⟩ := bind_eq_ok.mp h
  obtain ⟨-, -, h⟩ := bind_eq_ok.mp h
  obtain ⟨⟨⟩, hvalid, h⟩ := bind_eq_ok.mp h
  obtain ⟨⟨⟩, hmin, hvalid⟩ := bind_eq_ok.mp hvalid
  obtain ⟨⟨⟩, -, hmax⟩ := bind_eq_ok.mp hvalid
  rw [guardWith_ok, decide_eq_true_eq] at htaken hmin hmax
  rw [guardWith_ok, Bool.not_eq_true'] at hpad
  cases h
  refine ⟨cipher, hcipher, ?_, htaken, rfl, hmin, hmax⟩
  intro hcbc
  by_contra hzero
  have hlen : (sa.shplfLen : Nat) = 0 := by omega
  rcases hcbc with rfl | rfl <;> simp [hlen] at hpad

theorem checkIvSetup_length {config : Config} {sa : SecurityAssociation}
    {frame frame' : List Octet} {index index' : Nat}
    (h : checkIvSetup config sa frame index = .ok (frame', index')) :
    frame'.length = frame.length := by
  rw [checkIvSetup] at h
  split at h
  · obtain ⟨_, -, h⟩ := bind_eq_ok.mp h
    obtain ⟨mid, hmid, h⟩ := bind_eq_ok.mp h
    cases h
    exact pokeAt_length hmid
  · split at h
    · cases h
      rfl
    · split at h
      · cases h
        rfl
      · cases h

theorem buildFrame_length {config : Config} {sa : SecurityAssociation}
    {current : ManagedParameters} {setup : FrameSetup} {inFrame frame : List Octet} {index : Nat}
    (h : buildFrame config sa current setup inFrame = .ok (frame, index)) :
    frame.length = setup.encFrameLen := by
  obtain ⟨_, -, h⟩ := bind_eq_ok.mp h
  obtain ⟨f1, h1, h⟩ := bind_eq_ok.mp h
  obtain ⟨f2, h2, h⟩ := bind_eq_ok.mp h
  obtain ⟨f3, h3, h⟩ := bind_eq_ok.mp h
  obtain ⟨-, -, h⟩ := bind_eq_ok.mp h
  obtain ⟨⟨f4, i4⟩, h4, h⟩ := bind_eq_ok.mp h
  obtain ⟨_, -, h⟩ := bind_eq_ok.mp h
  obtain ⟨f5, h5, h⟩ := bind_eq_ok.mp h
  obtain ⟨f6, h6, h⟩ := bind_eq_ok.mp h
  obtain ⟨_, -, h⟩ := bind_eq_ok.mp h
  obtain ⟨f7, h7, h⟩ := bind_eq_ok.mp h
  obtain ⟨f8, h8, h⟩ := bind_eq_ok.mp h
  cases h
  rw [pokeAt_length h8, pokeAt_length h7, pokeAt_length h6, pokeAt_length h5,
    checkIvSetup_length h4,
    pokeAt_length h3, setFrameLength_length h2, pokeAt_length h1, List.length_replicate]

theorem writeReply_length {frame frame' : List Octet} {index : Nat} {macLoc : Option Nat}
    {reply : CryptoReply} (h : writeReply frame index macLoc reply = .ok frame') :
    frame'.length = frame.length := by
  obtain ⟨mid, hmid, h⟩ := bind_eq_ok.mp h
  split at h
  · cases h
    exact pokeAt_length hmid
  · exact (pokeAt_length h).trans (pokeAt_length hmid)
  · cases h

/-! ## What is left alone -/

section Keeps
variable {env : TcEnv}

abbrev KeepsSas {α : Type} (routine : Tc α) : Prop := Preserves TcState.sas routine

theorem callCryptography_keeps (primitive : Primitive) (request : CryptoRequest) :
    KeepsSas (callCryptography env primitive request) := by
  rw [callCryptography]
  split
  · exact .fail _
  · exact .bind (.modify fun _ => rfl) fun _ => .ret _

theorem setFrame_keeps (f : TcFrame → TcFrame) :
    KeepsSas (Routine.modify (·.setFrame f) : Tc Unit) := .modify fun _ => rfl

theorem validateTcTempHeader_keeps (inFrame : List Octet) (header : TcHeader) :
    KeepsSas (validateTcTempHeader env inFrame header) := by
  refine .bind (.lift _) fun _ => .bind (.lift _) fun current => .bind (.modify fun _ => rfl) fun _ => ?_
  refine .bind (.lift _) fun _ => .bind (.lift _) fun _ => .bind .get fun _ => ?_
  exact .bind (.lift _) fun _ => .bind (.lift _) fun _ => .ret _

theorem tcEncrypt_keeps (sa : SecurityAssociation) (setup : FrameSetup) (inFrame frame : List Octet)
    (index : Nat) : KeepsSas (tcEncrypt env sa setup inFrame frame index) := by
  refine .bind (.lift _) fun _ => .bind (.lift _) fun _ => .ite (.ret _) ?_
  refine .bind (.lift _) fun _ => .bind (.lift _) fun call => ?_
  cases call with
  | none => exact .ret _
  | some call => exact .bind (callCryptography_keeps _ _) fun _ => .lift _

theorem setSegmentHeader_keeps (current : ManagedParameters) (ingest : List Octet) :
    KeepsSas (setSegmentHeader current ingest) :=
  .ite (.bind (.lift _) fun _ => .bind (setFrame_keeps _) fun _ => .ret _) (.ret _)

theorem parseHeaders_keeps (ingest : List Octet) : KeepsSas (parseHeaders env ingest) := by
  refine .bind (.lift _) fun _ => .bind (.lift _) fun _ => .bind (setFrame_keeps _) fun _ => ?_
  refine .bind (.lift _) fun _ => .bind (.lift _) fun _ => .bind (.modify fun _ => rfl) fun _ => ?_
  refine .bind (setSegmentHeader_keeps _ _) fun _ => .bind (.lift _) fun _ => ?_
  refine .bind (setFrame_keeps _) fun _ => .bind .get fun _ => ?_
  exact .bind (.lift _) fun _ => .bind (.lift _) fun _ => .ret _

theorem parseSecurityHeader_keeps (config : Config) (sa : SecurityAssociation)
    (current : ManagedParameters) (ingest : List Octet) :
    KeepsSas (parseSecurityHeader config sa current ingest) := by
  refine .bind .get fun _ => .bind (.lift _) fun _ => .bind (.lift _) fun _ => ?_
  refine .bind (setFrame_keeps _) fun _ => .bind (.lift _) fun _ => .bind (setFrame_keeps _) fun _ => ?_
  refine .bind (.lift _) fun _ => .bind (.lift _) fun _ => .bind (setFrame_keeps _) fun _ => ?_
  refine .bind (.lift _) fun _ => .bind (setFrame_keeps _) fun _ => .bind (.lift _) fun _ => ?_
  exact .bind (.lift _) fun _ => setFrame_keeps _

theorem prepAad_keeps (sa : SecurityAssociation) (current : ManagedParameters)
    (ingest : List Octet) (fl : Nat) : KeepsSas (prepAad sa current ingest fl) := by
  refine .ite ?_ (.ret _)
  refine .bind (.lift _) fun _ => .bind (.lift _) fun _ => .bind .get fun _ => ?_
  refine .bind (.lift _) fun _ => .bind (setFrame_keeps _) fun _ => .bind (.lift _) fun _ => ?_
  exact .bind (.lift _) fun _ => .lift _

theorem writePdu_keeps (reply : CryptoReply) : KeepsSas (writePdu reply) :=
  .bind .get fun _ => .bind (.lift _) fun _ => setFrame_keeps _

theorem removePadding_keeps (sa : SecurityAssociation) (segmentHdrLen : Nat)
    (ingest : List Octet) : KeepsSas (removePadding sa segmentHdrLen ingest) :=
  .ite (.bind (.lift _) fun _ => setFrame_keeps _) (.ret _)

theorem aeadDecrypt_keeps (sa : SecurityAssociation) (request : CryptoRequest)
    (ekp : Option CryptoKey) : KeepsSas (aeadDecrypt env sa request ekp) :=
  .bind (.lift _) fun _ => .bind (callCryptography_keeps _ _) fun _ => writePdu_keeps _

theorem callStatus_keeps (primitive : Primitive) (request : CryptoRequest) :
    KeepsSas (callStatus env primitive request) := by
  refine .bind (.attempt (callCryptography_keeps _ _)) fun status => ?_
  cases status with
  | error code => exact .ret _
  | ok reply => exact .bind (writePdu_keeps _) fun _ => .ret _

theorem validateMac_keeps (sa : SecurityAssociation) (request : CryptoRequest)
    (akp : Option CryptoKey) : KeepsSas (validateMac env sa request akp) :=
  .ite (.bind (.lift _) fun _ => callStatus_keeps _ _) (.ret _)

theorem decryptPayload_keeps (sa : SecurityAssociation) (segmentHdrLen : Nat)
    (ingest : List Octet) (request : CryptoRequest) (ekp : Option CryptoKey)
    (validated : Except Error Unit) :
    KeepsSas (decryptPayload env sa segmentHdrLen ingest request ekp validated) := by
  refine .ite ?_ (.lift _)
  exact .bind (.lift _) fun _ => .bind (callStatus_keeps _ _) fun _ =>
    .bind (removePadding_keeps _ _ _) fun _ => .lift _

theorem doDecrypt_keeps (sa : SecurityAssociation) (current : ManagedParameters)
    (ingest : List Octet) (start : Nat) (aad : List Octet) (ekp akp : Option CryptoKey) :
    KeepsSas (doDecrypt env sa current ingest start aad ekp akp) := by
  refine .bind .get fun s => .bind (.lift _) fun input => .ite (writePdu_keeps _) ?_
  refine .bind (.lift _) fun request => .ite (aeadDecrypt_keeps _ _ _) ?_
  exact .bind (validateMac_keeps _ _ _) fun _ => decryptPayload_keeps _ _ _ _ _ _

end Keeps

end Nos3.Sdls

/-!
## Where the receiver can read beyond the frame

Only the reads of the frame itself can; the rest fails with codes of its own.
`Quiet` says that of a result, `ReadsInside` of a routine with what it reaches.
-/
namespace Nos3.Sdls
open Nos3.Base
open Nos3.Base.BigEndian (Octet)
open Nos3.Base.FixedArray
open Nos3.Base.Program

/-! ## Results that are not reads -/

def Quiet {α : Type} (result : Except Error α) : Prop :=
  ∀ e, result = .error e → e ≠ .readBeyondFrame

section Quiet
variable {α β : Type}

theorem Quiet.ok (a : α) : Quiet (.ok a : Except Error α) := fun _ h => by cases h

theorem Quiet.error {code : Error} (h : code ≠ .readBeyondFrame) :
    Quiet (.error code : Except Error α) := by
  intro e he
  cases he
  exact h

theorem Quiet.bind {first : Except Error α} {next : α → Except Error β} (hfirst : Quiet first)
    (hnext : ∀ a, Quiet (next a)) : Quiet (first >>= next) := by
  intro e h
  obtain herror | ⟨a, -, herror⟩ := bind_eq_error.mp h
  · exact hfirst e herror
  · exact hnext a e herror

theorem Quiet.ite {condition : Prop} [Decidable condition] {yes no : Except Error α}
    (hyes : Quiet yes) (hno : Quiet no) : Quiet (if condition then yes else no) := by
  split
  · exact hyes
  · exact hno

theorem Quiet.guardWith {condition : Bool} {code : Error} (h : code ≠ .readBeyondFrame) :
    Quiet (guardWith condition code) :=
  .ite (.ok _) (.error h)

theorem Quiet.octetsAt {cells : List Octet} {offset count : Nat} :
    Quiet (octetsAt cells offset count) := by
  rw [Sdls.octetsAt]
  split
  · exact .ok _
  · exact .error (by decide)

theorem Quiet.copyInto {n : Nat} {buffer : Buffer Octet n} {offset : Nat} {octets : List Octet} :
    Quiet (copyInto buffer offset octets) := by
  rw [Sdls.copyInto]
  split
  · exact .ok _
  · exact .error (by decide)

end Quiet

theorem processSanityCheck_quiet (config : Config) (ingest : List Octet) :
    Quiet (processSanityCheck config ingest) :=
  .bind (.guardWith (by decide)) fun _ => .guardWith (by decide)

theorem getManagedParametersForGvcid_quiet (env : TcEnv) (header : TcHeader) :
    Quiet (getManagedParametersForGvcid env header) := by
  refine .ite (.error (by decide)) ?_
  split
  · exact .ok _
  · exact .error (by decide)

theorem saGetFromSpi_quiet (sas : SaTable) (spi : Nat) : Quiet (saGetFromSpi sas spi) := by
  rw [saGetFromSpi]
  split
  · refine .ite (.error (by decide)) (.ite (.error (by decide)) (.ite (.error (by decide)) (.ok _)))
  · exact .error (by decide)

theorem validateSa_quiet (config : Config) (sas : SaTable) (i : Fin NUM_SA) :
    Quiet (validateSa config sas i) := by
  refine .bind (.ite (.error (by decide)) (.guardWith (by decide))) fun _ => ?_
  refine .bind (.guardWith (by decide)) fun _ => .bind (.guardWith (by decide)) fun _ => ?_
  refine .bind (.guardWith (by decide)) fun _ => .bind (.guardWith (by decide)) fun _ => ?_
  exact .bind (.guardWith (by decide)) fun _ => .guardWith (by decide)

theorem handleIncrementingNontransmittedCounter_quiet {n : Nat} (dest : Buffer Octet n)
    (src : List Octet) (srcFullLen transmittedLen window : Nat) :
    Quiet (handleIncrementingNontransmittedCounter dest src srcFullLen transmittedLen window) := by
  refine .ite (.error (by decide)) (.bind .octetsAt fun _ => .ite .copyInto ?_)
  refine .bind .octetsAt fun _ => ?_
  split
  · exact .copyInto
  · exact .error (by decide)

theorem nontransmittedIvIncrement_quiet (config : Config) (sa : SecurityAssociation)
    (iv : Buffer Octet IV_SIZE) : Quiet (nontransmittedIvIncrement config sa iv) :=
  .ite (handleIncrementingNontransmittedCounter_quiet _ _ _ _ _)
    (.bind .octetsAt fun _ => .copyInto)

theorem nontransmittedSnIncrement_quiet (config : Config) (sa : SecurityAssociation)
    (sn : Buffer Octet SN_SIZE) : Quiet (nontransmittedSnIncrement config sa sn) :=
  .ite (handleIncrementingNontransmittedCounter_quiet _ _ _ _ _)
    (.bind .octetsAt fun _ => .copyInto)

theorem prepareTcAad_quiet (octets : List Octet) (abm : Buffer Octet ABM_SIZE) :
    Quiet (prepareTcAad octets abm) := .bind .octetsAt fun _ => .ok _

theorem checkedKey_quiet (used : Bool) (key : Option CryptoKey) : Quiet (checkedKey used key) := by
  refine .ite ?_ (.ok _)
  cases key with
  | none => exact .error (by decide)
  | some key => exact .guardWith (by decide)

theorem getKeys_quiet (env : TcEnv) (sa : SecurityAssociation) : Quiet (getKeys env sa) :=
  .ite (.ok _) (.bind (checkedKey_quiet _ _) fun _ => .bind (checkedKey_quiet _ _) fun _ => .ok _)

theorem checkKeylen_quiet (config : Config) (key : Option CryptoKey) (keylen : Option Nat) :
    Quiet (checkKeylen config key keylen) := by
  refine .ite (.ok _) ?_
  cases key with
  | none => exact .error (by decide)
  | some key => exact .guardWith (by decide)

theorem requestBase_quiet (sa : SecurityAssociation) (frame : TcFrame) (input aad : List Octet) :
    Quiet (requestBase sa frame input aad) := .bind .octetsAt fun _ => .ok _

theorem window_quiet (actual expected : List Octet) (length count : Nat) :
    Quiet (window actual expected length count) :=
  .bind .octetsAt fun _ => .bind .octetsAt fun _ => .ite (.ok _) (.ok _)

theorem checkAntiReplayArsnw_quiet (sa : SecurityAssociation) (arsn : List Octet) :
    Quiet (checkAntiReplayArsnw sa arsn).1 := by
  rw [checkAntiReplayArsnw]
  split
  · split
    · rename_i fault hwindow
      exact .error (window_quiet _ _ _ _ fault hwindow)
    · exact .error (by decide)
    · exact .ok _
  · exact .ok _

theorem ivWindow_quiet (config : Config) (sa : SecurityAssociation) (iv : List Octet) :
    Quiet (ivWindow config sa iv) :=
  .ite (window_quiet _ _ _ _) (.ite (.error (by decide)) (window_quiet _ _ _ _))

theorem checkAntiReplayGcm_quiet (config : Config) (sa : SecurityAssociation) (iv : List Octet) :
    Quiet (checkAntiReplayGcm config sa iv).1 := by
  rw [checkAntiReplayGcm]
  split
  · split
    · exact .error (by decide)
    · dsimp only
      rw [← ivWindow]
      split
      · rename_i fault hwindow
        exact .error (ivWindow_quiet config sa iv fault hwindow)
      · exact .error (by decide)
      · exact .ok _
  · exact .ok _

theorem storeIv_quiet (sa : SecurityAssociation) (iv : List Octet) : Quiet (storeIv sa iv) :=
  .bind .octetsAt fun _ => .bind .copyInto fun _ => .ok _

theorem storeArsn_quiet (sa : SecurityAssociation) (arsn : List Octet) : Quiet (storeArsn sa arsn) :=
  .bind .octetsAt fun _ => .bind .copyInto fun _ => .ok _

theorem storeCounters_quiet (sa : SecurityAssociation) (arsn iv : List Octet)
    (arsnValid ivValid : Bool) : Quiet (storeCounters sa arsn iv arsnValid ivValid) := by
  refine .ite (.ite (.ok _) (.ite (.ite ?_ (.ok _)) (storeIv_quiet _ _))) (.ite ?_ (.ok _))
  · exact .bind (storeIv_quiet _ _) fun _ => storeArsn_quiet _ _
  · exact storeArsn_quiet _ _

theorem checkAntiReplay_quiet (config : Config) (sa : SecurityAssociation) (arsn iv : List Octet) :
    Quiet (checkAntiReplay config sa arsn iv).1 := by
  rw [checkAntiReplay]
  rcases harsn : checkAntiReplayArsnw sa arsn with ⟨status, arsnValid⟩
  have hstatus := checkAntiReplayArsnw_quiet sa arsn
  rw [harsn] at hstatus
  cases status with
  | error code =>
    dsimp only
    split
    · exact hstatus
    · rename_i fault hstore
      exact .error (storeCounters_quiet _ _ _ _ _ fault hstore)
  | ok _ =>
    dsimp only
    split
    · exact checkAntiReplayGcm_quiet config sa iv
    · rename_i fault hstore
      exact .error (storeCounters_quiet _ _ _ _ _ fault hstore)

/-! ## What the receiver takes from a frame -/

def receiveParameters (env : TcEnv) (ingest : List Octet) : Except Error ManagedParameters := do
  let header ← tcHeader env.config ingest
  getManagedParametersForGvcid env header

def spiIndex (current : ManagedParameters) : Nat :=
  TC_FRAME_HEADER_SIZE + if current.hasSegmentationHdr = .tcHasSegmentHdrs then 1 else 0

/-- The association of the frame's SPI. -/
def namedSa (current : ManagedParameters) (ingest : List Octet) (sas : SaTable) :
    Except Error (Fin NUM_SA) := do
  let spi ← readWord ingest (spiIndex current)
  saGetFromSpi sas spi

def payloadStart (sa : SecurityAssociation) (current : ManagedParameters) : Nat :=
  TC_FRAME_HEADER_SIZE + current.segmentHdrLen + sa.headerLen

def padIndex (sa : SecurityAssociation) (current : ManagedParameters) : Nat :=
  TC_FRAME_HEADER_SIZE + current.segmentHdrLen + SPI_LEN + sa.shivfLen + sa.shsnfLen

def macIndex (sa : SecurityAssociation) (current : ManagedParameters) (length : Nat) : Nat :=
  subWord length (current.fecfLen + sa.stmacfLen)

theorem frameOctet_inside {frame : List Octet} {offset : Nat} (h : offset < frame.length) :
    frameOctet frame offset = .ok frame[offset] := by
  rw [frameOctet, List.getElem?_eq_getElem h]

theorem tcHeader_quiet {config : Config} {ingest : List Octet} (h : 5 ≤ ingest.length) :
    ∃ header, tcHeader config ingest = .ok header := by
  match ingest, h with
  | _ :: _ :: _ :: _ :: _ :: _, _ => exact ⟨_, rfl⟩

theorem readWord_inside {ingest : List Octet} {offset : Nat} (h : offset + 2 ≤ ingest.length) :
    readWord ingest offset = .ok (ingest[offset].toNat * 256 + ingest[offset + 1].toNat) := by
  rw [readWord, frameOctet_inside (by omega), frameOctet_inside (by omega)]
  rfl

theorem parseCheckFecf_quiet {config : Config} {current : ManagedParameters} {ingest : List Octet}
    {fl : Nat} (hfl : fl + 1 = ingest.length) (h : 5 ≤ ingest.length) :
    Quiet (parseCheckFecf config current ingest fl) := by
  refine .ite (.bind ?_ fun _ => .ite (.guardWith (by decide)) (.ok _)) (.ok _)
  rw [readWord_inside (by omega)]
  exact .ok _

end Nos3.Sdls
