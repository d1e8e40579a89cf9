import Nos3.Sdls.Source.TcRules
import Nos3.Sdls.Source.TcState

/-!
# Hostile frames on the receive path

Five octets are asked for at the start; every later offset comes from the lengths
of the association. The one guard on the computed length catches what wrapped
around below zero, after the header, the MAC and the additional data were read.
-/
namespace Nos3.Sdls
open Nos3.Base
open Nos3.Base.BigEndian (Octet)
open Nos3.Base.Counter
open Nos3.Base.Program

def padField (sa : SecurityAssociation) (current : ManagedParameters) (ingest : List Octet) :
    List Octet :=
  FileImage.window ingest (padIndex sa current) sa.shplfLen

/-- The padding the frame names; only the non-AEAD ciphers pad. -/
def padCount (sa : SecurityAssociation) (current : ManagedParameters) (ingest : List Octet) : Nat :=
  if sa.est && !isAeadAlgorithm sa.ecs then value (padField sa current ingest) else 0

/-- Headers, data, padding and trailer make up the frame. -/
def PduLenTrue (sa : SecurityAssociation) (current : ManagedParameters) (ingest : List Octet)
    (tcPduLen : Nat) : Prop :=
  payloadStart sa current + tcPduLen + padCount sa current ingest + sa.stmacfLen +
    current.fecfLen = ingest.length

/-- No read leaves the frame and the length that comes out is the true one. What the
guard lets through to the decryption is the length with the padding. -/
structure ReceiveSafe (env : TcEnv) (ingest : List Octet) (s : TcState) : Prop where
  inside : ∀ s', processFrame env ingest s ≠ (.error .readBeyondFrame, s')
  guarded : ∀ (sa : SecurityAssociation) (current : ManagedParameters) (fl : Nat),
    fl + 1 = ingest.length → fl < 1024 → pduLength sa current fl ≤ fl →
      payloadStart sa current + pduLength sa current fl + sa.stmacfLen + current.fecfLen =
        ingest.length
  pduLen : ∀ s' current i, processFrame env ingest s = (.ok (), s') →
    receiveParameters env ingest = .ok current → namedSa current ingest s.sas = .ok i →
      PduLenTrue (s.sas i) current ingest s'.frame.tcPduLen

/-- The frame holds the fields of its association. -/
structure FieldsFit (sa : SecurityAssociation) (current : ManagedParameters)
    (ingest : List Octet) : Prop where
  header : (sa.shivfLen : Nat) + sa.shsnfLen + sa.shplfLen = 0 ∨
    payloadStart sa current ≤ ingest.length
  mac : sa.ast = true → macIndex sa current ingest.length ≤ current.maxFrameSize →
    current.fecfLen + sa.stmacfLen ≤ ingest.length
  aad : sa.ast = true → macIndex sa current ingest.length ≤ current.maxFrameSize →
    sa.est = true → isAeadAlgorithm sa.ecs = true → payloadStart sa current ≤ sa.abmLen →
      payloadStart sa current ≤ ingest.length
  pad : sa.est = true → isAeadAlgorithm sa.ecs = false →
    value (padField sa current ingest) = value ((padField sa current ingest).take 1) ∧
      value (padField sa current ingest) ≤ pduLength sa current (ingest.length - 1)

structure FrameFits (env : TcEnv) (ingest : List Octet) (s : TcState) : Prop where
  spi : ∀ current, receiveParameters env ingest = .ok current →
    spiIndex current + 2 ≤ ingest.length
  fields : ∀ current i, receiveParameters env ingest = .ok current →
    namedSa current ingest s.sas = .ok i → FieldsFit (s.sas i) current ingest

/-- Runs that read nothing beyond the frame. -/
abbrev ReadsInside {α : Type} (routine : Tc α) (s : TcState) (post : α → TcState → Prop) : Prop :=
  Ends routine s post fun e _ => e ≠ .readBeyondFrame

/-! ## One step each -/

variable {env : TcEnv} {ingest : List Octet} {sa : SecurityAssociation}
  {current : ManagedParameters} {s : TcState}

theorem frameAt_quiet {offset count : Nat} (h : 0 < count → offset + count ≤ ingest.length) :
    Quiet (frameAt ingest offset count) := by
  rcases Nat.eq_zero_or_pos count with rfl | hpos
  · exact .ok _
  · rw [frameAt_inside (h hpos)]
    exact .ok _

theorem setSegmentHeader_inside (hspi : spiIndex current + 2 ≤ ingest.length) :
    ReadsInside (setSegmentHeader current ingest) s fun byteIdx s' =>
      byteIdx = spiIndex current ∧ s'.current = s.current ∧ s'.sas = s.sas ∧
        s'.frame.header = s.frame.header := by
  refine .ite (fun hseg => ?_) fun hseg => .ret ?_
  · rw [spiIndex, if_pos hseg] at hspi ⊢
    rw [frameOctet_inside (by omega)]
    exact .lift_bind (Quiet.ok _) fun _ _ => .modify_bind (.ret ⟨rfl, rfl, rfl, rfl⟩)
  · rw [spiIndex, if_neg hseg]
    exact ⟨rfl, rfl, rfl, rfl⟩

theorem tcHeader_fl_lt {config : Config} {header : TcHeader}
    (h : tcHeader config ingest = .ok header) : header.fl < 1024 := by
  obtain ⟨_, -, h⟩ := bind_eq_ok.mp h
  obtain ⟨_, -, h⟩ := bind_eq_ok.mp h
  obtain ⟨o2, -, h⟩ := bind_eq_ok.mp h
  obtain ⟨o3, -, h⟩ := bind_eq_ok.mp h
  obtain ⟨_, -, h⟩ := bind_eq_ok.mp h
  cases h
  have hhigh : (o2 &&& 0x03).toNat ≤ 3 := by
    rw [BitVec.toNat_and]
    exact Nat.and_le_right
  have hlow := o3.isLt
  dsimp only
  omega

theorem parseHeaders_inside (hfits : FrameFits env ingest s) :
    ReadsInside (parseHeaders env ingest) s fun i s' =>
      receiveParameters env ingest = .ok s'.current ∧ namedSa s'.current ingest s.sas = .ok i ∧
        s'.sas = s.sas ∧ s'.frame.header.fl + 1 = ingest.length ∧ s'.frame.header.fl < 1024 ∧
        5 ≤ ingest.length := by
  refine .lift_bind (processSanityCheck_quiet _ _) fun _ hsanity => ?_
  obtain ⟨_, -, hfive⟩ := bind_eq_ok.mp hsanity
  rw [guardWith_ok, decide_eq_true_eq] at hfive
  obtain ⟨header, hheader⟩ : ∃ header, tcHeader env.config ingest = .ok header :=
    tcHeader_quiet hfive
  refine .lift_bind (by rw [hheader]; exact Quiet.ok _) fun _ hsame => ?_
  cases hheader.symm.trans hsame
  refine .modify_bind (.lift_bind (Quiet.guardWith (by decide)) fun _ hlength => ?_)
  rw [guardWith_ok, decide_eq_true_eq] at hlength
  refine .lift_bind (getManagedParametersForGvcid_quiet _ _) fun current hcurrent => ?_
  have hparameters : receiveParameters env ingest = .ok current :=
    bind_eq_ok.mpr ⟨header, hheader, hcurrent⟩
  have hspi := hfits.spi current hparameters
  refine .modify_bind (.bind (setSegmentHeader_inside hspi) ?_)
  rintro _ s' ⟨rfl, hcurrent', hsas, hheader'⟩
  have hword := readWord_inside hspi
  refine .lift_bind (by rw [hword]; exact Quiet.ok _) fun spi hread => ?_
  refine .modify_bind (.get_bind (.lift_bind (saGetFromSpi_quiet _ _) fun i hi => ?_))
  refine .lift_bind (validateSa_quiet _ _ _) fun _ _ => .ret ?_
  have hsas' : s'.sas = s.sas := hsas
  refine ⟨?_, ?_, hsas', ?_, ?_, hfive⟩
  · exact hparameters.trans (congrArg _ hcurrent'.symm)
  · have hi' : saGetFromSpi s.sas spi = .ok i := hsas' ▸ hi
    have hcurrent'' : s'.current = current := hcurrent'
    refine bind_eq_ok.mpr ⟨spi, ?_, hi'⟩
    rw [← hread]
    exact congrArg (fun c => readWord ingest (spiIndex c)) hcurrent''
  · exact (congrArg (fun h : TcHeader => h.fl + 1) hheader').trans hlength
  · have hfl : s'.frame.header.fl = header.fl := congrArg TcHeader.fl hheader'
    exact hfl ▸ tcHeader_fl_lt hheader

theorem parseSecurityHeader_inside {config : Config}
    (hfits : (sa.shivfLen : Nat) + sa.shsnfLen + sa.shplfLen = 0 ∨
      payloadStart sa current ≤ ingest.length) :
    ReadsInside (parseSecurityHeader config sa current ingest) s fun _ _ => True := by
  simp only [payloadStart, SecurityAssociation.headerLen] at hfits
  refine .get_bind (.lift_bind (frameAt_quiet fun hpos => by omega) fun _ _ => ?_)
  refine .lift_bind Quiet.copyInto fun _ _ => .modify_bind ?_
  refine .lift_bind (nontransmittedIvIncrement_quiet _ _ _) fun _ _ => .modify_bind ?_
  refine .lift_bind (frameAt_quiet fun hpos => by omega) fun _ _ => ?_
  refine .lift_bind Quiet.copyInto fun _ _ => .modify_bind ?_
  refine .lift_bind (nontransmittedSnIncrement_quiet _ _ _) fun _ _ => .modify_bind ?_
  refine .lift_bind (frameAt_quiet fun hpos => by omega) fun _ _ => ?_
  exact .lift_bind Quiet.copyInto fun _ _ => .modify trivial

theorem subWord_eq {a b : Nat} (hb : b ≤ a) (ha : a < 2 ^ 16) : subWord a b = a - b := by
  rw [subWord]
  bv_omega

theorem prepAad_inside {fl : Nat} (hfl : fl + 1 = ingest.length) (hmax : fl < 1024)
    (hfits : FieldsFit sa current ingest) :
    ReadsInside (prepAad sa current ingest fl) s fun _ _ => True := by
  refine .ite (fun hast => ?_) fun _ => .ret trivial
  refine .lift_bind (Quiet.guardWith (by decide)) fun _ hmac => ?_
  rw [guardWith_ok, decide_eq_true_eq, hfl] at hmac
  have hroom := hfits.mac hast hmac
  have hindex := subWord_eq hroom (by omega)
  rw [hfl]
  refine .lift_bind (frameAt_quiet fun _ => by omega) fun _ _ => .get_bind ?_
  refine .lift_bind Quiet.copyInto fun _ _ => .modify_bind (.lift_bind (Quiet.guardWith (by decide)) ?_)
  intro _ habm
  rw [guardWith_ok, decide_eq_true_eq] at habm
  refine .lift_bind (frameAt_quiet fun _ => ?_) fun _ _ => ?_
  · rw [Nat.zero_add]
    split
    · rename_i haead
      rw [if_pos haead] at habm
      rw [Bool.and_eq_true] at haead
      exact hfits.aad hast hmac haead.1 haead.2 habm
    · omega
  · exact .lift (fun _ _ => trivial) (prepareTcAad_quiet _ _)

/-- What passes the guard has not wrapped around. -/
theorem pduLength_guarded {fl : Nat} (hmax : fl < 1024) (h : pduLength sa current fl ≤ fl) :
    payloadStart sa current + pduLength sa current fl + sa.stmacfLen + current.fecfLen =
      fl + 1 := by
  have hshivf := sa.shivfLen.isLt
  have hshsnf := sa.shsnfLen.isLt
  have hshplf := sa.shplfLen.isLt
  have hstmacf := sa.stmacfLen.isLt
  have hsegment : current.segmentHdrLen ≤ 1 := by
    rw [ManagedParameters.segmentHdrLen]
    split <;> decide
  have hfecf : current.fecfLen ≤ 2 := by
    rw [ManagedParameters.fecfLen]
    split <;> decide
  have htaken : payloadStart sa current + sa.stmacfLen + current.fecfLen < 1024 := by
    simp only [payloadStart, SecurityAssociation.headerLen, TC_FRAME_HEADER_SIZE, SPI_LEN]
    omega
  change subWord (fl + 1) (payloadStart sa current + sa.stmacfLen + current.fecfLen) ≤ fl at h
  change payloadStart sa current +
    subWord (fl + 1) (payloadStart sa current + sa.stmacfLen + current.fecfLen) + _ + _ = _
  rcases Nat.lt_or_ge (fl + 1) (payloadStart sa current + sa.stmacfLen + current.fecfLen) with
    hover | hunder
  · rw [subWord] at h
    bv_omega
  · rw [subWord_eq hunder (by omega)]
    omega

theorem writePdu_inside (reply : CryptoReply) :
    ReadsInside (writePdu reply) s fun _ s' => s'.frame.tcPduLen = s.frame.tcPduLen :=
  .get_bind (.lift_bind Quiet.copyInto fun _ _ => .modify rfl)

theorem callCryptography_inside (primitive : Primitive) (request : CryptoRequest) :
    ReadsInside (callCryptography env primitive request) s fun _ s' => s'.frame = s.frame := by
  rw [callCryptography]
  split
  · exact fun h => by cases h
  · exact .modify_bind (.ret rfl)

theorem callStatus_inside (primitive : Primitive) (request : CryptoRequest) :
    ReadsInside (callStatus env primitive request) s fun status s' =>
      Quiet status ∧ s'.frame.tcPduLen = s.frame.tcPduLen := by
  have hcall : Ends (Routine.attempt (callCryptography env primitive request)) s
      (fun status s' => Quiet status ∧ s'.frame = s.frame) fun e _ => e ≠ .readBeyondFrame := by
    refine .attempt ?_
    rw [callCryptography]
    split
    · exact ⟨.error (fun h => by cases h), rfl⟩
    · exact ⟨.ok _, rfl⟩
  refine .bind hcall ?_
  rintro (code | reply) s' ⟨hquiet, hframe⟩
  · exact .ret ⟨.error (hquiet code rfl), by rw [hframe]⟩
  · refine .bind (writePdu_inside reply) fun _ s'' hlen => .ret ⟨.ok _, ?_⟩
    rw [hlen, hframe]

theorem validateMac_inside (request : CryptoRequest) (akp : Option CryptoKey) :
    ReadsInside (validateMac env sa request akp) s fun status s' =>
      Quiet status ∧ s'.frame.tcPduLen = s.frame.tcPduLen :=
  .ite (fun _ => .lift_bind (checkKeylen_quiet _ _ _) fun _ _ => callStatus_inside _ _)
    fun _ => .ret ⟨.ok _, rfl⟩

theorem value_singleton (octet : Octet) : value [octet] = octet.toNat := by simp [value]

/-- The length field of the padding has been read before. -/
theorem removePadding_inside (hpad : (sa.shplfLen : Nat) ≠ 0 → padIndex sa current < ingest.length)
    (hcount : value (padField sa current ingest) = value ((padField sa current ingest).take 1))
    (hle : value (padField sa current ingest) ≤ s.frame.tcPduLen)
    (hmax : s.frame.tcPduLen < 2 ^ 16) :
    ReadsInside (removePadding sa current.segmentHdrLen ingest) s fun _ s' =>
      s'.frame.tcPduLen + value (padField sa current ingest) = s.frame.tcPduLen := by
  refine .ite (fun hpos => ?_) fun hnone => .ret ?_
  · have hinside := hpad hpos
    have hfirst : (padField sa current ingest).take 1 = [ingest[padIndex sa current]] := by
      rw [padField, FileImage.window, List.take_take, Nat.min_eq_left (by omega),
        List.drop_eq_getElem_cons hinside]
      rfl
    rw [hfirst, value_singleton] at hcount
    have hoctet : frameOctet ingest (TC_FRAME_HEADER_SIZE + current.segmentHdrLen + SPI_LEN +
        sa.shivfLen + sa.shsnfLen) = .ok ingest[padIndex sa current] := frameOctet_inside hinside
    dsimp only
    rw [hoctet]
    refine .lift_bind (Quiet.ok _) fun octet hsame => .modify ?_
    cases hsame
    change subWord s.frame.tcPduLen ingest[padIndex sa current].toNat + _ = _
    rw [subWord_eq (by omega) hmax]
    omega
  · have hzero : (sa.shplfLen : Nat) = 0 := by simpa using hnone
    rw [padField, hzero]
    rfl

theorem doDecrypt_inside {aad : List Octet} {ekp akp : Option CryptoKey} {fl : Nat}
    (hfl : fl + 1 = ingest.length) (hmax : fl < 1024) (hguard : pduLength sa current fl ≤ fl)
    (hlen : s.frame.tcPduLen = pduLength sa current fl) (hfits : FieldsFit sa current ingest) :
    ReadsInside (doDecrypt env sa current ingest (payloadStart sa current) aad ekp akp) s
      fun _ s' => PduLenTrue sa current ingest s'.frame.tcPduLen := by
  have htrue := pduLength_guarded hmax hguard
  have hfull : padCount sa current ingest = 0 →
      ∀ s' : TcState, s'.frame.tcPduLen = s.frame.tcPduLen →
        PduLenTrue sa current ingest s'.frame.tcPduLen := by
    intro hnone s' hsame
    rw [PduLenTrue, hnone, hsame, hlen]
    omega
  refine .get_bind (.lift_bind (frameAt_quiet fun _ => by omega) fun input _ => ?_)
  refine .ite (fun hplain => ?_) fun _ => .lift_bind (requestBase_quiet _ _ _ _) fun request _ => ?_
  · refine (writePdu_inside _).mono fun _ s' hsame => hfull ?_ s' hsame
    have hest : sa.est = false := by
      cases hest : sa.est with
      | false => rfl
      | true => cases hast : sa.ast <;> simp [SecurityAssociation.serviceType, hest, hast] at hplain
    simp [padCount, hest]
  · refine .ite (fun haead => ?_) fun haead => ?_
    · refine .lift_bind (checkKeylen_quiet _ _ _) fun _ _ => ?_
      refine .bind (callCryptography_inside _ _) fun reply s' hframe => ?_
      refine (writePdu_inside reply).mono fun _ s'' hsame => hfull (by simp [padCount, haead]) s'' ?_
      rw [hsame, hframe]
    · refine .bind (validateMac_inside _ _) fun validated s' hvalidated => ?_
      refine .ite (fun hest => ?_) fun hest => .lift (fun _ _ => ?_) hvalidated.1
      · obtain ⟨hcount, hle⟩ := hfits.pad hest (by simpa using haead)
        have hfl' : ingest.length - 1 = fl := by omega
        rw [hfl'] at hle
        refine .lift_bind (checkKeylen_quiet _ _ _) fun _ _ => ?_
        refine .bind (callStatus_inside _ _) fun decrypted s'' hdecrypted => ?_
        have hsame : s''.frame.tcPduLen = pduLength sa current fl := by
          rw [hdecrypted.2, hvalidated.2, hlen]
        refine .bind (removePadding_inside ?_ hcount (by omega) (by omega)) fun _ t hremoved => ?_
        · intro hpos
          have hroom := hfits.header.resolve_left (by omega)
          simp only [payloadStart, SecurityAssociation.headerLen] at hroom
          simp only [padIndex]
          omega
        · refine .lift (fun _ _ => ?_) hdecrypted.1
          have hpadding : padCount sa current ingest = value (padField sa current ingest) := by
            simp [padCount, hest, haead]
          rw [PduLenTrue, hpadding]
          omega
      · refine hfull ?_ s' hvalidated.2
        simp [padCount, hest]

theorem checkIvArsn_inside (config : Config) (i : Fin NUM_SA) :
    ReadsInside (checkIvArsn config i) s fun _ s' => s'.frame = s.frame := by
  refine .ite (fun _ => .ret rfl) fun _ => .get_bind ?_
  exact .modify_bind (.lift (fun _ _ => rfl) (checkAntiReplay_quiet _ _ _ _))

/-! ## The whole function -/

theorem processFrame_inside (hfits : FrameFits env ingest s) :
    ReadsInside (processFrame env ingest) s fun _ s' => ∀ current i,
      receiveParameters env ingest = .ok current → namedSa current ingest s.sas = .ok i →
        PduLenTrue (s.sas i) current ingest s'.frame.tcPduLen := by
  refine .bind (parseHeaders_inside hfits) fun i s' hparsed => .get_bind ?_
  obtain ⟨hcurrent, hnamed, hsas, hfl, hmax, hfive⟩ := hparsed
  have hfields := hfits.fields s'.current i hcurrent hnamed
  rw [← hsas] at hfields
  refine .lift_bind (parseCheckFecf_quiet hfl hfive) fun _ _ => ?_
  refine .bind (parseSecurityHeader_inside hfields.header) fun _ _ _ => ?_
  refine .bind (prepAad_inside hfl hmax hfields) fun aad t _ => .modify_bind ?_
  refine .lift_bind (Quiet.guardWith (by decide)) fun _ hguard => ?_
  rw [guardWith_ok, decide_eq_true_eq] at hguard
  refine .lift_bind (getKeys_quiet _ _) fun keys _ => ?_
  refine .bind (doDecrypt_inside hfl hmax hguard rfl hfields) fun _ _ htrue => ?_
  refine (checkIvArsn_inside _ _).mono fun _ t' hframe current j hcurrent' hnamed' => ?_
  cases hcurrent.symm.trans hcurrent'
  cases hnamed.symm.trans hnamed'
  rw [hframe, ← hsas]
  exact htrue

/-- `sa[1]`: no service, no fields but the SPI. -/
def clearSa : SecurityAssociation :=
  { blankSa 1 with
    saState := .operational
    gvcid := ⟨0, 3, 0, 0⟩
    arsnw := 5 }

/-- Two octets of data in the clear. -/
def clearFrame : List Octet := [0x20, 0x03, 0x00, 0x09, 0x00, 0x00, 0x00, 0x01, 0xC0, 0xDE]

end Nos3.Sdls
