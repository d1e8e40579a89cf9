import Nos3.Cf.Guarantees.DecoderSafety
import Nos3.Cf.Source.DecodeStable

/-!
# Octets beyond the PDU's own data field

The header declares how long the data field is, but decoding goes by the size of
the container. What that means for a PDU depends on its kind: Metadata and ACK
have a fixed shape, EOF and FIN stop at the TLV limit, NAK segments and file
data run to the end of the container. A CRC is deducted from file data only.
-/
namespace Nos3.Cf
open Nos3.Base.Wire Nos3.Base.BitField Nos3.Base.BigEndian

/-- The decoder for a received PDU, chosen from its header. -/
def pduKind (ph : PduBuffer) : Option PduDecoder :=
  if ph.pduHeader.pduType ≠ 0 then some .fd
  else if ph.fdirective.directiveCode = FileDirective.eof then some .eof
  else if ph.fdirective.directiveCode = FileDirective.fin then some .fin
  else if ph.fdirective.directiveCode = FileDirective.ack then some .ack
  else if ph.fdirective.directiveCode = FileDirective.metadata then some .md
  else if ph.fdirective.directiveCode = FileDirective.nak then some .nak
  else none

/-- Receives one PDU from a message that holds exactly `octets`. -/
def receivePdu (octets : List Octet) : Option PduBuffer :=
  match recvPh (decodeStart octets 0 octets.length) with
  | (false, _) => none
  | (true, ph) =>
    match pduKind ph with
    | none => none
    | some kind =>
      match kind.recv ph with
      | (false, _) => none
      | (true, ph) => some ph

theorem receivePdu_eq_some {octets : List Octet} {ph : PduBuffer} :
    receivePdu octets = some ph ↔ ∃ ph₁ kind,
      recvPh (decodeStart octets 0 octets.length) = (true, ph₁) ∧ pduKind ph₁ = some kind ∧
        kind.recv ph₁ = (true, ph) := by
  unfold receivePdu
  generalize recvPh (decodeStart octets 0 octets.length) = result
  obtain ⟨success, ph₁⟩ := result
  cases success with
  | false => simp
  | true =>
    simp only [Prod.mk.injEq, true_and, exists_and_left, exists_eq_left']
    cases hkind : pduKind ph₁ with
    | none => simp
    | some kind =>
      simp only [Option.some.injEq, exists_eq_left']
      generalize kind.recv ph₁ = result
      obtain ⟨done, ph₂⟩ := result
      cases done <;> simp

/-- A PDU that is received, and that ends where its header says. -/
structure WellFormedPdu (octets : List Octet) (ph : PduBuffer) : Prop where
  received : receivePdu octets = some ph
  length : octets.length =
    ph.pduHeader.headerEncodedLength.toNat + ph.pduHeader.dataEncodedLength.toNat

/-- Logical parts whose decoding ends by itself: fixed shape, or as many TLVs as
the array holds. -/
def IntHeader.SelfDelimiting : IntHeader → Prop
  | .md _ => True
  | .ack _ => True
  | .eof part => part.tlvList.numTlv = pduMaxTlv
  | .fin part => part.tlvList.numTlv = pduMaxTlv
  | _ => False

variable {head tail : List Octet}

/-! ## Reading the header from a reframed message -/

/-- `CF_CFDP_RecvPh` taken apart: the header, then for a directive its code. -/
theorem recvPh_eq_true {ph ph₁ : PduBuffer} :
    recvPh ph = (true, ph₁) ↔
      let hdr := (decodeHeader ph.pduHeader ph.pdec).1.2
      let s := (decodeHeader ph.pduHeader ph.pdec).2
      let dir := decodeFileDirectiveHeader ph.fdirective s
      (decodeHeader ph.pduHeader ph.pdec).1.1 = true ∧ Ok s ∧ hdr.largeFlag = 0 ∧
      ((hdr.pduType ≠ 0 ∧ ph₁ = ⟨s, hdr, ph.fdirective, ph.intHeader⟩) ∨
        (hdr.pduType = 0 ∧ Ok dir.2 ∧ ph₁ = ⟨dir.2, hdr, dir.1, ph.intHeader⟩)) := by
  unfold recvPh
  generalize decodeHeader ph.pduHeader ph.pdec = result
  obtain ⟨⟨success, hdr⟩, s⟩ := result
  have hsticky := (steps_fileDirectiveHeader ph.fdirective s).sticky
  simp only
  generalize decodeFileDirectiveHeader ph.fdirective s = result at hsticky ⊢
  obtain ⟨dir, s'⟩ := result
  cases success with
  | false => simp
  | true =>
    simp only [PduBuffer.isOk, Ok, true_and]
    by_cases hok : s.isOk = true
    · by_cases hlarge : hdr.largeFlag = 0#8
      · by_cases htype : hdr.pduType = 0#8
        · simp only [hok, hlarge, htype]
          grind
        · simp [hok, hlarge, htype, eq_comm (b := ph₁)]
      · simp [hok, hlarge]
    · simp [hok]

variable (head tail) in
/-- Two messages whose headers leave the same decoder up to reframing, and agree
in type and large-file flag, are received alike. -/
theorem recvPh_reframe {ph : PduBuffer} (ph' : PduBuffer) (hdr' : PduHeader)
    (hheader : decodeHeader ph'.pduHeader ph'.pdec =
      ((true, hdr'), (decodeHeader ph.pduHeader ph.pdec).2.reframe head tail))
    (hbeyond : Ok (decodeHeader ph.pduHeader ph.pdec).2 →
      Beyond head.length (decodeHeader ph.pduHeader ph.pdec).2)
    (htype : hdr'.pduType = (decodeHeader ph.pduHeader ph.pdec).1.2.pduType)
    (hlarge : hdr'.largeFlag = (decodeHeader ph.pduHeader ph.pdec).1.2.largeFlag)
    (hdir : ph'.fdirective = ph.fdirective) (hint : ph'.intHeader = ph.intHeader)
    {ph₁ : PduBuffer} (hrecv : recvPh ph = (true, ph₁)) :
    Ok ph₁.pdec ∧ Beyond head.length ph₁.pdec ∧
      ph₁.pduHeader = (decodeHeader ph.pduHeader ph.pdec).1.2 ∧
      recvPh ph' = (true,
        { ph₁ with pdec := ph₁.pdec.reframe head tail, pduHeader := hdr' }) := by
  rw [recvPh_eq_true] at hrecv ⊢
  simp only [hheader, hdir, hint, htype, hlarge]
  obtain ⟨-, hok, hsmall, hcase⟩ := hrecv
  rcases hcase with ⟨hdata, rfl⟩ | ⟨hdirective, hok', rfl⟩
  · exact ⟨hok, hbeyond hok, rfl, trivial, hok, hsmall, Or.inl ⟨hdata, rfl⟩⟩
  · have hstable : Unaffected head tail (decodeFileDirectiveHeader ph.fdirective) :=
      unaffected_fileDirectiveHeader ph.fdirective
    have hsame := hstable.same _ (hbeyond hok) hok'
    refine ⟨hok', hstable.keeps _ (hbeyond hok) hok', rfl, trivial, hok, hsmall,
      Or.inr ⟨hdirective, ?_⟩⟩
    rw [hsame]
    exact ⟨hok', rfl⟩

theorem decodeStart_eq {octets : List Octet} (h : octets ≠ []) :
    decodeStart octets 0 octets.length =
      ⟨⟨codecReset octets.length, octets, [], []⟩, default, default, .unset⟩ := by
  have hpos : octets.length > 0 := List.length_pos_of_ne_nil h
  simp [decodeStart, codecReset, hpos]

theorem received_ne_nil {octets : List Octet} {ph₁ : PduBuffer}
    (h : recvPh (decodeStart octets 0 octets.length) = (true, ph₁)) : octets ≠ [] := by
  rintro rfl
  rw [recvPh_eq_true] at h
  have hinvalid : (decodeHeader default (decodeStart [] 0 0).pdec).2.isOk = false := rfl
  exact Bool.false_ne_true (hinvalid.symm.trans h.2.1)

/-! ## Reading the rest from a reframed message -/

/-- The file data with the last four octets left off. -/
def PduFileDataHeader.withoutCrc (fd : PduFileDataHeader) : PduFileDataHeader :=
  { fd with
    dataLen := fd.dataLen - Sizeof.uint32
    dataPtr := fd.dataPtr.map (·.take (fd.dataLen - Sizeof.uint32)) }

theorem recvFdDecode_eq_true {ph ph₁ : PduBuffer} :
    recvFdDecode ph = (true, ph₁) ↔
      let fd := (decodeFileDataHeader false default ph.pdec).1
      let s := (decodeFileDataHeader false default ph.pdec).2
      ph.pduHeader.segmentMetaFlag = 0 ∧ Ok s ∧
      ((ph.pduHeader.crcFlag = 0 ∧ ph₁ = { ph with pdec := s, intHeader := .fd fd }) ∨
        (ph.pduHeader.crcFlag ≠ 0 ∧ Sizeof.uint32 ≤ fd.dataLen ∧
          ph₁ = { ph with pdec := s, intHeader := .fd fd.withoutCrc })) := by
  unfold recvFdDecode
  by_cases hmeta : ph.pduHeader.segmentMetaFlag = 0#8
  · simp only [hmeta, bne_self_eq_false, BitVec.ofNat_eq_ofNat]
    generalize decodeFileDataHeader false default ph.pdec = result
    obtain ⟨fd, s⟩ := result
    by_cases hok : s.isOk = true
    · by_cases hcrc : ph.pduHeader.crcFlag = 0#8
      · simp [hok, hcrc, Ok, eq_comm (b := ph₁)]
      · by_cases hlen : fd.dataLen < Sizeof.uint32
        · have hdone : s.setDone.isOk = false := rfl
          simp [hcrc, hok, Ok, hlen, hdone, Nat.not_le.mpr hlen]
        · simp [hcrc, hok, Ok, hlen, Nat.le_of_not_lt hlen, PduFileDataHeader.withoutCrc,
            eq_comm (b := ph₁)]
    · simp [hok, Ok]
  · generalize decodeFileDataHeader (ph.pduHeader.segmentMetaFlag != 0) default ph.pdec = result
    obtain ⟨fd, s⟩ := result
    simp [hmeta]

theorem recvMd_tail {ph ph₂ : PduBuffer} {hdr' : PduHeader} (hs : Beyond head.length ph.pdec)
    (hrecv : recvMdDecode ph = (true, ph₂)) :
    ∃ ph', recvMdDecode { ph with pdec := ph.pdec.reframe head tail, pduHeader := hdr' } =
      (true, ph') ∧ ph'.intHeader = ph₂.intHeader := by
  obtain ⟨hok, rfl⟩ := Prod.mk.inj hrecv
  have hstable : Unaffected head tail (decodeMd default) := unaffected_md default
  have hsame := hstable.same _ hs hok
  simp only [recvMdDecode, hsame]
  exact ⟨_, Prod.ext hok rfl, rfl⟩

theorem recvAck_tail {ph ph₂ : PduBuffer} {hdr' : PduHeader} (hs : Beyond head.length ph.pdec)
    (hrecv : recvAck ph = (true, ph₂)) :
    ∃ ph', recvAck { ph with pdec := ph.pdec.reframe head tail, pduHeader := hdr' } =
      (true, ph') ∧ ph'.intHeader = ph₂.intHeader := by
  obtain ⟨hok, rfl⟩ := Prod.mk.inj hrecv
  have hstable : Unaffected head tail (decodeAck default) := unaffected_ack default
  have hsame := hstable.same _ hs hok
  simp only [recvAck, hsame]
  exact ⟨_, Prod.ext hok rfl, rfl⟩

theorem PduDecoder.recv_header (kind : PduDecoder) {ph ph₂ : PduBuffer}
    (hrecv : kind.recv ph = (true, ph₂)) : ph₂.pduHeader = ph.pduHeader := by
  obtain ⟨-, rfl⟩ := Prod.mk.inj hrecv
  cases kind <;> rfl

theorem exists_received_iff {ok : Bool} {new : PduBuffer} {part : IntHeader} :
    (∃ ph', (ok, new) = (true, ph') ∧ ph'.intHeader = part) ↔
      ok = true ∧ new.intHeader = part := by
  simp

theorem recvEof_tail_iff {ph ph₂ : PduBuffer} {hdr' : PduHeader}
    (hs : Beyond head.length ph.pdec) (hrecv : recvEof ph = (true, ph₂)) (htail : tail ≠ []) :
    (∃ ph', recvEof { ph with pdec := ph.pdec.reframe head tail, pduHeader := hdr' } =
      (true, ph') ∧ ph'.intHeader = ph₂.intHeader) ↔ ph₂.intHeader.SelfDelimiting := by
  obtain ⟨hok, rfl⟩ := Prod.mk.inj hrecv
  have hsame := Iff.of_eq (IntHeader.eof.injEq
    (decodeEof default (ph.pdec.reframe head tail)).1 (decodeEof default ph.pdec).1)
  exact exists_received_iff.trans ((and_congr_right' hsame).trans (eof_tail_iff hs hok htail))

theorem recvFin_tail_iff {ph ph₂ : PduBuffer} {hdr' : PduHeader}
    (hs : Beyond head.length ph.pdec) (hrecv : recvFin ph = (true, ph₂)) (htail : tail ≠ []) :
    (∃ ph', recvFin { ph with pdec := ph.pdec.reframe head tail, pduHeader := hdr' } =
      (true, ph') ∧ ph'.intHeader = ph₂.intHeader) ↔ ph₂.intHeader.SelfDelimiting := by
  obtain ⟨hok, rfl⟩ := Prod.mk.inj hrecv
  have hsame := Iff.of_eq (IntHeader.fin.injEq
    (decodeFin default (ph.pdec.reframe head tail)).1 (decodeFin default ph.pdec).1)
  exact exists_received_iff.trans ((and_congr_right' hsame).trans (fin_tail_iff hs hok htail))

theorem recvNak_tail {ph ph₂ : PduBuffer} (hs : Beyond head.length ph.pdec)
    (hrecv : recvNak ph = (true, ph₂)) (htail : tail ≠ []) :
    ¬∃ ph', recvNak { ph with pdec := ph.pdec.reframe head tail } = (true, ph') ∧
      ph'.intHeader = ph₂.intHeader := by
  obtain ⟨hok, rfl⟩ := Prod.mk.inj hrecv
  have hsame := Iff.of_eq (IntHeader.nak.injEq
    (decodeNak default (ph.pdec.reframe head tail)).1 (decodeNak default ph.pdec).1)
  exact fun h => nak_tail hs hok htail ((exists_received_iff.trans (and_congr_right' hsame)).mp h)

variable (tail) in
/-- The tail counts as file data: nothing else of the PDU changes. -/
theorem recvFd_tail {ph ph₂ : PduBuffer} (hs : Beyond head.length ph.pdec)
    (hrecv : recvFdDecode ph = (true, ph₂)) :
    ∃ fd ph' fd', ph₂.intHeader = .fd fd ∧
      recvFdDecode { ph with pdec := ph.pdec.reframe head tail } = (true, ph') ∧
      ph'.intHeader = .fd fd' ∧ fd'.dataLen = fd.dataLen + tail.length := by
  rw [recvFdDecode_eq_true] at hrecv
  obtain ⟨hmeta, hok, hcase⟩ := hrecv
  obtain ⟨data, hdata, hlen, hok', hfd⟩ :=
    fileData_reframe tail false default hs hok
  rcases hcase with ⟨hcrc, rfl⟩ | ⟨hcrc, hlong, rfl⟩
  · refine ⟨_, _, _, rfl, recvFdDecode_eq_true.mpr ⟨hmeta, hok', Or.inl ⟨hcrc, rfl⟩⟩, rfl, ?_⟩
    rw [hfd, hlen]
  · refine ⟨_, _, _, rfl, recvFdDecode_eq_true.mpr ⟨hmeta, hok', Or.inr ⟨hcrc, ?_, rfl⟩⟩, rfl, ?_⟩
    · rw [hfd]
      simp only
      omega
    · rw [hfd]
      simp only [PduFileDataHeader.withoutCrc]
      omega

/-- More octets go unnoticed exactly where the logical part delimits itself. -/
theorem PduDecoder.recv_tail_iff (kind : PduDecoder) {ph ph₂ : PduBuffer}
    (hs : Beyond head.length ph.pdec) (hrecv : kind.recv ph = (true, ph₂)) (htail : tail ≠ []) :
    (∃ ph', kind.recv { ph with pdec := ph.pdec.reframe head tail } = (true, ph') ∧
      ph'.intHeader = ph₂.intHeader) ↔ ph₂.intHeader.SelfDelimiting := by
  cases kind with
  | md =>
    obtain ⟨-, rfl⟩ := Prod.mk.inj hrecv
    exact iff_of_true (recvMd_tail hs hrecv) trivial
  | ack =>
    obtain ⟨-, rfl⟩ := Prod.mk.inj hrecv
    exact iff_of_true (recvAck_tail hs hrecv) trivial
  | eof => exact recvEof_tail_iff hs hrecv htail
  | fin => exact recvFin_tail_iff hs hrecv htail
  | nak =>
    refine iff_of_false (recvNak_tail hs hrecv htail) ?_
    obtain ⟨-, rfl⟩ := Prod.mk.inj hrecv
    exact not_false
  | fd =>
    obtain ⟨fd, ph', fd', hold, hrecv', hnew, hlen⟩ := recvFd_tail tail hs hrecv
    rw [hold]
    refine iff_of_false ?_ not_false
    rintro ⟨other, hother, hsame⟩
    obtain rfl : ph' = other := (Prod.mk.inj (hrecv'.symm.trans hother)).2
    obtain rfl : fd' = fd := IntHeader.fd.inj (hnew.symm.trans hsame)
    exact htail (List.length_eq_zero_iff.mp (by omega))

/-! ## Octets appended to a message -/

theorem decodeStart_append (octets suffix : List Octet) (h : octets ≠ []) :
    decodeStart (octets ++ suffix) 0 (octets ++ suffix).length =
      { decodeStart octets 0 octets.length with
        pdec := (decodeStart octets 0 octets.length).pdec.reframe [] suffix } := by
  rw [decodeStart_eq h, decodeStart_eq (by simp [h])]
  simp [DecoderState.reframe, codecReset]

theorem decodeStart_beyond {octets : List Octet} (h : octets ≠ []) :
    Beyond 0 (decodeStart octets 0 octets.length).pdec := by
  rw [decodeStart_eq h]
  exact ⟨⟨rfl, Nat.zero_le _⟩, Nat.le_refl _⟩

theorem recvPh_append {octets : List Octet} (suffix : List Octet) {ph₁ : PduBuffer}
    (hrecv : recvPh (decodeStart octets 0 octets.length) = (true, ph₁)) :
    Ok ph₁.pdec ∧ Beyond 0 ph₁.pdec ∧
      recvPh (decodeStart (octets ++ suffix) 0 (octets ++ suffix).length) =
        (true, { ph₁ with pdec := ph₁.pdec.reframe [] suffix }) := by
  have hne := received_ne_nil hrecv
  have hstable : Unaffected [] suffix (decodeHeader (decodeStart octets 0 octets.length).pduHeader) :=
    unaffected_header _
  have hstart : Beyond ([] : List Octet).length (decodeStart octets 0 octets.length).pdec :=
    decodeStart_beyond hne
  obtain ⟨hsuccess, hok, -⟩ := recvPh_eq_true.mp hrecv
  have hheader := hstable.same _ hstart hok
  have hpair : ∀ p : Bool × PduHeader, p.1 = true → p = (true, p.2) := fun _ h => Prod.ext h rfl
  rw [hpair _ hsuccess] at hheader
  obtain ⟨hok₁, hbeyond₁, hpdu, hrun⟩ := recvPh_reframe [] suffix
    (decodeStart (octets ++ suffix) 0 (octets ++ suffix).length) _
    (by rw [decodeStart_append octets suffix hne]; exact hheader)
    (hstable.keeps _ hstart) rfl rfl
    (by rw [decodeStart_append octets suffix hne]) (by rw [decodeStart_append octets suffix hne])
    hrecv
  refine ⟨hok₁, hbeyond₁, ?_⟩
  rw [hrun, ← hpdu]

/-- Octets behind the PDU leave the logical part alone exactly when there are
none or the part delimits itself. -/
theorem receivePdu_append_iff {octets : List Octet} {ph : PduBuffer}
    (h : receivePdu octets = some ph) (suffix : List Octet) :
    (∃ ph', receivePdu (octets ++ suffix) = some ph' ∧ ph'.intHeader = ph.intHeader) ↔
      suffix = [] ∨ ph.intHeader.SelfDelimiting := by
  by_cases hsuffix : suffix = []
  · subst hsuffix
    rw [List.append_nil]
    exact iff_of_true ⟨ph, h, rfl⟩ (Or.inl rfl)
  · obtain ⟨ph₁, kind, hph, hkind, hrecv⟩ := receivePdu_eq_some.mp h
    obtain ⟨-, hbeyond, hph'⟩ := recvPh_append suffix hph
    have hiff := kind.recv_tail_iff (show Beyond ([] : List Octet).length ph₁.pdec from hbeyond)
      hrecv hsuffix
    rw [or_iff_right hsuffix, ← hiff]
    refine exists_congr fun ph' => and_congr_left fun _ => ?_
    rw [receivePdu_eq_some, hph']
    constructor
    · rintro ⟨ph₁', kind', heq, hkind', hrecv'⟩
      obtain rfl := (Prod.mk.inj heq).2
      obtain rfl : kind = kind' := Option.some.inj (hkind.symm.trans hkind')
      exact hrecv'
    · exact fun hrecv' => ⟨_, kind, rfl, hkind, hrecv'⟩

/-! ## A CRC inside the data field -/

/-- The octets up to the data length, with the CRC flag set and four more declared. -/
def crcHead (octets : List Octet) : List Octet :=
  Fields.headerCrc.set (octetAt octets 0) 1 :: storeUint16 (loadUint16 octets 1 + 4)

/-- The message with the CRC flag set and `crc` as part of its data field. -/
def withCrc (octets crc : List Octet) : List Octet := crcHead octets ++ octets.drop 3 ++ crc

@[simp] theorem crcHead_length (octets : List Octet) : (crcHead octets).length = 3 := rfl

/-- A header with the CRC flag set and the data length `length`. -/
def PduHeader.crcSet (hdr : PduHeader) (length : BitVec 16) : PduHeader :=
  { hdr with crcFlag := 1, dataEncodedLength := length }

theorem decodeHeaderFixed_crcHead (plh : PduHeader) (flags len₁ len₂ lengths : Octet)
    (rest : List Octet) :
    decodeHeaderFixed plh (crcHead (flags :: len₁ :: len₂ :: rest) ++ [lengths]) =
      (decodeHeaderFixed plh [flags, len₁, len₂, lengths]).crcSet
        (loadUint16 [flags, len₁, len₂, lengths] 1 + 4) := by
  have hcrc : Fields.headerCrc.get (Fields.headerCrc.set flags 1) = 1 :=
    Field.get_set (by decide) flags (by decide)
  have hother : ∀ f : Field, f.Disjoint Fields.headerCrc →
      f.get (Fields.headerCrc.set flags 1) = f.get flags :=
    fun f hf => Field.get_set_of_disjoint hf flags 1
  have hlen : ∀ len : BitVec 16, (ofBe (storeUint16 len) : BitVec 16) = len :=
    fun len => ofBe_beOctets_word (by decide) len
  have hload : loadUint16 (crcHead (flags :: len₁ :: len₂ :: rest) ++ [lengths]) 1 =
      loadUint16 [flags, len₁, len₂, lengths] 1 + 4 :=
    hlen _
  unfold decodeHeaderFixed PduHeader.crcSet
  rw [hload]
  have hflags : octetAt (crcHead (flags :: len₁ :: len₂ :: rest) ++ [lengths]) 0 =
      Fields.headerCrc.set flags 1 := rfl
  simp only [hflags, hcrc, hother Fields.headerVersion (by decide),
    hother Fields.headerDir (by decide), hother Fields.headerType (by decide),
    hother Fields.headerMode (by decide), hother Fields.headerLargeFile (by decide)]
  rfl

/-- The variable fields are read the same way whatever the CRC flag and length. -/
theorem decodeHeaderVariable_crcSet (plh : PduHeader) (length : BitVec 16) (s : DecoderState) :
    decodeHeaderVariable (plh.crcSet length) s =
      (((decodeHeaderVariable plh s).1.1, (decodeHeaderVariable plh s).1.2.crcSet length),
        (decodeHeaderVariable plh s).2) := by
  have heid : (plh.crcSet length).eidLength = plh.eidLength := rfl
  have hseq : (plh.crcSet length).txnSeqLength = plh.txnSeqLength := rfl
  unfold decodeHeaderVariable
  rw [heid, hseq]
  by_cases h : plh.eidLength.toNat > Sizeof.entityId ∨
      plh.txnSeqLength.toNat > Sizeof.transactionSeq
  · rw [if_pos h, if_pos h]
    rfl
  · rw [if_neg h, if_neg h]
    rfl

/-- A header that fits is its fixed part, then the variable one. -/
theorem decodeHeader_granted (plh : PduHeader) {s : DecoderState} (hok : s.isOk = true)
    (hroom : s.codecState.nextOffset + Sizeof.pduHeader ≤ s.codecState.maxSize) :
    decodeHeader plh s = decodeHeaderVariable
      (decodeHeaderFixed plh ((s.base.drop s.codecState.nextOffset).take Sizeof.pduHeader))
      (s.advance Sizeof.pduHeader (List.range' s.codecState.nextOffset Sizeof.pduHeader)) := by
  simp only [decodeHeader, bind, StateT.bind, decodeFixedChunk_granted hok hroom]

/-- Reading the header of a message from its start, with the CRC flag put in. -/
theorem decodeHeader_crcHead (crc : List Octet) (plh : PduHeader) {s : DecoderState}
    {flags len₁ len₂ lengths : Octet} {rest : List Octet}
    (hbase : s.base = flags :: len₁ :: len₂ :: lengths :: rest) (hs : s.Aligned)
    (hpos : s.codecState.nextOffset = 0) (hvalid : s.isOk = true)
    (hok : Ok (decodeHeader plh s).2) :
    Beyond 3 (decodeHeader plh s).2 ∧
      decodeHeader plh (s.reframe (crcHead s.base) crc) =
        (((decodeHeader plh s).1.1,
          (decodeHeader plh s).1.2.crcSet (loadUint16 [flags, len₁, len₂, lengths] 1 + 4)),
          (decodeHeader plh s).2.reframe (crcHead s.base) crc) := by
  have hsize : s.codecState.maxSize = rest.length + 4 := by rw [hs.size, hbase]; rfl
  have hroom : s.codecState.nextOffset + Sizeof.pduHeader ≤ s.codecState.maxSize := by
    rw [hpos, hsize]
    exact Nat.le_add_left 4 _
  have hroom' : (s.reframe (crcHead s.base) crc).codecState.nextOffset + Sizeof.pduHeader ≤
      (s.reframe (crcHead s.base) crc).codecState.maxSize := Nat.le_add_right_of_le hroom
  have hchunk : (s.base.drop s.codecState.nextOffset).take Sizeof.pduHeader =
      [flags, len₁, len₂, lengths] := by
    rw [hpos, hbase]
    rfl
  have hchunk' : ((s.reframe (crcHead s.base) crc).base.drop
      (s.reframe (crcHead s.base) crc).codecState.nextOffset).take Sizeof.pduHeader =
      crcHead (flags :: len₁ :: len₂ :: lengths :: rest) ++ [lengths] := by
    simp only [DecoderState.reframe, hpos, hbase]
    rfl
  have hrun := decodeHeader_granted plh hvalid hroom
  have hrun' := decodeHeader_granted plh (s := s.reframe (crcHead s.base) crc) hvalid hroom'
  rw [hchunk] at hrun
  rw [hchunk', decodeHeaderFixed_crcHead, decodeHeaderVariable_crcSet] at hrun'
  have hbeyond : Beyond (crcHead s.base).length (s.advance Sizeof.pduHeader
      (List.range' s.codecState.nextOffset Sizeof.pduHeader)) :=
    ⟨⟨hs.size, hroom⟩, Nat.le_add_left_of_le (show 3 ≤ 4 by decide)⟩
  have hstable : Unaffected (crcHead s.base) crc
      (decodeHeaderVariable (decodeHeaderFixed plh [flags, len₁, len₂, lengths])) :=
    unaffected_headerVariable _
  rw [hrun] at hok ⊢
  have hsame := hstable.same _ hbeyond hok
  refine ⟨hstable.keeps _ hbeyond hok, hrun'.trans ?_⟩
  have hadvance : (s.reframe (crcHead s.base) crc).advance Sizeof.pduHeader
      (List.range' (s.reframe (crcHead s.base) crc).codecState.nextOffset Sizeof.pduHeader) =
      (s.advance Sizeof.pduHeader
        (List.range' s.codecState.nextOffset Sizeof.pduHeader)).reframe (crcHead s.base) crc := rfl
  rw [hadvance, hsame]

theorem decodeHeader_room {plh : PduHeader} {s : DecoderState} (hok : Ok (decodeHeader plh s).2) :
    s.isOk = true ∧ s.codecState.nextOffset + Sizeof.pduHeader ≤ s.codecState.maxSize := by
  by_cases hchunk : Ok (decodeFixedChunk Sizeof.pduHeader s).2
  · exact fixedChunk_ok hchunk
  · have hnone := fixedChunk_none hchunk
    simp only [decodeHeader, bind, StateT.bind] at hok
    generalize decodeFixedChunk Sizeof.pduHeader s = result at hok hchunk hnone
    obtain ⟨chunk, s'⟩ := result
    simp only at hnone
    subst hnone
    exact absurd hok hchunk

theorem decodeStart_withCrc {octets : List Octet} (h : 4 ≤ octets.length) (crc : List Octet) :
    decodeStart (withCrc octets crc) 0 (withCrc octets crc).length =
      { decodeStart octets 0 octets.length with
        pdec := (decodeStart octets 0 octets.length).pdec.reframe
          (crcHead (decodeStart octets 0 octets.length).pdec.base) crc } := by
  have hsize : (withCrc octets crc).length = octets.length + crc.length := by
    simp only [withCrc, List.length_append, crcHead_length, List.length_drop]
    omega
  rw [decodeStart_eq (List.ne_nil_of_length_pos (by omega)),
    decodeStart_eq (List.ne_nil_of_length_pos (by omega)), hsize]
  rfl

theorem recvPh_withCrc {octets : List Octet} (crc : List Octet) {ph₁ : PduBuffer}
    (hrecv : recvPh (decodeStart octets 0 octets.length) = (true, ph₁)) :
    ∃ length, Beyond (crcHead octets).length ph₁.pdec ∧
      recvPh (decodeStart (withCrc octets crc) 0 (withCrc octets crc).length) =
        (true, { ph₁ with
          pdec := ph₁.pdec.reframe (crcHead octets) crc
          pduHeader := ph₁.pduHeader.crcSet length }) := by
  have hne := received_ne_nil hrecv
  obtain ⟨hsuccess, hok, -⟩ := recvPh_eq_true.mp hrecv
  have hstart := decodeStart_eq hne
  have hlong : 4 ≤ octets.length := by
    have hroom := (decodeHeader_room hok).2
    rw [hstart] at hroom
    simpa [codecReset, Sizeof.pduHeader] using hroom
  obtain ⟨flags, len₁, len₂, lengths, rest, hoctets⟩ :
      ∃ flags len₁ len₂ lengths rest, octets = flags :: len₁ :: len₂ :: lengths :: rest := by
    rcases octets with _ | ⟨flags, _ | ⟨len₁, _ | ⟨len₂, _ | ⟨lengths, rest⟩⟩⟩⟩
    case cons.cons.cons.cons => exact ⟨flags, len₁, len₂, lengths, rest, rfl⟩
    all_goals
      simp only [List.length_cons, List.length_nil] at hlong
      omega
  have hbase : (decodeStart octets 0 octets.length).pdec.base = octets := by rw [hstart]
  obtain ⟨hbeyond, hheader⟩ := decodeHeader_crcHead crc default (hbase.trans hoctets)
    (decodeStart_beyond hne).aligned (by rw [hstart]; rfl) (by rw [hstart]; rfl) hok
  rw [show (decodeHeader default (decodeStart octets 0 octets.length).pdec).1.1 = true
    from hsuccess, hbase] at hheader
  have hstart' := decodeStart_withCrc hlong crc
  rw [hbase] at hstart'
  obtain ⟨-, hbeyond₁, hpdu, hrun⟩ := recvPh_reframe (crcHead octets) crc
    (decodeStart (withCrc octets crc) 0 (withCrc octets crc).length)
    ((decodeHeader default (decodeStart octets 0 octets.length).pdec).1.2.crcSet
      (loadUint16 [flags, len₁, len₂, lengths] 1 + 4))
    (by rw [hstart']; exact hheader) (fun _ => hbeyond) rfl rfl (by rw [hstart'])
    (by rw [hstart']) hrecv
  refine ⟨loadUint16 [flags, len₁, len₂, lengths] 1 + 4, hbeyond₁, ?_⟩
  rw [hrun, hpdu]
  rfl

/-- The CRC is taken off file data again. -/
theorem recvFd_withCrc {ph ph₂ : PduBuffer} {crc : List Octet} {length : BitVec 16}
    (hs : Beyond head.length ph.pdec) (hcrc : ph.pduHeader.crcFlag = 0)
    (hsize : crc.length = Sizeof.uint32) (hrecv : recvFdDecode ph = (true, ph₂)) :
    ∃ ph', recvFdDecode { ph with
        pdec := ph.pdec.reframe head crc, pduHeader := ph.pduHeader.crcSet length } =
      (true, ph') ∧ ph'.intHeader = ph₂.intHeader := by
  rw [recvFdDecode_eq_true] at hrecv
  obtain ⟨hmeta, hok, ⟨-, rfl⟩ | ⟨hset, -⟩⟩ := hrecv
  · obtain ⟨data, hdata, hlen, hok', hfd⟩ :=
      fileData_reframe crc false default hs hok
    refine ⟨_, recvFdDecode_eq_true.mpr ⟨hmeta, hok', Or.inr
      ⟨show (1 : Octet) ≠ 0 by decide, ?_, rfl⟩⟩, ?_⟩
    · rw [hfd, hsize]
      exact Nat.le_add_left _ _
    · refine congrArg IntHeader.fd ?_
      rw [hfd]
      simp only [PduFileDataHeader.withoutCrc, hsize, Nat.add_sub_cancel, Option.map_some,
        List.take_left]
      rw [← hdata, ← hlen]
  · exact absurd hcrc hset

/-- Logical parts that read the same with a CRC inside the data field. -/
def IntHeader.CrcTolerant (part : IntHeader) : Prop :=
  part.SelfDelimiting ∨ ∃ fd, part = .fd fd

theorem PduDecoder.recv_withCrc (kind : PduDecoder) {ph ph₂ : PduBuffer} {crc : List Octet}
    {length : BitVec 16} (hs : Beyond head.length ph.pdec) (hcrc : ph.pduHeader.crcFlag = 0)
    (hsize : crc.length = Sizeof.uint32) (hrecv : kind.recv ph = (true, ph₂))
    (htolerant : ph₂.intHeader.CrcTolerant) :
    ∃ ph', kind.recv { ph with
        pdec := ph.pdec.reframe head crc, pduHeader := ph.pduHeader.crcSet length } =
      (true, ph') ∧ ph'.intHeader = ph₂.intHeader := by
  have hne : crc ≠ [] := List.ne_nil_of_length_pos (by rw [hsize]; decide)
  cases kind with
  | md => exact recvMd_tail hs hrecv
  | ack => exact recvAck_tail hs hrecv
  | fd => exact recvFd_withCrc hs hcrc hsize hrecv
  | eof =>
    refine (recvEof_tail_iff hs hrecv hne).mpr ?_
    obtain ⟨-, rfl⟩ := Prod.mk.inj hrecv
    exact htolerant.resolve_right nofun
  | fin =>
    refine (recvFin_tail_iff hs hrecv hne).mpr ?_
    obtain ⟨-, rfl⟩ := Prod.mk.inj hrecv
    exact htolerant.resolve_right nofun
  | nak =>
    obtain ⟨-, rfl⟩ := Prod.mk.inj hrecv
    rcases htolerant with h | ⟨fd, h⟩
    · cases h
    · cases h

theorem receivePdu_withCrc {octets crc : List Octet} {ph : PduBuffer}
    (h : receivePdu octets = some ph) (hcrc : ph.pduHeader.crcFlag = 0)
    (hsize : crc.length = Sizeof.uint32) (htolerant : ph.intHeader.CrcTolerant) :
    ∃ ph', receivePdu (withCrc octets crc) = some ph' ∧ ph'.intHeader = ph.intHeader := by
  obtain ⟨ph₁, kind, hph, hkind, hrecv⟩ := receivePdu_eq_some.mp h
  obtain ⟨length, hbeyond, hph'⟩ := recvPh_withCrc crc hph
  have hheader : ph.pduHeader = ph₁.pduHeader := kind.recv_header hrecv
  obtain ⟨ph', hrecv', hsame⟩ :=
    kind.recv_withCrc hbeyond (hheader ▸ hcrc) hsize hrecv htolerant
  exact ⟨ph', receivePdu_eq_some.mpr ⟨_, kind, hph', hkind, hrecv'⟩, hsame⟩

/-! ## What decoding depends on -/

/-- Decoding a well-formed PDU with octets behind its data field, or with a CRC
inside it. -/
theorem decoding_beyond_data_field {octets : List Octet} {ph : PduBuffer}
    (h : WellFormedPdu octets ph) :
    (∀ suffix, (∃ ph', receivePdu (octets ++ suffix) = some ph' ∧
      ph'.intHeader = ph.intHeader) ↔ suffix = [] ∨ ph.intHeader.SelfDelimiting) ∧
    (∀ crc, ph.pduHeader.crcFlag = 0 → crc.length = Sizeof.uint32 → ph.intHeader.CrcTolerant →
      ∃ ph', receivePdu (withCrc octets crc) = some ph' ∧ ph'.intHeader = ph.intHeader) :=
  ⟨receivePdu_append_iff h.received,
    fun _ hcrc hsize htolerant => receivePdu_withCrc h.received hcrc hsize htolerant⟩

/-- File data: offset 0, two octets. -/
def fileDataOctets : List Octet := [0x10, 0, 6, 0, 1, 7, 2, 0, 0, 0, 0, 0xAA, 0xBB]

theorem fileDataOctets_wellFormed :
    ∃ ph, WellFormedPdu fileDataOctets ph ∧ ph.pduHeader.crcFlag = 0 ∧
      ph.intHeader = .fd ⟨0, ⟨[]⟩, 0, some [0xAA, 0xBB], 2⟩ := by
  refine ⟨(receivePdu fileDataOctets).get (by decide +kernel), ⟨?_, ?_⟩, ?_, ?_⟩
  · exact (Option.some_get _).symm
  · decide +kernel
  · decide +kernel
  · decide +kernel

theorem decoding_beyond_data_field_fileData :
    (∃ ph, WellFormedPdu fileDataOctets ph ∧
      ∃ ph', receivePdu (withCrc fileDataOctets [1, 2, 3, 4]) = some ph' ∧
        ph'.intHeader = ph.intHeader) := by
  obtain ⟨ph, hwf, hcrc, hint⟩ := fileDataOctets_wellFormed
  exact ⟨ph, hwf, (decoding_beyond_data_field hwf).2 _ hcrc rfl (Or.inr ⟨_, hint⟩)⟩

/-- One octet behind this PDU becomes file data. -/
theorem trailing_octet_decoded :
    ∃ ph ph', WellFormedPdu fileDataOctets ph ∧
      receivePdu (fileDataOctets ++ [0xCC]) = some ph' ∧
      ph.intHeader = .fd ⟨0, ⟨[]⟩, 0, some [0xAA, 0xBB], 2⟩ ∧
      ph'.intHeader = .fd ⟨0, ⟨[]⟩, 0, some [0xAA, 0xBB, 0xCC], 3⟩ := by
  obtain ⟨ph, hwf, -, hint⟩ := fileDataOctets_wellFormed
  refine ⟨ph, (receivePdu (fileDataOctets ++ [0xCC])).get (by decide +kernel), hwf, ?_, hint, ?_⟩
  · exact (Option.some_get _).symm
  · decide +kernel

end Nos3.Cf
