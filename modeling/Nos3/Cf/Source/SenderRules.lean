import Nos3.Cf.Source.Files
import Nos3.Cf.Source.HeaderRules
import Nos3.Cf.Source.Sender
import Nos3.Cf.Source.Dispatch

/-!
# What a file data send does

`FileDataOutcome` lists the ways out of `sSendFileData`: no buffer, a file operation
refused, too short a read, or one PDU more on the bus with the octets read where the descriptor
stood. The octets on the wire are computed once, from the rules of the encoders.
-/
namespace Nos3.Cf
open Nos3.Base.FileImage Nos3.Base.Wire

/-! ## The file data PDU on the wire -/

theorem encodeStart_fits : encoderView.fits encodeStart.penc := by
  simp [encoderView, encodeStart, codecReset]

theorem out_length {s : EncoderState} (hs : encoderView.fits s) :
    (encoderView.out s).length = s.codecState.nextOffset := by
  simp only [encoderView, List.length_take]
  have := hs.1
  have := hs.2
  omega

theorem encodeHeader_segmentMetaFlag (s : EncoderState) (plh : PduHeader) :
    (encodeHeaderWithoutSize s plh).2.segmentMetaFlag = plh.segmentMetaFlag := by
  unfold encodeHeaderWithoutSize
  split <;> rfl

theorem header_octets_short (hdr : PduHeader) (high low : Octet) :
    (hdr.octets high low).length < 2 ^ 16 := by
  have := hdr.eidLength.isLt
  have := hdr.txnSeqLength.isLt
  simp only [PduHeader.octets, PduHeader.integerOctets, Nos3.Base.BigEndian.beOctets_length,
    List.length_append, List.length_cons, List.length_nil]
  omega

theorem setPduLength_headerEncodedLength (s : EncoderState) (hdr : PduHeader) :
    (setPduLength s hdr).2.headerEncodedLength = hdr.headerEncodedLength := by
  simp only [setPduLength]
  split <;> rfl

/-- A started file data PDU holds its header and notes how long that is. -/
theorem startPdu_fileData (hdr : PduHeader) :
    let ph := startPdu encodeStart hdr 0
    encoderView.fits ph.penc ∧ ph.pduHeader.segmentMetaFlag = hdr.segmentMetaFlag ∧
    (ph.penc.isOk = true → ∃ high low, encoderView.out ph.penc = hdr.octets high low ∧
      ph.pduHeader.headerEncodedLength.toNat = (hdr.octets high low).length) := by
  obtain ⟨hfits, hout⟩ := encodeHeader_out encodeStart_fits hdr
  refine ⟨hfits, encodeHeader_segmentMetaFlag encodeStart.penc hdr, fun hok => ?_⟩
  obtain ⟨-, ⟨high, low, hoctets⟩, hhdr⟩ := hout hok
  have hlen : (encodeHeaderWithoutSize encodeStart.penc hdr).1.position =
      (hdr.octets high low).length := by
    rw [← List.nil_append (hdr.octets high low)]
    exact (out_length hfits).symm.trans (congrArg List.length hoctets)
  refine ⟨high, low, hoctets, ?_⟩
  have hnoted : (startPdu encodeStart hdr 0).pduHeader =
      (encodeHeaderWithoutSize encodeStart.penc hdr).2 := rfl
  rw [hnoted, hhdr, hlen, BitVec.toNat_ofNat]
  exact Nat.mod_eq_of_lt (header_octets_short hdr high low)

/-- What stands behind the header of a closed PDU. -/
theorem closePdu_wire {ph : OutPdu} {hdr : PduHeader} {high low : Octet} {rest : List Octet}
    (hfits : encoderView.fits ph.penc) (hok : ph.penc.isOk = true)
    (hout : encoderView.out ph.penc = hdr.octets high low ++ rest)
    (hlen : ph.pduHeader.headerEncodedLength.toNat = (hdr.octets high low).length) :
    (closePdu ph).wire.drop (closePdu ph).pduHeader.headerEncodedLength.toNat = rest := by
  have hfinal : encoderView.out (encodeHeaderFinalSize ph.penc
      (setPduLength ph.penc ph.pduHeader).2) = _ := encodeHeaderFinalSize_out hfits hok hout
  have hwire : (closePdu ph).wire = encoderView.out
      (encodeHeaderFinalSize ph.penc (setPduLength ph.penc ph.pduHeader).2) := rfl
  have hnoted : (closePdu ph).pduHeader.headerEncodedLength = ph.pduHeader.headerEncodedLength :=
    setPduLength_headerEncodedLength ph.penc ph.pduHeader
  rw [hwire, hfinal, hnoted, hlen]
  exact List.drop_left' (by simp [PduHeader.octets])

/-- What is sent: behind the header, the offset and the octets read. -/
theorem fileDataPdu_wire {hdr : PduHeader} {foffs ptr : Nat} {octets : List Octet}
    {penc : EncoderState} (hmeta : hdr.segmentMetaFlag = 0)
    (h : doEncodeChunk (fdPdu (startPdu encodeStart hdr 0) foffs).penc octets.length =
      (some ptr, penc)) :
    let ph := closePdu (putFileData (fdPdu (startPdu encodeStart hdr 0) foffs) penc ptr octets)
    ph.wire.drop ph.pduHeader.headerEncodedLength.toNat =
      storeUint32 (BitVec.ofNat 32 foffs) ++ octets := by
  obtain ⟨hfits₀, hflag, hhdr⟩ := startPdu_fileData hdr
  generalize startPdu encodeStart hdr 0 = ph₀ at *
  let fd : PduFileDataHeader :=
    { (default : PduFileDataHeader) with offset := BitVec.ofNat 32 foffs }
  have hpenc : (fdPdu ph₀ foffs).penc = encodeFileDataHeader ph₀.penc false fd := by
    simp only [fdPdu]
    rw [hflag, hmeta]
    rfl
  obtain ⟨hfits₁, hout₁⟩ := emits_fileDataHeader false fd ph₀.penc hfits₀
  simp only [← hpenc] at hfits₁ hout₁
  rcases doEncodeChunk_cases (fdPdu ph₀ foffs).penc octets.length with
    ⟨hok, hroom, heq⟩ | ⟨cs, heq, -⟩
  · rw [heq] at h
    cases h
    obtain ⟨hok₀, hout⟩ := hout₁ hok
    obtain ⟨high, low, hout₀, hlen⟩ := hhdr hok₀
    obtain ⟨hfits, hall⟩ := store_out hfits₁ hroom
    refine closePdu_wire hfits hok (hall.trans ?_) hlen
    rw [hout, hout₀, List.append_assoc]
    rfl
  · rw [heq] at h
    cases h

/-! ## Room for file data -/

/-- At most `used` octets of a full-size buffer are used, without a failure. -/
structure Used (s : EncoderState) (used : Nat) : Prop where
  ok : s.isOk = true
  position : s.codecState.nextOffset ≤ used
  maxSize : s.codecState.maxSize = maxPduSize

theorem doEncodeChunk_room {s : EncoderState} {n : Nat} (hok : s.isOk = true)
    (hroom : s.codecState.nextOffset + n ≤ s.codecState.maxSize) :
    doEncodeChunk s n = (some s.codecState.nextOffset,
      { s with
        codecState := { s.codecState with nextOffset := s.codecState.nextOffset + n } }) := by
  rcases doEncodeChunk_cases s n with ⟨_, _, heq⟩ | ⟨cs, heq, -⟩
  · exact heq
  · have hvalid : s.codecState.isValid = true := hok
    simp [doEncodeChunk, codecCheckSize, Nat.not_lt.mpr hroom, codecIsOk, hvalid] at heq

theorem Used.chunk {s : EncoderState} {used n : Nat} (h : Used s used)
    (hroom : used + n ≤ maxPduSize) :
    ∃ ptr s', doEncodeChunk s n = (some ptr, s') ∧ Used s' (used + n) := by
  have hfits : s.codecState.nextOffset + n ≤ s.codecState.maxSize := by
    rw [h.maxSize]
    exact (Nat.add_le_add_right h.position n).trans hroom
  exact ⟨_, _, doEncodeChunk_room h.ok hfits, h.ok, Nat.add_le_add_right h.position n, h.maxSize⟩

theorem Used.store {s : EncoderState} {used : Nat} (h : Used s used) (ptr : Nat)
    (octets : List Octet) : Used (s.store ptr octets) used := ⟨h.ok, h.position, h.maxSize⟩

theorem Used.fixedChunk {s : EncoderState} {used : Nat} (h : Used s used) (image : List Octet)
    (hroom : used + image.length ≤ maxPduSize) :
    Used (encodeFixedChunk s image) (used + image.length) := by
  obtain ⟨ptr, s', heq, h'⟩ := h.chunk hroom
  simp only [encodeFixedChunk, heq]
  exact h'.store ptr image

theorem Used.integerInSize {s : EncoderState} {used : Nat} (h : Used s used) (value : BitVec 64)
    {size : Octet} (hsize : size.toNat ≤ 8) (hroom : used + 8 ≤ maxPduSize) :
    Used (encodeIntegerInSize s value size) (used + 8) := by
  have hlen := Nos3.Base.BigEndian.beOctets_length size.toNat value
  have h' := h.fixedChunk (Nos3.Base.BigEndian.beOctets size.toNat value) (by omega)
  exact ⟨h'.ok, h'.position.trans (by omega), h'.maxSize⟩

theorem Used.header {s : EncoderState} {used : Nat} (h : Used s used) {plh : PduHeader}
    (heid : plh.eidLength.toNat ≤ 8) (htsn : plh.txnSeqLength.toNat ≤ 8)
    (hroom : used + 28 ≤ maxPduSize) : Used (encodeHeaderWithoutSize s plh).1 (used + 28) := by
  have hfour : Sizeof.pduHeader = 4 := rfl
  obtain ⟨ptr, s', heq, h'⟩ := h.chunk (n := Sizeof.pduHeader) (by omega)
  simp only [encodeHeaderWithoutSize, heq]
  have hstored := (h'.store ptr [headerFlagsImage plh]).store (ptr + 3) [headerLengthsImage plh]
  have hsource := hstored.integerInSize (plh.sourceEid.setWidth 64) heid (by omega)
  have hsequence := hsource.integerInSize (plh.sequenceNum.setWidth 64) htsn (by omega)
  have hdest := hsequence.integerInSize (plh.destinationEid.setWidth 64) heid (by omega)
  exact ⟨hdest.ok, hdest.position.trans (by omega), hdest.maxSize⟩

theorem valueEncodedSizeLoop_le (value : Nat) :
    ∀ fuel minSize, minSize ≤ 8 → valueEncodedSizeLoop value fuel minSize ≤ 8
  | 0, _, h => h
  | fuel + 1, minSize, h => by
    rw [valueEncodedSizeLoop]
    split
    · exact valueEncodedSizeLoop_le value fuel (minSize + 1) (by omega)
    · exact h

theorem getValueEncodedSize_le (value : BitVec 64) : (getValueEncodedSize value).toNat ≤ 8 := by
  have h := valueEncodedSizeLoop_le value.toNat 7 1 (by decide)
  rw [getValueEncodedSize, BitVec.toNat_ofNat, Nat.mod_eq_of_lt (by omega)]
  exact h

/-- Behind its headers a file data PDU has room for at least 480 octets. -/
theorem fdPdu_used (t : Transaction) (srcEid dstEid : EntityId) (towardsSender : Bool)
    (tsn : TransactionSeq) (foffs : Nat) :
    let hdr := outPduHeader t 0 srcEid dstEid towardsSender tsn
    Used (fdPdu (startPdu encodeStart hdr 0) foffs).penc 32 := by
  intro hdr
  have hempty : Used encodeStart.penc 0 := ⟨rfl, Nat.le_refl _, rfl⟩
  have hheader : Used (encodeHeaderWithoutSize encodeStart.penc hdr).1 _ :=
    hempty.header (getValueEncodedSize_le _) (getValueEncodedSize_le _) (by decide)
  have hflag := (startPdu_fileData hdr).2.1
  simp only [fdPdu]
  rw [hflag]
  exact hheader.fixedChunk (storeUint32 _) (by simp [storeUint32, maxPduSize])

/-- How many octets a file data PDU for `foffs` takes. -/
def fileDataSize (cfg : Config) (w : World) (foffs bytesToRead : Nat) : Nat :=
  let hdr := outPduHeader w.t 0 cfg.localEid w.t.history.peerEid false w.t.history.seqNum
  actualBytes cfg (fdPdu (startPdu encodeStart hdr 0) foffs).penc bytesToRead

theorem fileDataSize_le (cfg : Config) (w : World) (foffs bytesToRead : Nat) :
    fileDataSize cfg w foffs bytesToRead ≤ bytesToRead :=
  (Nat.min_le_left _ _).trans (Nat.min_le_right _ _)

theorem fileDataSize_pos {cfg : Config} {w : World} {foffs bytesToRead : Nat}
    (hchunk : 0 < cfg.outgoingFileChunkSize) (hleft : 0 < bytesToRead) :
    0 < fileDataSize cfg w foffs bytesToRead := by
  have h := fdPdu_used w.t cfg.localEid w.t.history.peerEid false w.t.history.seqNum foffs
  have hremain : 0 < EncoderState.remain (fdPdu (startPdu encodeStart
      (outPduHeader w.t 0 cfg.localEid w.t.history.peerEid false w.t.history.seqNum) 0)
      foffs).penc := by
    have hpos := h.position
    have hmax := h.maxSize
    simp only [EncoderState.remain, codecGetRemain, hmax, maxPduSize]
    omega
  exact lt_min (lt_min hremain hleft) hchunk

/-! ## The outcome of a send -/

/-- Result and world after `sSendFileData` is asked for `bytesToRead` octets at
`foffs`. A failed access may have moved the descriptor; a PDU carries what was
read there. -/
inductive FileDataOutcome (cfg : Config) (w : World) (foffs bytesToRead : Nat) (calcCrc : Bool) :
    Int × World → Prop
  | noBuffer {w' : World} (noPdu : (msgOutGet cfg w).1 = none) (frame : SendFrame w w')
      (sent : w'.sent = w.sent) : FileDataOutcome cfg w foffs bytesToRead calcCrc (0, w')
  | refused {w' : World} {fd : Option OpenFile}
      (reason : (∃ k, w.fileOps k = false) ∨ w.t.fd = none)
      (moved : fd = w.t.fd ∨ ∃ f, w.t.fd = some f ∧
        fd = some (f.at (accessPos w.t.s.cachedPos foffs f.file.pos)))
      (frame : SendFrame { w with fileOps := w'.fileOps, t.fd := fd } w')
      (sent : w'.sent = w.sent) : FileDataOutcome cfg w foffs bytesToRead calcCrc (-1, w')
  | short {w' : World} {f : OpenFile} {octets : List Octet} (fd : w.t.fd = some f)
      (read : octets = window f.file.data (accessPos w.t.s.cachedPos foffs f.file.pos)
        (fileDataSize cfg w foffs bytesToRead))
      (size : octets.length ≠ fileDataSize cfg w foffs bytesToRead)
      (frame : SendFrame
        { w with
          fileOps := w'.fileOps
          t.fd := some (f.at (accessPos w.t.s.cachedPos foffs f.file.pos + octets.length)) } w')
      (sent : w'.sent = w.sent) : FileDataOutcome cfg w foffs bytesToRead calcCrc (-1, w')
  | sent {w' : World} {f : OpenFile} {octets : List Octet} {ph : OutPdu}
      (fd : w.t.fd = some f)
      (read : octets = window f.file.data (accessPos w.t.s.cachedPos foffs f.file.pos)
        (fileDataSize cfg w foffs bytesToRead))
      (size : octets.length = fileDataSize cfg w foffs bytesToRead)
      (header : ph.intHeader = .fd
        { (default : PduFileDataHeader) with
          offset := BitVec.ofNat 32 foffs
          dataPtr := some octets
          dataLen := octets.length })
      (wire : ph.wire.drop ph.pduHeader.headerEncodedLength.toNat =
        storeUint32 (BitVec.ofNat 32 foffs) ++ octets)
      (frame : SendFrame
        { w with
          fileOps := w'.fileOps
          t.fd := some (f.at (accessPos w.t.s.cachedPos foffs f.file.pos + octets.length))
          t.s.cachedPos := toUint32 (w.t.s.cachedPos + octets.length)
          t.crc := if calcCrc then crcDigest w.t.crc octets else w.t.crc } w')
      (sent : w'.sent = w.sent ++ [ph]) :
      FileDataOutcome cfg w foffs bytesToRead calcCrc (octets.length, w')

theorem msgOutGet_pdu {cfg : Config} {w : World} {ph : OutPdu}
    (h : (msgOutGet cfg w).1 = some ph) : ph = encodeStart := by
  simp only [msgOutGet] at h
  split at h
  · cases h
  · split at h
    · split at h
      · exact (Option.some.inj h).symm
      · cases h
    · cases h

theorem SendFrame.replace {w w' : World} (h : SendFrame w w') (t : Transaction) (ops : Answers)
    (pdus : List OutPdu) : SendFrame { w with t := t, fileOps := ops }
      { w' with t := t, fileOps := ops, sent := pdus } :=
  ⟨h.self, rfl, h.chan, h.cur, h.txns, h.seqNum, rfl, h.files, h.fault⟩

/-- The part of `sSendFileData` behind `msgOutGet`, which led from `w` to `w₁`. -/
theorem sSendFileDataPdu_outcome {cfg : Config} {w w₁ : World} (hframe : SendFrame w w₁)
    (hsent : w₁.sent = w.sent) (foffs bytesToRead : Nat) (calcCrc : Bool) :
    FileDataOutcome cfg w foffs bytesToRead calcCrc
      (sSendFileDataPdu cfg w₁ (startPdu encodeStart
        (outPduHeader w.t 0 cfg.localEid w.t.history.peerEid false w.t.history.seqNum) 0)
        foffs bytesToRead calcCrc) := by
  have hroom := fdPdu_used w.t cfg.localEid w.t.history.peerEid false w.t.history.seqNum foffs
  generalize hhdr : outPduHeader w.t 0 cfg.localEid w.t.history.peerEid false
    w.t.history.seqNum = hdr at hroom ⊢
  generalize hn : actualBytes cfg (fdPdu (startPdu encodeStart hdr 0) foffs).penc bytesToRead = n
  have hsize : fileDataSize cfg w foffs bytesToRead = n := by
    simp only [fileDataSize, hhdr, hn]
  have hfits : (fdPdu (startPdu encodeStart hdr 0) foffs).penc.codecState.nextOffset + n ≤
      (fdPdu (startPdu encodeStart hdr 0) foffs).penc.codecState.maxSize := by
    have hle : n ≤ (fdPdu (startPdu encodeStart hdr 0) foffs).penc.remain :=
      hn ▸ (Nat.min_le_left _ _).trans (Nat.min_le_left _ _)
    have hposition := hroom.position
    have hmax := hroom.maxSize
    simp only [EncoderState.remain, codecGetRemain, maxPduSize] at hle hmax
    omega
  have hchunk := doEncodeChunk_room hroom.ok hfits
  simp only [sSendFileDataPdu, hn, hchunk]
  have hstill : SendFrame { w with fileOps := w₁.fileOps.skip 1, t.fd := w.t.fd }
      (w₁.afterFileOp w₁.t.fd) := by
    rw [World.afterFileOp, hframe.t]
    exact hframe.replace _ _ _
  have hno : ∀ m, w₁.fileOps.skip m 0 ≠ true → ∃ k, w.fileOps k = false := by
    intro m hop
    rw [hframe.fileOps] at hop
    exact ⟨0 + m, by simpa [Answers.skip] using hop⟩
  rcases seekFrom_cases w₁ w₁.t.s.cachedPos foffs with
    ⟨f, m, hfd, heq⟩ | ⟨hfd, heq⟩ | ⟨hreason, heq⟩
  · simp only [heq]
    rw [hframe.t] at hfd ⊢
    generalize hpos : accessPos w.t.s.cachedPos foffs f.file.pos = pos
    rcases wrappedRead_cases { w₁ with
        fileOps := w₁.fileOps.skip m
        t := { w.t with fd := some (f.at pos) } } n with ⟨f', hfd', -, hread⟩ | ⟨hreason, hread⟩
    · cases hfd'
      simp only [hread, OpenFile.at_data, OpenFile.at_pos, OpenFile.at_at]
      generalize hoctets : window f.file.data pos n = octets
      by_cases hlen : octets.length = n
      · subst hlen
        simp only [↓reduceIte, sendFd]
        have hwire := fileDataPdu_wire (show hdr.segmentMetaFlag = 0 by rw [← hhdr]; rfl) hchunk
        rw [← hsize] at hoctets
        subst hpos
        cases calcCrc with
        | false =>
          exact .sent hfd hoctets.symm hsize.symm rfl hwire (hframe.replace _ _ _)
            (congrArg (· ++ _) hsent)
        | true =>
          exact .sent hfd hoctets.symm hsize.symm rfl hwire (hframe.replace _ _ _)
            (congrArg (· ++ _) hsent)
      · simp only [hlen, ↓reduceIte]
        subst hpos
        exact .short hfd (hsize ▸ hoctets.symm) (hsize ▸ hlen) (hframe.replace _ _ _) hsent
    · simp only [hread]
      refine .refused (.inl (hno m fun hop => ?_)) (.inr ⟨f, hfd, hpos ▸ rfl⟩)
        (hframe.replace _ _ _) hsent
      cases hreason hop
  · -- no open file and no seek: the read fails
    simp only [heq]
    rcases wrappedRead_cases w₁ n with ⟨f, hfd', _⟩ | ⟨-, hread⟩
    · rw [hfd] at hfd'
      cases hfd'
    · simp only [hread]
      exact .refused (.inr (hframe.t ▸ hfd)) (.inl rfl) hstill hsent
  · simp only [heq]
    refine .refused ?_ (.inl rfl) hstill hsent
    rw [hframe.t] at hreason
    by_cases hop : w₁.fileOps 0 = true
    · exact .inr (hreason hop)
    · exact .inl (hno 0 hop)

theorem sSendFileData_outcome (cfg : Config) (w : World) (foffs bytesToRead : Nat)
    (calcCrc : Bool) : FileDataOutcome cfg w foffs bytesToRead calcCrc
      (sSendFileData cfg w foffs bytesToRead calcCrc) := by
  have hframe := msgOutGet_frame cfg w
  have hsent := msgOutGet_sent cfg w
  have hroom := fdPdu_used w.t cfg.localEid w.t.history.peerEid false w.t.history.seqNum foffs
  simp only [sSendFileData, constructPduHeader]
  cases hpdu : (msgOutGet cfg w).1 with
  | none => exact .noBuffer hpdu hframe hsent
  | some ph =>
    cases msgOutGet_pdu hpdu
    generalize (msgOutGet cfg w).2 = w₁ at hframe hsent
    exact sSendFileDataPdu_outcome hframe hsent foffs bytesToRead calcCrc

/-- All a send can change of the transaction. -/
theorem FileDataOutcome.t {cfg : Config} {w : World} {foffs bytesToRead : Nat} {calcCrc : Bool}
    {result : Int × World} (h : FileDataOutcome cfg w foffs bytesToRead calcCrc result) :
    ∃ fd cachedPos crc,
      result.2.t = { w.t with fd := fd, s.cachedPos := cachedPos, crc := crc } := by
  cases h with
  | noBuffer _ frame => exact ⟨w.t.fd, w.t.s.cachedPos, w.t.crc, frame.t⟩
  | refused _ _ frame => exact ⟨_, w.t.s.cachedPos, w.t.crc, frame.t⟩
  | short _ _ _ frame => exact ⟨_, w.t.s.cachedPos, w.t.crc, frame.t⟩
  | sent _ _ _ _ _ frame => exact ⟨_, _, _, frame.t⟩

end Nos3.Cf

/-!
## What the sending handlers do to the source file

Every handler of a sending transaction is `NoFileData`: it leaves the descriptor
alone and sends directives only, or it frees the transaction. The exceptions are
the calls of `sSendFileData` and the opening of the file, which have rules of
their own.
-/
namespace Nos3.Cf

def OutPdu.isFileData (ph : OutPdu) : Bool :=
  match ph.intHeader with
  | .fd _ => true
  | _ => false

/-- The transaction keeps its state, its descriptor and `cached_pos`, and its chunk
list is there if it was. -/
structure SameFile (t t' : Transaction) : Prop where
  state : t'.state = t.state
  fd : t'.fd = t.fd
  cachedPos : t'.s.cachedPos = t.s.cachedPos
  chunks : t.chunks.isSome = true → t'.chunks.isSome = true

/-- The transaction is over and its file closed. -/
structure Closed (t : Transaction) : Prop where
  state : t.state = .idle
  fd : t.fd = none

structure NoFileData (w w' : World) : Prop where
  t : SameFile w.t w'.t ∨ Closed w'.t
  sent : ∃ pdus, w'.sent = w.sent ++ pdus ∧ ∀ ph ∈ pdus, ph.isFileData = false

theorem SameFile.refl (t : Transaction) : SameFile t t := ⟨rfl, rfl, rfl, id⟩

theorem SameFile.trans {t t' t'' : Transaction} (h : SameFile t t') (h' : SameFile t' t'') :
    SameFile t t'' :=
  ⟨h'.state.trans h.state, h'.fd.trans h.fd, h'.cachedPos.trans h.cachedPos,
    fun hchunks => h'.chunks (h.chunks hchunks)⟩

theorem Closed.of_sameFile {t t' : Transaction} (h : Closed t) (h' : SameFile t t') : Closed t' :=
  ⟨h'.state.trans h.state, h'.fd.trans h.fd⟩

/-- A step that sends nothing and keeps the file. -/
theorem NoFileData.of_t {w w' : World} (ht : SameFile w.t w'.t) (hsent : w'.sent = w.sent) :
    NoFileData w w' :=
  ⟨.inl ht, [], by simp [hsent], by simp⟩

theorem NoFileData.refl (w : World) : NoFileData w w := .of_t (.refl _) rfl

theorem NoFileData.trans {w w' w'' : World} (h : NoFileData w w') (h' : NoFileData w' w'') :
    NoFileData w w'' := by
  obtain ⟨pdus, hpdus, hno⟩ := h.sent
  obtain ⟨pdus', hpdus', hno'⟩ := h'.sent
  refine ⟨?_, pdus ++ pdus', by rw [hpdus', hpdus, List.append_assoc], ?_⟩
  · rcases h'.t with hsame | hclosed
    · rcases h.t with hbefore | hclosed
      · exact .inl (hbefore.trans hsame)
      · exact .inr (hclosed.of_sameFile hsame)
    · exact .inr hclosed
  · intro ph hph
    rcases List.mem_append.mp hph with hph | hph
    · exact hno ph hph
    · exact hno' ph hph

/-! ## Sending directives -/

theorem closePdu_isFileData (ph : OutPdu) : (closePdu ph).isFileData = ph.isFileData := rfl

theorem sendDirective_noFileData {w : World} {out : Option OutPdu × World}
    (hframe : SendFrame w out.2) (hsent : out.2.sent = w.sent) {fill : OutPdu → OutPdu}
    (hfill : ∀ ph, (fill ph).isFileData = false) : NoFileData w (sendDirective out fill).2 := by
  obtain ⟨ph, w'⟩ := out
  have hsame : SameFile w.t w'.t := by
    rw [hframe.t]
    exact .refl _
  cases ph with
  | none => exact .of_t hsame hsent
  | some ph =>
    refine ⟨.inl hsame, [closePdu (fill ph)], ?_, by simp [closePdu_isFileData, hfill]⟩
    exact congrArg (· ++ _) hsent

theorem sendMd_noFileData (cfg : Config) (w : World) : NoFileData w (sendMd cfg w).2 :=
  sendDirective_noFileData (constructPduHeader_frame ..) (constructPduHeader_sent ..) fun _ => rfl

theorem sendEof_noFileData (cfg : Config) (w : World) : NoFileData w (sendEof cfg w).2 :=
  sendDirective_noFileData (constructPduHeader_frame ..) (constructPduHeader_sent ..) fun _ => rfl

theorem sendAck_noFileData (cfg : Config) (w : World) (ts dirCode cc : Octet) (peerEid : EntityId)
    (tsn : TransactionSeq) : NoFileData w (sendAck cfg w ts dirCode cc peerEid tsn).2 :=
  sendDirective_noFileData (constructPduHeader_frame ..) (constructPduHeader_sent ..) fun _ => rfl

/-! ## The end of a transaction -/

theorem setTxnStatus_noFileData (w : World) (status : TxnStatus) :
    NoFileData w (setTxnStatus w status) := by
  unfold setTxnStatus
  split
  · exact .refl w
  · exact .of_t ⟨rfl, rfl, rfl, id⟩ rfl

theorem resetTransaction_noFileData (w : World) (keepHistory : Bool) :
    NoFileData w (resetTransaction w keepHistory) := by
  cases hchunks : w.t.chunks with
  | none =>
    rw [resetTransaction_fault hchunks]
    exact .of_t (.refl _) rfl
  | some chunks =>
    have hfreed := resetTransaction_freed (w := w) (by rw [hchunks]; rfl) keepHistory
    refine ⟨.inr ?_, [], by simp [hfreed.sent], by simp⟩
    rw [hfreed.t]
    exact ⟨rfl, rfl⟩

theorem sReset_noFileData (w : World) (status : TxnStatus) :
    NoFileData w (sReset (setTxnStatus w status)) :=
  (setTxnStatus_noFileData w status).trans (resetTransaction_noFileData _ true)

/-! ## The handlers -/

theorem sSendEof_noFileData (cfg : Config) (w : World) : NoFileData w (sSendEof cfg w).2 := by
  refine .trans ?_ (sendEof_noFileData cfg _)
  split
  · exact .of_t ⟨rfl, rfl, rfl, id⟩ rfl
  · exact .refl w

theorem s1SubstateSendEof_noFileData (cfg : Config) (w : World) :
    NoFileData w (s1SubstateSendEof cfg w) := by
  have h := sSendEof_noFileData cfg w
  simp only [s1SubstateSendEof]
  split
  · rename_i heq
    rw [heq] at h
    exact h
  · rename_i heq
    rw [heq] at h
    exact h.trans (resetTransaction_noFileData _ true)

theorem s2SubstateSendEof_noFileData (w : World) : NoFileData w (s2SubstateSendEof w) :=
  .of_t ⟨rfl, rfl, rfl, id⟩ rfl

theorem sSubstateSendFinAck_noFileData (cfg : Config) (w : World) :
    NoFileData w (sSubstateSendFinAck cfg w) := by
  have h := sendAck_noFileData cfg w AckTxnStatus.active FileDirective.fin w.t.s.s2.finCc
    w.t.history.peerEid w.t.history.seqNum
  simp only [sSubstateSendFinAck]
  split
  · rename_i heq
    rw [heq] at h
    exact h
  · rename_i heq
    rw [heq] at h
    exact h.trans (sReset_noFileData _ _)

theorem s2NakSegment_noFileData (w : World) (sr : SegmentRequest) :
    NoFileData w (s2NakSegment w sr) := by
  unfold s2NakSegment
  split
  · exact .of_t ⟨rfl, rfl, rfl, id⟩ rfl
  · split
    · exact .refl w
    · split
      · exact .refl w
      · exact .of_t ⟨rfl, rfl, rfl, fun _ => rfl⟩ rfl

theorem s2NakSegments_noFileData (segments : List SegmentRequest) (w : World) :
    NoFileData w (segments.foldl s2NakSegment w) := by
  induction segments generalizing w with
  | nil => exact .refl w
  | cons sr rest ih => exact (s2NakSegment_noFileData w sr).trans (ih _)

theorem s2Nak_noFileData (w : World) (ph : PduBuffer) : NoFileData w (s2Nak w ph) := by
  simp only [s2Nak]
  split
  · exact s2NakSegments_noFileData _ w
  · exact .refl w

theorem armAckTimer_noFileData (cfg : Config) (w : World) : NoFileData w (armAckTimer cfg w) :=
  .of_t ⟨rfl, rfl, rfl, id⟩ rfl

theorem s2WaitForEofAck_noFileData (w : World) (ph : PduBuffer) :
    NoFileData w (s2WaitForEofAck w ph) := by
  simp only [s2WaitForEofAck]
  split
  · split
    · exact resetTransaction_noFileData w true
    · exact .of_t ⟨rfl, rfl, rfl, id⟩ rfl
  · exact .refl w

/-- The handlers a directive can reach. -/
theorem s2SubstateFns_cases {cfg : Config} {subState : TxSubState} {directiveCode : Octet}
    {handler : RecvHandler} (h : s2SubstateFns cfg subState directiveCode = some handler) :
    handler = s2EarlyFin ∨ handler = s2Fin ∨ handler = s2Nak ∨ handler = s2NakArm cfg ∨
      handler = s2WaitForEofAck := by
  simp only [s2SubstateFns] at h
  cases subState <;> grind

theorem s2SubstateFns_noFileData {cfg : Config} {subState : TxSubState} {directiveCode : Octet}
    {handler : RecvHandler} (h : s2SubstateFns cfg subState directiveCode = some handler)
    (w : World) (ph : PduBuffer) : NoFileData w (handler w ph) := by
  rcases s2SubstateFns_cases h with rfl | rfl | rfl | rfl | rfl
  · exact sReset_noFileData w _
  · exact .of_t ⟨rfl, rfl, rfl, id⟩ rfl
  · exact s2Nak_noFileData w ph
  · exact (armAckTimer_noFileData cfg w).trans (s2Nak_noFileData _ ph)
  · exact s2WaitForEofAck_noFileData w ph

theorem sDispatchRecv_noFileData {w : World} {ph : PduBuffer}
    {dispatch : TxSubState → Octet → Option RecvHandler}
    (h : ∀ handler, dispatch w.t.s.subState ph.fdirective.directiveCode = some handler →
      NoFileData w (handler w ph)) : NoFileData w (sDispatchRecv w ph dispatch) := by
  simp only [sDispatchRecv]
  split
  · split
    · rename_i handler heq
      exact h handler heq
    · exact .refl w
  · exact .refl w

theorem sCancel_noFileData (w : World) : NoFileData w (sCancel w) := by
  simp only [sCancel]
  split
  · exact .of_t ⟨rfl, rfl, rfl, id⟩ rfl
  · exact .of_t ⟨rfl, rfl, rfl, id⟩ rfl
  · exact .refl w

theorem sTickAckTimer_noFileData (cfg : Config) (w : World) :
    NoFileData w (sTickAckTimer cfg w).2 := by
  have hcount : NoFileData w
      { w with t.s.s2.acknakCount := nextAcknakCount w.t.s.s2.acknakCount } :=
    .of_t ⟨rfl, rfl, rfl, id⟩ rfl
  have heof := hcount.trans (sSendEof_noFileData cfg _)
  simp only [sTickAckTimer]
  split
  · exact .refl w
  · split
    · exact .of_t ⟨rfl, rfl, rfl, id⟩ rfl
    · split
      · split
        · exact hcount.trans (sReset_noFileData _ _)
        · split
          · rename_i heq
            rw [heq] at heof
            exact heof
          · rename_i heq
            rw [heq] at heof
            exact heof.trans (sReset_noFileData _ _)
          · rename_i heq
            rw [heq] at heof
            exact heof.trans (armAckTimer_noFileData cfg _)
      · exact .refl w

theorem sTick_noFileData (cfg : Config) (w : World) : NoFileData w (sTick cfg w) := by
  simp only [sTick]
  split
  · exact .refl w
  · split
    · exact sReset_noFileData w _
    · have htick : NoFileData w { w with t.inactivityTimer := timerTick w.t.inactivityTimer } :=
        .of_t ⟨rfl, rfl, rfl, id⟩ rfl
      have hack := htick.trans (sTickAckTimer_noFileData cfg _)
      split
      · exact hack.trans (sSubstateSendFinAck_noFileData cfg _)
      · exact hack

/-! ## Events of a sending transaction -/

theorem armInactTimer_noFileData (cfg : Config) (w : World) :
    NoFileData w (armInactTimer cfg w) :=
  .of_t ⟨rfl, rfl, rfl, id⟩ rfl

theorem dispatchRecv_noFileData (cfg : Config) {w : World} (h : isSender w.t = true)
    (ph : PduBuffer) : NoFileData w (dispatchRecv cfg w ph) := by
  refine .trans ?_ (armInactTimer_noFileData cfg _)
  simp only [isSender, Bool.or_eq_true, beq_iff_eq] at h
  rcases h with h | h
  · simp only [h, reduceCtorEq, ↓reduceIte, rxStateDispatch]
    exact sDispatchRecv_noFileData fun _ hnone => by cases hnone
  · simp only [h, reduceCtorEq, ↓reduceIte, rxStateDispatch]
    exact sDispatchRecv_noFileData fun _ hsome => s2SubstateFns_noFileData hsome w ph

theorem cancelTransaction_noFileData {w : World} (h : isSender w.t = true) :
    NoFileData w (cancelTransaction w) := by
  have hcanceled : NoFileData w { w with t.com.canceled := true } := .of_t ⟨rfl, rfl, rfl, id⟩ rfl
  have hstatus := hcanceled.trans (setTxnStatus_noFileData _ .cancelRequestReceived)
  simp only [cancelTransaction]
  split
  · exact .refl w
  · split
    · exact hstatus.trans (sCancel_noFileData _)
    · rename_i hreceiver
      exact absurd (by unfold setTxnStatus; split <;> exact h) hreceiver

end Nos3.Cf
