import Nos3.Cf.Source.ReceiverRules
import Nos3.Cf.Source.SenderRules

/-!
# A completed reception is followed by a FIN

`complete` stops the ack timer from looking for gaps, so it has to come with a
FIN that is due or was sent. The invariant adds that a completed transaction has
its metadata.
-/
namespace Nos3.Cf
open Nos3.Base.Transition

/-- A FIN is due or was sent. -/
def FinScheduled (t : Transaction) : Prop :=
  t.rx.sendFin = true ∨ t.r.subState = .waitForFinAck

instance (t : Transaction) : Decidable (FinScheduled t) := inferInstanceAs (Decidable (_ ∨ _))

/-- The sender's EOF reported no error. -/
def EofNoError (t : Transaction) : Prop :=
  t.rx.eofRecv = true ∧ t.r.r2.eofCc = ConditionCode.noError

instance (t : Transaction) : Decidable (EofNoError t) := inferInstanceAs (Decidable (_ ∧ _))

def CompletionFinished (t : Transaction) : Prop :=
  t.state = .r2 → t.rx.complete = true → EofNoError t → t.isError = false → FinScheduled t

/-! ## The steps that miss the FIN -/

/-- The NAK that is next to be sent asks for nothing, after the EOF. -/
def NakWithoutGaps (t : Transaction) : Prop :=
  t.rx.sendAck = false ∧ t.rx.sendNak = true ∧ t.rx.mdRecv = true ∧ nakGaps t = [] ∧
    EofNoError t ∧ t.isError = false ∧ ¬FinScheduled t

instance (t : Transaction) : Decidable (NakWithoutGaps t) :=
  inferInstanceAs (Decidable (_ ∧ _ ∧ _ ∧ _ ∧ _ ∧ _ ∧ ¬_))

/-- The transaction with the data of a PDU on its chunk list. -/
def withFileData (t : Transaction) (fd : PduFileDataHeader) : Transaction :=
  { t with chunks := some (chunkListAdd t.chunkList fd.offset.toNat fd.dataLen) }

/-- A PDU for a completed transaction whose chunk list does not cover the file: the EOF
finds it so, or data beyond the file takes the place of a chunk. -/
def OpensGap (t : Transaction) (ph : PduBuffer) : Prop :=
  t.rx.complete = true ∧ t.isError = false ∧
    if ph.pduHeader.pduType = 0 then
      ph.fdirective.directiveCode = FileDirective.eof ∧ t.rx.eofRecv = false ∧
        (rSubstateRecvEof t ph).1 = .success ∧
        (rSubstateRecvEof t ph).2.cc = ConditionCode.noError ∧ r2HasGaps t = true
    else
      EofNoError t ∧ t.rx.fdNakSent = true ∧
        r2HasGaps (withFileData t (recvFdDecode ph).2.intHeader.asFd) = true

instance (t : Transaction) (ph : PduBuffer) : Decidable (OpensGap t ph) :=
  inferInstanceAs (Decidable (_ ∧ _ ∧ ite _ _ _))

def FinKept (s : ReceiverState) (label : ReceiverLabel) : Prop :=
  match label.event with
  | .recv ph => ¬OpensGap s.w.t ph
  | .tick => ¬NakWithoutGaps s.w.t
  | .cancel => True

instance (s : ReceiverState) : (label : ReceiverLabel) → Decidable (FinKept s label)
  | ⟨_, .recv ph⟩ => inferInstanceAs (Decidable (¬OpensGap s.w.t ph))
  | ⟨_, .tick⟩ => inferInstanceAs (Decidable (¬NakWithoutGaps s.w.t))
  | ⟨_, .cancel⟩ => .isTrue trivial

/-! ## The invariant -/

def CompletionInv (t : Transaction) : Prop :=
  t.state = .r2 → t.rx.complete = true → t.isError = false →
    t.rx.mdRecv = true ∧ (EofNoError t → FinScheduled t)

variable {cfg : Config} {w : World} {t t' : Transaction}

theorem CompletionInv.finished (h : CompletionInv t) : CompletionFinished t :=
  fun hstate hcomplete heof hno => (h hstate hcomplete hno).2 heof

theorem CompletionInv.of_error (h : t.isError = true) : CompletionInv t := by
  intro _ _ hno
  rw [h] at hno
  cases hno

theorem CompletionInv.of_incomplete (h : t.rx.complete = false) : CompletionInv t := by
  intro _ hcomplete
  rw [h] at hcomplete
  cases hcomplete

theorem CompletionInv.of_state (h : t.state ≠ .r2) : CompletionInv t := fun hstate => absurd hstate h

theorem CompletionInv.same (h : CompletionInv t) (hsame : SameProgress t t') :
    CompletionInv t' := by
  intro hstate hcomplete hno
  rw [hsame.state] at hstate
  rw [hsame.rx] at hcomplete
  have hinv := h hstate hcomplete (isError_false_of hsame.error hno)
  rwa [EofNoError, FinScheduled, hsame.rx, hsame.eofCc, hsame.subState]

theorem CompletionInv.reset (h : CompletionInv w.t) (keepHistory : Bool) :
    CompletionInv (resetTransaction w keepHistory).t := by
  rcases resetTransaction_cases w keepHistory with hfreed | hkept
  · rw [hfreed]
    exact .of_state nofun
  · rwa [hkept]

/-- A FIN that becomes due does no harm. -/
theorem CompletionInv.sendFin (h : CompletionInv w.t) :
    CompletionInv { w with t.rx.sendFin := true }.t := by
  intro hstate hcomplete hno
  exact ⟨(h hstate hcomplete hno).1, fun _ => .inl rfl⟩

theorem CompletionInv.setFin (h : CompletionInv w.t) (status : TxnStatus) :
    CompletionInv (r2SetFinTxnStatus w status).t :=
  (h.same (setTxnStatus_sameProgress w status)).sendFin

theorem CompletionInv.r2Reset (h : CompletionInv w.t) : CompletionInv (r2Reset w).t := by
  unfold Nos3.Cf.r2Reset
  split
  · exact h.reset true
  · exact h.sendFin

/-- Going back to file data, with a FIN due or without the EOF. -/
theorem completion_fileData (hmd : w.t.rx.complete = true → w.t.isError = false →
      w.t.rx.mdRecv = true)
    (hfin : w.t.rx.complete = true → w.t.isError = false → EofNoError w.t →
      w.t.rx.sendFin = true) :
    CompletionInv { w with t.r.subState := .fileData }.t := by
  intro _ hcomplete hno
  exact ⟨hmd hcomplete hno, fun heof => .inl (hfin hcomplete hno heof)⟩

theorem r2SetFinTxnStatus_rx (w : World) (status : TxnStatus) :
    (r2SetFinTxnStatus w status).t.rx = { w.t.rx with sendFin := true } := by
  rw [← (setTxnStatus_sameProgress w status).rx]
  rfl

/-- Below the limit only the NAK becomes due. -/
theorem r2CountNak_below (h : (r2CountNak cfg w).1 = false) :
    (r2CountNak cfg w).2.t.rx = { w.t.rx with sendNak := true } ∧
      (r2CountNak cfg w).2.t.isError = w.t.isError ∧
      (r2CountNak cfg w).2.t.r.r2.eofCc = w.t.r.r2.eofCc := by
  simp only [r2CountNak] at h ⊢
  split
  · rename_i habove
    rw [if_pos habove] at h
    cases h
  · exact ⟨rfl, rfl, rfl⟩

/-- After the search for gaps a transaction that is completed has its FIN. -/
theorem r2Complete_completion (hmd : w.t.rx.complete = true → w.t.isError = false →
      w.t.rx.mdRecv = true)
    (hcovered : w.t.rx.complete = true → w.t.isError = false → EofNoError w.t →
      r2NeedsNak w.t = false) (okToSendNak : Bool) :
    CompletionInv (r2Complete cfg w okToSendNak).t := by
  unfold r2Complete
  split
  · rename_i herror
    exact .of_error herror
  · cases hneeds : r2NeedsNak w.t with
    | false =>
      cases heof : w.t.rx.eofRecv with
      | false =>
        simp only [heof, Bool.false_and, Bool.and_false, Bool.false_eq_true, if_false, Bool.or_false]
        apply completion_fileData hmd
        intro _ _ hno
        rw [EofNoError, heof] at hno
        cases hno.1
      | true =>
        simp only [heof, Bool.not_false, Bool.and_true, Bool.false_and, Bool.false_eq_true, if_false,
          Bool.or_false, if_true]
        apply completion_fileData
        · intro _ _
          rw [r2SetFinTxnStatus_rx]
          exact mdRecv_of_needsNak hneeds
        · intro _ _ _
          rw [r2SetFinTxnStatus_rx]
    | true =>
      have hopen : w.t.rx.complete = true → w.t.isError = false → ¬EofNoError w.t := by
        intro hcomplete hno heof
        rw [hcovered hcomplete hno heof] at hneeds
        cases hneeds
      cases okToSendNak with
      | false =>
        simp only [Bool.not_true, Bool.false_and, Bool.and_false, Bool.false_eq_true, if_false,
          Bool.or_false]
        exact completion_fileData hmd fun hcomplete hno heof =>
          absurd heof (hopen hcomplete hno)
      | true =>
        simp only [Bool.not_true, Bool.false_and, Bool.and_self, if_true, Bool.false_or]
        rcases hcount : r2CountNak cfg w with ⟨limit, counted⟩
        cases limit with
        | true =>
          have herror := r2CountNak_limit (by rw [hcount])
          rw [hcount] at herror
          simp only [if_true]
          apply CompletionInv.of_error
          exact (setTxnStatus_sameProgress { counted with t.rx.complete := true } _).error herror
        | false =>
          obtain ⟨hrx, herror, hcc⟩ := r2CountNak_below (by rw [hcount])
          rw [hcount] at hrx herror hcc
          simp only [Bool.false_eq_true, if_false]
          apply completion_fileData
          · rw [hrx, herror]
            exact hmd
          · rw [EofNoError, hrx, herror, hcc]
            exact fun hcomplete hno heof => absurd heof (hopen hcomplete hno)

/-! ## Received PDUs -/

theorem r2SubstateRecvEof_completion {ph : PduBuffer} (hstate : w.t.state = .r2)
    (h : CompletionInv w.t)
    (hcovered : w.t.rx.complete = true → w.t.isError = false → w.t.rx.eofRecv = false →
      (rSubstateRecvEof w.t ph).1 = .success →
      (rSubstateRecvEof w.t ph).2.cc = ConditionCode.noError → r2HasGaps w.t = false) :
    CompletionInv (r2SubstateRecvEof cfg w ph).t := by
  unfold r2SubstateRecvEof
  split
  · exact h
  · rename_i hfirst
    have hfirst : w.t.rx.eofRecv = false := by simpa using hfirst
    split
    · rename_i eof hrecv
      rw [hrecv] at hcovered
      split
      · rename_i hcc
        apply r2Complete_completion
        · exact fun hcomplete hno => (h hstate hcomplete hno).1
        · intro hcomplete hno _
          have hmd := (h hstate hcomplete hno).1
          have hgaps := hcovered hcomplete hno hfirst rfl hcc
          show (!w.t.rx.mdRecv || r2HasGaps w.t) = false
          rw [hmd, hgaps]
          rfl
      · rename_i hcc
        apply CompletionInv.r2Reset
        apply CompletionInv.of_error
        apply setTxnStatus_isError
        simpa [TxnStatus.fromConditionCode, TxnStatus.isError] using hcc
    · exact h.setFin _
    · intro _ hcomplete hno
      refine ⟨(h hstate hcomplete hno).1, fun heof => ?_⟩
      exact absurd heof.1 (by simp [hfirst])

theorem r2SubstateRecvFileData_completion {ph : PduBuffer} (hstate : w.t.state = .r2)
    (h : CompletionInv w.t)
    (hcovered : w.t.rx.complete = true → w.t.isError = false → EofNoError w.t →
      w.t.rx.fdNakSent = true →
      r2HasGaps (withFileData w.t (recvFdDecode ph).2.intHeader.asFd) = false) :
    CompletionInv (r2SubstateRecvFileData cfg w ph).t := by
  have hsame := rReceiveFd_sameProgress w ph
  have hheader := rReceiveFd_header w ph
  unfold r2SubstateRecvFileData
  split
  · rename_i fd mid hrecv
    rw [hrecv] at hsame hheader
    have hheader : fd = (recvFdDecode ph).2.intHeader.asFd := hheader
    have hstored : SameProgress (withFileData w.t fd)
        (mid.setChunkList (chunkListAdd mid.t.chunkList fd.offset.toNat fd.dataLen)).t := by
      refine ⟨hsame.state, hsame.rx, hsame.subState, hsame.eofCc, ?_, hsame.fsize, hsame.error⟩
      show some (chunkListAdd (mid.t.chunks.getD default) _ _) = _
      rw [hsame.chunks]
      rfl
    generalize mid.setChunkList (chunkListAdd mid.t.chunkList fd.offset.toNat fd.dataLen) = added
      at hstored
    have hadded : CompletionInv added.t :=
      (show CompletionInv (withFileData w.t fd) from h).same hstored
    have hsearched :
        CompletionInv (if added.t.rx.fdNakSent then r2Complete cfg added false else added).t := by
      split
      · rename_i hsent
        apply r2Complete_completion
        · exact fun hcomplete hno => (hadded (hstored.state.trans hstate) hcomplete hno).1
        · intro hcomplete hno heof
          have hmd := (hadded (hstored.state.trans hstate) hcomplete hno).1
          rw [EofNoError, hstored.rx, hstored.eofCc] at heof
          rw [hstored.rx] at hcomplete hsent
          have hgaps := hcovered hcomplete (isError_false_of hstored.error hno) heof hsent
          rw [r2NeedsNak, hmd, hstored.gaps, hheader, hgaps]
          rfl
      · exact hadded
    dsimp only
    generalize (if added.t.rx.fdNakSent then r2Complete cfg added false else added) = searched
      at hsearched
    split
    · exact hsearched.same ⟨rfl, rfl, rfl, rfl, rfl, rfl, id⟩
    · exact hsearched.same ⟨rfl, rfl, rfl, rfl, rfl, rfl, id⟩
  · rename_i fd mid hrecv
    rw [hrecv] at hsame
    exact (h.same hsame).r2Reset

theorem r2RecvFinAck_completion (h : CompletionInv w.t) (ph : PduBuffer) :
    CompletionInv (r2RecvFinAck w ph).t := by
  unfold r2RecvFinAck
  split
  · exact h.r2Reset
  · exact h

theorem CompletionInv.of_open (h : t.rx.complete = true → t.isError = false → False) :
    CompletionInv t := fun _ hcomplete hno => (h hcomplete hno).elim

theorem SameProgress.open (hsame : SameProgress t t')
    (h : t.rx.complete = true → t.isError = false → False) :
    t'.rx.complete = true → t'.isError = false → False := by
  rw [hsame.rx]
  exact fun hcomplete hno => h hcomplete (isError_false_of hsame.error hno)

theorem r2RenameFile_completion (fname : Filename)
    (h : w.t.rx.complete = true → w.t.isError = false → False) :
    CompletionInv (r2RenameFile cfg w fname).t := by
  have hmoved := (wrappedClose_sameProgress w).trans
    (osMv_sameProgress (wrappedClose w) fname w.t.history.fnames.dstFilename)
  unfold r2RenameFile
  dsimp only
  split
  · rename_i moved heq
    rw [heq] at hmoved
    apply CompletionInv.setFin
    exact .of_open (hmoved.open h)
  · rename_i moved heq
    rw [heq] at hmoved
    have hopened := hmoved.trans (wrappedOpen_sameProgress moved w.t.history.fnames.dstFilename)
    split
    · rename_i opened heq
      rw [heq] at hopened
      apply CompletionInv.setFin
      exact .of_open (hopened.open h)
    · rename_i opened heq
      rw [heq] at hopened
      apply r2Complete_completion
      · exact fun _ _ => rfl
      · exact fun hcomplete hno _ => (hopened.open h hcomplete hno).elim

/-- A completed transaction has its metadata, so late metadata finds it open. -/
theorem r2RecvMd_completion (hstate : w.t.state = .r2) (h : CompletionInv w.t) (ph : PduBuffer) :
    CompletionInv (r2RecvMd cfg w ph).t := by
  have hmetadata := recvMd_metadataOnly w ph
  unfold r2RecvMd
  split
  · exact h
  · rename_i hlate
    have hopen : (recvMd w ph).2.t.rx.complete = true → (recvMd w ph).2.t.isError = false →
        False := by
      rw [hmetadata.rx]
      exact fun hcomplete hno =>
        hlate (h hstate hcomplete (isError_false_of hmetadata.error hno)).1
    dsimp only
    split
    · exact .of_open hopen
    · split
      · exact (CompletionInv.of_open hopen).setFin _
      · exact r2RenameFile_completion _ hopen

/-- A PDU for a transaction that was dispatched as class 2. -/
theorem r2Recv_completion {ph : PduBuffer} (hstate : w.t.state = .r2) (h : CompletionInv w.t)
    (hok : ¬OpensGap w.t ph) : CompletionInv (r2Recv cfg w ph).t := by
  unfold r2Recv rDispatchRecv
  split
  · rename_i htype
    split
    · split
      · rename_i handler hdispatch
        have heof : ph.fdirective.directiveCode = FileDirective.eof →
            CompletionInv (r2SubstateRecvEof cfg w ph).t := by
          intro hcode
          apply r2SubstateRecvEof_completion hstate h
          intro hcomplete hno hfirst hsuccess hcc
          rw [Bool.eq_false_iff]
          intro hgaps
          refine hok ⟨hcomplete, hno, ?_⟩
          rw [if_pos htype]
          exact ⟨hcode, hfirst, hsuccess, hcc, hgaps⟩
        unfold r2SubstateFns at hdispatch
        split at hdispatch
        all_goals split_ifs at hdispatch with hcode
        all_goals cases hdispatch
        · exact heof hcode
        · exact r2RecvMd_completion hstate h ph
        · exact heof hcode
        · exact r2RecvMd_completion hstate h ph
        · exact heof hcode
        · exact r2RecvFinAck_completion h ph
      · exact h
    · exact h
  · rename_i htype
    split
    · apply r2SubstateRecvFileData_completion hstate h
      intro hcomplete hno heof hsent
      rw [Bool.eq_false_iff]
      intro hgaps
      refine hok ⟨hcomplete, hno, ?_⟩
      rw [if_neg htype]
      exact ⟨heof, hsent, hgaps⟩
    · exact h

/-! ## Ticks -/

theorem rTickInactivity_completion (hstate : w.t.state = .r2) (h : CompletionInv w.t)
    (hok : ¬NakWithoutGaps w.t) :
    (rTickInactivity w).t.state = .r2 ∧ CompletionInv (rTickInactivity w).t ∧
      ¬NakWithoutGaps (rTickInactivity w).t := by
  unfold rTickInactivity
  split
  · exact ⟨hstate, h, hok⟩
  · split
    · have herror : (r2SetFinTxnStatus w .inactivityDetected).t.isError = true :=
        setTxnStatus_isError rfl
      refine ⟨(setTxnStatus_sameProgress w .inactivityDetected).state.trans hstate,
        .of_error herror, fun hnak => ?_⟩
      obtain ⟨-, -, -, -, -, hno, -⟩ := hnak
      cases herror.symm.trans hno
    · exact ⟨hstate, h, hok⟩

/-- A NAK that asks for nothing completes the transaction: the FIN has to be there, or
the EOF still to come. -/
theorem rSubstateSendNak_completion (h : CompletionInv w.t)
    (hfin : w.t.rx.mdRecv = true → nakGaps w.t = [] → w.t.isError = false → EofNoError w.t →
      FinScheduled w.t) : CompletionInv (rSubstateSendNak cfg w).2.t := by
  have hframe := constructPduHeader_frame cfg w FileDirective.nak w.t.history.peerEid cfg.localEid
    true w.t.history.seqNum
  unfold rSubstateSendNak
  split
  · rename_i mid heq
    rw [heq] at hframe
    exact h.same hframe.sameProgress
  · rename_i out mid heq
    rw [heq] at hframe
    have hmid : mid.t = w.t := hframe.t
    split
    · rename_i hmd
      rw [hmid] at hmd
      dsimp only
      split
      · rename_i hgaps
        rw [hmid, List.isEmpty_iff] at hgaps
        intro _ _ hno
        simp only [hmid] at hno ⊢
        exact ⟨hmd, fun heof => hfin hmd hgaps hno heof⟩
      · have hkept : CompletionInv mid.t := hmid ▸ h
        exact hkept
    · have hkept : CompletionInv mid.t := hmid ▸ h
      exact hkept

theorem r2CalcCrcChunk_completion (h : CompletionInv w.t) :
    CompletionInv (r2CalcCrcChunk cfg w).2.t := by
  unfold r2CalcCrcChunk
  dsimp only
  have hstart : CompletionInv
      (if w.t.r.r2.rxCrcCalcBytes = 0 then { w with t.crc := crcStart } else w).t := by
    split
    · exact h.same ⟨rfl, rfl, rfl, rfl, rfl, rfl, id⟩
    · exact h
  generalize (if w.t.r.r2.rxCrcCalcBytes = 0 then { w with t.crc := crcStart } else w) = started
    at hstart
  have hread := hstart.same (calcCrcLoop_sameProgress cfg
    (started.t.fsize - started.t.r.r2.rxCrcCalcBytes) 0 started)
  split
  · split
    · exact hread.same ⟨rfl, rfl, rfl, rfl, rfl, rfl, id⟩
    · have hchecked (expectedCrc : BitVec 32) : CompletionInv (rCheckCrc (calcCrcLoop cfg
          (started.t.fsize - started.t.r.r2.rxCrcCalcBytes) 0 started).2 expectedCrc).2.t :=
        hread.same ⟨rfl, rfl, rfl, rfl, rfl, rfl, id⟩
      exact ((hchecked _).setFin _).same ⟨rfl, rfl, rfl, rfl, rfl, rfl, id⟩
  · exact hread

/-- Once the FIN is out the transaction waits for its acknowledgement. -/
theorem r2SubstateSendFin_completion (cfg : Config) (h : CompletionInv w.t) :
    CompletionInv (r2SubstateSendFin cfg w).2.t ∧
      ((r2SubstateSendFin cfg w).1 = true →
        (r2SubstateSendFin cfg w).2.t.r.subState = .waitForFinAck) := by
  unfold r2SubstateSendFin
  dsimp only
  have hchunk : CompletionInv
      (if (!w.t.isError && !w.t.com.crcCalc) = true then r2CalcCrcChunk cfg w else (true, w)).2.t := by
    split
    · exact r2CalcCrcChunk_completion h
    · exact h
  generalize (if (!w.t.isError && !w.t.com.crcCalc) = true then r2CalcCrcChunk cfg w
    else (true, w)) = checked at hchunk
  split
  · refine ⟨?_, fun _ => rfl⟩
    have hsent := hchunk.same (sendFin_frame cfg checked.2 checked.2.t.r.r2.dc checked.2.t.r.r2.fs
      checked.2.t.history.txnStat.toConditionCode).sameProgress
    intro hstate hcomplete hno
    exact ⟨(hsent hstate hcomplete hno).1, fun _ => .inr rfl⟩
  · exact ⟨hchunk, nofun⟩

theorem rTickSend_completion (h : CompletionInv w.t) (hok : ¬NakWithoutGaps w.t) :
    CompletionInv (rTickSend cfg w).t := by
  unfold rTickSend
  split
  · have hsent := h.same (sendAck_frame cfg w AckTxnStatus.active FileDirective.eof w.t.r.r2.eofCc
      w.t.history.peerEid w.t.history.seqNum).sameProgress
    dsimp only
    split
    · exact hsent
    · exact hsent
  · rename_i hack
    split
    · rename_i hnak
      have hsent : CompletionInv (rSubstateSendNak cfg w).2.t := by
        apply rSubstateSendNak_completion h
        intro hmd hgaps hno heof
        by_contra hmissing
        exact hok ⟨by simpa using hack, hnak, hmd, hgaps, heof, hno, hmissing⟩
      dsimp only
      split
      · exact hsent
      · exact hsent
    · split
      · obtain ⟨hsent, hwaits⟩ := r2SubstateSendFin_completion cfg h
        dsimp only
        split
        · rename_i hsuccess
          intro hstate hcomplete hno
          exact ⟨(hsent hstate hcomplete hno).1, fun _ => .inr (hwaits hsuccess)⟩
        · exact hsent
      · exact h

theorem rTickAckTimer_completion (h : CompletionInv w.t) :
    CompletionInv (rTickAckTimer cfg w).t := by
  unfold rTickAckTimer
  split
  · exact h
  · split
    · exact h.same ⟨rfl, rfl, rfl, rfl, rfl, rfl, id⟩
    · split
      · rename_i hopen
        have hopen : w.t.rx.complete = false := by simpa using hopen
        apply CompletionInv.same _ (armAckTimer_sameProgress cfg _)
        apply r2Complete_completion
        · intro hcomplete
          cases hopen.symm.trans hcomplete
        · intro hcomplete
          cases hopen.symm.trans hcomplete
      · split
        · dsimp only
          split
          · exact (CompletionInv.of_error (setTxnStatus_isError rfl)).r2Reset
          · apply CompletionInv.same _ (armAckTimer_sameProgress cfg _)
            exact (h.same ⟨rfl, rfl, rfl, rfl, rfl, rfl, id⟩).sendFin
        · exact h.same (armAckTimer_sameProgress cfg w)

theorem resetTransaction_state (w : World) (keepHistory : Bool) :
    (resetTransaction w keepHistory).t.state = w.t.state ∨
      (resetTransaction w keepHistory).t.state = .idle := by
  rcases resetTransaction_cases w keepHistory with hfreed | hkept
  · exact .inr (congrArg Transaction.state hfreed)
  · exact .inl (congrArg Transaction.state hkept)

theorem CompletionInv.of_kept_state (h : w.t.state ≠ .r2)
    (hkept : t.state = w.t.state ∨ t.state = .idle) : CompletionInv t := by
  apply CompletionInv.of_state
  rcases hkept with hsame | hidle
  · rwa [hsame]
  · rw [hidle]
    nofun

theorem rTick_completion (h : CompletionInv w.t) (hok : ¬NakWithoutGaps w.t) :
    CompletionInv (rTick cfg w).t := by
  unfold rTick
  split
  · rename_i hstate
    obtain ⟨-, hinactive, hok⟩ := rTickInactivity_completion hstate h hok
    exact rTickAckTimer_completion (rTickSend_completion hinactive hok)
  · split
    · exact h.reset true
    · exact h.same ⟨rfl, rfl, rfl, rfl, rfl, rfl, id⟩

/-! ## A whole run -/

theorem r1Recv_state (w : World) (ph : PduBuffer) :
    (r1Recv w ph).t.state = w.t.state ∨ (r1Recv w ph).t.state = .idle := by
  unfold r1Recv rDispatchRecv
  split
  · split
    · split
      · rename_i handler hdispatch
        unfold r1SubstateFns at hdispatch
        split_ifs at hdispatch
        cases hdispatch
        unfold r1SubstateRecvEof
        dsimp only
        split
        · split
          · exact resetTransaction_state _ true
          · exact resetTransaction_state _ true
        · exact resetTransaction_state w true
      · exact .inl rfl
    · exact .inl rfl
  · split
    · have hsame := rReceiveFd_sameProgress w ph
      unfold r1SubstateRecvFileData
      split
      · rename_i fd mid hrecv
        rw [hrecv] at hsame
        exact .inl hsame.state
      · rename_i fd mid hrecv
        rw [hrecv] at hsame
        have hreset := resetTransaction_state mid true
        rwa [show mid.t.state = w.t.state from hsame.state] at hreset
    · exact .inl rfl

theorem NoFileData.state {w' : World} (h : NoFileData w w') :
    w'.t.state = w.t.state ∨ w'.t.state = .idle :=
  h.t.imp SameFile.state Closed.state

theorem rxStateDispatch_completion {ph : PduBuffer} (h : CompletionInv w.t)
    (hok : ¬OpensGap w.t ph) : CompletionInv (rxStateDispatch cfg w ph).t := by
  unfold rxStateDispatch
  split
  · rename_i hstate
    exact .of_kept_state (by rw [hstate]; nofun) (r1Recv_state w ph)
  · rename_i hstate
    have hsend : NoFileData w (s1Recv w ph) := sDispatchRecv_noFileData fun _ hnone => by cases hnone
    exact .of_kept_state (by rw [hstate]; nofun) hsend.state
  · rename_i hstate
    exact r2Recv_completion hstate h hok
  · rename_i hstate
    have hsend : NoFileData w (s2Recv cfg w ph) :=
      sDispatchRecv_noFileData fun _ hsome => s2SubstateFns_noFileData hsome w ph
    exact .of_kept_state (by rw [hstate]; nofun) hsend.state
  · exact h
  · exact h

theorem not_r2_of_isSender (h : isSender t = true) : t.state ≠ .r2 := by
  intro hstate
  rw [isSender, hstate] at h
  cases h

/-- A canceled transaction has an error status. -/
theorem cancelTransaction_completion (h : CompletionInv w.t) :
    CompletionInv (cancelTransaction w).t := by
  by_cases hsender : isSender w.t = true
  · exact .of_kept_state (not_r2_of_isSender hsender) (cancelTransaction_noFileData hsender).state
  · have herror : (setTxnStatus { w with t.com.canceled := true } .cancelRequestReceived).t.isError =
        true := setTxnStatus_isError rfl
    have hstate := (setTxnStatus_sameProgress
      { w with t.com.canceled := true } .cancelRequestReceived).state
    unfold cancelTransaction
    split
    · exact h
    · dsimp only
      split
      · rename_i hsends
        rw [isSender, hstate] at hsends
        exact absurd hsends hsender
      · unfold rCancel
        split
        · exact .of_error herror
        · exact (CompletionInv.of_error herror).reset true

theorem rInit_complete (h : w.t.rx.complete = false) :
    (rInit cfg w).t.rx.complete = false := by
  unfold rInit
  dsimp only
  have hprepared : (if w.t.state = .r2 then
      armAckTimer cfg (if (!w.t.rx.mdRecv) = true then
        { w with t.history.fnames.dstFilename := tempFilename cfg w.t.history.seqNum } else w)
      else w).t.rx.complete = false := by
    split
    · split
      · exact h
      · exact h
    · exact h
  generalize (if w.t.state = .r2 then
      armAckTimer cfg (if (!w.t.rx.mdRecv) = true then
        { w with t.history.fnames.dstFilename := tempFilename cfg w.t.history.seqNum } else w)
      else w) = prepared at hprepared
  have hcreated := wrappedCreate_sameProgress prepared prepared.t.history.fnames.dstFilename
  split
  · rename_i created heq
    rw [heq] at hcreated
    exact (congrArg FlagsRx.complete hcreated.rx).trans hprepared
  · rename_i created heq
    rw [heq] at hcreated
    have hopen : created.t.rx.complete = false :=
      (congrArg FlagsRx.complete hcreated.rx).trans hprepared
    split
    · rw [r2SetFinTxnStatus_rx]
      exact hopen
    · rcases resetTransaction_cases { created with t.fd := none } true with hfreed | hkept
      · exact congrArg (·.rx.complete) hfreed
      · exact (congrArg (·.rx.complete) hkept).trans hopen

theorem not_opensGap (h : t.rx.complete = false) (ph : PduBuffer) : ¬OpensGap t ph := by
  intro hopens
  cases h.symm.trans hopens.1

theorem recvIdle_completion (hnew : w.t.rx.complete = false) (ph : PduBuffer) :
    CompletionInv (recvIdle cfg w ph).t := by
  have hbound : (bindTransaction w ph.pduHeader).t.rx.complete = false := hnew
  have hreceived : CompletionInv
      (if ph.pduHeader.pduType ≠ 0 then recvIdleFd cfg (bindTransaction w ph.pduHeader) ph
        else recvIdleDirective cfg (bindTransaction w ph.pduHeader) ph).t := by
    generalize bindTransaction w ph.pduHeader = bound at hbound
    split
    · unfold recvIdleFd
      split
      · exact .of_incomplete hbound
      · have hopen : (rInit cfg { bound with t.state := .r2 }).t.rx.complete = false :=
          rInit_complete hbound
        apply CompletionInv.same _ (armInactTimer_sameProgress cfg _)
        exact rxStateDispatch_completion (.of_incomplete hopen) (not_opensGap hopen ph)
    · unfold recvIdleDirective
      split
      · have hmetadata := recvMd_metadataOnly bound ph
        have hopen : (recvMd bound ph).2.t.rx.complete = false := by
          rw [hmetadata.rx]
          exact hbound
        dsimp only
        split
        · exact .of_incomplete (rInit_complete hopen)
        · exact .of_incomplete hopen
      · exact .of_incomplete hbound
  unfold recvIdle
  dsimp only
  generalize (if ph.pduHeader.pduType ≠ 0 then recvIdleFd cfg (bindTransaction w ph.pduHeader) ph
    else recvIdleDirective cfg (bindTransaction w ph.pduHeader) ph) = received at hreceived
  split
  · exact hreceived.reset false
  · exact hreceived

theorem dispatchRecv_completion {ph : PduBuffer} (h : CompletionInv w.t)
    (hok : ¬OpensGap w.t ph) (hidle : w.t.state ≠ .idle) :
    CompletionInv (dispatchRecv cfg w ph).t := by
  unfold dispatchRecv
  dsimp only
  rw [if_neg hidle]
  exact (rxStateDispatch_completion h hok).same (armInactTimer_sameProgress cfg _)

variable {fresh : ChunkList → Prop} {s s' : ReceiverState}

theorem receiver_start_completion (h : (receiver cfg fresh).start s) : CompletionInv s.w.t := by
  obtain ⟨w₀, history, chunks, ph, ht, -, -, rfl⟩ := h
  show CompletionInv (dispatchRecv cfg w₀ ph).t
  unfold dispatchRecv
  dsimp only
  have hidle : w₀.t.state = .idle := by rw [ht]; rfl
  have hnew : w₀.t.rx.complete = false := by rw [ht]; rfl
  rw [if_pos hidle]
  exact (recvIdle_completion hnew ph).same (armInactTimer_sameProgress cfg _)

theorem receiver_step_completion {label : ReceiverLabel} (h : CompletionInv s.w.t)
    (hok : FinKept s label) (hnext : (receiver cfg fresh).next s label = some s') :
    CompletionInv s'.w.t := by
  obtain ⟨env, event⟩ := label
  simp only [receiver, receiverNext] at hnext
  split at hnext
  · cases hnext
  · rename_i hactive
    cases hnext
    have hidle : (s.w.within env).t.state ≠ .idle := fun hidle => hactive (.inl hidle)
    have hwithin : CompletionInv (s.w.within env).t := h
    cases event with
    | recv ph => exact dispatchRecv_completion hwithin hok hidle
    | tick => exact rTick_completion hwithin hok
    | cancel => exact cancelTransaction_completion hwithin

/-- In every run whose steps all meet `FinKept`. -/
theorem completion_finished (h : (receiver cfg fresh).Reaches FinKept s) :
    CompletionFinished s.w.t :=
  (h.invariant (fun _ => receiver_start_completion)
    fun _ _ _ => receiver_step_completion).finished

/-! ## A file of four octets -/

/-- Entity 2 sends to entity 1; timers are long enough not to expire here. -/
def receivingConfig : Config :=
  { (default : Config) with
    ticksPerSecond := 1
    localEid := 1
    chan := { (default : ChannelConfig) with
      ackTimerS := 10, inactivityTimerS := 30, ackLimit := 4, nakLimit := 4 } }

def noFiles (_ : Filename) : Option (List Octet) := none

/-- A class 2 PDU of sequence number 1; `kind` is 0x20 for a directive, 0x30 for data. -/
def smallPdu (kind : Octet) (dataField : List Octet) : PduBuffer :=
  receivedPdu ([kind, 0, BitVec.ofNat 8 dataField.length, 0, 2, 1, 1] ++ dataField)

def mdFour : PduBuffer := smallPdu 0x20 [7, 0, 0, 0, 0, 4, 1, 97, 1, 98]

def eofFour : PduBuffer := smallPdu 0x20 [4, 0, 0x0A, 0x0B, 0x0C, 0x0D, 0, 0, 0, 4]

def fdAt (offset : Octet) (octets : List Octet) : PduBuffer :=
  smallPdu 0x30 ([0, 0, 0, offset] ++ octets)

def receivedFirst (ph : PduBuffer) : ReceiverState :=
  let w := quietWorld (rxTransaction default) noFiles
  ⟨dispatchRecv receivingConfig { w with chan.cs := fun _ => [chunkListInit 4] } ph, [ph]⟩

theorem receivedFirst_start (ph : PduBuffer) :
    (receiver receivingConfig fun _ => True).start (receivedFirst ph) :=
  ⟨_, _, _, _, rfl, rfl, trivial, rfl⟩

def quietlyReceived (event : ReceiverEvent) : ReceiverLabel :=
  ⟨(quietWorld default noFiles).surroundings, event⟩

/-- The gap is closed between the EOF and the NAK: the acknowledgement of the EOF goes
out first, then the NAK finds no gap. -/
theorem completed_without_fin : ∃ s, (receiver receivingConfig fun _ => True).Reachable s ∧
    ¬CompletionFinished s.w.t := by
  obtain ⟨s, hs, hcheck⟩ := Machine.exists_reaches (fun _ _ => True)
    (fun s : ReceiverState => decide (s.w.t.state = .r2 ∧ s.w.t.rx.complete = true ∧
      EofNoError s.w.t ∧ s.w.t.isError = false ∧ ¬FinScheduled s.w.t))
    (receivedFirst_start mdFour)
    ([.recv (fdAt 0 [10, 11]), .recv eofFour, .recv (fdAt 2 [12, 13]), .tick, .tick].map
      quietlyReceived) (by decide +kernel)
  obtain ⟨hstate, hcomplete, heof, hno, hmissing⟩ := of_decide_eq_true hcheck
  exact ⟨s, hs, fun hfinished => hmissing (hfinished hstate hcomplete heof hno)⟩

/-- All data before the EOF. -/
theorem completion_finished_four : ∃ s : ReceiverState, CompletionFinished s.w.t ∧
    s.w.t.state = .r2 ∧ s.w.t.rx.complete = true ∧ EofNoError s.w.t ∧ s.w.t.isError = false := by
  obtain ⟨s, hs, hcheck⟩ := Machine.exists_reaches FinKept
    (fun s : ReceiverState => decide (s.w.t.state = .r2 ∧ s.w.t.rx.complete = true ∧
      EofNoError s.w.t ∧ s.w.t.isError = false)) (receivedFirst_start mdFour)
    ([.recv (fdAt 0 [10, 11, 12, 13]), .recv eofFour, .tick].map quietlyReceived)
    (by decide +kernel)
  exact ⟨s, completion_finished hs, of_decide_eq_true hcheck⟩

end Nos3.Cf
