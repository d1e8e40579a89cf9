import Nos3.Cf.Source.Engine
import Nos3.Cf.Source.Files
import Nos3.Cf.Source.ReceiverRules

/-!
# Where the handlers leave a transaction

Most of what a handler does is `Quiet`: the transaction stays where it is and
holds what it holds, and at most `cur` comes to point at it. Otherwise it moves
to another queue or it is freed, as the last thing the handler does (`Handled`).
-/
namespace Nos3.Cf

/-- What the rest of the channel sees of a transaction stays. -/
structure Placed (t t' : Transaction) : Prop where
  state : t'.state = t.state
  qIndex : t'.com.qIndex = t.com.qIndex
  slot : t'.history.slot = t.history.slot
  srcEid : t'.history.srcEid = t.history.srcEid
  seqNum : t'.history.seqNum = t.history.seqNum
  dir : t'.history.dir = t.history.dir
  cmdTx : t'.tx.cmdTx = t.tx.cmdTx
  p : t'.p = t.p
  chunks : t.chunks.isSome = true → t'.chunks.isSome = true

theorem Placed.refl (t : Transaction) : Placed t t := ⟨rfl, rfl, rfl, rfl, rfl, rfl, rfl, rfl, id⟩

theorem Placed.trans {t t' t'' : Transaction} (h : Placed t t') (h' : Placed t' t'') :
    Placed t t'' :=
  ⟨h'.state.trans h.state, h'.qIndex.trans h.qIndex, h'.slot.trans h.slot, h'.srcEid.trans h.srcEid,
    h'.seqNum.trans h.seqNum, h'.dir.trans h.dir, h'.cmdTx.trans h.cmdTx, h'.p.trans h.p,
    fun hchunks => h'.chunks (h.chunks hchunks)⟩

structure Quiet (w w' : World) : Prop where
  t : Placed w.t w'.t
  self : w'.self = w.self
  txns : w'.txns = w.txns
  chan : w'.chan = { w.chan with cur := w'.chan.cur }
  cur : w'.chan.cur = w.chan.cur ∨ w'.chan.cur = some w.self
  fault : w'.fault = w.fault

variable {w w' w'' : World}

theorem Quiet.refl (w : World) : Quiet w w := ⟨.refl _, rfl, rfl, rfl, .inl rfl, rfl⟩

theorem Quiet.trans (h : Quiet w w') (h' : Quiet w' w'') : Quiet w w'' := by
  refine ⟨h.t.trans h'.t, h'.self.trans h.self, h'.txns.trans h.txns, ?_, ?_,
    h'.fault.trans h.fault⟩
  · rw [h'.chan, h.chan]
  · rcases h'.cur with hcur | hcur
    · rw [hcur]
      exact h.cur
    · rw [hcur, h.self]
      exact .inr rfl

theorem SendFrame.quiet (h : SendFrame w w') : Quiet w w' := by
  refine ⟨?_, h.self, h.txns, h.chan, h.cur, h.fault⟩
  rw [h.t]
  exact .refl w.t

/-- The transaction alone changes, and nothing of it that the channel sees. -/
theorem Quiet.transaction {t : Transaction} (h : Placed w.t t) : Quiet w { w with t := t } :=
  ⟨h, rfl, rfl, rfl, .inl rfl, rfl⟩

theorem setTxnStatus_quiet (w : World) (status : TxnStatus) : Quiet w (setTxnStatus w status) := by
  unfold setTxnStatus
  split
  · exact .refl w
  · exact .transaction ⟨rfl, rfl, rfl, rfl, rfl, rfl, rfl, rfl, id⟩

theorem armAckTimer_quiet (cfg : Config) (w : World) : Quiet w (armAckTimer cfg w) :=
  .transaction ⟨rfl, rfl, rfl, rfl, rfl, rfl, rfl, rfl, id⟩

theorem armInactTimer_quiet (cfg : Config) (w : World) : Quiet w (armInactTimer cfg w) :=
  .transaction ⟨rfl, rfl, rfl, rfl, rfl, rfl, rfl, rfl, id⟩

/-! ## File operations -/

theorem afterFileOp_quiet (w : World) (fd : Option OpenFile) : Quiet w (w.afterFileOp fd) :=
  ⟨⟨rfl, rfl, rfl, rfl, rfl, rfl, rfl, rfl, id⟩, rfl, rfl, rfl, .inl rfl, rfl⟩

theorem wrappedLseek_quiet (w : World) (offset : Nat) : Quiet w (wrappedLseek w offset).2 := by
  rcases wrappedLseek_cases w offset with ⟨f, -, -, heq⟩ | ⟨-, heq⟩
  · rw [heq]
    exact afterFileOp_quiet w _
  · rw [heq]
    exact afterFileOp_quiet w _

theorem seekFrom_quiet (w : World) (cachedPos offset : Nat) :
    Quiet w (seekFrom w cachedPos offset).2 := by
  have hseek := wrappedLseek_quiet w offset
  unfold seekFrom
  split
  · exact hseek
  · exact .refl w

theorem wrappedLseekEnd_quiet (w : World) : Quiet w (wrappedLseekEnd w).2 := by
  cases hfd : w.t.fd with
  | none =>
    simp only [wrappedLseekEnd, nextFileOp, hfd]
    exact ⟨.refl w.t, rfl, rfl, rfl, .inl rfl, rfl⟩
  | some f =>
    rcases wrappedLseekEnd_cases hfd with ⟨-, heq⟩ | heq
    · rw [heq]
      exact afterFileOp_quiet w _
    · rw [heq]
      exact afterFileOp_quiet w _

theorem wrappedRead_quiet (w : World) (n : Nat) : Quiet w (wrappedRead w n).2 := by
  rcases wrappedRead_cases w n with ⟨f, -, -, heq⟩ | ⟨-, heq⟩
  · rw [heq]
    exact afterFileOp_quiet w _
  · rw [heq]
    exact afterFileOp_quiet w _

theorem wrappedWrite_quiet (w : World) (octets : List Octet) :
    Quiet w (wrappedWrite w octets).2 := by
  rcases wrappedWrite_cases w octets with ⟨f, -, -, heq⟩ | heq
  · rw [heq]
    exact afterFileOp_quiet w _
  · rw [heq]
    exact afterFileOp_quiet w _

theorem wrappedOpen_quiet (w : World) (fname : Filename) : Quiet w (wrappedOpen w fname).2 := by
  rcases wrappedOpen_cases w fname with ⟨data, heq⟩ | heq
  · rw [heq]
    exact afterFileOp_quiet w _
  · rw [heq]
    exact afterFileOp_quiet w _

theorem wrappedCreate_quiet (w : World) (fname : Filename) :
    Quiet w (wrappedCreate w fname).2 := by
  simp only [wrappedCreate, nextFileOp]
  by_cases hop : w.fileOps 0 = true
  · simp only [hop, ↓reduceIte]
    exact afterFileOp_quiet w _
  · simp only [hop, Bool.false_eq_true, ↓reduceIte]
    exact afterFileOp_quiet w _

theorem wrappedClose_quiet (w : World) : Quiet w (wrappedClose w) := by
  obtain ⟨files, fd, heq⟩ := wrappedClose_frame w
  rw [heq]
  exact ⟨⟨rfl, rfl, rfl, rfl, rfl, rfl, rfl, rfl, id⟩, rfl, rfl, rfl, .inl rfl, rfl⟩

theorem osMv_quiet (w : World) (src dst : Filename) : Quiet w (osMv w src dst).2 := by
  simp only [osMv, nextFileOp]
  cases w.files src with
  | none => exact ⟨.refl w.t, rfl, rfl, rfl, .inl rfl, rfl⟩
  | some data =>
    by_cases hop : w.fileOps 0 = true
    · simp only [hop, ↓reduceIte]
      exact ⟨.refl w.t, rfl, rfl, rfl, .inl rfl, rfl⟩
    · simp only [hop, Bool.false_eq_true, ↓reduceIte]
      exact ⟨.refl w.t, rfl, rfl, rfl, .inl rfl, rfl⟩

/-! ## Sending -/

variable {cfg : Config}

theorem sSendEof_quiet (cfg : Config) (w : World) : Quiet w (sSendEof cfg w).2 := by
  refine Quiet.trans ?_ (sendEof_frame cfg _).quiet
  split
  · exact .transaction ⟨rfl, rfl, rfl, rfl, rfl, rfl, rfl, rfl, id⟩
  · exact .refl w

theorem closeAndSend_quiet (w : World) (ph : OutPdu) : Quiet w (closeAndSend w ph) :=
  ⟨.refl w.t, rfl, rfl, rfl, .inl rfl, rfl⟩

theorem sSendFileDataPdu_quiet (cfg : Config) (w : World) (ph : OutPdu) (foffs bytesToRead : Nat)
    (calcCrc : Bool) : Quiet w (sSendFileDataPdu cfg w ph foffs bytesToRead calcCrc).2 := by
  have hseek := seekFrom_quiet w w.t.s.cachedPos foffs
  unfold sSendFileDataPdu
  dsimp only
  split
  · rename_i ptr penc mid hencode heq
    rw [heq] at hseek
    have hread := hseek.trans
      (wrappedRead_quiet mid (actualBytes cfg (fdPdu ph foffs).penc bytesToRead))
    split
    · rename_i octets last hlast
      rw [hlast] at hread
      split
      · simp only [sendFd]
        generalize putFileData (fdPdu ph foffs) penc ptr octets = out
        have hcached : Quiet last { last with
            t.s.cachedPos := toUint32 (last.t.s.cachedPos +
              actualBytes cfg (fdPdu ph foffs).penc bytesToRead) } :=
          .transaction ⟨rfl, rfl, rfl, rfl, rfl, rfl, rfl, rfl, id⟩
        have hsent := hread.trans (hcached.trans (closeAndSend_quiet _ out))
        split
        · exact hsent.trans (.transaction ⟨rfl, rfl, rfl, rfl, rfl, rfl, rfl, rfl, id⟩)
        · exact hsent
      · exact hread
    · rename_i last hlast
      rw [hlast] at hread
      exact hread
  · rename_i heq hfail
    rw [heq] at hseek
    exact hseek

theorem sSendFileData_quiet (cfg : Config) (w : World) (foffs bytesToRead : Nat) (calcCrc : Bool) :
    Quiet w (sSendFileData cfg w foffs bytesToRead calcCrc).2 := by
  have hframe := constructPduHeader_frame cfg w 0 cfg.localEid w.t.history.peerEid false
    w.t.history.seqNum
  unfold sSendFileData
  split
  · rename_i mid heq
    rw [heq] at hframe
    exact hframe.quiet
  · rename_i ph mid heq
    rw [heq] at hframe
    exact hframe.quiet.trans (sSendFileDataPdu_quiet ..)

theorem sSubstateSendFileData_quiet (cfg : Config) (w : World) :
    Quiet w (sSubstateSendFileData cfg w) := by
  unfold sSubstateSendFileData
  dsimp only
  have hsend := sSendFileData_quiet cfg w w.t.foffs
    (toUint32 (w.t.fsize + uint32Modulus - w.t.foffs)) true
  generalize sSendFileData cfg w w.t.foffs (toUint32 (w.t.fsize + uint32Modulus - w.t.foffs)) true
    = out at hsend
  split
  · split
    · exact hsend.trans (.transaction ⟨rfl, rfl, rfl, rfl, rfl, rfl, rfl, rfl, id⟩)
    · exact hsend.trans (.transaction ⟨rfl, rfl, rfl, rfl, rfl, rfl, rfl, rfl, id⟩)
  · split
    · exact (hsend.trans (setTxnStatus_quiet _ _)).trans
        (.transaction ⟨rfl, rfl, rfl, rfl, rfl, rfl, rfl, rfl, id⟩)
    · exact hsend

theorem setChunkList_quiet (w : World) (chunks : ChunkList) : Quiet w (w.setChunkList chunks) :=
  .transaction ⟨rfl, rfl, rfl, rfl, rfl, rfl, rfl, rfl, fun _ => rfl⟩

theorem sCheckAndRespondNak_quiet (cfg : Config) (w : World) :
    Quiet w (sCheckAndRespondNak cfg w).2 := by
  unfold sCheckAndRespondNak
  split
  · have hmd := (sendMd_frame cfg w).quiet
    split
    · rename_i mid heq
      rw [heq] at hmd
      exact hmd
    · rename_i mid heq
      rw [heq] at hmd
      exact hmd.trans (.transaction ⟨rfl, rfl, rfl, rfl, rfl, rfl, rfl, rfl, id⟩)
    · rename_i mid heq
      rw [heq] at hmd
      exact hmd
  · split
    · exact .refl w
    · rename_i c hfirst
      have hsend := sSendFileData_quiet cfg w c.offset c.size false
      dsimp only
      generalize sSendFileData cfg w c.offset c.size false = out at hsend
      split
      · exact hsend.trans (setChunkList_quiet _ _)
      · split
        · exact hsend
        · exact hsend

theorem sSourceSize_quiet (w : World) : Quiet w (sSourceSize w).2 := by
  have hseek := wrappedLseekEnd_quiet w
  unfold sSourceSize
  split
  · rename_i mid heq
    rw [heq] at hseek
    exact hseek
  · rename_i size mid heq
    rw [heq] at hseek
    have hsized : Quiet w { mid with t.fsize := size } :=
      hseek.trans (.transaction ⟨rfl, rfl, rfl, rfl, rfl, rfl, rfl, rfl, id⟩)
    exact hsized.trans (wrappedLseek_quiet _ 0)

theorem sOpenSource_quiet (w : World) : Quiet w (sOpenSource w).2 := by
  unfold sOpenSource
  split
  · have hcheck : Quiet w (fileOpenCheck w).2 := by
      rw [fileOpenCheck_eq]
      exact afterFileOp_quiet w _
    dsimp only
    split
    · exact hcheck
    · have hopen := hcheck.trans
        (wrappedOpen_quiet (fileOpenCheck w).2 (fileOpenCheck w).2.t.history.fnames.srcFilename)
      split
      · rename_i mid heq
        rw [heq] at hopen
        exact hopen
      · rename_i mid heq
        rw [heq] at hopen
        exact hopen.trans (sSourceSize_quiet mid)
  · exact .refl w

theorem s2NakSegment_quiet (w : World) (sr : SegmentRequest) : Quiet w (s2NakSegment w sr) := by
  unfold s2NakSegment
  split
  · exact .transaction ⟨rfl, rfl, rfl, rfl, rfl, rfl, rfl, rfl, id⟩
  · split
    · exact .refl w
    · split
      · exact .refl w
      · exact setChunkList_quiet w _

theorem s2NakSegments_quiet (segments : List SegmentRequest) (w : World) :
    Quiet w (segments.foldl s2NakSegment w) := by
  induction segments generalizing w with
  | nil => exact .refl w
  | cons sr rest ih => exact (s2NakSegment_quiet w sr).trans (ih _)

theorem s2Nak_quiet (w : World) (ph : PduBuffer) : Quiet w (s2Nak w ph) := by
  simp only [s2Nak]
  split
  · exact s2NakSegments_quiet _ w
  · exact .refl w

theorem sCancel_quiet (w : World) : Quiet w (sCancel w) := by
  unfold sCancel
  split
  · exact .transaction ⟨rfl, rfl, rfl, rfl, rfl, rfl, rfl, rfl, id⟩
  · exact .transaction ⟨rfl, rfl, rfl, rfl, rfl, rfl, rfl, rfl, id⟩
  · exact .refl w

/-! ## Receiving -/

theorem r2SetFinTxnStatus_quiet (w : World) (status : TxnStatus) :
    Quiet w (r2SetFinTxnStatus w status) :=
  (setTxnStatus_quiet w status).trans (.transaction ⟨rfl, rfl, rfl, rfl, rfl, rfl, rfl, rfl, id⟩)

theorem r2CountNak_quiet (cfg : Config) (w : World) : Quiet w (r2CountNak cfg w).2 := by
  have hcount : Quiet w { w with t.r.r2.acknakCount := nextAcknakCount w.t.r.r2.acknakCount } :=
    .transaction ⟨rfl, rfl, rfl, rfl, rfl, rfl, rfl, rfl, id⟩
  unfold r2CountNak
  dsimp only
  split
  · exact (hcount.trans (setTxnStatus_quiet _ _)).trans
      (.transaction ⟨rfl, rfl, rfl, rfl, rfl, rfl, rfl, rfl, id⟩)
  · exact .transaction ⟨rfl, rfl, rfl, rfl, rfl, rfl, rfl, rfl, id⟩

theorem r2Complete_quiet (cfg : Config) (w : World) (okToSendNak : Bool) :
    Quiet w (r2Complete cfg w okToSendNak) := by
  unfold r2Complete
  split
  · exact .refl w
  · dsimp only
    have hcounted : Quiet w
        (if (r2NeedsNak w.t && okToSendNak) = true then r2CountNak cfg w else (false, w)).2 := by
      split
      · exact r2CountNak_quiet cfg w
      · exact .refl w
    generalize (if (r2NeedsNak w.t && okToSendNak) = true then r2CountNak cfg w else (false, w))
      = counted at hcounted
    refine Quiet.trans ?_ (.transaction ⟨rfl, rfl, rfl, rfl, rfl, rfl, rfl, rfl, id⟩)
    split
    · have hcomplete : Quiet w { counted.2 with t.rx.complete := true } :=
        hcounted.trans (.transaction ⟨rfl, rfl, rfl, rfl, rfl, rfl, rfl, rfl, id⟩)
      exact hcomplete.trans (r2SetFinTxnStatus_quiet _ _)
    · exact hcounted

theorem rProcessFd_quiet (w : World) (fd : PduFileDataHeader) : Quiet w (rProcessFd w fd).2 := by
  have hseek := seekFrom_quiet w w.t.r.cachedPos fd.offset.toNat
  unfold rProcessFd
  split
  · rename_i mid heq
    rw [heq] at hseek
    exact hseek.trans (setTxnStatus_quiet _ _)
  · rename_i mid heq
    rw [heq] at hseek
    have hwrite := hseek.trans (wrappedWrite_quiet mid fd.octetsOf)
    split
    · rename_i fret last hlast
      rw [hlast] at hwrite
      split
      · exact hwrite.trans (.transaction ⟨rfl, rfl, rfl, rfl, rfl, rfl, rfl, rfl, id⟩)
      · exact hwrite.trans (setTxnStatus_quiet _ _)
    · rename_i last hlast
      rw [hlast] at hwrite
      exact hwrite.trans (setTxnStatus_quiet _ _)

theorem rReceiveFd_quiet (w : World) (ph : PduBuffer) : Quiet w (rReceiveFd w ph).2.2 := by
  have hrecv : Quiet w (recvFd w ph).2.2 := by
    simp only [recvFd]
    split
    · exact .refl w
    · exact setTxnStatus_quiet w _
  simp only [rReceiveFd]
  split
  · exact hrecv.trans (rProcessFd_quiet _ _)
  · exact hrecv

theorem recvMd_quiet (w : World) (ph : PduBuffer) : Quiet w (recvMd w ph).2 := by
  simp only [recvMd]
  split
  · exact .refl w
  · split
    · exact .transaction ⟨rfl, rfl, rfl, rfl, rfl, rfl, rfl, rfl, id⟩
    · split
      · exact .transaction ⟨rfl, rfl, rfl, rfl, rfl, rfl, rfl, rfl, id⟩
      · exact .transaction ⟨rfl, rfl, rfl, rfl, rfl, rfl, rfl, rfl, id⟩

theorem r2RenameFile_quiet (cfg : Config) (w : World) (fname : Filename) :
    Quiet w (r2RenameFile cfg w fname) := by
  have hmoved := (wrappedClose_quiet w).trans
    (osMv_quiet (wrappedClose w) fname w.t.history.fnames.dstFilename)
  unfold r2RenameFile
  dsimp only
  split
  · rename_i moved heq
    rw [heq] at hmoved
    refine Quiet.trans ?_ (r2SetFinTxnStatus_quiet _ _)
    exact hmoved.trans (.transaction ⟨rfl, rfl, rfl, rfl, rfl, rfl, rfl, rfl, id⟩)
  · rename_i moved heq
    rw [heq] at hmoved
    have hopened := hmoved.trans (wrappedOpen_quiet moved w.t.history.fnames.dstFilename)
    split
    · rename_i opened heq
      rw [heq] at hopened
      refine Quiet.trans ?_ (r2SetFinTxnStatus_quiet _ _)
      exact hopened.trans (.transaction ⟨rfl, rfl, rfl, rfl, rfl, rfl, rfl, rfl, id⟩)
    · rename_i opened heq
      rw [heq] at hopened
      refine Quiet.trans ?_ (r2Complete_quiet cfg _ true)
      exact hopened.trans (.transaction ⟨rfl, rfl, rfl, rfl, rfl, rfl, rfl, rfl, id⟩)

theorem r2RecvMd_quiet (cfg : Config) (w : World) (ph : PduBuffer) :
    Quiet w (r2RecvMd cfg w ph) := by
  have hmd := recvMd_quiet w ph
  unfold r2RecvMd
  split
  · exact .refl w
  · dsimp only
    split
    · exact hmd
    · split
      · exact hmd.trans (r2SetFinTxnStatus_quiet _ _)
      · exact hmd.trans (r2RenameFile_quiet cfg _ _)

theorem rSubstateSendNak_quiet (cfg : Config) (w : World) :
    Quiet w (rSubstateSendNak cfg w).2 := by
  have hframe := constructPduHeader_frame cfg w FileDirective.nak w.t.history.peerEid cfg.localEid
    true w.t.history.seqNum
  unfold rSubstateSendNak
  split
  · rename_i mid heq
    rw [heq] at hframe
    exact hframe.quiet
  · rename_i out mid heq
    rw [heq] at hframe
    have hmid := hframe.quiet
    split
    · dsimp only
      split
      · exact hmid.trans (.transaction ⟨rfl, rfl, rfl, rfl, rfl, rfl, rfl, rfl, id⟩)
      · exact hmid.trans ⟨⟨rfl, rfl, rfl, rfl, rfl, rfl, rfl, rfl, id⟩, rfl, rfl, rfl, .inl rfl, rfl⟩
    · exact hmid.trans ⟨.refl _, rfl, rfl, rfl, .inl rfl, rfl⟩

theorem calcCrcLoop_quiet (cfg : Config) (fuel countBytes : Nat) (w : World) :
    Quiet w (calcCrcLoop cfg fuel countBytes w).2 := by
  induction fuel generalizing countBytes w with
  | zero => exact .refl w
  | succ fuel ih =>
    unfold calcCrcLoop
    dsimp only
    split
    · generalize (if w.t.r.r2.rxCrcCalcBytes + r2CrcChunkSize > w.t.fsize then
        w.t.fsize - w.t.r.r2.rxCrcCalcBytes else r2CrcChunkSize) = readSize
      have hseek := seekFrom_quiet w w.t.r.cachedPos w.t.r.r2.rxCrcCalcBytes
      split
      · rename_i mid heq
        rw [heq] at hseek
        exact hseek.trans (setTxnStatus_quiet _ _)
      · rename_i mid heq
        rw [heq] at hseek
        have hread := hseek.trans (wrappedRead_quiet mid readSize)
        split
        · rename_i octets last hlast
          rw [hlast] at hread
          split
          · refine Quiet.trans ?_ (ih _ _)
            exact hread.trans (.transaction ⟨rfl, rfl, rfl, rfl, rfl, rfl, rfl, rfl, id⟩)
          · exact hread.trans (setTxnStatus_quiet _ _)
        · rename_i last hlast
          rw [hlast] at hread
          exact hread.trans (setTxnStatus_quiet _ _)
    · exact .refl w

theorem r2CalcCrcChunk_quiet (cfg : Config) (w : World) : Quiet w (r2CalcCrcChunk cfg w).2 := by
  unfold r2CalcCrcChunk
  dsimp only
  have hstart : Quiet w (if w.t.r.r2.rxCrcCalcBytes = 0 then { w with t.crc := crcStart } else w) := by
    split
    · exact .transaction ⟨rfl, rfl, rfl, rfl, rfl, rfl, rfl, rfl, id⟩
    · exact .refl w
  generalize (if w.t.r.r2.rxCrcCalcBytes = 0 then { w with t.crc := crcStart } else w) = started
    at hstart
  have hread := hstart.trans (calcCrcLoop_quiet cfg
    (started.t.fsize - started.t.r.r2.rxCrcCalcBytes) 0 started)
  split
  · refine Quiet.trans ?_ (.transaction ⟨rfl, rfl, rfl, rfl, rfl, rfl, rfl, rfl, id⟩)
    split
    · exact hread.trans (.transaction ⟨rfl, rfl, rfl, rfl, rfl, rfl, rfl, rfl, id⟩)
    · refine Quiet.trans ?_ (r2SetFinTxnStatus_quiet _ _)
      exact hread.trans (.transaction ⟨rfl, rfl, rfl, rfl, rfl, rfl, rfl, rfl, id⟩)
  · exact hread

theorem r2SubstateSendFin_quiet (cfg : Config) (w : World) :
    Quiet w (r2SubstateSendFin cfg w).2 := by
  unfold r2SubstateSendFin
  dsimp only
  have hchunk : Quiet w
      (if (!w.t.isError && !w.t.com.crcCalc) = true then r2CalcCrcChunk cfg w else (true, w)).2 := by
    split
    · exact r2CalcCrcChunk_quiet cfg w
    · exact .refl w
  generalize (if (!w.t.isError && !w.t.com.crcCalc) = true then r2CalcCrcChunk cfg w
    else (true, w)) = checked at hchunk
  split
  · refine Quiet.trans ?_ (.transaction ⟨rfl, rfl, rfl, rfl, rfl, rfl, rfl, rfl, id⟩)
    exact hchunk.trans (sendFin_frame ..).quiet
  · exact hchunk

theorem rTickInactivity_quiet (w : World) : Quiet w (rTickInactivity w) := by
  unfold rTickInactivity
  split
  · exact .refl w
  · split
    · exact (r2SetFinTxnStatus_quiet w _).trans
        (.transaction ⟨rfl, rfl, rfl, rfl, rfl, rfl, rfl, rfl, id⟩)
    · exact .transaction ⟨rfl, rfl, rfl, rfl, rfl, rfl, rfl, rfl, id⟩

theorem rTickSend_quiet (cfg : Config) (w : World) : Quiet w (rTickSend cfg w) := by
  unfold rTickSend
  split
  · have hack := (sendAck_frame cfg w AckTxnStatus.active FileDirective.eof w.t.r.r2.eofCc
      w.t.history.peerEid w.t.history.seqNum).quiet
    dsimp only
    split
    · exact hack.trans (.transaction ⟨rfl, rfl, rfl, rfl, rfl, rfl, rfl, rfl, id⟩)
    · exact hack
  · split
    · have hnak := rSubstateSendNak_quiet cfg w
      dsimp only
      split
      · exact hnak.trans (.transaction ⟨rfl, rfl, rfl, rfl, rfl, rfl, rfl, rfl, id⟩)
      · exact hnak
    · split
      · have hfin := r2SubstateSendFin_quiet cfg w
        dsimp only
        split
        · exact hfin.trans (.transaction ⟨rfl, rfl, rfl, rfl, rfl, rfl, rfl, rfl, id⟩)
        · exact hfin
      · exact .refl w

end Nos3.Cf
