import Nos3.Cf.Source.SenderRules

/-!
# File data PDUs carry the bytes of the source file, where no stale position is hit

`sSendFileData` seeks where `cached_pos` differs from the offset asked for, and
advances `cached_pos` by what it read, but does not set it to the offset after a
seek. From the first retransmission on it can name a position the descriptor does
not have, and a call for that very offset reads elsewhere.
-/
namespace Nos3.Cf
open Nos3.Base.FileImage Nos3.Base.Transition

/-- A file data PDU holds, behind its header, its offset and exactly the octets
`source` has there. -/
def CarriesFile (source : List Octet) (ph : OutPdu) : Prop :=
  ∀ fd, ph.intHeader = .fd fd →
    (window source fd.offset.toNat fd.dataLen).length = fd.dataLen ∧
    ph.wire.drop ph.pduHeader.headerEncodedLength.toNat =
      storeUint32 fd.offset ++ window source fd.offset.toNat fd.dataLen

/-- `cached_pos` is where the descriptor stands. -/
def Aligned (t : Transaction) : Prop := ∀ f, t.fd = some f → f.file.pos = t.s.cachedPos

/-! ## The calls of `sSendFileData` -/

/-- A call: the world it is made in, the offset and the size asked for. -/
structure SendCall where
  w : World
  foffs : Nat
  bytesToRead : Nat

def firstPassCall (w : World) : SendCall :=
  ⟨w, w.t.foffs, toUint32 (w.t.fsize + uint32Modulus - w.t.foffs)⟩

/-- The call for the first chunk asked for by a NAK. -/
def nakCall (w : World) : List SendCall :=
  if w.t.tx.mdNeedSend then []
  else
    match chunkListGetFirstChunk w.t.chunkList with
    | none => []
    | some c => [⟨w, c.offset, c.size⟩]

/-- The calls an event makes, in order. -/
def sendCalls (cfg : Config) (w : World) : SenderEvent → List SendCall
  | .tx =>
    match w.t.state, w.t.s.subState with
    | .s1, .fileData => [firstPassCall w]
    | .s2, .fileData =>
      let (ret, w') := sCheckAndRespondNak cfg w
      nakCall w ++ if ret = 0 then [firstPassCall w'] else []
    | _, _ => []
  | .tickNak => nakCall w
  | _ => []

/-- Where the call skips the seek, the descriptor stands at the offset. -/
def SendCall.NotStale (call : SendCall) : Prop :=
  ∀ f, call.w.t.fd = some f → call.w.t.s.cachedPos = call.foffs → f.file.pos = call.foffs

/-- The call needs no seek and asks for octets inside the file. -/
def SendCall.InPlace (call : SendCall) : Prop :=
  call.w.t.s.cachedPos = call.foffs ∧
    ∀ f, call.w.t.fd = some f → call.foffs + call.bytesToRead ≤ f.file.data.length

/-! ## What the handlers do, call by call -/

/-- The transaction keeps its state and the content of its file. -/
structure SameContent (t t' : Transaction) : Prop where
  state : t'.state = t.state
  content : t'.fd.map (·.file.data) = t.fd.map (·.file.data)
  cachedPos : t.fd = none → t'.s.cachedPos = t.s.cachedPos
  chunks : t.chunks.isSome = true → t'.chunks.isSome = true

/-- The content of the file survives a step, and the file data PDUs of the step
carry it. -/
structure SendsFrom (w w' : World) : Prop where
  t : SameContent w.t w'.t ∨ Closed w'.t
  sent : ∃ pdus, w'.sent = w.sent ++ pdus ∧ ∀ ph ∈ pdus, ph.isFileData = true →
    ∃ f, w.t.fd = some f ∧
      (f.file.data.length < lseekResultLimit → CarriesFile f.file.data ph)

theorem NoFileData.sendsFrom {w w' : World} (h : NoFileData w w') : SendsFrom w w' := by
  refine ⟨?_, ?_⟩
  · rcases h.t with hsame | hclosed
    · exact .inl ⟨hsame.state, by rw [hsame.fd], fun _ => hsame.cachedPos, hsame.chunks⟩
    · exact .inr hclosed
  · obtain ⟨pdus, hpdus, hno⟩ := h.sent
    refine ⟨pdus, hpdus, fun ph hph hfd => ?_⟩
    rw [hno ph hph] at hfd
    cases hfd

theorem SendsFrom.trans {w w' w'' : World} (h : SendsFrom w w') (h' : SendsFrom w' w'') :
    SendsFrom w w'' := by
  obtain ⟨pdus, hpdus, hcarry⟩ := h.sent
  obtain ⟨pdus', hpdus', hcarry'⟩ := h'.sent
  refine ⟨?_, pdus ++ pdus', by rw [hpdus', hpdus, List.append_assoc], ?_⟩
  · rcases h'.t with hsame' | hclosed
    · have hcontent' := hsame'.content
      rcases h.t with hsame | hclosed
      · have hcontent := hsame.content
        refine .inl ⟨hsame'.state.trans hsame.state, hcontent'.trans hcontent, fun hnone => ?_,
          fun hsome => hsame'.chunks (hsame.chunks hsome)⟩
        rw [hnone, Option.map_none, Option.map_eq_none_iff] at hcontent
        exact (hsame'.cachedPos hcontent).trans (hsame.cachedPos hnone)
      · rw [hclosed.fd, Option.map_none, Option.map_eq_none_iff] at hcontent'
        exact .inr ⟨hsame'.state.trans hclosed.state, hcontent'⟩
    · exact .inr hclosed
  · intro ph hph hfd
    rcases List.mem_append.mp hph with hph | hph
    · exact hcarry ph hph hfd
    · obtain ⟨f', hf', hcarries⟩ := hcarry' ph hph hfd
      rcases h.t with hsame | hclosed
      · have hcontent := hsame.content
        rw [hf', Option.map_some] at hcontent
        obtain ⟨f, hf, heq⟩ := Option.map_eq_some_iff.mp hcontent.symm
        exact ⟨f, hf, heq ▸ hcarries⟩
      · rw [hclosed.fd] at hf'
        cases hf'

/-- A step made of calls and of what sends no file data. -/
inductive SendSteps (cfg : Config) : World → List SendCall → World → Prop
  | quiet {w w' : World} (h : NoFileData w w') : SendSteps cfg w [] w'
  | call (call : SendCall) (calcCrc : Bool) : SendSteps cfg call.w [call]
      (sSendFileData cfg call.w call.foffs call.bytesToRead calcCrc).2
  | trans {w w' w'' : World} {calls calls' : List SendCall} (h : SendSteps cfg w calls w')
      (h' : SendSteps cfg w' calls' w'') : SendSteps cfg w (calls ++ calls') w''

theorem SendSteps.thenQuiet {cfg : Config} {w w' w'' : World} {calls : List SendCall}
    (h : SendSteps cfg w calls w') (h' : NoFileData w' w'') : SendSteps cfg w calls w'' := by
  have hboth := h.trans (.quiet h')
  rwa [List.append_nil] at hboth

theorem sSubstateSendFileData_steps (cfg : Config) (w : World) :
    SendSteps cfg w [firstPassCall w] (sSubstateSendFileData cfg w) := by
  have hcall : SendSteps cfg w [firstPassCall w] _ := .call (firstPassCall w) true
  refine hcall.thenQuiet ?_
  simp only [sSubstateSendFileData, firstPassCall]
  generalize sSendFileData cfg w w.t.foffs (toUint32 (w.t.fsize + uint32Modulus - w.t.foffs))
    true = result
  obtain ⟨bytesProcessed, w'⟩ := result
  dsimp only
  split
  · split <;> exact .of_t ⟨rfl, rfl, rfl, id⟩ rfl
  · split
    · exact (setTxnStatus_noFileData w' _).trans (.of_t ⟨rfl, rfl, rfl, id⟩ rfl)
    · exact .refl w'

theorem sCheckAndRespondNak_steps (cfg : Config) (w : World) :
    SendSteps cfg w (nakCall w) (sCheckAndRespondNak cfg w).2 := by
  simp only [sCheckAndRespondNak, nakCall]
  cases hmd : w.t.tx.mdNeedSend with
  | true =>
    have h := sendMd_noFileData cfg w
    simp only [↓reduceIte]
    refine .quiet ?_
    generalize sendMd cfg w = result at h ⊢
    obtain ⟨ret, w'⟩ := result
    cases ret with
    | error => exact h
    | success => exact h.trans (.of_t ⟨rfl, rfl, rfl, id⟩ rfl)
    | noMsg => exact h
  | false =>
    cases hfirst : chunkListGetFirstChunk w.t.chunkList with
    | none => exact .quiet (.refl w)
    | some c =>
      have hcall : SendSteps cfg w [⟨w, c.offset, c.size⟩] _ := .call ⟨w, c.offset, c.size⟩ false
      refine hcall.thenQuiet ?_
      simp only [Bool.false_eq_true, ↓reduceIte]
      generalize sSendFileData cfg w c.offset c.size false = result
      obtain ⟨ret, w'⟩ := result
      dsimp only
      split
      · exact .of_t ⟨rfl, rfl, rfl, fun _ => rfl⟩ rfl
      · split <;> exact .refl w'

theorem s2SubstateSendFileData_steps (cfg : Config) {w : World} (hstate : w.t.state = .s2)
    (hsub : w.t.s.subState = .fileData) :
    SendSteps cfg w (sendCalls cfg w .tx) (s2SubstateSendFileData cfg w) := by
  have hnak := sCheckAndRespondNak_steps cfg w
  simp only [s2SubstateSendFileData, sendCalls, hstate, hsub]
  generalize sCheckAndRespondNak cfg w = result at hnak ⊢
  obtain ⟨ret, w'⟩ := result
  dsimp only at hnak ⊢
  by_cases hret : ret = 0
  · rw [if_pos hret, if_pos hret]
    exact hnak.trans (sSubstateSendFileData_steps cfg w')
  · rw [if_neg hret, if_neg hret, List.append_nil]
    split
    · exact hnak.thenQuiet (sReset_noFileData w' _)
    · exact hnak

/-! ## Opening the file -/

/-- The source file gets open, at its beginning. -/
structure OpensFile (w w' : World) : Prop where
  closed : w.t.fd = none
  fd : ∃ f, w'.t.fd = some f ∧ f.file.pos = 0 ∧ f.file.data.length < lseekResultLimit
  cachedPos : w'.t.s.cachedPos = w.t.s.cachedPos
  state : w'.t.state = w.t.state
  chunks : w.t.chunks.isSome = true → w'.t.chunks.isSome = true
  sent : ∃ pdus, w'.sent = w.sent ++ pdus ∧ ∀ ph ∈ pdus, ph.isFileData = false

theorem OpensFile.thenQuiet {w w' w'' : World} (h : OpensFile w w') (h' : SameFile w'.t w''.t)
    (hsent : ∃ pdus, w''.sent = w'.sent ++ pdus ∧ ∀ ph ∈ pdus, ph.isFileData = false) :
    OpensFile w w'' := by
  obtain ⟨pdus, hpdus, hno⟩ := h.sent
  obtain ⟨pdus', hpdus', hno'⟩ := hsent
  refine ⟨h.closed, h'.fd ▸ h.fd, h'.cachedPos.trans h.cachedPos, h'.state.trans h.state,
    fun hchunks => h'.chunks (h.chunks hchunks), pdus ++ pdus',
    by rw [hpdus', hpdus, List.append_assoc], fun ph hph => ?_⟩
  rcases List.mem_append.mp hph with hph | hph
  · exact hno ph hph
  · exact hno' ph hph

theorem sSourceSize_cases {w : World} {f : OpenFile} (hfd : w.t.fd = some f) :
    (∃ w', sSourceSize w = (true, w') ∧ f.file.data.length < lseekResultLimit ∧
      w'.t = { w.t with fd := some (f.at 0), fsize := f.file.data.length } ∧ w'.sent = w.sent) ∨
    ∃ w', sSourceSize w = (false, w') ∧ w'.t.chunks = w.t.chunks ∧ w'.sent = w.sent := by
  rcases wrappedLseekEnd_cases hfd with ⟨hsize, hend⟩ | hend
  · simp only [sSourceSize, hend]
    rcases wrappedLseek_cases { w.afterFileOp (some (f.at f.file.data.length)) with
        t.fsize := f.file.data.length } 0 with ⟨f', hf', -, hseek⟩ | ⟨-, hseek⟩
    · cases hf'
      simp only [hseek]
      exact .inl ⟨_, rfl, hsize, rfl, rfl⟩
    · simp only [hseek]
      exact .inr ⟨_, rfl, rfl, rfl⟩
  · simp only [sSourceSize, hend]
    exact .inr ⟨_, rfl, rfl, rfl⟩

theorem sOpenSource_cases (w : World) :
    sOpenSource w = (true, w) ∨ (∃ w', sOpenSource w = (true, w') ∧ OpensFile w w') ∨
    ∃ w', sOpenSource w = (false, w') ∧ w'.t.chunks = w.t.chunks ∧ w'.sent = w.sent := by
  cases hfd : w.t.fd with
  | some f => exact .inl (by simp [sOpenSource, hfd])
  | none =>
    refine .inr ?_
    simp only [sOpenSource, hfd, Option.isNone_none, ↓reduceIte, fileOpenCheck_eq]
    generalize (!w.fileOps 0) = alreadyOpen
    cases alreadyOpen with
    | true => exact .inr ⟨_, rfl, rfl, rfl⟩
    | false =>
      simp only [Bool.false_eq_true, ↓reduceIte]
      rcases wrappedOpen_cases (w.afterFileOp none)
        (w.afterFileOp none).t.history.fnames.srcFilename with ⟨data, hopen⟩ | hopen
      · simp only [hopen]
        rcases sSourceSize_cases (World.afterFileOp_fd (w.afterFileOp none)
          (some ⟨w.t.history.fnames.srcFilename, ⟨data, 0⟩⟩)) with
          ⟨w', heq, hsize, ht, hsent⟩ | ⟨w', heq, hchunks, hsent⟩
        · exact .inl ⟨w', heq, hfd, ⟨_, by rw [ht]; rfl, rfl, hsize⟩, by rw [ht]; rfl,
            by rw [ht]; rfl, fun hsome => by rw [ht]; exact hsome, [], by simp [hsent, World.afterFileOp], by simp⟩
        · exact .inr ⟨w', heq, hchunks, hsent⟩
      · simp only [hopen]
        exact .inr ⟨_, rfl, rfl, rfl⟩

theorem setTxnStatus_chunks (w : World) (status : TxnStatus) :
    (setTxnStatus w status).t.chunks = w.t.chunks := by
  unfold setTxnStatus
  split <;> rfl

/-- A reset ends the transaction, whatever became of its file. -/
theorem sReset_closed {w w' : World} (hchunks : w'.t.chunks.isSome) (hsent : w'.sent = w.sent)
    (status : TxnStatus) : NoFileData w (sReset (setTxnStatus w' status)) := by
  have hfreed := resetTransaction_freed (w := setTxnStatus w' status)
    (by rw [setTxnStatus_chunks]; exact hchunks) true
  refine ⟨.inr ?_, [], ?_, by simp⟩
  · rw [sReset, hfreed.t]
    exact ⟨rfl, rfl⟩
  · rw [sReset, hfreed.sent, List.append_nil, ← hsent]
    unfold setTxnStatus
    split <;> rfl

theorem sSubstateSendMetadata_cases (cfg : Config) {w : World} (hchunks : w.t.chunks.isSome) :
    NoFileData w (sSubstateSendMetadata cfg w) ∨ OpensFile w (sSubstateSendMetadata cfg w) := by
  simp only [sSubstateSendMetadata]
  rcases sOpenSource_cases w with heq | ⟨w', heq, hopens⟩ | ⟨w', heq, hkept, hsent⟩
  · have hmd := sendMd_noFileData cfg w
    simp only [heq]
    generalize sendMd cfg w = result at hmd ⊢
    obtain ⟨ret, w'⟩ := result
    refine .inl ?_
    cases ret with
    | success => exact hmd.trans (.of_t ⟨rfl, rfl, rfl, id⟩ rfl)
    | noMsg => exact hmd
    | error => exact hmd.trans (sReset_noFileData w' _)
  · have hmd := sendMd_noFileData cfg w'
    simp only [heq]
    generalize hout : sendMd cfg w' = result at hmd ⊢
    obtain ⟨ret, w''⟩ := result
    have hsame : SameFile w'.t w''.t := by
      have hframe := sendMd_frame cfg w'
      rw [hout] at hframe
      rw [hframe.t]
      exact .refl _
    cases ret with
    | success =>
      exact .inr (hopens.thenQuiet ⟨hsame.state, hsame.fd, hsame.cachedPos, hsame.chunks⟩ hmd.sent)
    | noMsg => exact .inr (hopens.thenQuiet hsame hmd.sent)
    | error =>
      simp only [sendMd, sendDirective] at hout
      split at hout <;> cases hout
  · simp only [heq]
    exact .inl (sReset_closed (hkept ▸ hchunks) hsent _)

/-- An event is made of calls, or it opens the file. -/
theorem senderStep_cases (cfg : Config) {w : World} (hsender : isSender w.t = true)
    (hchunks : w.t.chunks.isSome) (event : SenderEvent) :
    SendSteps cfg w (sendCalls cfg w event) (senderStep cfg w event) ∨
      OpensFile w (senderStep cfg w event) := by
  cases event with
  | tick => exact .inl (.quiet (sTick_noFileData cfg w))
  | tickNak => exact .inl (sCheckAndRespondNak_steps cfg w)
  | recv ph => exact .inl (.quiet (dispatchRecv_noFileData cfg hsender ph))
  | cancel => exact .inl (.quiet (cancelTransaction_noFileData hsender))
  | tx =>
    simp only [isSender, Bool.or_eq_true, beq_iff_eq] at hsender
    rcases hsender with hstate | hstate
    · simp only [senderStep, dispatchTx, sendCalls, hstate, s1Tx]
      cases hsub : w.t.s.subState with
      | metadata => exact (sSubstateSendMetadata_cases cfg hchunks).imp_left .quiet
      | fileData => exact .inl (sSubstateSendFileData_steps cfg w)
      | eof => exact .inl (.quiet (s1SubstateSendEof_noFileData cfg w))
      | waitForEofAck => exact .inl (.quiet (.refl w))
      | waitForFin => exact .inl (.quiet (.refl w))
      | sendFinAck => exact .inl (.quiet (.refl w))
    · cases hsub : w.t.s.subState with
      | fileData =>
        have h := s2SubstateSendFileData_steps cfg hstate hsub
        simp only [senderStep, dispatchTx, hstate, s2Tx, hsub]
        exact .inl h
      | metadata =>
        simp only [senderStep, dispatchTx, sendCalls, hstate, s2Tx, hsub]
        exact (sSubstateSendMetadata_cases cfg hchunks).imp_left .quiet
      | eof =>
        simp only [senderStep, dispatchTx, sendCalls, hstate, s2Tx, hsub]
        exact .inl (.quiet (s2SubstateSendEof_noFileData w))
      | waitForEofAck | waitForFin | sendFinAck =>
        simp only [senderStep, dispatchTx, sendCalls, hstate, s2Tx, hsub]
        exact .inl (.quiet (.refl w))

/-! ## One call -/

/-- Where the descriptor stands at the offset whenever the seek is skipped, the
octets are read at the offset. -/
theorem SendCall.NotStale.accessPos {call : SendCall} (h : call.NotStale) {f : OpenFile}
    (hfd : call.w.t.fd = some f) :
    accessPos call.w.t.s.cachedPos call.foffs f.file.pos = call.foffs := by
  unfold Nos3.Cf.accessPos
  split
  · rename_i hskip
    exact h f hfd hskip
  · rfl

theorem carriesFile_of_read {source octets : List Octet} {ph : OutPdu} {foffs n : Nat}
    (hsmall : source.length < lseekResultLimit) (hread : octets = window source foffs n)
    (hsize : octets.length = n)
    (hheader : ph.intHeader = .fd { (default : PduFileDataHeader) with
      offset := BitVec.ofNat 32 foffs, dataPtr := some octets, dataLen := octets.length })
    (hwire : ph.wire.drop ph.pduHeader.headerEncodedLength.toNat =
      storeUint32 (BitVec.ofNat 32 foffs) ++ octets) : CarriesFile source ph := by
  intro fd hfd
  rw [hheader] at hfd
  cases hfd
  have hwindow : window source (BitVec.ofNat 32 foffs).toNat octets.length = octets := by
    rcases Nat.eq_zero_or_pos n with hzero | hpos
    · have hnil : octets = [] := List.eq_nil_of_length_eq_zero (hsize.trans hzero)
      rw [hnil]
      simp [window]
    · -- octets were read, so the offset lies inside the file
      have hinside := window_full_inside hpos (hread ▸ hsize)
      have hword : (BitVec.ofNat 32 foffs).toNat = foffs := by
        rw [BitVec.toNat_ofNat]
        exact Nat.mod_eq_of_lt (by simp only [lseekResultLimit] at hsmall; omega)
      rw [hword, hsize, ← hread]
  dsimp only
  rw [hwindow]
  exact ⟨rfl, hwire⟩

theorem sendCall_sendsFrom (cfg : Config) {call : SendCall} (h : call.NotStale) (calcCrc : Bool) :
    SendsFrom call.w (sSendFileData cfg call.w call.foffs call.bytesToRead calcCrc).2 := by
  have hout := sSendFileData_outcome cfg call.w call.foffs call.bytesToRead calcCrc
  generalize sSendFileData cfg call.w call.foffs call.bytesToRead calcCrc = result at hout ⊢
  cases hout with
  | noBuffer noPdu frame sent =>
    refine NoFileData.sendsFrom (.of_t ?_ sent)
    rw [frame.t]
    exact .refl _
  | refused reason moved frame sent =>
    refine ⟨.inl ?_, [], by simp [sent], by simp⟩
    rw [frame.t]
    refine ⟨rfl, ?_, fun _ => rfl, id⟩
    rcases moved with rfl | ⟨f, hfd, rfl⟩
    · rfl
    · simp [hfd]
  | short fd read size frame sent =>
    refine ⟨.inl ?_, [], by simp [sent], by simp⟩
    rw [frame.t]
    exact ⟨rfl, by simp [fd], fun _ => rfl, id⟩
  | @sent _ f octets ph fd read size header wire frame sent =>
    refine ⟨.inl ?_, [ph], sent, ?_⟩
    · rw [frame.t]
      refine ⟨rfl, by simp [fd], fun hnone => ?_, id⟩
      rw [fd] at hnone
      cases hnone
    · intro ph' hph' _
      cases List.mem_singleton.mp hph'
      rw [h.accessPos fd] at read
      exact ⟨f, fd, fun hsmall => carriesFile_of_read hsmall read size header wire⟩

theorem SendSteps.sendsFrom {cfg : Config} {w w' : World} {calls : List SendCall}
    (h : SendSteps cfg w calls w') (hcalls : ∀ call ∈ calls, call.NotStale) : SendsFrom w w' := by
  induction h with
  | quiet hno => exact hno.sendsFrom
  | call call calcCrc => exact sendCall_sendsFrom cfg (hcalls call (List.mem_singleton_self _)) _
  | trans _ _ ih ih' =>
    exact (ih fun call hcall => hcalls call (List.mem_append_left _ hcall)).trans
      (ih' fun call hcall => hcalls call (List.mem_append_right _ hcall))

/-- The descriptor of a file of seekable size stands where `cached_pos` says. -/
def Stands (t : Transaction) : Prop :=
  ∀ f, t.fd = some f → f.file.pos = t.s.cachedPos ∧ f.file.data.length < lseekResultLimit

theorem NoFileData.stands {w w' : World} (h : NoFileData w w') (hstands : Stands w.t) :
    Stands w'.t := by
  intro f hf
  rcases h.t with hsame | hclosed
  · rw [hsame.fd] at hf
    rw [hsame.cachedPos]
    exact hstands f hf
  · rw [hclosed.fd] at hf
    cases hf

theorem SendCall.InPlace.notStale {call : SendCall} (h : call.InPlace)
    (hstands : Stands call.w.t) : call.NotStale :=
  fun f hf _ => (hstands f hf).1.trans h.1

theorem sendCall_stands (cfg : Config) {call : SendCall} (h : call.InPlace) (calcCrc : Bool)
    (hstands : Stands call.w.t) :
    Stands (sSendFileData cfg call.w call.foffs call.bytesToRead calcCrc).2.t := by
  obtain ⟨hcached, hinside⟩ := h
  have hout := sSendFileData_outcome cfg call.w call.foffs call.bytesToRead calcCrc
  have hsize := fileDataSize_le cfg call.w call.foffs call.bytesToRead
  generalize sSendFileData cfg call.w call.foffs call.bytesToRead calcCrc = result at hout ⊢
  cases hout with
  | noBuffer noPdu frame =>
    rw [frame.t]
    exact hstands
  | refused reason moved frame =>
    rw [frame.t]
    intro f hf
    rcases moved with rfl | ⟨f₀, hf₀, rfl⟩
    · exact hstands f hf
    · cases hf
      rw [accessPos, if_pos hcached]
      exact hstands f₀ hf₀
  | @short _ f octets fd read size =>
    obtain ⟨hpos, -⟩ := hstands f fd
    have hfits := hinside f fd
    rw [accessPos, if_pos hcached] at read
    refine absurd ?_ size
    rw [read]
    exact window_full (by omega)
  | @sent _ f octets _ fd read size header wire frame =>
    obtain ⟨hpos, hsmall⟩ := hstands f fd
    have hfits := hinside f fd
    rw [frame.t]
    intro f' hf'
    cases hf'
    rw [OpenFile.at_pos, accessPos, if_pos hcached, hpos]
    exact ⟨(toUint32_of_lt (by simp only [lseekResultLimit] at hsmall; omega)).symm, hsmall⟩

theorem SendSteps.stands {cfg : Config} {w w' : World} {calls : List SendCall}
    (h : SendSteps cfg w calls w') (hcalls : ∀ call ∈ calls, call.InPlace) (hstands : Stands w.t) :
    Stands w'.t ∧ ∀ call ∈ calls, call.NotStale := by
  induction h with
  | quiet hno => exact ⟨hno.stands hstands, by simp⟩
  | call call calcCrc =>
    have hplace := hcalls call (List.mem_singleton_self _)
    refine ⟨sendCall_stands cfg hplace calcCrc hstands, fun call' hcall' => ?_⟩
    cases List.mem_singleton.mp hcall'
    exact hplace.notStale hstands
  | trans _ _ ih ih' =>
    obtain ⟨hmid, hfirst⟩ := ih (fun call hcall => hcalls call (List.mem_append_left _ hcall)) hstands
    obtain ⟨hend, hsecond⟩ :=
      ih' (fun call hcall => hcalls call (List.mem_append_right _ hcall)) hmid
    refine ⟨hend, fun call hcall => ?_⟩
    rcases List.mem_append.mp hcall with hcall | hcall
    · exact hfirst call hcall
    · exact hsecond call hcall

/-! ## Runs -/

/-- What holds of a sending transaction while no stale position is hit. -/
structure SenderInv (s : SenderState) : Prop where
  sender : s.w.t.state ≠ .idle → isSender s.w.t = true ∧ s.w.t.chunks.isSome = true
  unopened : s.w.t.state ≠ .idle → s.w.t.fd = none →
    s.w.t.s.cachedPos = 0 ∧ ∀ ph ∈ s.w.sent, ph.isFileData = false
  opened : ∀ f, s.w.t.fd = some f →
    f.file.data.length < lseekResultLimit ∧ f.file.data = s.source
  sent : ∀ ph ∈ s.w.sent, CarriesFile s.source ph

theorem carriesFile_of_directive {ph : OutPdu} (h : ph.isFileData = false)
    (source : List Octet) : CarriesFile source ph := by
  intro fd hfd
  simp only [OutPdu.isFileData, hfd] at h
  cases h

theorem sender_start {cfg : Config} {s : SenderState} (h : (sender cfg).start s) :
    SenderInv s ∧ s.w.t.fd = none := by
  obtain ⟨w₀, history, cfdpClass, keep, priority, destId, ht, hsent, hchunks, hw⟩ := h
  have hnil : s.w.sent = [] := by rw [hw]; exact hsent
  have hfd : s.w.t.fd = none := by
    rw [hw]
    simp only [txFileInitiate, ht]
    rfl
  refine ⟨⟨fun _ => ⟨?_, ?_⟩, fun _ _ => ⟨?_, by simp [hnil]⟩, fun f hf => ?_, by simp [hnil]⟩, hfd⟩
  · rw [hw]
    cases cfdpClass <;> rfl
  · rw [hw]
    exact hchunks
  · rw [hw]
    simp only [txFileInitiate, ht]
    rfl
  · rw [hfd] at hf
    cases hf

theorem SenderInv.carries {s : SenderState} (h : SenderInv s) (hstate : s.w.t.state ≠ .idle)
    {e : Surroundings} {w' : World} (hsends : SendsFrom (s.w.within e) w') :
    SenderInv ⟨w', contentSeen w'.t s.source⟩ := by
  have hkept : ∀ f', w'.t.fd = some f' → ∃ f, s.w.t.fd = some f ∧ f.file.data = f'.file.data := by
    intro f' hf'
    rcases hsends.t with hsame | hclosed
    · have hcontent := hsame.content
      rw [hf', Option.map_some] at hcontent
      exact Option.map_eq_some_iff.mp hcontent.symm
    · rw [hclosed.fd] at hf'
      cases hf'
  have hopened : ∀ f', w'.t.fd = some f' →
      f'.file.data.length < lseekResultLimit ∧ f'.file.data = s.source := by
    intro f' hf'
    obtain ⟨f, hf, heq⟩ := hkept f' hf'
    exact heq ▸ h.opened f hf
  have hseen : contentSeen w'.t s.source = s.source := by
    unfold contentSeen
    split
    · rename_i f' hf'
      exact (hopened f' hf').2
    · rfl
  rw [hseen]
  obtain ⟨pdus, hpdus, hcarry⟩ := hsends.sent
  refine ⟨fun hstate' => ?_, fun hstate' hnone => ?_, hopened, fun ph hph => ?_⟩
  · rcases hsends.t with hsame | hclosed
    · obtain ⟨hsender, hchunks⟩ := h.sender hstate
      refine ⟨?_, hsame.chunks hchunks⟩
      rw [isSender, hsame.state]
      exact hsender
    · exact absurd hclosed.state hstate'
  · rcases hsends.t with hsame | hclosed
    · have hcontent := hsame.content
      rw [hnone, Option.map_none, eq_comm, Option.map_eq_none_iff] at hcontent
      obtain ⟨hcached, hno⟩ := h.unopened hstate hcontent
      refine ⟨(hsame.cachedPos hcontent).trans hcached, fun ph hph => ?_⟩
      rw [hpdus] at hph
      rcases List.mem_append.mp hph with hph | hph
      · exact hno ph hph
      · by_contra hfd
        obtain ⟨f, hf, -⟩ := hcarry ph hph (by simpa using hfd)
        rw [hcontent] at hf
        cases hf
    · exact absurd hclosed.state hstate'
  · rw [hpdus] at hph
    rcases List.mem_append.mp hph with hph | hph
    · exact h.sent ph hph
    · cases hfd : ph.isFileData with
      | false => exact carriesFile_of_directive hfd _
      | true =>
        obtain ⟨f, hf, hcarries⟩ := hcarry ph hph hfd
        obtain ⟨hsmall, hsource⟩ := h.opened f hf
        exact hsource ▸ hcarries hsmall

theorem SenderInv.opens {s : SenderState} (h : SenderInv s) (hstate : s.w.t.state ≠ .idle)
    {e : Surroundings} {w' : World} (hopens : OpensFile (s.w.within e) w') :
    SenderInv ⟨w', contentSeen w'.t s.source⟩ ∧ Stands w'.t := by
  obtain ⟨f, hf, hpos, hsmall⟩ := hopens.fd
  obtain ⟨hcached, hno⟩ := h.unopened hstate hopens.closed
  obtain ⟨hsender, hchunks⟩ := h.sender hstate
  obtain ⟨pdus, hpdus, hno'⟩ := hopens.sent
  refine ⟨⟨fun _ => ⟨?_, hopens.chunks hchunks⟩, fun _ hnone => ?_, fun f' hf' => ?_,
    fun ph hph => ?_⟩, fun f' hf' => ?_⟩
  · rw [isSender, hopens.state]
    exact hsender
  · rw [hf] at hnone
    cases hnone
  · rw [hf] at hf'
    cases hf'
    exact ⟨hsmall, by simp [contentSeen, hf]⟩
  · rw [hpdus] at hph
    rcases List.mem_append.mp hph with hph | hph
    · exact carriesFile_of_directive (hno ph hph) _
    · exact carriesFile_of_directive (hno' ph hph) _
  · rw [hf] at hf'
    cases hf'
    exact ⟨hpos.trans (hopens.cachedPos.trans hcached).symm, hsmall⟩

/-- The calls of a step, as the transaction is when the engine makes them. -/
def stepCalls (cfg : Config) (s : SenderState) (label : SenderLabel) : List SendCall :=
  sendCalls cfg (s.w.within label.env) label.event

theorem sender_step {cfg : Config} {s s' : SenderState} {label : SenderLabel} (h : SenderInv s)
    (hnext : (sender cfg).next s label = some s')
    (hcalls : ∀ call ∈ stepCalls cfg s label, call.NotStale) : SenderInv s' := by
  simp only [sender, senderNext] at hnext
  split at hnext
  · cases hnext
  · rename_i hactive
    cases hnext
    have hstate : s.w.t.state ≠ .idle := fun hidle => hactive (.inl hidle)
    obtain ⟨hsender, hchunks⟩ := h.sender hstate
    rcases senderStep_cases cfg (w := s.w.within label.env) hsender hchunks label.event with
      hsteps | hopens
    · exact h.carries hstate (hsteps.sendsFrom hcalls)
    · exact (h.opens hstate hopens).1

theorem sender_step_stands {cfg : Config} {s s' : SenderState} {label : SenderLabel}
    (h : SenderInv s) (hstands : Stands s.w.t) (hnext : (sender cfg).next s label = some s')
    (hcalls : ∀ call ∈ stepCalls cfg s label, call.InPlace) : SenderInv s' ∧ Stands s'.w.t := by
  simp only [sender, senderNext] at hnext
  split at hnext
  · cases hnext
  · rename_i hactive
    cases hnext
    have hstate : s.w.t.state ≠ .idle := fun hidle => hactive (.inl hidle)
    obtain ⟨hsender, hchunks⟩ := h.sender hstate
    rcases senderStep_cases cfg (w := s.w.within label.env) hsender hchunks label.event with
      hsteps | hopens
    · obtain ⟨hstands', hfresh⟩ := hsteps.stands hcalls hstands
      exact ⟨h.carries hstate (hsteps.sendsFrom hfresh), hstands'⟩
    · exact h.opens hstate hopens

/-- While no call skips the seek with the descriptor elsewhere, every file data PDU
carries the bytes of the file. While moreover every call starts where the last one
ended and stays inside the file, `cached_pos` is where the descriptor stands. -/
theorem file_data_faithful (cfg : Config) :
    (∀ s, (sender cfg).Reaches (fun s label => ∀ call ∈ stepCalls cfg s label, call.NotStale) s →
      ∀ ph ∈ s.w.sent, CarriesFile s.source ph) ∧
    (∀ s, (sender cfg).Reaches (fun s label => ∀ call ∈ stepCalls cfg s label, call.InPlace) s →
      Aligned s.w.t ∧ ∀ ph ∈ s.w.sent, CarriesFile s.source ph) := by
  constructor
  · intro s hs
    have hinv : SenderInv s := hs.invariant (fun _ hstart => (sender_start hstart).1)
      fun _ _ _ hi hcalls hnext => sender_step hi hnext hcalls
    exact hinv.sent
  · intro s hs
    obtain ⟨hinv, hstands⟩ : SenderInv s ∧ Stands s.w.t := by
      refine hs.invariant (fun s hstart => ?_)
        fun _ _ _ hi hcalls hnext => sender_step_stands hi.1 hi.2 hnext hcalls
      obtain ⟨hinv, hfd⟩ := sender_start hstart
      refine ⟨hinv, fun f hf => ?_⟩
      rw [hfd] at hf
      cases hf
    exact ⟨fun f hf => (hstands f hf).1, hinv.sent⟩

/-! ## A file of eight octets, two octets a PDU -/

instance (source : List Octet) (ph : OutPdu) : Decidable (CarriesFile source ph) :=
  match h : ph.intHeader with
  | .fd fd => decidable_of_iff
      ((window source fd.offset.toNat fd.dataLen).length = fd.dataLen ∧
        ph.wire.drop ph.pduHeader.headerEncodedLength.toNat =
          storeUint32 fd.offset ++ window source fd.offset.toNat fd.dataLen)
      ⟨fun hfd fd' hfd' => by rw [h] at hfd'; cases hfd'; exact hfd, fun hall => hall fd h⟩
  | .unset | .eof _ | .fin _ | .ack _ | .md _ | .nak _ =>
    .isTrue fun _ hfd => by rw [h] at hfd; cases hfd

instance (call : SendCall) : Decidable call.NotStale :=
  match h : call.w.t.fd with
  | none => .isTrue fun f hf => by rw [h] at hf; cases hf
  | some f => decidable_of_iff (call.w.t.s.cachedPos = call.foffs → f.file.pos = call.foffs)
      ⟨fun hf f' hf' => by rw [h] at hf'; cases hf'; exact hf, fun hall => hall f h⟩

/-- Two octets a PDU, and no limit on messages. -/
def smallPdus : Config := { (default : Config) with localEid := 1, outgoingFileChunkSize := 2 }

/-- The file `[97]`, and no other. -/
def eightOctetFile (fname : Filename) : Option (List Octet) :=
  if fname = [97] then some [10, 11, 12, 13, 14, 15, 16, 17] else none

def initiatedSend : SenderState :=
  let history : History := { (default : History) with fnames := ⟨[97], [98]⟩ }
  let w := quietWorld (unusedTransaction history) eightOctetFile
  ⟨txFileInitiate smallPdus { w with chan.cs := fun _ => [chunkListInit 4] } .class2 true 0 2, []⟩

theorem initiatedSend_start : (sender smallPdus).start initiatedSend :=
  ⟨_, _, _, _, _, _, rfl, rfl, rfl, rfl⟩

def quietly (event : SenderEvent) : SenderLabel :=
  ⟨(quietWorld default eightOctetFile).surroundings, event⟩

/-- A NAK from entity 2 for the octets from `first` up to `last`. -/
def nakFor (first last : Octet) : PduBuffer :=
  receivedPdu ([0x28, 0, 17, 0, 1, 1, 2, 8] ++ [0, 0, 0, first, 0, 0, 0, last] ++
    [0, 0, 0, first, 0, 0, 0, last])

/-- Metadata, four octets of the first pass and the first two of them again. -/
def resendingRun : List SenderLabel :=
  [.tx, .tx, .tx, .recv (nakFor 0 2), .tickNak].map quietly

theorem file_data_faithful_resending :
    ∃ s : SenderState, s.w.sent.length = 4 ∧ ∀ ph ∈ s.w.sent, CarriesFile s.source ph := by
  obtain ⟨s, hs, hlength⟩ := Machine.exists_reaches
    (fun s label => ∀ call ∈ stepCalls smallPdus s label, call.NotStale)
    (fun s => s.w.sent.length == 4) initiatedSend_start resendingRun (by decide +kernel)
  exact ⟨s, by simpa using hlength, (file_data_faithful smallPdus).1 s hs⟩

/-- The resent octets advanced `cached_pos` to 6 and left the descriptor at 2. The
octets from 6 on are asked for next, and those from 2 on are sent. -/
theorem stale_position_sent : ∃ s, (sender smallPdus).Reachable s ∧
    ∃ ph ∈ s.w.sent, ¬CarriesFile s.source ph := by
  obtain ⟨s, hs, hbad⟩ := Machine.exists_reaches (fun _ _ => True)
    (fun s => s.w.sent.any fun ph => !decide (CarriesFile s.source ph))
    initiatedSend_start (resendingRun ++ [.recv (nakFor 6 8), .tickNak].map quietly)
    (by decide +kernel)
  obtain ⟨ph, hph, hno⟩ := List.any_eq_true.mp hbad
  exact ⟨s, hs, ph, hph, by simpa using hno⟩

end Nos3.Cf
