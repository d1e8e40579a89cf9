import Nos3.Cf.Source.Placement
import Nos3.Cf.Source.SenderRules

/-!
# How a call on a transaction ends

`Handled`: the transaction stays, goes to another sending queue or is freed, and
nothing but its inactivity timer changes after that.
-/
namespace Nos3.Cf

/-- The transaction is taken from its queue and put somewhere in the queue `q`. -/
structure Moved (w w' : World) (q : QueueIdx) : Prop where
  t : Placed { w.t with com := { w.t.com with qIndex := q } } w'.t
  self : w'.self = w.self
  txns : w'.txns = w.txns
  chan : ∃ refs, refs.Perm (w.self :: (listRemoveEx w.chan w.t.com.qIndex w.self).qs q) ∧
    w'.chan = ((listRemoveEx w.chan w.t.com.qIndex w.self).setQueue q refs).setSize q
      ((listRemoveEx w.chan w.t.com.qIndex w.self).qSize q + 1)
  fault : w'.fault = w.fault

inductive Handled (w : World) : World → Prop
  | stays {w' : World} (h : Quiet w w') : Handled w w'
  | moves {mid w' : World} {q : QueueIdx} (h : Quiet w mid) (hq : q = .txa ∨ q = .txw)
      (hsender : mid.t.com.qIndex = .pend ∨ isSender mid.t = true) (hmoved : Moved mid w' q) :
      Handled w w'
  | ends {mid : World} (h : Quiet w mid) (keepHistory : Bool) (timer : Timer) :
      Handled w { resetTransaction mid keepHistory with t.inactivityTimer := timer }

variable {cfg : Config} {w w' w'' : World}

theorem Handled.after (h : Quiet w w') (h' : Handled w' w'') : Handled w w'' := by
  cases h' with
  | stays hquiet => exact .stays (h.trans hquiet)
  | moves hquiet hq hsender hmoved => exact .moves (h.trans hquiet) hq hsender hmoved
  | ends hquiet keepHistory timer => exact .ends (h.trans hquiet) keepHistory timer

theorem Handled.refl (w : World) : Handled w w := .stays (.refl w)

theorem resetTransaction_handled (w : World) (keepHistory : Bool) :
    Handled w (resetTransaction w keepHistory) :=
  .ends (.refl w) keepHistory _

theorem moveTransaction_moved (w : World) (q : QueueIdx) : Moved w (moveTransaction w q) q := by
  refine ⟨.refl _, rfl, rfl, ⟨(dequeueTransaction w).chan.qs q ++ [w.self], ?_, rfl⟩, rfl⟩
  exact List.perm_append_comm

theorem insertSortPrio_chan (w : World) (q : QueueIdx) :
    ∃ refs, refs.Perm (w.self :: w.chan.qs q) ∧
      (insertSortPrio w q).chan = (w.chan.setQueue q refs).setSize q (w.chan.qSize q + 1) := by
  refine ⟨_, ?_, rfl⟩
  show (ite _ _ _ : List TxnRef).Perm _
  split
  · exact List.perm_append_comm
  · refine List.perm_middle.trans (.cons _ ?_)
    rw [List.take_append_drop]

theorem insertSortPrio_moved (w : World) (q : QueueIdx) :
    Moved w (insertSortPrio (dequeueTransaction w) q) q :=
  ⟨.refl _, rfl, rfl, insertSortPrio_chan (dequeueTransaction w) q, rfl⟩

/-- The inactivity timer that is armed after a message. -/
theorem Handled.armInactTimer (cfg : Config) (h : Handled w w') :
    Handled w (armInactTimer cfg w') := by
  cases h with
  | stays hquiet => exact .stays (hquiet.trans (armInactTimer_quiet cfg _))
  | moves hquiet hq hsender hmoved =>
    refine .moves hquiet hq hsender ⟨?_, hmoved.self, hmoved.txns, hmoved.chan, hmoved.fault⟩
    exact hmoved.t.trans (armInactTimer_quiet cfg w').t
  | ends hquiet keepHistory timer => exact .ends hquiet keepHistory _

/-! ## Sending transactions -/

theorem sReset_handled (w : World) (status : TxnStatus) :
    Handled w (sReset (setTxnStatus w status)) :=
  .after (setTxnStatus_quiet w status) (resetTransaction_handled _ true)

theorem s1SubstateSendEof_handled (cfg : Config) (w : World) :
    Handled w (s1SubstateSendEof cfg w) := by
  have heof := sSendEof_quiet cfg w
  unfold s1SubstateSendEof
  split
  · rename_i mid heq
    rw [heq] at heof
    exact .stays heof
  · rename_i ret mid hsent heq
    rw [heq] at heof
    exact .after heof (resetTransaction_handled mid true)

theorem s2SubstateSendEof_handled (h : w.t.state = .s2) : Handled w (s2SubstateSendEof w) := by
  have hquiet : Quiet w
      { w with t.s.subState := .waitForEofAck, t.com.ackTimerArmed := true } :=
    .transaction ⟨rfl, rfl, rfl, rfl, rfl, rfl, rfl, rfl, id⟩
  refine .moves hquiet (.inr rfl) (.inr ?_) (insertSortPrio_moved _ .txw)
  simp [isSender, h]

theorem s2SubstateSendFileData_handled (cfg : Config) (w : World) :
    Handled w (s2SubstateSendFileData cfg w) := by
  have hnak := sCheckAndRespondNak_quiet cfg w
  unfold s2SubstateSendFileData
  dsimp only
  split
  · exact .stays (hnak.trans (sSubstateSendFileData_quiet cfg _))
  · split
    · exact .after hnak (sReset_handled _ _)
    · exact .stays hnak

theorem sSubstateSendMetadata_handled (cfg : Config) (w : World) :
    Handled w (sSubstateSendMetadata cfg w) := by
  have hopen := sOpenSource_quiet w
  unfold sSubstateSendMetadata
  split
  · rename_i mid heq
    rw [heq] at hopen
    have hmd := hopen.trans (sendMd_frame cfg mid).quiet
    split
    · rename_i last hlast
      rw [hlast] at hmd
      exact .stays (hmd.trans (.transaction ⟨rfl, rfl, rfl, rfl, rfl, rfl, rfl, rfl, id⟩))
    · rename_i last hlast
      rw [hlast] at hmd
      exact .stays hmd
    · rename_i last hlast
      rw [hlast] at hmd
      exact .after hmd (sReset_handled _ _)
  · rename_i mid heq
    rw [heq] at hopen
    exact .after hopen (sReset_handled _ _)

theorem sSubstateSendFinAck_handled (cfg : Config) (w : World) :
    Handled w (sSubstateSendFinAck cfg w) := by
  have hack := (sendAck_frame cfg w AckTxnStatus.active FileDirective.fin w.t.s.s2.finCc
    w.t.history.peerEid w.t.history.seqNum).quiet
  unfold sSubstateSendFinAck
  split
  · rename_i mid heq
    rw [heq] at hack
    exact .stays hack
  · rename_i ret mid hsent heq
    rw [heq] at hack
    exact .after hack (sReset_handled _ _)

theorem dispatchTx_handled (cfg : Config) (w : World) : Handled w (dispatchTx cfg w) := by
  unfold dispatchTx
  split
  · unfold s1Tx
    split
    · exact sSubstateSendMetadata_handled cfg w
    · exact .stays (sSubstateSendFileData_quiet cfg w)
    · exact s1SubstateSendEof_handled cfg w
    · exact .refl w
  · rename_i hstate
    unfold s2Tx
    split
    · exact sSubstateSendMetadata_handled cfg w
    · exact s2SubstateSendFileData_handled cfg w
    · exact s2SubstateSendEof_handled hstate
    · exact .refl w
  · exact .refl w

theorem sDispatchRecv_handled {ph : PduBuffer} {dispatch : TxSubState → Octet → Option RecvHandler}
    (h : ∀ handler, dispatch w.t.s.subState ph.fdirective.directiveCode = some handler →
      Handled w (handler w ph)) : Handled w (sDispatchRecv w ph dispatch) := by
  unfold sDispatchRecv
  split
  · split
    · rename_i handler heq
      exact h handler heq
    · exact .refl w
  · exact .refl w

theorem s2SubstateFns_handled {subState : TxSubState} {directiveCode : Octet}
    {handler : RecvHandler} (h : s2SubstateFns cfg subState directiveCode = some handler)
    (w : World) (ph : PduBuffer) : Handled w (handler w ph) := by
  rcases s2SubstateFns_cases h with rfl | rfl | rfl | rfl | rfl
  · exact sReset_handled w _
  · exact .stays (.transaction ⟨rfl, rfl, rfl, rfl, rfl, rfl, rfl, rfl, id⟩)
  · exact .stays (s2Nak_quiet w ph)
  · exact .stays ((armAckTimer_quiet cfg w).trans (s2Nak_quiet _ ph))
  · unfold s2WaitForEofAck
    split
    · split
      · exact resetTransaction_handled w true
      · exact .stays (.transaction ⟨rfl, rfl, rfl, rfl, rfl, rfl, rfl, rfl, id⟩)
    · exact .refl w

/-- Where the tick does not end with the ack timer, the transaction is still there. -/
theorem sTickAckTimer_handled (cfg : Config) (w : World) :
    Handled w (sTickAckTimer cfg w).2 ∧
      ((sTickAckTimer cfg w).1 = false → Quiet w (sTickAckTimer cfg w).2) := by
  have hcount : Quiet w
      { w with t.s.s2.acknakCount := nextAcknakCount w.t.s.s2.acknakCount } :=
    .transaction ⟨rfl, rfl, rfl, rfl, rfl, rfl, rfl, rfl, id⟩
  have heof := hcount.trans (sSendEof_quiet cfg _)
  unfold sTickAckTimer
  split
  · exact ⟨.refl w, fun _ => .refl w⟩
  · split
    · have htick : Quiet w { w with t.ackTimer := timerTick w.t.ackTimer } :=
        .transaction ⟨rfl, rfl, rfl, rfl, rfl, rfl, rfl, rfl, id⟩
      exact ⟨.stays htick, fun _ => htick⟩
    · split
      · dsimp only
        split
        · exact ⟨.after hcount (sReset_handled _ _), nofun⟩
        · split
          · rename_i mid heq
            rw [heq] at heof
            exact ⟨.stays heof, nofun⟩
          · rename_i mid heq
            rw [heq] at heof
            exact ⟨.after heof (sReset_handled _ _), nofun⟩
          · rename_i mid heq
            rw [heq] at heof
            have harmed := heof.trans (armAckTimer_quiet cfg mid)
            exact ⟨.stays harmed, fun _ => harmed⟩
      · exact ⟨.refl w, fun _ => .refl w⟩

theorem sTick_handled (cfg : Config) (w : World) : Handled w (sTick cfg w) := by
  unfold sTick
  split
  · exact .refl w
  · split
    · exact sReset_handled w _
    · have htick : Quiet w { w with t.inactivityTimer := timerTick w.t.inactivityTimer } :=
        .transaction ⟨rfl, rfl, rfl, rfl, rfl, rfl, rfl, rfl, id⟩
      obtain ⟨hack, hgoes⟩ := sTickAckTimer_handled cfg
        { w with t.inactivityTimer := timerTick w.t.inactivityTimer }
      dsimp only
      split
      · rename_i hearly
        rw [Bool.and_eq_true, Bool.not_eq_true'] at hearly
        exact .after (htick.trans (hgoes hearly.1)) (sSubstateSendFinAck_handled cfg _)
      · exact .after htick hack

/-! ## Receiving transactions -/

theorem r2Reset_handled (w : World) : Handled w (r2Reset w) := by
  unfold r2Reset
  split
  · exact resetTransaction_handled w true
  · exact .stays (.transaction ⟨rfl, rfl, rfl, rfl, rfl, rfl, rfl, rfl, id⟩)

theorem r1SubstateRecvEof_handled (w : World) (ph : PduBuffer) :
    Handled w (r1SubstateRecvEof w ph) := by
  have hcheck (expectedCrc : BitVec 32) : Quiet w (rCheckCrc w expectedCrc).2 :=
    .transaction ⟨rfl, rfl, rfl, rfl, rfl, rfl, rfl, rfl, id⟩
  unfold r1SubstateRecvEof
  dsimp only
  split
  · split
    · refine .after ?_ (resetTransaction_handled _ true)
      exact (hcheck _).trans (.transaction ⟨rfl, rfl, rfl, rfl, rfl, rfl, rfl, rfl, id⟩)
    · exact .after (hcheck _) (resetTransaction_handled _ true)
  · exact resetTransaction_handled w true

theorem r2SubstateRecvEof_handled (cfg : Config) (w : World) (ph : PduBuffer) :
    Handled w (r2SubstateRecvEof cfg w ph) := by
  unfold r2SubstateRecvEof
  split
  · exact .refl w
  · split
    · rename_i eof hrecv
      have hnoted : Quiet w
          { w with
            t.rx.eofRecv := true
            t.rx.sendAck := true
            t.r.r2.eofCrc := eof.crc
            t.r.r2.eofSize := eof.size.toNat
            t.r.r2.eofCc := eof.cc } :=
        .transaction ⟨rfl, rfl, rfl, rfl, rfl, rfl, rfl, rfl, id⟩
      dsimp only
      split
      · exact .stays (hnoted.trans (r2Complete_quiet cfg _ true))
      · exact .after (hnoted.trans (setTxnStatus_quiet _ _)) (r2Reset_handled _)
    · exact .stays (r2SetFinTxnStatus_quiet w _)
    · exact .stays (.transaction ⟨rfl, rfl, rfl, rfl, rfl, rfl, rfl, rfl, id⟩)

theorem r1SubstateRecvFileData_handled (w : World) (ph : PduBuffer) :
    Handled w (r1SubstateRecvFileData w ph) := by
  have hrecv := rReceiveFd_quiet w ph
  unfold r1SubstateRecvFileData
  split
  · rename_i fd mid heq
    rw [heq] at hrecv
    exact .stays (hrecv.trans (.transaction ⟨rfl, rfl, rfl, rfl, rfl, rfl, rfl, rfl, id⟩))
  · rename_i fd mid heq
    rw [heq] at hrecv
    exact .after hrecv (resetTransaction_handled mid true)

/-- A file data PDU that is stored leaves the transaction in place. -/
theorem r2SubstateRecvFileData_quiet {ph : PduBuffer} (h : (rReceiveFd w ph).1 = true) :
    Quiet w (r2SubstateRecvFileData cfg w ph) := by
  have hrecv := rReceiveFd_quiet w ph
  unfold r2SubstateRecvFileData
  split
  · rename_i fd mid heq
    rw [heq] at hrecv
    have hadded := hrecv.trans (setChunkList_quiet mid
      (chunkListAdd mid.t.chunkList fd.offset.toNat fd.dataLen))
    dsimp only
    generalize mid.setChunkList (chunkListAdd mid.t.chunkList fd.offset.toNat fd.dataLen) = added
      at hadded
    have hsearched :
        Quiet w (if added.t.rx.fdNakSent then r2Complete cfg added false else added) := by
      split
      · exact hadded.trans (r2Complete_quiet cfg added false)
      · exact hadded
    generalize (if added.t.rx.fdNakSent then r2Complete cfg added false else added) = searched
      at hsearched
    refine Quiet.trans ?_ (.transaction ⟨rfl, rfl, rfl, rfl, rfl, rfl, rfl, rfl, id⟩)
    split
    · exact hsearched.trans (armAckTimer_quiet cfg searched)
    · exact hsearched
  · rename_i fd mid heq
    rw [heq] at h
    cases h

theorem r2SubstateRecvFileData_handled (cfg : Config) (w : World) (ph : PduBuffer) :
    Handled w (r2SubstateRecvFileData cfg w ph) := by
  by_cases hstored : (rReceiveFd w ph).1 = true
  · exact .stays (r2SubstateRecvFileData_quiet hstored)
  · have hrecv := rReceiveFd_quiet w ph
    unfold r2SubstateRecvFileData
    split
    · rename_i fd mid heq
      rw [heq] at hstored
      exact absurd rfl hstored
    · rename_i fd mid heq
      rw [heq] at hrecv
      exact .after hrecv (r2Reset_handled mid)

theorem rDispatchRecv_handled {ph : PduBuffer} {dispatch : RxSubState → Octet → Option RecvHandler}
    {fdFn : RecvHandler}
    (h : ∀ handler, dispatch w.t.r.subState ph.fdirective.directiveCode = some handler →
      Handled w (handler w ph)) (hfd : Handled w (fdFn w ph)) :
    Handled w (rDispatchRecv w ph dispatch fdFn) := by
  unfold rDispatchRecv
  split
  · split
    · split
      · rename_i handler heq
        exact h handler heq
      · exact .refl w
    · exact .refl w
  · split
    · exact hfd
    · exact .refl w

theorem r1Recv_handled (w : World) (ph : PduBuffer) : Handled w (r1Recv w ph) := by
  refine rDispatchRecv_handled (fun handler hdispatch => ?_) (r1SubstateRecvFileData_handled w ph)
  unfold r1SubstateFns at hdispatch
  split_ifs at hdispatch
  cases hdispatch
  exact r1SubstateRecvEof_handled w ph

theorem r2RecvFinAck_handled (w : World) (ph : PduBuffer) : Handled w (r2RecvFinAck w ph) := by
  unfold r2RecvFinAck
  split
  · exact r2Reset_handled w
  · exact .refl w

theorem r2Recv_handled (cfg : Config) (w : World) (ph : PduBuffer) :
    Handled w (r2Recv cfg w ph) := by
  refine rDispatchRecv_handled (fun handler hdispatch => ?_)
    (r2SubstateRecvFileData_handled cfg w ph)
  unfold r2SubstateFns at hdispatch
  split at hdispatch
  all_goals split_ifs at hdispatch
  all_goals cases hdispatch
  · exact r2SubstateRecvEof_handled cfg w ph
  · exact .stays (r2RecvMd_quiet cfg w ph)
  · exact r2SubstateRecvEof_handled cfg w ph
  · exact .stays (r2RecvMd_quiet cfg w ph)
  · exact r2SubstateRecvEof_handled cfg w ph
  · exact r2RecvFinAck_handled w ph

theorem rTickAckTimer_handled (cfg : Config) (w : World) : Handled w (rTickAckTimer cfg w) := by
  have hcount : Quiet w { w with t.r.r2.acknakCount := nextAcknakCount w.t.r.r2.acknakCount } :=
    .transaction ⟨rfl, rfl, rfl, rfl, rfl, rfl, rfl, rfl, id⟩
  unfold rTickAckTimer
  split
  · exact .refl w
  · split
    · exact .stays (.transaction ⟨rfl, rfl, rfl, rfl, rfl, rfl, rfl, rfl, id⟩)
    · split
      · exact .stays ((r2Complete_quiet cfg w true).trans (armAckTimer_quiet cfg _))
      · split
        · dsimp only
          split
          · exact .after (hcount.trans (setTxnStatus_quiet _ _)) (r2Reset_handled _)
          · refine .stays (Quiet.trans ?_ (armAckTimer_quiet cfg _))
            exact .transaction ⟨rfl, rfl, rfl, rfl, rfl, rfl, rfl, rfl, id⟩
        · exact .stays (armAckTimer_quiet cfg w)

theorem rTick_handled (cfg : Config) (w : World) : Handled w (rTick cfg w) := by
  unfold rTick
  split
  · exact .after ((rTickInactivity_quiet w).trans (rTickSend_quiet cfg _))
      (rTickAckTimer_handled cfg _)
  · split
    · exact resetTransaction_handled w true
    · exact .stays (.transaction ⟨rfl, rfl, rfl, rfl, rfl, rfl, rfl, rfl, id⟩)

/-! ## Either kind -/

theorem cancelTransaction_handled (w : World) : Handled w (cancelTransaction w) := by
  have hcanceled : Quiet w { w with t.com.canceled := true } :=
    .transaction ⟨rfl, rfl, rfl, rfl, rfl, rfl, rfl, rfl, id⟩
  have hstatus := hcanceled.trans (setTxnStatus_quiet _ .cancelRequestReceived)
  unfold cancelTransaction
  split
  · exact .refl w
  · dsimp only
    split
    · exact .stays (hstatus.trans (sCancel_quiet _))
    · unfold rCancel
      split
      · exact .stays (hstatus.trans (.transaction ⟨rfl, rfl, rfl, rfl, rfl, rfl, rfl, rfl, id⟩))
      · exact .after hstatus (resetTransaction_handled _ true)

theorem rxStateDispatch_handled (cfg : Config) (w : World) (ph : PduBuffer) :
    Handled w (rxStateDispatch cfg w ph) := by
  unfold rxStateDispatch
  split
  · exact r1Recv_handled w ph
  · exact sDispatchRecv_handled fun _ hnone => by cases hnone
  · exact r2Recv_handled cfg w ph
  · exact sDispatchRecv_handled fun _ hsome => s2SubstateFns_handled hsome w ph
  · exact .refl w
  · exact .refl w

theorem dispatchRecv_handled (cfg : Config) {w : World} (h : w.t.state ≠ .idle) (ph : PduBuffer) :
    Handled w (dispatchRecv cfg w ph) := by
  unfold dispatchRecv
  rw [if_neg h]
  exact (rxStateDispatch_handled cfg w ph).armInactTimer cfg

theorem tickFn_handled (cfg : Config) (tickType : TickType) (w : World) :
    Handled w (tickType.fn cfg w) := by
  cases tickType with
  | rx => exact rTick_handled cfg w
  | txwNorm => exact sTick_handled cfg w
  | txwNak => exact .stays (sCheckAndRespondNak_quiet cfg w)

/-! ## New receiving transactions -/

theorem Quiet.withState (h : Quiet w w') (state : TxnState) :
    Quiet { w with t.state := state } { w' with t.state := state } :=
  ⟨⟨rfl, h.t.qIndex, h.t.slot, h.t.srcEid, h.t.seqNum, h.t.dir, h.t.cmdTx, h.t.p, h.t.chunks⟩, h.self,
    h.txns, h.chan, h.cur, h.fault⟩

/-- Only a class 1 transaction ends where its file cannot be created. -/
theorem rInit_handled (cfg : Config) (w : World) :
    Handled w (rInit cfg w) ∧ (w.t.state = .r2 → Quiet w (rInit cfg w)) := by
  unfold rInit
  dsimp only
  have hprepared : Quiet w (if w.t.state = .r2 then
      armAckTimer cfg (if (!w.t.rx.mdRecv) = true then
        { w with t.history.fnames.dstFilename := tempFilename cfg w.t.history.seqNum } else w)
      else w) := by
    split
    · refine Quiet.trans ?_ (armAckTimer_quiet cfg _)
      split
      · exact .transaction ⟨rfl, rfl, rfl, rfl, rfl, rfl, rfl, rfl, id⟩
      · exact .refl w
    · exact .refl w
  generalize (if w.t.state = .r2 then
      armAckTimer cfg (if (!w.t.rx.mdRecv) = true then
        { w with t.history.fnames.dstFilename := tempFilename cfg w.t.history.seqNum } else w)
      else w) = prepared at hprepared
  have hcreated := hprepared.trans
    (wrappedCreate_quiet prepared prepared.t.history.fnames.dstFilename)
  split
  · rename_i created heq
    rw [heq] at hcreated
    have hquiet := hcreated.trans (.transaction ⟨rfl, rfl, rfl, rfl, rfl, rfl, rfl, rfl, id⟩ :
      Quiet created { created with t.r.subState := .fileData })
    exact ⟨.stays hquiet, fun _ => hquiet⟩
  · rename_i created heq
    rw [heq] at hcreated
    have hclosed := hcreated.trans (.transaction ⟨rfl, rfl, rfl, rfl, rfl, rfl, rfl, rfl, id⟩ :
      Quiet created { created with t.fd := none })
    split
    · have hquiet := hclosed.trans (r2SetFinTxnStatus_quiet _ .filestoreRejection)
      exact ⟨.stays hquiet, fun _ => hquiet⟩
    · rename_i hstate
      refine ⟨.after hclosed (resetTransaction_handled _ true), fun hr2 => absurd ?_ hstate⟩
      exact hclosed.t.state.trans hr2

/-- What becomes of a transaction that was bound to its first PDU, before `CF_CFDP_RecvIdle`
looks at its state again. -/
theorem recvIdle_first (cfg : Config) (w : World) (ph : PduBuffer) :
    ∃ state ∈ [TxnState.drop, .r1, .r2],
      Handled { w with t.state := state }
        (if ph.pduHeader.pduType ≠ 0 then recvIdleFd cfg w ph else recvIdleDirective cfg w ph) ∨
      Quiet w
        (if ph.pduHeader.pduType ≠ 0 then recvIdleFd cfg w ph
          else recvIdleDirective cfg w ph) := by
  split
  · unfold recvIdleFd
    split
    · exact ⟨.drop, by simp, .inl (.refl _)⟩
    · refine ⟨.r2, by simp, .inl (Handled.armInactTimer cfg ?_)⟩
      exact .after ((rInit_handled cfg _).2 rfl) (rxStateDispatch_handled cfg _ ph)
  · unfold recvIdleDirective
    have hmd := recvMd_quiet w ph
    split
    · dsimp only
      split
      · refine ⟨if ph.pduHeader.txmMode ≠ 0 then .r1 else .r2, by split <;> simp, .inl ?_⟩
        refine .after ?_ (rInit_handled cfg _).1
        exact (hmd.withState _).trans (.transaction ⟨rfl, rfl, rfl, rfl, rfl, rfl, rfl, rfl, id⟩)
      · exact ⟨.drop, by simp, .inr hmd⟩
    · exact ⟨.drop, by simp, .inr (.refl w)⟩

/-- The second reset of a transaction that is gone faults. -/
theorem recvIdle_handled (cfg : Config) (w : World) (ph : PduBuffer) (hidle : w.t.state = .idle) :
    ∃ state w', state ∈ [TxnState.idle, .drop, .r1, .r2] ∧
      Handled { bindTransaction w ph.pduHeader with t.state := state } w' ∧
      (recvIdle cfg w ph = w' ∨ recvIdle cfg w ph = { w' with fault := true }) := by
  have hbound : (bindTransaction w ph.pduHeader).t.state = .idle := hidle
  obtain ⟨state, hstate, hfirst⟩ := recvIdle_first cfg (bindTransaction w ph.pduHeader) ph
  unfold recvIdle
  dsimp only
  generalize bindTransaction w ph.pduHeader = bound at hfirst hbound
  generalize (if ph.pduHeader.pduType ≠ 0 then recvIdleFd cfg bound ph
    else recvIdleDirective cfg bound ph) = received at hfirst
  have hmem : state ∈ [TxnState.idle, .drop, .r1, .r2] := List.mem_cons_of_mem _ hstate
  have hbusy : state ≠ .idle := by
    rintro rfl
    simp at hstate
  rcases hfirst with hfirst | hquiet
  · refine ⟨state, received, hmem, hfirst, ?_⟩
    split
    · rename_i hgone
      refine .inr (resetTransaction_fault ?_ false)
      cases hfirst with
      | stays hquiet => exact absurd (hquiet.t.state.symm.trans hgone) hbusy
      | moves hquiet hq hsender hmoved =>
        exact absurd ((hmoved.t.state.trans hquiet.t.state).symm.trans hgone) hbusy
      | ends hquiet keepHistory timer =>
        rename_i mid
        cases hchunks : mid.t.chunks with
        | none =>
          rw [resetTransaction_fault hchunks] at hgone
          exact absurd (hquiet.t.state.symm.trans hgone) hbusy
        | some chunks =>
          have hfreed := (resetTransaction_freed (by rw [hchunks]; rfl : mid.t.chunks.isSome) keepHistory).t
          exact congrArg Transaction.chunks hfreed
    · exact .inl rfl
  · have hidle : received.t.state = .idle := hquiet.t.state.trans hbound
    have hsame : ({ bound with t.state := .idle } : World) = bound := by
      rw [← hbound]
    refine ⟨.idle, resetTransaction received false, by simp, ?_, .inl (if_pos hidle)⟩
    rw [hsame]
    exact .after hquiet (resetTransaction_handled received false)

end Nos3.Cf
