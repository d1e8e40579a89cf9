import Nos3.Cf.Source.SenderRules
import Nos3.Cf.Source.HeaderRules
import Nos3.Cf.Source.Engine
import Nos3.Cf.Source.ReceiverRules
import Nos3.Cf.Source.Dispatch

/-!
# The ACK PDU on the wire

An acknowledgement always fits: behind the header stand its directive code and two
octets, from which the condition code is read back.
-/
namespace Nos3.Cf
open Nos3.Base.Wire Nos3.Base.BitField

/-- The condition code of a closed ACK PDU, as a receiver finds it behind the header
and the directive code. -/
def OutPdu.ackedCc (ph : OutPdu) : Octet :=
  Fields.ackCc.get ((ph.wire.drop ph.pduHeader.headerEncodedLength.toNat).getD 2 0)

theorem startPdu_directive (hdr : PduHeader) {code : Octet} (hcode : code ≠ 0) :
    startPdu encodeStart hdr code =
      { startPdu encodeStart hdr 0 with
        fdirective := ⟨code⟩
        penc := encodeFileDirectiveHeader (startPdu encodeStart hdr 0).penc ⟨code⟩ } := by
  simp only [startPdu, ne_eq, hcode, not_false_eq_true, if_true, not_true_eq_false, if_false]

/-- Header, directive code and acknowledgement are within the buffer. -/
theorem ackPdu_used (t : Transaction) (srcEid dstEid : EntityId) (towardsSender : Bool)
    (tsn : TransactionSeq) (ack : PduAck) :
    let hdr := outPduHeader t FileDirective.ack srcEid dstEid towardsSender tsn
    Used (encodeAck (encodeFileDirectiveHeader (startPdu encodeStart hdr 0).penc
      ⟨FileDirective.ack⟩) ack) 31 := by
  intro hdr
  have hempty : Used encodeStart.penc 0 := ⟨rfl, Nat.le_refl _, rfl⟩
  have hheader : Used (startPdu encodeStart hdr 0).penc _ :=
    hempty.header (getValueEncodedSize_le _) (getValueEncodedSize_le _) (by decide)
  have hdirective := hheader.fixedChunk (storeUint8 FileDirective.ack) (by decide)
  have hroom : 0 + 28 + 1 + 2 ≤ maxPduSize := by decide
  exact hdirective.fixedChunk [ackDirectiveImage ack, ackStatusImage ack] hroom

/-- A PDU whose header is encoded, as it is closed with an acknowledgement. -/
theorem closePdu_ack {ph : OutPdu} {hdr : PduHeader} {ts dirCode cc : Octet}
    (hfits : encoderView.fits ph.penc)
    (hhdr : ph.penc.isOk = true → ∃ high low, encoderView.out ph.penc = hdr.octets high low ∧
      ph.pduHeader.headerEncodedLength.toNat = (hdr.octets high low).length)
    (hok : (encodeAck (encodeFileDirectiveHeader ph.penc ⟨FileDirective.ack⟩)
      ⟨dirCode, 1, cc, ts⟩).isOk = true) :
    let closed := closePdu (fillAck ts dirCode cc
      { ph with
        fdirective := ⟨FileDirective.ack⟩
        penc := encodeFileDirectiveHeader ph.penc ⟨FileDirective.ack⟩ })
    closed.wire.drop closed.pduHeader.headerEncodedLength.toNat =
      [FileDirective.ack] ++ (⟨dirCode, 1, cc, ts⟩ : PduAck).octets := by
  have hemits := (emits_fileDirectiveHeader ⟨FileDirective.ack⟩).seq
    (emits_ack ⟨dirCode, 1, cc, ts⟩)
  obtain ⟨hfits', hout⟩ := hemits _ hfits
  obtain ⟨hok₀, hall⟩ := hout hok
  obtain ⟨high, low, hout₀, hlen⟩ := hhdr hok₀
  exact closePdu_wire hfits' hok (hall.trans (by rw [hout₀])) hlen

theorem ackPdu_wire (t : Transaction) (srcEid dstEid : EntityId) (towardsSender : Bool)
    (tsn : TransactionSeq) (ts dirCode cc : Octet) :
    let ph := closePdu (fillAck ts dirCode cc (startPdu encodeStart
      (outPduHeader t FileDirective.ack srcEid dstEid towardsSender tsn) FileDirective.ack))
    ph.wire.drop ph.pduHeader.headerEncodedLength.toNat =
      [FileDirective.ack] ++ (⟨dirCode, 1, cc, ts⟩ : PduAck).octets := by
  have hused := ackPdu_used t srcEid dstEid towardsSender tsn ⟨dirCode, 1, cc, ts⟩
  obtain ⟨hfits, -, hhdr⟩ :=
    startPdu_fileData (outPduHeader t FileDirective.ack srcEid dstEid towardsSender tsn)
  rw [startPdu_directive _ (by decide)]
  exact closePdu_ack hfits hhdr hused.ok

/-- The condition code is read back as it was given, if it has four bits. -/
theorem ackPdu_cc (t : Transaction) (srcEid dstEid : EntityId) (towardsSender : Bool)
    (tsn : TransactionSeq) (ts dirCode : Octet) {cc : Octet} (hcc : cc.toNat < 16) :
    (closePdu (fillAck ts dirCode cc (startPdu encodeStart
      (outPduHeader t FileDirective.ack srcEid dstEid towardsSender tsn)
      FileDirective.ack))).ackedCc = cc := by
  rw [OutPdu.ackedCc, ackPdu_wire]
  show Fields.ackCc.get (ackStatusImage ⟨dirCode, 1, cc, ts⟩) = cc
  rw [ackStatusImage, Field.get_set_of_disjoint (by decide)]
  exact Field.get_set (by decide) _ hcc

/-- The PDUs a step put on the bus. -/
def newPdus (w w' : World) : List OutPdu := w'.sent.drop w.sent.length

/-- `sendAck` puts one PDU on the bus, or none where there is no buffer. -/
theorem sendAck_newPdus (cfg : Config) (w : World) (ts dirCode : Octet) {cc : Octet}
    (hcc : cc.toNat < 16) (peerEid : EntityId) (tsn : TransactionSeq) :
    (newPdus w (sendAck cfg w ts dirCode cc peerEid tsn).2).map OutPdu.ackedCc =
      if (msgOutGet cfg w).1.isSome then [cc] else [] := by
  have hsent := msgOutGet_sent cfg w
  simp only [sendAck, constructPduHeader, sendDirective, newPdus]
  cases hpdu : (msgOutGet cfg w).1 with
  | none =>
    simp only [Option.map_none, hsent, List.drop_length, List.map_nil]
    rfl
  | some ph =>
    cases msgOutGet_pdu hpdu
    simp only [Option.map_some, closeAndSend, hsent, List.drop_left', List.map_cons, List.map_nil,
      ackPdu_cc _ _ _ _ _ _ _ hcc]
    rfl

end Nos3.Cf

/-!
## The condition code of an acknowledged FIN

A FIN PDU is answered twice in the source: by the transaction it belongs to, some
ticks later, or on the spot where the transaction is not known any more. The second
path decodes the FIN first; the first one keeps the condition code of a PDU buffer
that was just cleared.
-/
namespace Nos3.Cf
open Nos3.Base.BitField

/-- The message is a FIN PDU. -/
structure FinMessage (octets : List Octet) : Prop where
  header : (recvPh (decodeStart octets 0 octets.length)).1 = true
  directive : (receivedPdu octets).pduHeader.pduType = 0
  fin : (receivedPdu octets).fdirective.directiveCode = FileDirective.fin
  decodes : (recvFin (receivedPdu octets)).1 = true

/-- The condition code a FIN PDU contains. -/
def finCc (octets : List Octet) : Octet := (recvFin (receivedPdu octets)).2.intHeader.asFin.cc

/-- A transaction of class 2 whose EOF is sent. -/
structure FinExpected (w : World) : Prop where
  state : w.t.state = .s2
  subState : w.t.s.subState = .waitForEofAck ∨ w.t.s.subState = .waitForFin ∨
    w.t.s.subState = .sendFinAck

def SenderEvent.isFin : SenderEvent → Prop
  | .recv ph => ph.fdirective.directiveCode = FileDirective.fin
  | _ => False

/-- The transaction goes on from `w₀` without another FIN, in any surroundings. -/
inductive Unanswered (cfg : Config) (w₀ : World) : World → Prop
  | now : Unanswered cfg w₀ w₀
  | later {w : World} (e : Surroundings) (event : SenderEvent) : Unanswered cfg w₀ w →
      ¬event.isFin → (senderStep cfg (w.within e) event).t.state ≠ .idle →
      Unanswered cfg w₀ (senderStep cfg (w.within e) event)

/-- Whenever a transaction that is active answers the FIN, it repeats its condition
code. -/
def EchoesActive (cfg : Config) (octets : List Octet) : Prop :=
  ∀ w, FinExpected w → ∀ w', Unanswered cfg (dispatchRecv cfg w (receivedPdu octets)) w' →
    ∀ e, ∀ ph ∈ newPdus (w'.within e) (sSubstateSendFinAck cfg (w'.within e)),
      ph.ackedCc = finCc octets

/-- Whenever the FIN of an unknown transaction is answered, its condition code is
repeated. -/
def EchoesClosed (cfg : Config) (octets : List Octet) : Prop :=
  ∀ w, findTransactionBySequenceNumber w (receivedPdu octets).pduHeader.sequenceNum
      (receivedPdu octets).pduHeader.sourceEid = none →
    (receivedPdu octets).pduHeader.sourceEid = cfg.localEid →
    ∀ ph ∈ newPdus w (receiveMessage cfg w octets), ph.ackedCc = finCc octets

/-! ## The FIN as it is received -/

theorem receivedPdu_unset (octets : List Octet) : (receivedPdu octets).intHeader = .unset := by
  unfold receivedPdu recvPh
  split
  dsimp only
  split
  · rfl
  · split
    · rfl
    · split <;> rfl

theorem decodeFin_cc_lt (s : DecoderState) : (decodeFin default s).1.cc.toNat < 16 := by
  have hlt (flags : Octet) : (Fields.finCc.get flags).toNat < 16 := Field.get_lt Fields.finCc flags
  unfold decodeFin
  simp only [bind, StateT.bind, pure]
  generalize decodeFixedChunk Sizeof.pduFin s = result
  obtain ⟨chunk, s'⟩ := result
  cases chunk with
  | none =>
    show (default : PduFin).cc.toNat < 16
    decide
  | some fin => exact hlt _

theorem finCc_lt (octets : List Octet) : (finCc octets).toNat < 16 :=
  decodeFin_cc_lt (receivedPdu octets).pdec

/-! ## The active transaction -/

/-- A FIN is to be answered, with the condition code zero. -/
structure Pending (w : World) : Prop where
  state : w.t.state = .s2
  subState : w.t.s.subState = .sendFinAck
  finCc : w.t.s.s2.finCc = 0

theorem Pending.same {w w' : World} (h : Pending w) (hstate : w'.t.state = w.t.state)
    (hs : w'.t.s = w.t.s) : Pending w' :=
  ⟨hstate.trans h.state, (congrArg TxStateData.subState hs).trans h.subState,
    (congrArg (·.s2.finCc) hs).trans h.finCc⟩

theorem Pending.within {w : World} (h : Pending w) (e : Surroundings) : Pending (w.within e) :=
  ⟨h.state, h.subState, h.finCc⟩

theorem dispatchRecv_fin {cfg : Config} {octets : List Octet} (hfin : FinMessage octets)
    {w : World} (h : FinExpected w) : Pending (dispatchRecv cfg w (receivedPdu octets)) := by
  have hcode : (FileDirective.fin : Octet).toNat < fileDirectiveInvalidMax := by decide
  have hhandler : s2SubstateFns cfg w.t.s.subState FileDirective.fin = some s2Fin := by
    rcases h.subState with hsub | hsub | hsub <;> rw [hsub] <;> rfl
  have hrecv : rxStateDispatch cfg w (receivedPdu octets) = s2Fin w (receivedPdu octets) := by
    simp only [rxStateDispatch, h.state, s2Recv, sDispatchRecv, hfin.directive, hfin.fin, hcode,
      hhandler, and_self, if_true]
  have hidle : w.t.state ≠ .idle := by
    rw [h.state]
    decide
  unfold dispatchRecv
  rw [if_neg hidle, hrecv]
  refine ⟨h.state, rfl, ?_⟩
  show (receivedPdu octets).intHeader.asFin.cc = 0
  rw [receivedPdu_unset]
  rfl

theorem sReset_pending {w : World} (h : Pending w) (status : TxnStatus) :
    Pending (sReset (setTxnStatus w status)) ∨
      (sReset (setTxnStatus w status)).t.state = .idle := by
  have hstatus : Pending (setTxnStatus w status) := by
    unfold setTxnStatus
    split
    · exact h
    · exact h.same rfl rfl
  rcases resetTransaction_cases (setTxnStatus w status) true with hfreed | hkept
  · exact Or.inr (congrArg Transaction.state hfreed)
  · exact Or.inl (hstatus.same (congrArg Transaction.state hkept) (congrArg Transaction.s hkept))

theorem sSubstateSendFinAck_pending {cfg : Config} {w : World} (h : Pending w) :
    Pending (sSubstateSendFinAck cfg w) ∨ (sSubstateSendFinAck cfg w).t.state = .idle := by
  have hframe : SendFrame w (sendAck cfg w AckTxnStatus.active FileDirective.fin w.t.s.s2.finCc
      w.t.history.peerEid w.t.history.seqNum).2 :=
    sendDirective_frame (constructPduHeader_frame ..) _
  unfold sSubstateSendFinAck
  generalize sendAck cfg w AckTxnStatus.active FileDirective.fin w.t.s.s2.finCc
    w.t.history.peerEid w.t.history.seqNum = result at hframe ⊢
  obtain ⟨ret, w'⟩ := result
  have hsame : Pending w' := h.same (congrArg Transaction.state hframe.t)
    (congrArg Transaction.s hframe.t)
  cases ret with
  | noMsg => exact Or.inl hsame
  | success => exact sReset_pending hsame _
  | error => exact sReset_pending hsame _

theorem sTick_pending {cfg : Config} {w : World} (h : Pending w) :
    Pending (sTick cfg w) ∨ (sTick cfg w).t.state = .idle := by
  unfold sTick
  rw [if_neg (not_not.mpr h.state)]
  split
  · exact sReset_pending h _
  · have hticked : Pending { w with t.inactivityTimer := timerTick w.t.inactivityTimer } :=
      h.same rfl rfl
    generalize { w with t.inactivityTimer := timerTick w.t.inactivityTimer } = mid at hticked ⊢
    have hack : Pending (sTickAckTimer cfg mid).2 := by
      unfold sTickAckTimer
      split
      · exact hticked
      · split
        · exact hticked.same rfl rfl
        · rw [if_neg (by rw [hticked.subState]; nofun)]
          exact hticked
    dsimp only
    split
    · exact sSubstateSendFinAck_pending hack
    · exact Or.inl hack

theorem checkAndRespondNak_pending {cfg : Config} {w : World} (h : Pending w) :
    Pending (sCheckAndRespondNak cfg w).2 := by
  unfold sCheckAndRespondNak
  split
  · have hframe := sendMd_frame cfg w
    generalize sendMd cfg w = result at hframe
    obtain ⟨ret, w'⟩ := result
    have hsame : Pending w' := h.same (congrArg Transaction.state hframe.t)
      (congrArg Transaction.s hframe.t)
    cases ret with
    | noMsg => exact hsame
    | success => exact hsame.same rfl rfl
    | error => exact hsame
  · split
    · exact h
    · rename_i c _
      obtain ⟨fd, cachedPos, crc, ht⟩ := (sSendFileData_outcome cfg w c.offset c.size false).t
      generalize sSendFileData cfg w c.offset c.size false = result at ht
      obtain ⟨ret, w'⟩ := result
      have hsame : Pending w' := by
        have ht' : w'.t = _ := ht
        refine ⟨?_, ?_, ?_⟩ <;> rw [ht']
        · exact h.state
        · exact h.subState
        · exact h.finCc
      dsimp only
      split
      · exact hsame.same rfl rfl
      · split <;> exact hsame

/-- Only a FIN changes the condition code that is kept. -/
theorem senderStep_pending {cfg : Config} {w : World} (h : Pending w) {event : SenderEvent}
    (hother : ¬event.isFin) :
    Pending (senderStep cfg w event) ∨ (senderStep cfg w event).t.state = .idle := by
  cases event with
  | tx =>
    have hstay : dispatchTx cfg w = w := by
      simp only [dispatchTx, h.state, s2Tx, h.subState]
    exact Or.inl (by rwa [senderStep, hstay])
  | tick => exact sTick_pending h
  | tickNak => exact Or.inl (checkAndRespondNak_pending h)
  | recv ph =>
    have hignored : rxStateDispatch cfg w ph = w := by
      have hnone : s2SubstateFns cfg .sendFinAck ph.fdirective.directiveCode = none :=
        if_neg hother
      simp only [rxStateDispatch, h.state, s2Recv, sDispatchRecv, h.subState, hnone, ite_self]
    have hidle : w.t.state ≠ .idle := by
      rw [h.state]
      decide
    refine Or.inl ?_
    rw [senderStep, dispatchRecv, if_neg hidle, hignored]
    exact h.same rfl rfl
  | cancel =>
    refine Or.inl ?_
    show Pending (cancelTransaction w)
    unfold cancelTransaction
    split
    · exact h
    · have hmarked : Pending (setTxnStatus { w with t.com.canceled := true }
          .cancelRequestReceived) := by
        unfold setTxnStatus
        split <;> exact h.same rfl rfl
      generalize setTxnStatus { w with t.com.canceled := true } .cancelRequestReceived = mid
        at hmarked
      have hsender : isSender mid.t = true := by
        rw [isSender, hmarked.state]
        rfl
      simp only [hsender, if_true, sCancel, hmarked.subState]
      exact hmarked

theorem unanswered_pending {cfg : Config} {w₀ w : World} (h₀ : Pending w₀)
    (h : Unanswered cfg w₀ w) : Pending w := by
  induction h with
  | now => exact h₀
  | @later w e event _ hother hthere ih =>
    rcases senderStep_pending (ih.within e) hother with hpending | hidle
    · exact hpending
    · exact absurd hidle hthere

theorem resetTransaction_sent (w : World) (keepHistory : Bool) :
    (resetTransaction w keepHistory).sent = w.sent := by
  cases hchunks : w.t.chunks with
  | none => rw [resetTransaction_fault hchunks]
  | some chunks => exact (resetTransaction_freed (by rw [hchunks]; rfl) keepHistory).sent

/-- Whatever the FIN contains, its acknowledgement says zero. -/
theorem pending_acked {cfg : Config} {w : World} (h : Pending w) :
    (newPdus w (sSubstateSendFinAck cfg w)).map OutPdu.ackedCc =
      if (msgOutGet cfg w).1.isSome then [0] else [] := by
  have hzero : w.t.s.s2.finCc.toNat < 16 := by
    rw [h.finCc]
    decide
  have hack := sendAck_newPdus cfg w AckTxnStatus.active FileDirective.fin hzero
    w.t.history.peerEid w.t.history.seqNum
  rw [← h.finCc, ← hack]
  unfold sSubstateSendFinAck
  generalize sendAck cfg w AckTxnStatus.active FileDirective.fin w.t.s.s2.finCc
    w.t.history.peerEid w.t.history.seqNum = result
  obtain ⟨ret, w'⟩ := result
  have hreset : (sReset (setTxnStatus w' .noError)).sent = w'.sent := by
    rw [sReset, resetTransaction_sent, setTxnStatus]
    split <;> rfl
  cases ret with
  | noMsg => rfl
  | success => simp only [newPdus, hreset]
  | error => simp only [newPdus, hreset]

/-! ## Both paths -/

theorem acked_of_map {pdus : List OutPdu} {cc : Octet} {sent : Bool}
    (h : pdus.map OutPdu.ackedCc = if sent then [cc] else []) : ∀ ph ∈ pdus, ph.ackedCc = cc := by
  intro ph hph
  have hmem := List.mem_map_of_mem (f := OutPdu.ackedCc) hph
  rw [h] at hmem
  cases sent with
  | false => exact absurd hmem List.not_mem_nil
  | true => exact List.mem_singleton.mp hmem

theorem echoesClosed {cfg : Config} {octets : List Octet} (hfin : FinMessage octets) :
    EchoesClosed cfg octets := by
  intro w hunknown hlocal
  have hdecoded : recvPh (decodeStart octets 0 octets.length) = (true, receivedPdu octets) :=
    Prod.ext hfin.header rfl
  have hmessage : receiveMessage cfg w octets = ackUnknownFin cfg w (receivedPdu octets) := by
    simp only [receiveMessage, hdecoded, if_true, hunknown]
    simp only [receiveUnknown, hlocal, hfin.fin, and_self, if_true]
  have hcc : (recvFin (receivedPdu octets)).2.intHeader.asFin.cc.toNat < 16 := finCc_lt octets
  rw [hmessage]
  have hack := sendAck_newPdus cfg { w with t := initTxnTxFile default .class2 true 0 }
    AckTxnStatus.unrecognized FileDirective.fin hcc
    (recvFin (receivedPdu octets)).2.pduHeader.destinationEid
    (recvFin (receivedPdu octets)).2.pduHeader.sequenceNum
  refine acked_of_map (Eq.trans (congrArg _ ?_) hack)
  unfold ackUnknownFin
  simp only [hfin.decodes, if_true]
  split <;> rfl

/-- A transaction that waits for a FIN, with nothing in its way. -/
def finWaiting : World :=
  quietWorld
    { (default : Transaction) with
      state := .s2
      s := { (default : TxStateData) with subState := .waitForFin }
      com := { (default : FlagsCommon) with qIndex := .txw } }
    fun _ => none

theorem finWaiting_expected : FinExpected finWaiting := ⟨rfl, Or.inr (Or.inl rfl)⟩

theorem finWaiting_buffer (cfg : Config) (w : World) :
    (msgOutGet cfg (w.within finWaiting.surroundings)).1.isSome = true := by
  have hlimit : ¬(cfg.chan.maxOutgoingMessagesPerWakeup ≠ 0 ∧
      (w.within finWaiting.surroundings).outgoingCounter =
        cfg.chan.maxOutgoingMessagesPerWakeup) := by
    rintro ⟨hne, heq⟩
    exact hne heq.symm
  simp only [msgOutGet, if_neg hlimit]
  rfl

theorem echoesActive_iff {cfg : Config} {octets : List Octet} (hfin : FinMessage octets) :
    EchoesActive cfg octets ↔ finCc octets = 0 := by
  constructor
  · intro hecho
    have hpending : Pending ((dispatchRecv cfg finWaiting (receivedPdu octets)).within
        finWaiting.surroundings) :=
      (dispatchRecv_fin hfin finWaiting_expected).within _
    have hacked := @pending_acked cfg _ hpending
    rw [finWaiting_buffer, if_pos rfl] at hacked
    obtain ⟨ph, hph, hzero⟩ := List.mem_map.mp (hacked ▸ List.mem_singleton_self (0 : Octet))
    rw [← hecho finWaiting finWaiting_expected _ .now finWaiting.surroundings ph hph, hzero]
  · intro hzero w hw w' hw' e
    have hpending : Pending (w'.within e) :=
      (unanswered_pending (dispatchRecv_fin hfin hw) hw').within e
    rw [hzero]
    exact acked_of_map (pending_acked hpending)

/-- A closed transaction repeats the condition code of every FIN; an active one does so
exactly for those that contain the code zero. -/
theorem fin_ack_echo_iff {octets : List Octet} (hfin : FinMessage octets) (cfg : Config) :
    EchoesClosed cfg octets ∧
      (EchoesActive cfg octets ∧ EchoesClosed cfg octets ↔ finCc octets = 0) :=
  ⟨echoesClosed hfin,
    fun h => (echoesActive_iff hfin).mp h.1,
    fun h => ⟨(echoesActive_iff hfin).mpr h, echoesClosed hfin⟩⟩

/-- A FIN PDU from entity 2 for transaction 7 of entity 1, its flags octet given. -/
def finOctets (flags : Octet) : List Octet := [0x28, 0, 2, 0, 1, 7, 2, 5, flags]

theorem fin_ack_echo_no_error :
    EchoesActive default (finOctets 0) ∧ EchoesClosed default (finOctets 0) :=
  (fin_ack_echo_iff ⟨by decide, by decide, by decide, by decide⟩ default).2.mpr (by decide)

/-- The peer reports a filestore rejection; the acknowledgement says no error. -/
theorem fin_ack_drops_condition_code :
    FinMessage (finOctets 0x40) ∧ finCc (finOctets 0x40) = 4 ∧
      (∃ ph, newPdus ((dispatchRecv default finWaiting (receivedPdu (finOctets 0x40))).within
          finWaiting.surroundings)
        (sSubstateSendFinAck default ((dispatchRecv default finWaiting
          (receivedPdu (finOctets 0x40))).within finWaiting.surroundings)) = [ph] ∧
        ph.ackedCc = 0) ∧
      ¬EchoesActive default (finOctets 0x40) := by
  have hfin : FinMessage (finOctets 0x40) := ⟨by decide, by decide, by decide, by decide⟩
  have hpending : Pending ((dispatchRecv default finWaiting (receivedPdu (finOctets 0x40))).within
      finWaiting.surroundings) :=
    (dispatchRecv_fin hfin finWaiting_expected).within _
  have hacked := @pending_acked default _ hpending
  rw [finWaiting_buffer, if_pos rfl] at hacked
  refine ⟨hfin, by decide, List.map_eq_singleton_iff.mp hacked, fun hecho => ?_⟩
  exact absurd ((echoesActive_iff hfin).mp hecho) (by decide)

end Nos3.Cf
