import Nos3.Cf.Source.CrcPass
import Nos3.Cf.Source.SenderRules

/-!
# The file of a receiving transaction

What a class 2 transaction knows of its file: the descriptor is where `cached_pos` says,
the pass over the file has read octets that are there, and the file is kept only after
the pass has read all that was announced.
-/
namespace Nos3.Cf
open Nos3.Base.FileImage

/-- A FIN is due or waits for its acknowledgement. -/
def FinDue (t : Transaction) : Prop := t.rx.sendFin = true ∨ t.r.subState = .waitForFinAck

structure StoreInv (t : Transaction) : Prop where
  opened : t.isError = false → ∃ f, t.fd = some f ∧ f.file.pos = t.r.cachedPos ∧
    t.r.r2.rxCrcCalcBytes ≤ (bytesBelow t f).length
  unread : t.rx.mdRecv = false → t.r.r2.rxCrcCalcBytes = 0
  due : t.isError = false → FinDue t → t.rx.mdRecv = true
  kept : t.keep = true → t.rx.mdRecv = true ∧ ∃ f, t.fd = some f ∧ t.fsize ≤ f.file.data.length

/-- The file is not longer than announced. -/
def Within (t : Transaction) : Prop :=
  t.rx.mdRecv = true → ∀ f, t.fd = some f → f.file.data.length ≤ t.fsize

/-- Nothing that concerns the file changes, and a FIN becomes due only with metadata or an
error. -/
structure SameStore (t t' : Transaction) : Prop where
  state : t'.state = t.state
  fd : t'.fd = t.fd
  keep : t'.keep = t.keep
  fsize : t'.fsize = t.fsize
  mdRecv : t'.rx.mdRecv = t.rx.mdRecv
  cachedPos : t'.r.cachedPos = t.r.cachedPos
  rxCrcCalcBytes : t'.r.r2.rxCrcCalcBytes = t.r.r2.rxCrcCalcBytes
  error : t.isError = true → t'.isError = true
  due : t'.isError = false → FinDue t' → FinDue t ∨ t.rx.mdRecv = true

variable {cfg : Config} {w w' w'' : World} {t t' t'' : Transaction}

theorem SameStore.refl (t : Transaction) : SameStore t t :=
  ⟨rfl, rfl, rfl, rfl, rfl, rfl, rfl, id, fun _ hdue => .inl hdue⟩

theorem SameStore.trans (h : SameStore t t') (h' : SameStore t' t'') : SameStore t t'' := by
  refine ⟨h'.state.trans h.state, h'.fd.trans h.fd, h'.keep.trans h.keep,
    h'.fsize.trans h.fsize, h'.mdRecv.trans h.mdRecv, h'.cachedPos.trans h.cachedPos,
    h'.rxCrcCalcBytes.trans h.rxCrcCalcBytes, fun herror => h'.error (h.error herror),
    fun hno hdue => ?_⟩
  rcases h'.due hno hdue with hdue' | hmd
  · exact h.due (isError_false_of h'.error hno) hdue'
  · exact .inr (h.mdRecv ▸ hmd)

theorem SendFrame.sameStore (h : SendFrame w w') : SameStore w.t w'.t := by
  rw [h.t]
  exact .refl w.t

theorem StoreInv.same (h : StoreInv t) (hsame : SameStore t t') : StoreInv t' := by
  refine ⟨fun hno => ?_, fun hmd => ?_, fun hno hdue => ?_, fun hkeep => ?_⟩
  · simp only [bytesBelow, hsame.fd, hsame.cachedPos, hsame.rxCrcCalcBytes, hsame.fsize]
    exact h.opened (isError_false_of hsame.error hno)
  · rw [hsame.rxCrcCalcBytes]
    exact h.unread (hsame.mdRecv ▸ hmd)
  · rw [hsame.mdRecv]
    exact (hsame.due hno hdue).elim (h.due (isError_false_of hsame.error hno)) id
  · rw [hsame.mdRecv, hsame.fd, hsame.fsize]
    exact h.kept (hsame.keep ▸ hkeep)

theorem Within.same (h : Within t) (hsame : SameStore t t') : Within t' := by
  intro hmd f hfd
  rw [hsame.fsize]
  exact h (hsame.mdRecv ▸ hmd) f (hsame.fd ▸ hfd)

/-! ## The status, and the end -/

theorem setTxnStatus_sameStore (w : World) (status : TxnStatus) :
    SameStore w.t (setTxnStatus w status).t := by
  unfold setTxnStatus
  split
  · exact .refl w.t
  · rename_i hno
    exact ⟨rfl, rfl, rfl, rfl, rfl, rfl, rfl, fun herror => absurd herror hno,
      fun _ hdue => .inl hdue⟩

theorem r2SetFinTxnStatus_sameStore (w : World) {status : TxnStatus} (h : status.isError = true) :
    SameStore w.t (r2SetFinTxnStatus w status).t := by
  have hset := setTxnStatus_sameStore w status
  refine ⟨hset.state, hset.fd, hset.keep, hset.fsize, hset.mdRecv, hset.cachedPos,
    hset.rxCrcCalcBytes, hset.error, fun hno => ?_⟩
  have herror : (r2SetFinTxnStatus w status).t.isError = true := setTxnStatus_isError h
  cases herror.symm.trans hno

/-- The transaction is over; a file that was to be kept is among the files. -/
structure Ended (w w' : World) : Prop where
  state : w'.t.state = .idle
  files : ∀ f, w.t.fd = some f → w.t.keep = true → w'.files f.name = some f.file.data

/-- A call goes on with the same file, or ends the transaction. -/
def Outcome (w w' : World) : Prop := SameStore w.t w'.t ∨ Ended w w'

theorem Outcome.refl (w : World) : Outcome w w := .inl (.refl w.t)

theorem Outcome.after (h : SameStore w.t w'.t) (h' : Outcome w' w'') : Outcome w w'' := by
  refine h'.imp h.trans fun hended => ⟨hended.state, fun f hfd hkeep => ?_⟩
  exact hended.files f (h.fd.trans hfd) (h.keep.trans hkeep)

theorem resetTransaction_files {chunks : ChunkList} (h : w.t.chunks = some chunks)
    (keepHistory : Bool) :
    (resetTransaction w keepHistory).files = (resetClose (dequeueTransaction w)).files := by
  unfold resetTransaction
  rw [h]
  rfl

theorem resetTransaction_outcome (w : World) (keepHistory : Bool) :
    Outcome w (resetTransaction w keepHistory) := by
  cases hchunks : w.t.chunks with
  | none =>
    rw [resetTransaction_fault hchunks]
    exact .inl (.refl w.t)
  | some chunks =>
    have hfreed := resetTransaction_freed (by rw [hchunks]; rfl) keepHistory
    refine .inr ⟨by rw [hfreed.t]; rfl, fun f hfd hkeep => ?_⟩
    have hfd' : (dequeueTransaction w).t.fd = some f := hfd
    have hclose : wrappedClose (dequeueTransaction w) =
        { setFileContent (dequeueTransaction w) f.name (some f.file.data) with
          t := { (dequeueTransaction w).t with fd := none } } := by
      rw [wrappedClose, hfd']
    have hkeep' : (dequeueTransaction w).t.keep = true := hkeep
    rw [resetTransaction_files hchunks]
    simp only [resetClose, hfd', Option.isSome_some, if_true, hclose, hkeep', Bool.not_true,
      Bool.false_eq_true, if_false]
    exact if_pos rfl

theorem r2Reset_outcome (w : World)
    (h : w.t.isError = true ∨ w.t.r.subState = .waitForFinAck) : Outcome w (r2Reset w) := by
  unfold r2Reset
  rw [if_pos (h.elim (fun herror => .inr (.inr (.inl herror))) .inl)]
  exact resetTransaction_outcome w true

/-! ## Handlers that leave the file alone -/

theorem armAckTimer_sameStore (cfg : Config) (w : World) : SameStore w.t (armAckTimer cfg w).t :=
  ⟨rfl, rfl, rfl, rfl, rfl, rfl, rfl, id, fun _ hdue => .inl hdue⟩

theorem armInactTimer_sameStore (cfg : Config) (w : World) :
    SameStore w.t (armInactTimer cfg w).t :=
  ⟨rfl, rfl, rfl, rfl, rfl, rfl, rfl, id, fun _ hdue => .inl hdue⟩

theorem r2CountNak_sameStore (cfg : Config) (w : World) :
    SameStore w.t (r2CountNak cfg w).2.t := by
  unfold r2CountNak
  dsimp only
  split
  · have hset := setTxnStatus_sameStore { w with
      t.r.r2.acknakCount := nextAcknakCount w.t.r.r2.acknakCount } .nakLimitReached
    exact ⟨hset.state, hset.fd, hset.keep, hset.fsize, hset.mdRecv, hset.cachedPos,
      hset.rxCrcCalcBytes, hset.error, hset.due⟩
  · exact ⟨rfl, rfl, rfl, rfl, rfl, rfl, rfl, id, fun _ hdue => .inl hdue⟩

/-- Back to file data: what is due is due by the flag. -/
theorem fileData_sameStore (w : World) :
    SameStore w.t { w with t.r.subState := .fileData }.t := by
  refine ⟨rfl, rfl, rfl, rfl, rfl, rfl, rfl, id, fun _ hdue => .inl ?_⟩
  exact hdue.elim .inl nofun

/-- A FIN becomes due after the search for gaps where there is metadata, or with an error. -/
theorem completed_sameStore (h : w.t.rx.mdRecv = true ∨ w.t.isError = true) :
    SameStore w.t (r2SetFinTxnStatus { w with t.rx.complete := true } .noError).t := by
  have hset := setTxnStatus_sameStore { w with t.rx.complete := true } .noError
  refine ⟨hset.state, hset.fd, hset.keep, hset.fsize, hset.mdRecv, hset.cachedPos,
    hset.rxCrcCalcBytes, hset.error, fun hno _ => ?_⟩
  refine h.elim .inr fun herror => ?_
  cases (hset.error herror).symm.trans hno

theorem r2Complete_sameStore (cfg : Config) (w : World) (okToSendNak : Bool) :
    SameStore w.t (r2Complete cfg w okToSendNak).t := by
  unfold r2Complete
  split
  · exact .refl w.t
  · dsimp only
    refine SameStore.trans ?_ (fileData_sameStore _)
    cases hneeds : r2NeedsNak w.t with
    | false =>
      simp only [Bool.not_false, Bool.true_and, Bool.false_and, Bool.false_eq_true, if_false,
        Bool.or_false]
      split
      · exact completed_sameStore (.inl (mdRecv_of_needsNak hneeds))
      · exact .refl w.t
    | true =>
      cases okToSendNak with
      | false => exact .refl w.t
      | true =>
        have hcounted := r2CountNak_sameStore cfg w
        simp only [Bool.not_true, Bool.false_and, Bool.and_self, if_true, Bool.false_or]
        rcases hcount : r2CountNak cfg w with ⟨limit, counted⟩
        rw [hcount] at hcounted
        cases limit with
        | true =>
          have herror := r2CountNak_limit (show (r2CountNak cfg w).1 = true by rw [hcount])
          rw [hcount] at herror
          exact hcounted.trans (completed_sameStore (.inr herror))
        | false => exact hcounted

theorem r2SubstateRecvEof_outcome (cfg : Config) (w : World) (ph : PduBuffer) :
    Outcome w (r2SubstateRecvEof cfg w ph) := by
  unfold r2SubstateRecvEof
  split
  · exact .refl w
  · split
    · rename_i eof hrecv
      dsimp only
      split
      · refine .inl (SameStore.trans ?_ (r2Complete_sameStore cfg _ true))
        exact ⟨rfl, rfl, rfl, rfl, rfl, rfl, rfl, id, fun _ hdue => .inl hdue⟩
      · rename_i hcc
        have herror : (TxnStatus.fromConditionCode eof.cc).isError = true := by
          simpa [TxnStatus.fromConditionCode, TxnStatus.isError] using hcc
        refine Outcome.after (SameStore.trans ?_ (setTxnStatus_sameStore _ _))
          (r2Reset_outcome _ (.inl (setTxnStatus_isError herror)))
        exact ⟨rfl, rfl, rfl, rfl, rfl, rfl, rfl, id, fun _ hdue => .inl hdue⟩
    · exact .inl (r2SetFinTxnStatus_sameStore w rfl)
    · exact .inl (fileData_sameStore w)

theorem rTickInactivity_sameStore (w : World) : SameStore w.t (rTickInactivity w).t := by
  unfold rTickInactivity
  split
  · exact .refl w.t
  · split
    · have hset := r2SetFinTxnStatus_sameStore w
        (show TxnStatus.inactivityDetected.isError from rfl)
      exact ⟨hset.state, hset.fd, hset.keep, hset.fsize, hset.mdRecv, hset.cachedPos,
        hset.rxCrcCalcBytes, hset.error, hset.due⟩
    · exact ⟨rfl, rfl, rfl, rfl, rfl, rfl, rfl, id, fun _ hdue => .inl hdue⟩

theorem rSubstateSendNak_sameStore (cfg : Config) (w : World) :
    SameStore w.t (rSubstateSendNak cfg w).2.t := by
  have hframe := constructPduHeader_frame cfg w FileDirective.nak w.t.history.peerEid cfg.localEid
    true w.t.history.seqNum
  unfold rSubstateSendNak
  split
  · rename_i mid heq
    rw [heq] at hframe
    exact hframe.sameStore
  · rename_i out mid heq
    rw [heq] at hframe
    have hmid : SameStore w.t mid.t := hframe.sameStore
    split
    · dsimp only
      split
      · exact hmid.trans ⟨rfl, rfl, rfl, rfl, rfl, rfl, rfl, id, fun _ hdue => .inl hdue⟩
      · exact hmid.trans ⟨rfl, rfl, rfl, rfl, rfl, rfl, rfl, id, fun _ hdue => .inl hdue⟩
    · exact hmid

theorem rTickAckTimer_outcome (cfg : Config) (w : World) : Outcome w (rTickAckTimer cfg w) := by
  unfold rTickAckTimer
  split
  · exact .refl w
  · split
    · exact .inl ⟨rfl, rfl, rfl, rfl, rfl, rfl, rfl, id, fun _ hdue => .inl hdue⟩
    · split
      · exact .inl ((r2Complete_sameStore cfg w true).trans (armAckTimer_sameStore cfg _))
      · split
        · rename_i hwaits
          dsimp only
          split
          · refine Outcome.after (SameStore.trans ?_ (setTxnStatus_sameStore _ _))
              (r2Reset_outcome _ (.inl (setTxnStatus_isError rfl)))
            exact ⟨rfl, rfl, rfl, rfl, rfl, rfl, rfl, id, fun _ hdue => .inl hdue⟩
          · exact .inl ⟨rfl, rfl, rfl, rfl, rfl, rfl, rfl, id, fun _ _ => .inl (.inr hwaits)⟩
        · exact .inl (armAckTimer_sameStore cfg w)

/-- A canceled transaction sends a FIN with an error, or ends. -/
theorem cancelTransaction_outcome (hstate : w.t.state = .r2) :
    Outcome w (cancelTransaction w) := by
  unfold cancelTransaction
  split
  · exact .refl w
  · have herror : (setTxnStatus { w with t.com.canceled := true }
        .cancelRequestReceived).t.isError = true := setTxnStatus_isError rfl
    have hset : SameStore w.t
        (setTxnStatus { w with t.com.canceled := true } .cancelRequestReceived).t := by
      refine SameStore.trans ?_ (setTxnStatus_sameStore _ _)
      exact ⟨rfl, rfl, rfl, rfl, rfl, rfl, rfl, id, fun _ hdue => .inl hdue⟩
    dsimp only
    generalize setTxnStatus { w with t.com.canceled := true } .cancelRequestReceived = canceled
      at herror hset
    have hnot : isSender canceled.t = false := by
      rw [isSender, hset.state, hstate]
      rfl
    rw [if_neg (by rw [hnot]; simp)]
    unfold rCancel
    split
    · refine .inl (hset.trans ⟨rfl, rfl, rfl, rfl, rfl, rfl, rfl, id, fun hno => ?_⟩)
      cases herror.symm.trans hno
    · exact .after hset (resetTransaction_outcome canceled true)

/-! ## Storing file data -/

/-- The data goes to its offset, and the descriptor behind it unless the transaction
fails. -/
theorem rProcessFd_cases {f : OpenFile} (hfd : w.t.fd = some f)
    (hpos : f.file.pos = w.t.r.cachedPos) (fd : PduFileDataHeader) :
    ∃ m g, g.name = f.name ∧ (g.file.data = f.file.data ∨
        g.file.data = overwrite f.file.data fd.offset.toNat fd.octetsOf) ∧
      (rProcessFd w fd = (true, { w.accessed m g with t.r.cachedPos := g.file.pos }) ∨
        ∃ status, TxnStatus.isError status = true ∧
          rProcessFd w fd = (false, setTxnStatus (w.accessed m g) status)) := by
  have haccess : accessPos w.t.r.cachedPos fd.offset.toNat f.file.pos = fd.offset.toNat := by
    unfold accessPos
    split
    · rename_i hsame
      rw [hpos, hsame]
    · rfl
  unfold rProcessFd
  rcases seekFrom_cases w w.t.r.cachedPos fd.offset.toNat with
    ⟨f', m, hf', hseek⟩ | ⟨hnone, -⟩ | ⟨-, hseek⟩
  · obtain rfl : f = f' := Option.some.inj (hfd.symm.trans hf')
    rw [haccess] at hseek
    have hseek : seekFrom w w.t.r.cachedPos fd.offset.toNat =
      (true, w.accessed m (f.at fd.offset.toNat)) := hseek
    rw [hseek]
    dsimp only
    rcases wrappedWrite_cases (w.accessed m (f.at fd.offset.toNat)) fd.octetsOf with
      ⟨f', hf', hbound, hwrite⟩ | hwrite
    · obtain rfl : f.at fd.offset.toNat = f' := Option.some.inj hf'
      rw [hwrite, World.accessed_afterFileOp]
      refine ⟨1 + m, ⟨f.name, (f.at fd.offset.toNat).file.write fd.octetsOf⟩, rfl, .inr rfl, ?_⟩
      dsimp only
      by_cases hfull : fd.octetsOf.length = fd.dataLen
      · refine .inl ((if_pos hfull).trans ?_)
        have hsum : toUint32 (fd.dataLen + fd.offset.toNat) =
            fd.offset.toNat + fd.octetsOf.length := by
          rw [toUint32, ← hfull, Nat.add_comm]
          exact Nat.mod_eq_of_lt hbound
        rw [hsum]
        rfl
      · exact .inr ⟨.filestoreRejection, rfl, if_neg hfull⟩
    · have hfd' : (w.accessed m (f.at fd.offset.toNat)).t.fd =
        some (f.at fd.offset.toNat) := rfl
      rw [hwrite, hfd', World.accessed_afterFileOp]
      exact ⟨1 + m, f.at fd.offset.toNat, rfl, .inl rfl, .inr ⟨.filestoreRejection, rfl, rfl⟩⟩
  · cases hnone.symm.trans hfd
  · rw [hseek, hfd, World.afterFileOp_eq_accessed]
    exact ⟨1, f, rfl, .inl rfl, .inr ⟨.fileSizeError, rfl, rfl⟩⟩

end Nos3.Cf
