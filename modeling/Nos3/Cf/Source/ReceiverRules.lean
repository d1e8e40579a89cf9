import Nos3.Cf.Source.Files
import Nos3.Cf.Source.Dispatch

/-!
# What the receiving handlers leave alone

Access to the stored file moves the descriptor, the running checksum and the
status, and nothing that decides how far a transaction has come: `SameProgress`.
-/
namespace Nos3.Cf

/-- Flags, sub-state, chunks and file size stay, and an error stays an error. -/
structure SameProgress (t t' : Transaction) : Prop where
  state : t'.state = t.state
  rx : t'.rx = t.rx
  subState : t'.r.subState = t.r.subState
  eofCc : t'.r.r2.eofCc = t.r.r2.eofCc
  chunks : t'.chunks = t.chunks
  fsize : t'.fsize = t.fsize
  error : t.isError = true → t'.isError = true

theorem SameProgress.refl (t : Transaction) : SameProgress t t :=
  ⟨rfl, rfl, rfl, rfl, rfl, rfl, id⟩

theorem SameProgress.trans {t t' t'' : Transaction} (h : SameProgress t t')
    (h' : SameProgress t' t'') : SameProgress t t'' :=
  ⟨h'.state.trans h.state, h'.rx.trans h.rx, h'.subState.trans h.subState,
    h'.eofCc.trans h.eofCc, h'.chunks.trans h.chunks, h'.fsize.trans h.fsize,
    fun herror => h'.error (h.error herror)⟩

/-- Sending a PDU leaves the transaction as it is. -/
theorem SendFrame.sameProgress {w w' : World} (h : SendFrame w w') : SameProgress w.t w'.t := by
  rw [h.t]
  exact .refl w.t

theorem setTxnStatus_frame (w : World) (status : TxnStatus) :
    ∃ history, setTxnStatus w status = { w with t.history := history } := by
  unfold setTxnStatus
  split
  · exact ⟨w.t.history, rfl⟩
  · exact ⟨_, rfl⟩

theorem setTxnStatus_sameProgress (w : World) (status : TxnStatus) :
    SameProgress w.t (setTxnStatus w status).t := by
  unfold setTxnStatus
  split
  · exact .refl w.t
  · rename_i hno
    exact ⟨rfl, rfl, rfl, rfl, rfl, rfl, fun herror => absurd herror hno⟩

theorem setTxnStatus_isError {w : World} {status : TxnStatus} (h : status.isError = true) :
    (setTxnStatus w status).t.isError = true := by
  unfold setTxnStatus
  split
  · assumption
  · exact h

theorem seekFrom_sameProgress (w : World) (cachedPos offset : Nat) :
    SameProgress w.t (seekFrom w cachedPos offset).2.t := by
  rcases seekFrom_cases w cachedPos offset with ⟨f, m, -, heq⟩ | ⟨-, heq⟩ | ⟨-, heq⟩
  · rw [heq]
    exact ⟨rfl, rfl, rfl, rfl, rfl, rfl, id⟩
  · rw [heq]
    exact .refl w.t
  · rw [heq]
    exact ⟨rfl, rfl, rfl, rfl, rfl, rfl, id⟩

theorem wrappedRead_sameProgress (w : World) (n : Nat) :
    SameProgress w.t (wrappedRead w n).2.t := by
  rcases wrappedRead_cases w n with ⟨f, -, -, heq⟩ | ⟨-, heq⟩
  · rw [heq]
    exact ⟨rfl, rfl, rfl, rfl, rfl, rfl, id⟩
  · rw [heq]
    exact ⟨rfl, rfl, rfl, rfl, rfl, rfl, id⟩

/-- A write changes the file behind the descriptor. -/
theorem wrappedWrite_cases (w : World) (octets : List Octet) :
    (∃ f, w.t.fd = some f ∧ f.file.pos + octets.length < fileSizeLimit ∧
      wrappedWrite w octets =
        (some octets.length, w.afterFileOp (some { f with file := f.file.write octets }))) ∨
    wrappedWrite w octets = (none, w.afterFileOp w.t.fd) := by
  simp only [wrappedWrite, nextFileOp]
  cases hfd : w.t.fd with
  | none =>
    right
    simp only [World.afterFileOp, ← hfd]
    rfl
  | some f =>
    by_cases hop : (w.fileOps 0 && decide (f.file.pos + octets.length < fileSizeLimit)) = true
    · left
      refine ⟨f, rfl, of_decide_eq_true (Bool.and_eq_true_iff.mp hop).2, ?_⟩
      simp only [hop, ↓reduceIte]
      rfl
    · right
      simp only [hop, Bool.false_eq_true, ↓reduceIte, World.afterFileOp, ← hfd]
      rfl

theorem wrappedWrite_sameProgress (w : World) (octets : List Octet) :
    SameProgress w.t (wrappedWrite w octets).2.t := by
  rcases wrappedWrite_cases w octets with ⟨f, -, -, heq⟩ | heq
  · rw [heq]
    exact ⟨rfl, rfl, rfl, rfl, rfl, rfl, id⟩
  · rw [heq]
    exact ⟨rfl, rfl, rfl, rfl, rfl, rfl, id⟩

/-- A file data PDU is stored, or the transaction fails. -/
theorem rProcessFd_sameProgress (w : World) (fd : PduFileDataHeader) :
    SameProgress w.t (rProcessFd w fd).2.t := by
  have hseek := seekFrom_sameProgress w w.t.r.cachedPos fd.offset.toNat
  unfold rProcessFd
  split
  · rename_i mid heq
    rw [heq] at hseek
    exact hseek.trans (setTxnStatus_sameProgress _ _)
  · rename_i mid heq
    rw [heq] at hseek
    have hwrite := hseek.trans (wrappedWrite_sameProgress mid fd.octetsOf)
    split
    · rename_i fret last hlast
      rw [hlast] at hwrite
      split
      · exact hwrite.trans ⟨rfl, rfl, rfl, rfl, rfl, rfl, id⟩
      · exact hwrite.trans (setTxnStatus_sameProgress _ _)
    · rename_i last hlast
      rw [hlast] at hwrite
      exact hwrite.trans (setTxnStatus_sameProgress _ _)

theorem recvFd_sameProgress (w : World) (ph : PduBuffer) :
    SameProgress w.t (recvFd w ph).2.2.t := by
  simp only [recvFd]
  split
  · exact .refl w.t
  · exact setTxnStatus_sameProgress w _

theorem rReceiveFd_sameProgress (w : World) (ph : PduBuffer) :
    SameProgress w.t (rReceiveFd w ph).2.2.t := by
  have hrecv := recvFd_sameProgress w ph
  simp only [rReceiveFd]
  split
  · exact hrecv.trans (rProcessFd_sameProgress _ _)
  · exact hrecv

/-- The header that is handed on is the decoded one. -/
theorem rReceiveFd_header (w : World) (ph : PduBuffer) :
    (rReceiveFd w ph).2.1 = (recvFdDecode ph).2.intHeader.asFd := by
  simp only [rReceiveFd, recvFd]
  split <;> rfl

theorem calcCrcLoop_sameProgress (cfg : Config) (fuel countBytes : Nat) (w : World) :
    SameProgress w.t (calcCrcLoop cfg fuel countBytes w).2.t := by
  induction fuel generalizing countBytes w with
  | zero => exact .refl w.t
  | succ fuel ih =>
    unfold calcCrcLoop
    dsimp only
    split
    · generalize (if w.t.r.r2.rxCrcCalcBytes + r2CrcChunkSize > w.t.fsize then
        w.t.fsize - w.t.r.r2.rxCrcCalcBytes else r2CrcChunkSize) = readSize
      have hseek := seekFrom_sameProgress w w.t.r.cachedPos w.t.r.r2.rxCrcCalcBytes
      split
      · rename_i mid heq
        rw [heq] at hseek
        exact hseek.trans (setTxnStatus_sameProgress _ _)
      · rename_i mid heq
        rw [heq] at hseek
        have hread := hseek.trans (wrappedRead_sameProgress mid readSize)
        split
        · rename_i octets last hlast
          rw [hlast] at hread
          split
          · refine SameProgress.trans ?_ (ih _ _)
            exact hread.trans ⟨rfl, rfl, rfl, rfl, rfl, rfl, id⟩
          · exact hread.trans (setTxnStatus_sameProgress _ _)
        · rename_i last hlast
          rw [hlast] at hread
          exact hread.trans (setTxnStatus_sameProgress _ _)
    · exact .refl w.t

theorem armAckTimer_sameProgress (cfg : Config) (w : World) :
    SameProgress w.t (armAckTimer cfg w).t := ⟨rfl, rfl, rfl, rfl, rfl, rfl, id⟩

theorem armInactTimer_sameProgress (cfg : Config) (w : World) :
    SameProgress w.t (armInactTimer cfg w).t := ⟨rfl, rfl, rfl, rfl, rfl, rfl, id⟩

theorem wrappedClose_sameProgress (w : World) : SameProgress w.t (wrappedClose w).t := by
  obtain ⟨files, fd, heq⟩ := wrappedClose_frame w
  rw [heq]
  exact ⟨rfl, rfl, rfl, rfl, rfl, rfl, id⟩

theorem osMv_frame (w : World) (src dst : Filename) : (osMv w src dst).2.t = w.t := by
  simp only [osMv, nextFileOp]
  cases w.files src with
  | none => rfl
  | some data =>
    by_cases hop : w.fileOps 0 = true
    · simp only [hop, ↓reduceIte]
      rfl
    · simp only [hop, Bool.false_eq_true, ↓reduceIte]

theorem osMv_sameProgress (w : World) (src dst : Filename) :
    SameProgress w.t (osMv w src dst).2.t := by
  rw [osMv_frame]
  exact .refl w.t

theorem wrappedOpen_sameProgress (w : World) (fname : Filename) :
    SameProgress w.t (wrappedOpen w fname).2.t := by
  rcases wrappedOpen_cases w fname with ⟨data, heq⟩ | heq
  · rw [heq]
    exact ⟨rfl, rfl, rfl, rfl, rfl, rfl, id⟩
  · rw [heq]
    exact ⟨rfl, rfl, rfl, rfl, rfl, rfl, id⟩

theorem wrappedOpen_refused (w : World) (fname : Filename)
    (h : (wrappedOpen w fname).1 = false) :
    (wrappedOpen w fname).2 = w.afterFileOp none := by
  rcases wrappedOpen_cases w fname with ⟨data, heq⟩ | heq
  · rw [heq] at h
    cases h
  · rw [heq]

theorem wrappedCreate_sameProgress (w : World) (fname : Filename) :
    SameProgress w.t (wrappedCreate w fname).2.t := by
  simp only [wrappedCreate, nextFileOp]
  by_cases hop : w.fileOps 0 = true
  · simp only [hop, ↓reduceIte]
    exact ⟨rfl, rfl, rfl, rfl, rfl, rfl, id⟩
  · simp only [hop, Bool.false_eq_true, ↓reduceIte]
    exact ⟨rfl, rfl, rfl, rfl, rfl, rfl, id⟩

/-- The gaps are those of the chunk list and the file size. -/
theorem SameProgress.gaps {t t' : Transaction} (h : SameProgress t t') :
    r2HasGaps t' = r2HasGaps t := by
  rw [r2HasGaps, Transaction.chunkList, h.chunks, h.fsize]
  rfl

/-! ## Completion -/

theorem isError_false_of {t t' : Transaction} (h : t.isError = true → t'.isError = true) (hno : t'.isError = false) :
    t.isError = false := by
  cases herror : t.isError with
  | false => rfl
  | true => rw [h herror] at hno; cases hno

theorem mdRecv_of_needsNak {t : Transaction} (h : r2NeedsNak t = false) : t.rx.mdRecv = true := by
  simp only [r2NeedsNak, Bool.or_eq_false_iff, Bool.not_eq_false'] at h
  exact h.1

theorem r2CountNak_limit {cfg : Config} {w : World} (h : (r2CountNak cfg w).1 = true) :
    (r2CountNak cfg w).2.t.isError = true := by
  simp only [r2CountNak] at h ⊢
  split
  · exact setTxnStatus_isError rfl
  · rename_i hbelow
    rw [if_neg hbelow] at h
    cases h

/-! ## Metadata -/

/-- Metadata brings the file size and the file names. -/
structure MetadataOnly (t t' : Transaction) : Prop where
  state : t'.state = t.state
  rx : t'.rx = t.rx
  subState : t'.r.subState = t.r.subState
  eofCc : t'.r.r2.eofCc = t.r.r2.eofCc
  chunks : t'.chunks = t.chunks
  error : t.isError = true → t'.isError = true

theorem recvMd_metadataOnly (w : World) (ph : PduBuffer) : MetadataOnly w.t (recvMd w ph).2.t := by
  simp only [recvMd]
  split
  · exact ⟨rfl, rfl, rfl, rfl, rfl, id⟩
  · split
    · exact ⟨rfl, rfl, rfl, rfl, rfl, id⟩
    · split
      · exact ⟨rfl, rfl, rfl, rfl, rfl, id⟩
      · exact ⟨rfl, rfl, rfl, rfl, rfl, id⟩

/-! ## The end -/

theorem resetTransaction_cases (w : World) (keepHistory : Bool) :
    (resetTransaction w keepHistory).t = freedTransaction ∨
      (resetTransaction w keepHistory).t = w.t := by
  cases hchunks : w.t.chunks with
  | none =>
    rw [resetTransaction_fault hchunks]
    exact .inr rfl
  | some chunks =>
    exact .inl (resetTransaction_freed (by rw [hchunks]; rfl) keepHistory).t

end Nos3.Cf
