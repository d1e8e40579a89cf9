import Nos3.Cf.Source.StoredFile
import Nos3.Cf.Guarantees.ReceiverCompletion

/-!
# The length of a received file

File data is written wherever its offset says, and neither the search for gaps nor the
checksum looks behind the announced size.
-/
namespace Nos3.Cf
open Nos3.Base.FileImage
open Nos3.Base.Transition

variable {cfg : Config} {w mid w' w'' : World} {t t' : Transaction} {ph : PduBuffer}

/-- A file that was to be kept is there when the transaction is over, as long as
announced. -/
def KeptWhole (t : Transaction) (w' : World) : Prop :=
  ∀ f, t.fd = some f → t.keep = true →
    ∃ data, w'.files f.name = some data ∧ data.length = t.fsize

/-- The transaction goes on with its file within the announced size. -/
structure Advanced (w w' : World) : Prop where
  inv : StoreInv w'.t
  within : Within w'.t
  state : w'.t.state = w.t.state
  fsize : w'.t.fsize = w.t.fsize
  keep : w.t.keep = true → w'.t.keep = true
  name : ∀ f, w.t.fd = some f → ∃ g, w'.t.fd = some g ∧ g.name = f.name

/-- What a step of a class 2 transaction ends with. -/
def StepResult (w w' : World) : Prop :=
  w'.t.state = .r2 ∧ StoreInv w'.t ∧ Within w'.t ∨ w'.t.state = .idle ∧ KeptWhole w.t w'

theorem Advanced.same (h : Advanced w w') (hsame : SameStore w'.t w''.t) : Advanced w w'' := by
  refine ⟨h.inv.same hsame, h.within.same hsame, hsame.state.trans h.state,
    hsame.fsize.trans h.fsize, fun hkeep => ?_, fun f hfd => ?_⟩
  · rw [hsame.keep]
    exact h.keep hkeep
  · rw [hsame.fd]
    exact h.name f hfd

theorem Advanced.refl (hinv : StoreInv w.t) (hwithin : Within w.t) : Advanced w w :=
  ⟨hinv, hwithin, rfl, rfl, id, fun f hfd => ⟨f, hfd, rfl⟩⟩

theorem Advanced.outcome (h : Advanced w mid) (hstate : w.t.state = .r2)
    (houtcome : Outcome mid w') : StepResult w w' := by
  rcases houtcome with hsame | hended
  · have hlast := h.same hsame
    exact .inl ⟨hlast.state.trans hstate, hlast.inv, hlast.within⟩
  · refine .inr ⟨hended.state, fun f hfd hkeep => ?_⟩
    obtain ⟨g, hg, hname⟩ := h.name f hfd
    obtain ⟨hmd, g', hg', hlong⟩ := h.inv.kept (h.keep hkeep)
    obtain rfl : g = g' := Option.some.inj (hg.symm.trans hg')
    refine ⟨g.file.data, ?_, ?_⟩
    · rw [← hname]
      exact hended.files g hg (h.keep hkeep)
    · rw [← h.fsize]
      exact le_antisymm (h.within hmd g hg) hlong

theorem Advanced.result (h : Advanced w w') (hstate : w.t.state = .r2) : StepResult w w' :=
  .inl ⟨h.state.trans hstate, h.inv, h.within⟩

/-! ## File data -/

/-- The data of a PDU ends within the announced size. -/
def FdFits (t : Transaction) (fd : PduFileDataHeader) : Prop :=
  t.rx.mdRecv = true → fd.dataLen = 0 ∨ fd.offset.toNat + fd.dataLen ≤ t.fsize

instance (t : Transaction) (fd : PduFileDataHeader) : Decidable (FdFits t fd) :=
  inferInstanceAs (Decidable (_ → _))

theorem octetsOf_length (fd : PduFileDataHeader) : fd.octetsOf.length ≤ fd.dataLen := by
  rw [PduFileDataHeader.octetsOf, List.length_take]
  exact min_le_left _ _

theorem overwrite_within {data octets : List Octet} {offset limit : Nat}
    (hdata : data.length ≤ limit) (hoctets : octets = [] ∨ offset + octets.length ≤ limit) :
    (overwrite data offset octets).length ≤ limit := by
  by_cases hnil : octets = []
  · rw [hnil, overwrite_nil]
    exact hdata
  · rw [overwrite_length hnil]
    exact max_le hdata (hoctets.resolve_left hnil)

/-- A file that only grew is still as good. -/
theorem StoreInv.grown {f g : OpenFile} (h : StoreInv w.t) (hfd : w.t.fd = some f)
    (hgrown : f.file.data.length ≤ g.file.data.length) (m : Nat) (cachedPos : Nat)
    (hpos : w'.t.isError = false → g.file.pos = cachedPos)
    (hw' : ∃ history, w' = { w.accessed m g with t.history := history, t.r.cachedPos := cachedPos })
    (herror : w.t.isError = false) : StoreInv w'.t := by
  obtain ⟨history, rfl⟩ := hw'
  refine ⟨fun hno => ⟨g, rfl, hpos hno, ?_⟩, h.unread, fun _ hdue => h.due herror hdue,
    fun hkeep => ?_⟩
  · obtain ⟨f', hfd', -, hread⟩ := h.opened herror
    obtain rfl : f = f' := Option.some.inj (hfd.symm.trans hfd')
    rw [bytesBelow, List.length_take] at hread ⊢
    change w.t.r.r2.rxCrcCalcBytes ≤ min w.t.fsize g.file.data.length
    omega
  · obtain ⟨hmd, f', hfd', hlong⟩ := h.kept hkeep
    obtain rfl : f = f' := Option.some.inj (hfd.symm.trans hfd')
    exact ⟨hmd, g, rfl, hlong.trans hgrown⟩

theorem rProcessFd_advanced {fd : PduFileDataHeader} (hinv : StoreInv w.t) (hwithin : Within w.t)
    (hno : w.t.isError = false) (hfits : FdFits w.t fd) :
    Advanced w (rProcessFd w fd).2 ∧
      ((rProcessFd w fd).1 = false → (rProcessFd w fd).2.t.isError = true) := by
  obtain ⟨f, hfd, hpos, -⟩ := hinv.opened hno
  obtain ⟨m, g, hname, hdata, hresult⟩ := rProcessFd_cases hfd hpos fd
  have hgrown : f.file.data.length ≤ g.file.data.length := by
    rcases hdata with heq | heq
    · rw [heq]
    · rw [heq]
      exact length_le_overwrite
  have hbounded (hmd : w.t.rx.mdRecv = true) : g.file.data.length ≤ w.t.fsize := by
    have hbefore := hwithin hmd f hfd
    rcases hdata with heq | heq
    · rwa [heq]
    · rw [heq]
      have hlength := octetsOf_length fd
      refine overwrite_within hbefore ((hfits hmd).imp (fun hzero => ?_) fun hinside => ?_)
      · exact List.eq_nil_of_length_eq_zero (by omega)
      · omega
  rcases hresult with hresult | ⟨status, hstatus, hresult⟩
  · rw [hresult]
    refine ⟨⟨hinv.grown hfd hgrown m g.file.pos (fun _ => rfl) ⟨_, rfl⟩ hno, ?_, rfl, rfl, id,
      fun f' hf' => ⟨g, rfl, ?_⟩⟩, nofun⟩
    · intro hmd g' hg'
      obtain rfl : g = g' := Option.some.inj hg'
      exact hbounded hmd
    · obtain rfl : f = f' := Option.some.inj (hfd.symm.trans hf')
      exact hname
  · rw [hresult]
    have herror : (setTxnStatus (w.accessed m g) status).t.isError = true :=
      setTxnStatus_isError hstatus
    obtain ⟨history, hset⟩ := setTxnStatus_frame (w.accessed m g) status
    rw [hset] at herror ⊢
    refine ⟨⟨hinv.grown hfd hgrown m w.t.r.cachedPos ?_ ⟨history, rfl⟩ hno, ?_, rfl, rfl, id,
      fun f' hf' => ⟨g, rfl, ?_⟩⟩, fun _ => herror⟩
    · intro hfine
      cases herror.symm.trans hfine
    · intro hmd g' hg'
      obtain rfl : g = g' := Option.some.inj hg'
      exact hbounded hmd
    · obtain rfl : f = f' := Option.some.inj (hfd.symm.trans hf')
      exact hname

theorem r2SubstateRecvFileData_result (hstate : w.t.state = .r2) (hinv : StoreInv w.t)
    (hwithin : Within w.t) (hno : w.t.isError = false)
    (hfits : (recvFdDecode ph).1 = true → FdFits w.t (recvFdDecode ph).2.intHeader.asFd) :
    StepResult w (r2SubstateRecvFileData cfg w ph) := by
  have hreceived : Advanced w (rReceiveFd w ph).2.2 ∧
      ((rReceiveFd w ph).1 = false → (rReceiveFd w ph).2.2.t.isError = true) := by
    by_cases hok : (recvFdDecode ph).1 = true
    · simp only [rReceiveFd, recvFd, if_pos hok]
      exact rProcessFd_advanced hinv hwithin hno (hfits hok)
    · simp only [rReceiveFd, recvFd, if_neg hok]
      exact ⟨(Advanced.refl hinv hwithin).same (setTxnStatus_sameStore w .protocolError),
        fun _ => setTxnStatus_isError rfl⟩
  obtain ⟨hadvanced, hfailed⟩ := hreceived
  unfold r2SubstateRecvFileData
  split
  · rename_i fd mid hrecv
    rw [hrecv] at hadvanced
    have hsame : SameStore mid.t
        (mid.setChunkList (chunkListAdd mid.t.chunkList fd.offset.toNat fd.dataLen)).t :=
      ⟨rfl, rfl, rfl, rfl, rfl, rfl, rfl, id, fun _ hdue => .inl hdue⟩
    have hadded := hadvanced.same hsame
    generalize mid.setChunkList (chunkListAdd mid.t.chunkList fd.offset.toNat fd.dataLen) = added
      at hadded
    have hsearched : Advanced w
        (if added.t.rx.fdNakSent then r2Complete cfg added false else added) := by
      split
      · exact hadded.same (r2Complete_sameStore cfg added false)
      · exact hadded
    dsimp only
    generalize (if added.t.rx.fdNakSent then r2Complete cfg added false else added) = searched
      at hsearched
    refine Advanced.result (hsearched.same ?_) hstate
    split
    · exact ⟨rfl, rfl, rfl, rfl, rfl, rfl, rfl, id, fun _ hdue => .inl hdue⟩
    · exact ⟨rfl, rfl, rfl, rfl, rfl, rfl, rfl, id, fun _ hdue => .inl hdue⟩
  · rename_i fd mid hrecv
    rw [hrecv] at hadvanced hfailed
    exact hadvanced.outcome hstate (r2Reset_outcome mid (.inl (hfailed rfl)))

/-! ## Late metadata -/

def announcedSize (ph : PduBuffer) : Nat := (recvMdDecode ph).2.intHeader.asMd.size.toNat

/-- What was stored so far under the temporary name is not longer than announced. -/
def FileFits (w : World) (ph : PduBuffer) : Prop :=
  ∀ data, (wrappedClose w).files w.t.history.fnames.dstFilename = some data →
    data.length ≤ announcedSize ph

theorem recvMd_frame (w : World) (ph : PduBuffer) :
    ∃ fsize fnames, (recvMd w ph).2 = { w with t.fsize := fsize, t.history.fnames := fnames } ∧
      ((recvMd w ph).1 = true → fsize = announcedSize ph) := by
  simp only [recvMd]
  split
  · exact ⟨w.t.fsize, w.t.history.fnames, rfl, fun h => by cases h⟩
  · split
    · exact ⟨_, _, rfl, fun h => by cases h⟩
    · split
      · exact ⟨_, _, rfl, fun h => by cases h⟩
      · exact ⟨_, _, rfl, fun _ => rfl⟩

/-- Without metadata nothing depends on the size. -/
theorem StoreInv.unannounced (h : StoreInv w.t) (hmd : w.t.rx.mdRecv = false)
    (hfd : w'.t.isError = false → w.t.isError = false ∧ w'.t.fd = w.t.fd)
    (hpos : w'.t.r.cachedPos = w.t.r.cachedPos)
    (hcount : w'.t.r.r2.rxCrcCalcBytes = w.t.r.r2.rxCrcCalcBytes)
    (hmd' : w'.t.rx.mdRecv = false) (hkeep : w'.t.keep = w.t.keep)
    (hdue : w'.t.isError = false → FinDue w'.t → FinDue w.t) : StoreInv w'.t := by
  refine ⟨fun hno => ?_, fun _ => hcount.trans (h.unread hmd), fun hno hdue' => ?_, fun hkept => ?_⟩
  · obtain ⟨hno', hfd'⟩ := hfd hno
    obtain ⟨f, hf, hfpos, -⟩ := h.opened hno'
    refine ⟨f, hfd'.trans hf, hfpos.trans hpos.symm, ?_⟩
    rw [hcount, h.unread hmd]
    exact Nat.zero_le _
  · cases hmd.symm.trans (h.due (hfd hno).1 (hdue hno hdue'))
  · cases hmd.symm.trans (h.kept (hkeep ▸ hkept)).1

theorem Within.unannounced (hmd : t.rx.mdRecv = false) : Within t := by
  intro hmd'
  cases hmd.symm.trans hmd'

theorem osMv_files (w : World) (src dst : Filename) (h : (osMv w src dst).1 = true) :
    ∃ data, w.files src = some data ∧ (osMv w src dst).2.files dst = some data ∧
      (osMv w src dst).2.t = w.t := by
  simp only [osMv, nextFileOp] at h ⊢
  cases hfile : w.files src with
  | none => rw [hfile] at h; cases h
  | some data =>
    rw [hfile] at h
    by_cases hop : w.fileOps 0 = true
    · simp only [hop, ↓reduceIte]
      exact ⟨data, rfl, if_pos rfl, rfl⟩
    · simp only [hop, Bool.false_eq_true, ↓reduceIte] at h

theorem wrappedOpen_files (w : World) (fname : Filename) (h : (wrappedOpen w fname).1 = true) :
    ∃ m data, w.files fname = some data ∧
      (wrappedOpen w fname).2 = w.accessed m ⟨fname, ⟨data, 0⟩⟩ := by
  simp only [wrappedOpen, nextFileOp] at h ⊢
  cases hfile : w.files fname with
  | none => rw [hfile] at h; cases h
  | some data =>
    rw [hfile] at h
    by_cases hop : w.fileOps 0 = true
    · simp only [hop, ↓reduceIte]
      exact ⟨1, data, rfl, rfl⟩
    · simp only [hop, Bool.false_eq_true, ↓reduceIte] at h

/-- A transaction that loses its file while it has no metadata keeps nothing. -/
theorem failed_unannounced (h : StoreInv w.t) (hmd : w.t.rx.mdRecv = false)
    (hsame : SameProgress w.t w'.t) (hkeep : w'.t.keep = w.t.keep)
    (hpos : w'.t.r.cachedPos = w.t.r.cachedPos)
    (hcount : w'.t.r.r2.rxCrcCalcBytes = w.t.r.r2.rxCrcCalcBytes) :
    StoreInv (r2SetFinTxnStatus { w' with t.fd := none } .filestoreRejection).t ∧
      Within (r2SetFinTxnStatus { w' with t.fd := none } .filestoreRejection).t ∧
      (r2SetFinTxnStatus { w' with t.fd := none } .filestoreRejection).t.state = w.t.state := by
  have herror : (r2SetFinTxnStatus { w' with t.fd := none } .filestoreRejection).t.isError =
    true := setTxnStatus_isError rfl
  have hset := r2SetFinTxnStatus_sameStore { w' with t.fd := none }
    (show TxnStatus.filestoreRejection.isError from rfl)
  generalize r2SetFinTxnStatus { w' with t.fd := none } .filestoreRejection = failed
    at herror hset
  have hmd' : failed.t.rx.mdRecv = false := by
    rw [hset.mdRecv]
    change w'.t.rx.mdRecv = false
    rw [hsame.rx, hmd]
  refine ⟨h.unannounced hmd (fun hno => ?_) (hset.cachedPos.trans hpos)
    (hset.rxCrcCalcBytes.trans hcount) hmd' (hset.keep.trans hkeep) fun hno => ?_,
    .unannounced hmd', hset.state.trans hsame.state⟩
  · cases herror.symm.trans hno
  · cases herror.symm.trans hno

theorem r2RenameFile_store (cfg : Config) (h : StoreInv w.t) (hmd : w.t.rx.mdRecv = false)
    {fname : Filename} (hfits : ∀ data, (wrappedClose w).files fname = some data → data.length ≤ w.t.fsize) :
    StoreInv (r2RenameFile cfg w fname).t ∧ Within (r2RenameFile cfg w fname).t ∧
      (r2RenameFile cfg w fname).t.state = w.t.state := by
  obtain ⟨files, fd, hclose⟩ := wrappedClose_frame w
  have hmoved := osMv_files (wrappedClose w) fname w.t.history.fnames.dstFilename
  have hkept := osMv_frame (wrappedClose w) fname w.t.history.fnames.dstFilename
  have hprogress := (wrappedClose_sameProgress w).trans
    (osMv_sameProgress (wrappedClose w) fname w.t.history.fnames.dstFilename)
  unfold r2RenameFile
  dsimp only
  split
  · rename_i moved hmv
    rw [hmv] at hkept
    have ht : moved.t = (wrappedClose w).t := hkept
    rw [hclose] at ht
    rw [hmv] at hprogress
    exact failed_unannounced h hmd hprogress (congrArg Transaction.keep ht :)
      (congrArg (·.r.cachedPos) ht :) (congrArg (·.r.r2.rxCrcCalcBytes) ht :)
  · rename_i moved hmv
    rw [hmv] at hmoved
    obtain ⟨data, hsource, htarget, ht⟩ := hmoved rfl
    have hshort := hfits data hsource
    dsimp only at htarget ht
    rw [hclose] at ht
    have hopened := wrappedOpen_files moved w.t.history.fnames.dstFilename
    split
    · rename_i refused hopen
      have ht' := wrappedOpen_refused moved w.t.history.fnames.dstFilename
        (by rw [hopen])
      rw [hopen] at ht'
      obtain rfl : refused = moved.afterFileOp none := ht'
      rw [hmv] at hprogress
      exact failed_unannounced h hmd
        (hprogress.trans ⟨rfl, rfl, rfl, rfl, rfl, rfl, id⟩) (congrArg Transaction.keep ht :)
        (congrArg (·.r.cachedPos) ht :) (congrArg (·.r.r2.rxCrcCalcBytes) ht :)
    · rename_i opened hopen
      rw [hopen] at hopened
      obtain ⟨m, data', hfile, rfl⟩ := hopened rfl
      obtain rfl : data = data' := Option.some.inj (htarget.symm.trans hfile)
      have hsearch := r2Complete_sameStore cfg { moved.accessed m
        ⟨w.t.history.fnames.dstFilename, ⟨data, 0⟩⟩ with
        t.r.cachedPos := 0, t.rx.mdRecv := true, t.r.r2.acknakCount := 0 } true
      have hzero : moved.t.r.r2.rxCrcCalcBytes = 0 := by
        rw [ht]
        exact h.unread hmd
      refine ⟨StoreInv.same ⟨fun _ => ⟨_, rfl, rfl, ?_⟩,
        fun hmissing => Bool.noConfusion (show true = false from hmissing), fun _ _ => rfl,
        fun hkeep => ?_⟩ hsearch, Within.same (fun _ f hf => ?_) hsearch, ?_⟩
      · change moved.t.r.r2.rxCrcCalcBytes ≤ _
        rw [hzero]
        exact Nat.zero_le _
      · change moved.t.keep = true at hkeep
        rw [ht] at hkeep
        cases hmd.symm.trans (h.kept hkeep).1
      · cases hf
        change data.length ≤ moved.t.fsize
        rw [ht]
        exact hshort
      · rw [hsearch.state]
        change moved.t.state = _
        rw [ht]

theorem r2RecvMd_result (hstate : w.t.state = .r2) (hinv : StoreInv w.t) (hwithin : Within w.t)
    (hfits : w.t.rx.mdRecv = false → FileFits w ph) : StepResult w (r2RecvMd cfg w ph) := by
  unfold r2RecvMd
  split
  · exact (Advanced.refl hinv hwithin).result hstate
  · rename_i hmd
    have hmd : w.t.rx.mdRecv = false := by simpa using hmd
    obtain ⟨fsize, fnames, hframe, hsize⟩ := recvMd_frame w ph
    have hreceived : StoreInv (recvMd w ph).2.t := by
      rw [hframe]
      exact hinv.unannounced hmd (fun hno => ⟨hno, rfl⟩) rfl rfl hmd rfl fun _ hdue => hdue
    have hmd' : (recvMd w ph).2.t.rx.mdRecv = false := by
      rw [hframe]
      exact hmd
    have hstate' : (recvMd w ph).2.t.state = .r2 := by
      rw [hframe]
      exact hstate
    dsimp only
    split
    · exact .inl ⟨hstate', hreceived, .unannounced hmd'⟩
    · rename_i hok
      have hok : (recvMd w ph).1 = true := by simpa using hok
      split
      · have hset := r2SetFinTxnStatus_sameStore (recvMd w ph).2
          (show TxnStatus.fileSizeError.isError from rfl)
        exact .inl ⟨hset.state.trans hstate', hreceived.same hset,
          .unannounced (hset.mdRecv.trans hmd')⟩
      · have hfile : ∀ data, (wrappedClose (recvMd w ph).2).files
            w.t.history.fnames.dstFilename = some data → data.length ≤ (recvMd w ph).2.t.fsize := by
          intro data hdata
          have hsame : (wrappedClose (recvMd w ph).2).files = (wrappedClose w).files := by
            rw [hframe]
            unfold wrappedClose
            dsimp only
            split
            · rfl
            · rfl
          rw [hsame] at hdata
          rw [hframe]
          exact (hfits hmd data hdata).trans (hsize hok).ge
        obtain ⟨hlast, hlastWithin, hlastState⟩ :=
          r2RenameFile_store cfg hreceived hmd' hfile
        exact .inl ⟨hlastState.trans hstate', hlast, hlastWithin⟩

/-! ## Any PDU -/

/-- The data of a PDU, or the file stored before the metadata, ends within the announced
size. -/
def PduFits (w : World) (ph : PduBuffer) : Prop :=
  if ph.pduHeader.pduType = 0 then
    ph.fdirective.directiveCode = FileDirective.metadata → w.t.rx.mdRecv = false → FileFits w ph
  else (recvFdDecode ph).1 = true → FdFits w.t (recvFdDecode ph).2.intHeader.asFd

theorem r2Recv_result (cfg : Config) (hstate : w.t.state = .r2) (hinv : StoreInv w.t)
    (hwithin : Within w.t) (hfits : PduFits w ph) : StepResult w (r2Recv cfg w ph) := by
  have hsame : StepResult w w := (Advanced.refl hinv hwithin).result hstate
  unfold PduFits at hfits
  unfold r2Recv rDispatchRecv
  split
  · rename_i htype
    rw [if_pos htype] at hfits
    split
    · split
      · rename_i handler hdispatch
        have heof : StepResult w (r2SubstateRecvEof cfg w ph) :=
          (Advanced.refl hinv hwithin).outcome hstate (r2SubstateRecvEof_outcome cfg w ph)
        unfold r2SubstateFns at hdispatch
        split at hdispatch
        all_goals split_ifs at hdispatch with heofCode hother
        all_goals cases hdispatch
        · exact heof
        · exact r2RecvMd_result hstate hinv hwithin (hfits hother)
        · exact heof
        · exact r2RecvMd_result hstate hinv hwithin (hfits hother)
        · exact heof
        · rename_i hwaits
          unfold r2RecvFinAck
          split
          · exact (Advanced.refl hinv hwithin).outcome hstate (r2Reset_outcome w (.inr hwaits))
          · exact hsame
      · exact hsame
    · exact hsame
  · rename_i htype
    rw [if_neg htype] at hfits
    split
    · rename_i hno
      exact r2SubstateRecvFileData_result hstate hinv hwithin (by simpa using hno) hfits
    · exact hsame

/-! ## The pass over the file -/

theorem r2CalcCrcChunk_advanced (cfg : Config) (hinv : StoreInv w.t) (hwithin : Within w.t)
    (hno : w.t.isError = false) (hmd : w.t.rx.mdRecv = true) :
    Advanced w (r2CalcCrcChunk cfg w).2 ∧ (r2CalcCrcChunk cfg w).2.t.rx.mdRecv = true := by
  obtain ⟨f, hfd, hpos, hinside⟩ := hinv.opened hno
  obtain ⟨crc, hstart⟩ := passStart_frame w
  have hloop := calcCrcLoop_readOn (w := passStart w) (f := f) cfg
    (w.t.fsize - w.t.r.r2.rxCrcCalcBytes) 0 (by rw [hstart]; exact hfd)
    (by rw [hstart]; exact hpos) (by rw [hstart]; exact hinside)
  have hprogress : SameProgress w.t (passLoop cfg w).2.t := by
    have hread := calcCrcLoop_sameProgress cfg (w.t.fsize - w.t.r.r2.rxCrcCalcBytes) 0
      (passStart w)
    refine SameProgress.trans ?_ hread
    rw [hstart]
    exact ⟨rfl, rfl, rfl, rfl, rfl, rfl, id⟩
  obtain ⟨hread, hstatus⟩ : ReadOn f (passStart w) (passLoop cfg w).2 ∧
    if (passLoop cfg w).1 then
      (passLoop cfg w).2.t.fd = some (f.at (passLoop cfg w).2.t.r.cachedPos) ∧
        (passLoop cfg w).2.t.history = (passStart w).t.history
    else (passLoop cfg w).2.t.isError = true := hloop
  obtain ⟨hfsize, -, hkeep, -, hcount⟩ := passLoop_frame hread
  obtain ⟨pos, hmoved⟩ := hread.fd
  rw [r2CalcCrcChunk_eq]
  generalize passLoop cfg w = result at *
  obtain ⟨success, w'⟩ := result
  dsimp only at hfsize hkeep hcount hstatus hmoved hprogress ⊢
  have hbytes : bytesBelow w'.t (f.at pos) = bytesBelow w.t f := by
    rw [bytesBelow, bytesBelow, hfsize, OpenFile.at_data]
  have hmd' : w'.t.rx.mdRecv = true := by rw [hprogress.rx, hmd]
  have hposition (hfine : w'.t.isError = false) : (f.at pos).file.pos = w'.t.r.cachedPos := by
    cases success with
    | true =>
      have hsame := Option.some.inj (hmoved.symm.trans hstatus.1)
      rw [hsame, OpenFile.at_pos]
    | false =>
      rw [if_neg (by simp)] at hstatus
      cases hstatus.symm.trans hfine
  have hread' : Advanced w w' := by
    refine ⟨⟨fun hfine => ⟨_, hmoved, hposition hfine, ?_⟩, fun hmissing => ?_, fun _ _ => hmd',
      fun hkept => ⟨hmd', f.at pos, hmoved, ?_⟩⟩, fun _ g hg => ?_, hprogress.state, hfsize,
      fun hkept => hkeep.trans hkept, fun f' hf' => ⟨_, hmoved, ?_⟩⟩
    · rw [hbytes]
      exact hcount
    · cases hmd'.symm.trans hmissing
    · obtain ⟨-, f', hf', hlong⟩ := hinv.kept (hkeep ▸ hkept)
      obtain rfl : f = f' := Option.some.inj (hfd.symm.trans hf')
      rw [hfsize, OpenFile.at_data]
      exact hlong
    · obtain rfl : f.at pos = g := Option.some.inj (hmoved.symm.trans hg)
      rw [hfsize, OpenFile.at_data]
      exact hwithin hmd f hfd
    · obtain rfl : f = f' := Option.some.inj (hfd.symm.trans hf')
      rfl
  split
  · rename_i hdone
    have hall : w'.t.r.r2.rxCrcCalcBytes = w'.t.fsize :=
      beq_iff_eq.mp (Bool.and_eq_true_iff.mp hdone).2
    simp only [rCheckCrc]
    generalize ((crcFinalize w'.t.crc).result == w'.t.r.r2.eofCrc) = ok
    cases ok with
    | true =>
      -- all announced octets were read, so they are there
      have hlong : w'.t.fsize ≤ f.file.data.length := by
        rw [bytesBelow, List.length_take] at hcount
        omega
      exact ⟨⟨⟨hread'.inv.opened, hread'.inv.unread, fun _ _ => hmd',
        fun _ => ⟨hmd', f.at pos, hmoved, hlong⟩⟩, hread'.within, hread'.state, hread'.fsize,
        fun _ => rfl, hread'.name⟩, hmd'⟩
    | false =>
      have hset := r2SetFinTxnStatus_sameStore { w' with t.crc := crcFinalize w'.t.crc }
        (show TxnStatus.fileChecksumFailure.isError from rfl)
      refine ⟨hread'.same (SameStore.trans
        (show SameStore w'.t { w' with t.crc := crcFinalize w'.t.crc }.t from
          ⟨rfl, rfl, rfl, rfl, rfl, rfl, rfl, id, fun _ hdue => .inl hdue⟩) ?_), ?_⟩
      · exact ⟨hset.state, hset.fd, hset.keep, hset.fsize, hset.mdRecv, hset.cachedPos,
          hset.rxCrcCalcBytes, hset.error, hset.due⟩
      · exact hset.mdRecv.trans hmd'
  · exact ⟨hread', hmd'⟩

/-- A FIN that goes out was due, so that there is metadata or an error. -/
theorem r2SubstateSendFin_advanced (cfg : Config) (hinv : StoreInv w.t) (hwithin : Within w.t)
    (hfin : w.t.rx.sendFin = true) : Advanced w (r2SubstateSendFin cfg w).2 := by
  obtain ⟨hchecked, hmd⟩ : Advanced w
      (if (!w.t.isError && !w.t.com.crcCalc) = true then r2CalcCrcChunk cfg w else (true, w)).2 ∧
      ((if (!w.t.isError && !w.t.com.crcCalc) = true then r2CalcCrcChunk cfg w
          else (true, w)).2.t.isError = false →
        (if (!w.t.isError && !w.t.com.crcCalc) = true then r2CalcCrcChunk cfg w
          else (true, w)).2.t.rx.mdRecv = true) := by
    split
    · rename_i hopen
      have hno : w.t.isError = false := by
        simpa using (Bool.and_eq_true_iff.mp hopen).1
      obtain ⟨hadvanced, hmd⟩ :=
        r2CalcCrcChunk_advanced cfg hinv hwithin hno (hinv.due hno (.inl hfin))
      exact ⟨hadvanced, fun _ => hmd⟩
    · exact ⟨.refl hinv hwithin, fun hno => hinv.due hno (.inl hfin)⟩
  unfold r2SubstateSendFin
  dsimp only
  generalize (if (!w.t.isError && !w.t.com.crcCalc) = true then r2CalcCrcChunk cfg w
    else (true, w)) = checked at hchecked hmd
  split
  · have hsent := sendFin_frame cfg checked.2 checked.2.t.r.r2.dc checked.2.t.r.r2.fs
      checked.2.t.history.txnStat.toConditionCode
    refine (hchecked.same hsent.sameStore).same ⟨rfl, rfl, rfl, rfl, rfl, rfl, rfl, id, ?_⟩
    intro hno _
    right
    have hsame := hsent.sameStore
    rw [hsame.mdRecv]
    exact hmd (isError_false_of hsame.error hno)
  · exact hchecked

theorem rTickSend_advanced (cfg : Config) (hinv : StoreInv w.t) (hwithin : Within w.t) :
    Advanced w (rTickSend cfg w) := by
  have hrefl : Advanced w w := .refl hinv hwithin
  unfold rTickSend
  split
  · have hsent := hrefl.same (sendAck_frame cfg w AckTxnStatus.active FileDirective.eof
      w.t.r.r2.eofCc w.t.history.peerEid w.t.history.seqNum).sameStore
    dsimp only
    split
    · exact hsent.same ⟨rfl, rfl, rfl, rfl, rfl, rfl, rfl, id, fun _ hdue => .inl hdue⟩
    · exact hsent
  · split
    · have hsent := hrefl.same (rSubstateSendNak_sameStore cfg w)
      dsimp only
      split
      · exact hsent.same ⟨rfl, rfl, rfl, rfl, rfl, rfl, rfl, id, fun _ hdue => .inl hdue⟩
      · exact hsent
    · split
      · rename_i hfin
        have hsent := r2SubstateSendFin_advanced cfg hinv hwithin hfin
        dsimp only
        split
        · refine hsent.same ⟨rfl, rfl, rfl, rfl, rfl, rfl, rfl, id, fun _ hdue => .inl ?_⟩
          exact hdue.elim (fun hflag => Bool.noConfusion (show false = true from hflag)) .inr
        · exact hsent
      · exact hrefl

/-! ## New transactions -/

/-- A transaction that was taken for a PDU and has no file yet. -/
structure Blank (t : Transaction) : Prop where
  keep : t.keep = false
  cachedPos : t.r.cachedPos = 0
  rxCrcCalcBytes : t.r.r2.rxCrcCalcBytes = 0
  sendFin : t.rx.sendFin = false

theorem wrappedCreate_cases (w : World) (fname : Filename) :
    (∃ m, wrappedCreate w fname = (true, w.accessed m ⟨fname, ⟨[], 0⟩⟩)) ∨
      wrappedCreate w fname = (false, w.afterFileOp none) := by
  simp only [wrappedCreate, nextFileOp]
  by_cases hop : w.fileOps 0 = true
  · exact .inl ⟨1, by simp only [hop, ↓reduceIte]; rfl⟩
  · exact .inr (by simp only [hop, Bool.false_eq_true, ↓reduceIte]; rfl)

theorem rInit_store (cfg : Config) (h : Blank w.t) (hstate : w.t.state = .r2) :
    (rInit cfg w).t.state = .r2 ∧ StoreInv (rInit cfg w).t ∧ Within (rInit cfg w).t ∧
      (rInit cfg w).t.rx.mdRecv = w.t.rx.mdRecv := by
  unfold rInit
  dsimp only
  rw [if_pos hstate]
  obtain ⟨hblank, hstate', hmd⟩ : Blank (armAckTimer cfg (if (!w.t.rx.mdRecv) = true then
        { w with t.history.fnames.dstFilename := tempFilename cfg w.t.history.seqNum }
      else w)).t ∧ (armAckTimer cfg (if (!w.t.rx.mdRecv) = true then
        { w with t.history.fnames.dstFilename := tempFilename cfg w.t.history.seqNum }
      else w)).t.state = .r2 ∧ (armAckTimer cfg (if (!w.t.rx.mdRecv) = true then
        { w with t.history.fnames.dstFilename := tempFilename cfg w.t.history.seqNum }
      else w)).t.rx.mdRecv = w.t.rx.mdRecv := by
    split
    · exact ⟨⟨h.keep, h.cachedPos, h.rxCrcCalcBytes, h.sendFin⟩, hstate, rfl⟩
    · exact ⟨⟨h.keep, h.cachedPos, h.rxCrcCalcBytes, h.sendFin⟩, hstate, rfl⟩
  generalize armAckTimer cfg (if (!w.t.rx.mdRecv) = true then
      { w with t.history.fnames.dstFilename := tempFilename cfg w.t.history.seqNum }
    else w) = prepared at hblank hstate' hmd
  rcases wrappedCreate_cases prepared prepared.t.history.fnames.dstFilename with
    ⟨m, hcreate⟩ | hcreate
  · rw [hcreate]
    refine ⟨hstate', ⟨fun _ => ⟨_, rfl, hblank.cachedPos.symm, ?_⟩,
      fun _ => hblank.rxCrcCalcBytes, fun _ hdue => ?_, fun hkeep => ?_⟩, fun _ f hf => ?_, hmd⟩
    · change prepared.t.r.r2.rxCrcCalcBytes ≤ _
      rw [hblank.rxCrcCalcBytes]
      exact Nat.zero_le _
    · rcases hdue with hflag | hwaits
      · cases hblank.sendFin.symm.trans hflag
      · cases (show RxSubState.fileData = .waitForFinAck from hwaits)
    · cases hblank.keep.symm.trans hkeep
    · cases hf
      exact Nat.zero_le _
  · rw [hcreate]
    dsimp only
    have hset := r2SetFinTxnStatus_sameStore { prepared.afterFileOp none with t.fd := none }
      (show TxnStatus.filestoreRejection.isError from rfl)
    have herror : (r2SetFinTxnStatus { prepared.afterFileOp none with t.fd := none }
      .filestoreRejection).t.isError = true := setTxnStatus_isError rfl
    have hstate'' : (prepared.afterFileOp none).t.state = .r2 := hstate'
    rw [if_pos hstate'']
    generalize r2SetFinTxnStatus { prepared.afterFileOp none with t.fd := none }
      .filestoreRejection = failed at hset herror
    refine ⟨hset.state.trans hstate', ⟨fun hno => ?_,
      fun _ => hset.rxCrcCalcBytes.trans hblank.rxCrcCalcBytes, fun hno => ?_, fun hkeep => ?_⟩,
      fun _ f hf => ?_, hset.mdRecv.trans hmd⟩
    · cases herror.symm.trans hno
    · cases herror.symm.trans hno
    · cases hblank.keep.symm.trans (hset.keep.symm.trans hkeep)
    · cases hset.fd.symm.trans hf

/-- A class 1 transaction starts or is freed. -/
theorem rInit_r1_state (hstate : w.t.state = .r1) :
    (rInit cfg w).t.state = .r1 ∨ (rInit cfg w).t.state = .idle := by
  unfold rInit
  dsimp only
  rw [if_neg (by rw [hstate]; nofun)]
  rcases wrappedCreate_cases w w.t.history.fnames.dstFilename with ⟨m, hcreate⟩ | hcreate
  · rw [hcreate]
    exact .inl hstate
  · rw [hcreate]
    have hstate' : (w.afterFileOp none).t.state = .r1 := hstate
    have hreset := resetTransaction_state { w.afterFileOp none with t.fd := none } true
    dsimp only
    rw [if_neg (by rw [hstate']; nofun)]
    exact hreset.imp (fun hsame => hsame.trans hstate) id

/-- What holds of a transaction of any state. -/
def RunInv (t : Transaction) : Prop := t.state = .r2 → StoreInv t ∧ Within t

theorem RunInv.of_state (h : w.t.state ≠ .r2)
    (hkept : t.state = w.t.state ∨ t.state = .idle) : RunInv t := by
  intro hstate
  rcases hkept with hsame | hidle
  · exact absurd (hsame.symm.trans hstate) h
  · cases hidle.symm.trans hstate

theorem StepResult.runInv (h : StepResult w w') : RunInv w'.t := by
  intro hstate
  rcases h with ⟨-, hinv, hwithin⟩ | ⟨hidle, -⟩
  · exact ⟨hinv, hwithin⟩
  · cases hidle.symm.trans hstate

theorem RunInv.same (h : RunInv t) (hsame : SameStore t t') : RunInv t' := by
  intro hstate
  obtain ⟨hinv, hwithin⟩ := h (hsame.state.symm.trans hstate)
  exact ⟨hinv.same hsame, hwithin.same hsame⟩

theorem recvIdleFd_runInv (h : Blank w.t) (hidle : w.t.state = .idle)
    (hmd : w.t.rx.mdRecv = false) (htype : ph.pduHeader.pduType ≠ 0) :
    RunInv (recvIdleFd cfg w ph).t := by
  unfold recvIdleFd
  split
  · exact nofun
  · obtain ⟨hstate, hinv, hwithin, hmd'⟩ := rInit_store (w := { w with t.state := .r2 }) cfg
      ⟨h.keep, h.cachedPos, h.rxCrcCalcBytes, h.sendFin⟩ rfl
    have hmd' : (rInit cfg { w with t.state := .r2 }).t.rx.mdRecv = false := hmd'.trans hmd
    dsimp only
    generalize rInit cfg { w with t.state := .r2 } = started at hstate hinv hwithin hmd'
    have hfits : PduFits started ph := by
      unfold PduFits
      rw [if_neg htype]
      intro _ hannounced
      cases hmd'.symm.trans hannounced
    have hreceived : RunInv (rxStateDispatch cfg started ph).t := by
      have hdispatch : rxStateDispatch cfg started ph = r2Recv cfg started ph := by
        rw [rxStateDispatch, hstate]
      rw [hdispatch]
      exact (r2Recv_result cfg hstate hinv hwithin hfits).runInv
    exact hreceived.same (armInactTimer_sameStore cfg _)

theorem recvIdleDirective_runInv (h : Blank w.t) (hidle : w.t.state = .idle) :
    RunInv (recvIdleDirective cfg w ph).t := by
  unfold recvIdleDirective
  have hsame : RunInv w.t := fun hstate => by cases hidle.symm.trans hstate
  split
  · obtain ⟨fsize, fnames, hframe, -⟩ := recvMd_frame w ph
    have hblank : Blank (recvMd w ph).2.t := by
      rw [hframe]
      exact ⟨h.keep, h.cachedPos, h.rxCrcCalcBytes, h.sendFin⟩
    have hidle' : (recvMd w ph).2.t.state = .idle := by
      rw [hframe]
      exact hidle
    dsimp only
    split
    · by_cases hmode : ph.pduHeader.txmMode ≠ 0
      · rw [if_pos hmode]
        exact .of_state (w := { (recvMd w ph).2 with t.state := .r1 }) nofun
          (rInit_r1_state rfl)
      · rw [if_neg hmode]
        intro _
        obtain ⟨-, hinv, hwithin, -⟩ := rInit_store
          (w := { (recvMd w ph).2 with t.state := .r2, t.rx.mdRecv := true }) cfg
          ⟨hblank.keep, hblank.cachedPos, hblank.rxCrcCalcBytes, hblank.sendFin⟩ rfl
        exact ⟨hinv, hwithin⟩
    · intro hstate
      cases hidle'.symm.trans hstate
  · exact hsame

/-! ## Runs -/

theorem recvIdle_runInv (h : Blank w.t) (hidle : w.t.state = .idle)
    (hmd : w.t.rx.mdRecv = false) : RunInv (recvIdle cfg w ph).t := by
  have hblank : Blank (bindTransaction w ph.pduHeader).t :=
    ⟨h.keep, h.cachedPos, h.rxCrcCalcBytes, h.sendFin⟩
  have hreceived : RunInv (if ph.pduHeader.pduType ≠ 0 then
      recvIdleFd cfg (bindTransaction w ph.pduHeader) ph
    else recvIdleDirective cfg (bindTransaction w ph.pduHeader) ph).t := by
    split
    · rename_i htype
      exact recvIdleFd_runInv hblank hidle hmd htype
    · exact recvIdleDirective_runInv hblank hidle
  unfold recvIdle
  dsimp only
  generalize (if ph.pduHeader.pduType ≠ 0 then recvIdleFd cfg (bindTransaction w ph.pduHeader) ph
    else recvIdleDirective cfg (bindTransaction w ph.pduHeader) ph) = received at hreceived
  split
  · rename_i hstill
    exact .of_state (by rw [hstill]; nofun) (resetTransaction_state received false)
  · exact hreceived

variable {fresh : ChunkList → Prop} {s s' : ReceiverState}

theorem receiver_start_runInv (h : (receiver cfg fresh).start s) : RunInv s.w.t := by
  obtain ⟨w₀, history, chunks, ph, ht, -, -, rfl⟩ := h
  show RunInv (dispatchRecv cfg w₀ ph).t
  have hidle : w₀.t.state = .idle := by rw [ht]; rfl
  have hblank : Blank w₀.t := by rw [ht]; exact ⟨rfl, rfl, rfl, rfl⟩
  unfold dispatchRecv
  dsimp only
  rw [if_pos hidle]
  exact (recvIdle_runInv hblank hidle (by rw [ht]; rfl)).same (armInactTimer_sameStore cfg _)

/-- What stands in the world at the place of a step where it may end the transaction: a tick
sends something first. -/
def beforeEnd (cfg : Config) (w : World) : ReceiverEvent → World
  | .tick => rTickSend cfg (rTickInactivity w)
  | _ => w

/-- What a PDU brings to a class 2 transaction fits. -/
def Announced (s : ReceiverState) (label : ReceiverLabel) : Prop :=
  s.w.t.state = .r2 → match label.event with
    | .recv ph => PduFits (s.w.within label.env) ph
    | _ => True

theorem receiverStep_result {label : ReceiverLabel} (h : RunInv s.w.t) (hok : Announced s label)
    (hstate : s.w.t.state = .r2) (hnext : (receiver cfg fresh).next s label = some s') :
    StepResult (beforeEnd cfg (s.w.within label.env) label.event) s'.w := by
  obtain ⟨env, event⟩ := label
  obtain ⟨hinv, hwithin⟩ := h hstate
  have hsame : SameStore s.w.t (s.w.within env).t :=
    ⟨rfl, rfl, rfl, rfl, rfl, rfl, rfl, id, fun _ hdue => .inl hdue⟩
  have hinv : StoreInv (s.w.within env).t := hinv.same hsame
  have hwithin : Within (s.w.within env).t := hwithin.same hsame
  have hstate' : (s.w.within env).t.state = .r2 := hstate
  have hfits (ph : PduBuffer) (hevent : event = .recv ph) : PduFits (s.w.within env) ph := by
    subst hevent
    exact hok hstate
  simp only [receiver, receiverNext] at hnext
  split at hnext
  · cases hnext
  · cases hnext
    generalize s.w.within env = w at *
    cases event with
    | recv ph =>
      have hreceived := r2Recv_result cfg hstate' hinv hwithin (hfits ph rfl)
      have hdispatch : dispatchRecv cfg w ph = armInactTimer cfg (r2Recv cfg w ph) := by
        unfold dispatchRecv rxStateDispatch
        dsimp only
        rw [if_neg (by rw [hstate']; decide), hstate']
      change StepResult w (dispatchRecv cfg w ph)
      rw [hdispatch]
      rcases hreceived with ⟨hlast, hinv', hwithin'⟩ | ⟨hended, hwhole⟩
      · have harm := armInactTimer_sameStore cfg (r2Recv cfg w ph)
        exact .inl ⟨hlast, hinv'.same harm, hwithin'.same harm⟩
      · exact .inr ⟨hended, hwhole⟩
    | tick =>
      have hwaited := (Advanced.refl hinv hwithin).same (rTickInactivity_sameStore w)
      have hsent := rTickSend_advanced cfg hwaited.inv hwaited.within
      have htick : rTick cfg w =
          rTickAckTimer cfg (rTickSend cfg (rTickInactivity w)) := by
        rw [rTick, if_pos hstate']
      change StepResult (rTickSend cfg (rTickInactivity w)) (rTick cfg w)
      rw [htick]
      exact (Advanced.refl hsent.inv hsent.within).outcome
        (hsent.state.trans (hwaited.state.trans hstate')) (rTickAckTimer_outcome cfg _)
    | cancel =>
      exact (Advanced.refl hinv hwithin).outcome hstate' (cancelTransaction_outcome hstate')

theorem cancelTransaction_state (w : World) :
    (cancelTransaction w).t.state = w.t.state ∨ (cancelTransaction w).t.state = .idle := by
  by_cases hsender : isSender w.t = true
  · exact (cancelTransaction_noFileData hsender).state
  · have hset := setTxnStatus_sameStore { w with t.com.canceled := true } .cancelRequestReceived
    unfold cancelTransaction
    split
    · exact .inl rfl
    · dsimp only
      rw [if_neg (by rw [isSender, hset.state]; exact hsender)]
      unfold rCancel
      split
      · exact .inl hset.state
      · exact (resetTransaction_state _ true).imp (fun hsame => hsame.trans hset.state) id

/-- A transaction of another kind does not become a class 2 receiver. -/
theorem receiverStep_state {label : ReceiverLabel} (hstate : s.w.t.state ≠ .r2)
    (hnext : (receiver cfg fresh).next s label = some s') :
    s'.w.t.state = s.w.t.state ∨ s'.w.t.state = .idle := by
  obtain ⟨env, event⟩ := label
  have hstate' : (s.w.within env).t.state ≠ .r2 := hstate
  change s'.w.t.state = (s.w.within env).t.state ∨ _
  simp only [receiver, receiverNext] at hnext
  split at hnext
  · cases hnext
  · rename_i hactive
    cases hnext
    have hidle : (s.w.within env).t.state ≠ .idle := fun hidle => hactive (.inl hidle)
    generalize s.w.within env = w at *
    cases event with
    | recv ph =>
      change (dispatchRecv cfg w ph).t.state = _ ∨ (dispatchRecv cfg w ph).t.state = _
      unfold dispatchRecv
      dsimp only
      rw [if_neg hidle]
      change (rxStateDispatch cfg w ph).t.state = _ ∨ (rxStateDispatch cfg w ph).t.state = _
      unfold rxStateDispatch
      split
      · exact r1Recv_state w ph
      · have hsend : NoFileData w (s1Recv w ph) :=
          sDispatchRecv_noFileData fun _ hnone => by cases hnone
        exact hsend.state
      · exact absurd ‹_› hstate'
      · have hsend : NoFileData w (s2Recv cfg w ph) :=
          sDispatchRecv_noFileData fun _ hsome => s2SubstateFns_noFileData hsome w ph
        exact hsend.state
      · exact .inl rfl
      · exact .inl rfl
    | tick =>
      change (rTick cfg w).t.state = _ ∨ (rTick cfg w).t.state = _
      unfold rTick
      rw [if_neg hstate']
      split
      · exact resetTransaction_state w true
      · exact .inl rfl
    | cancel => exact cancelTransaction_state w

theorem runInv_reaches (h : (receiver cfg fresh).Reaches Announced s) : RunInv s.w.t := by
  refine @Machine.Reaches.invariant _ _ (receiver cfg fresh) Announced (fun s => RunInv s.w.t)
    (fun _ => receiver_start_runInv) (fun s label s' hs hok hnext => ?_) _ h
  by_cases hstate : s.w.t.state = .r2
  · exact (receiverStep_result hs hok hstate hnext).runInv
  · exact .of_state hstate (receiverStep_state hstate hnext)

/-- In every run whose data ends within the announced size, a file that is to be kept has
that size, and still has it when the transaction is over. -/
theorem kept_file_length (h : (receiver cfg fresh).Reaches Announced s)
    (hstate : s.w.t.state = .r2) :
    (s.w.t.keep = true → s.w.t.rx.mdRecv = true ∧
      ∃ f, s.w.t.fd = some f ∧ f.file.data.length = s.w.t.fsize) ∧
    ∀ label s', Announced s label → (receiver cfg fresh).next s label = some s' →
      s'.w.t.state = .idle →
        KeptWhole (beforeEnd cfg (s.w.within label.env) label.event).t s'.w := by
  have hrun := runInv_reaches h
  refine ⟨fun hkeep => ?_, fun label s' hok hnext hidle => ?_⟩
  · obtain ⟨hinv, hwithin⟩ := hrun hstate
    obtain ⟨hmd, f, hf, hlong⟩ := hinv.kept hkeep
    exact ⟨hmd, f, hf, le_antisymm (hwithin hmd f hf) hlong⟩
  · rcases receiverStep_result hrun hok hstate hnext with ⟨hactive, -⟩ | ⟨-, hwhole⟩
    · cases hactive.symm.trans hidle
    · exact hwhole

instance (w : World) (ph : PduBuffer) : Decidable (FileFits w ph) :=
  decidable_of_iff (((wrappedClose w).files w.t.history.fnames.dstFilename).all
      fun data => decide (data.length ≤ announcedSize ph)) (by
    simp [FileFits, Option.all_eq_true])

instance (w : World) (ph : PduBuffer) : Decidable (PduFits w ph) :=
  inferInstanceAs (Decidable (ite _ _ _))

instance (s : ReceiverState) : (label : ReceiverLabel) → Decidable (Announced s label)
  | ⟨env, .recv ph⟩ => inferInstanceAs (Decidable (_ → PduFits (s.w.within env) ph))
  | ⟨_, .tick⟩ => .isTrue fun _ => trivial
  | ⟨_, .cancel⟩ => .isTrue fun _ => trivial

/-! ## A file of three octets -/

def mdThree : PduBuffer := smallPdu 0x20 [7, 0, 0, 0, 0, 3, 1, 97, 1, 98]

/-- The checksum of the octets 1, 2, 3. -/
def eofThree : PduBuffer := smallPdu 0x20 [4, 0, 1, 2, 3, 0, 0, 0, 0, 3]

def wakingConfig : Config := { receivingConfig with rxCrcCalcBytesPerWakeup := 16 }

def wokenFirst (ph : PduBuffer) : ReceiverState :=
  let w := quietWorld (rxTransaction default) noFiles
  ⟨dispatchRecv wakingConfig { w with chan.cs := fun _ => [chunkListInit 4] } ph, [ph]⟩

theorem wokenFirst_start (ph : PduBuffer) :
    (receiver wakingConfig fun _ => True).start (wokenFirst ph) :=
  ⟨_, _, _, _, rfl, rfl, trivial, rfl⟩

theorem kept_file_length_three : ∃ s, (receiver wakingConfig fun _ => True).Reaches Announced s ∧
    s.w.t.keep = true ∧ ∃ f, s.w.t.fd = some f ∧ f.file.data.length = 3 := by
  obtain ⟨s, hs, hcheck⟩ := Machine.exists_reaches Announced
    (fun s : ReceiverState => decide (s.w.t.state = .r2 ∧ s.w.t.keep = true ∧ s.w.t.fsize = 3))
    (wokenFirst_start mdThree)
    ([.recv (fdAt 0 [1, 2, 3]), .recv eofThree, .tick, .tick].map quietlyReceived)
    (by decide +kernel)
  obtain ⟨hstate, hkeep, hfsize⟩ := of_decide_eq_true hcheck
  have hkept := ((kept_file_length hs hstate).1 hkeep).2
  rw [hfsize] at hkept
  exact ⟨s, hs, hkeep, hkept⟩

/-- One more octet behind the announced three. -/
theorem stray_octet_kept : ∃ s, (receiver wakingConfig fun _ => True).Reachable s ∧
    s.w.t.state = .r2 ∧ s.w.t.rx.mdRecv = true ∧ s.w.t.fsize = 3 ∧ s.w.t.keep = true ∧
    ∃ f, s.w.t.fd = some f ∧ f.file.data = [1, 2, 3, 9] := by
  obtain ⟨s, hs, hcheck⟩ := Machine.exists_reaches (fun _ _ => True)
    (fun s : ReceiverState => decide (s.w.t.state = .r2 ∧ s.w.t.rx.mdRecv = true ∧
      s.w.t.fsize = 3 ∧ s.w.t.keep = true ∧ s.w.t.fd.map (·.file.data) = some [1, 2, 3, 9]))
    (wokenFirst_start mdThree)
    ([.recv (fdAt 0 [1, 2, 3]), .recv (fdAt 3 [9]), .recv eofThree, .tick, .tick].map
      quietlyReceived) (by decide +kernel)
  obtain ⟨hstate, hmd, hfsize, hkeep, hdata⟩ := of_decide_eq_true hcheck
  exact ⟨s, hs, hstate, hmd, hfsize, hkeep, Option.map_eq_some_iff.mp hdata⟩

end Nos3.Cf
