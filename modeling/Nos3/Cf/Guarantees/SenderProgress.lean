import Nos3.Cf.Source.SenderRules

/-!
# The first pass over a source file reaches its end, unless the file is empty

With a buffer at every attempt and file operations that succeed, every call of
`sSubstateSendFileData` sends the next piece, until the pieces cover the file and
the sub-state is EOF. The sub-state only advances where bytes were processed, and
no byte ever is where there is none.
-/
namespace Nos3.Cf
open Nos3.Base.FileImage

/-- A buffer can be had and file operations succeed. -/
structure Ready (cfg : Config) (w : World) : Prop where
  limit : ¬(cfg.chan.maxOutgoingMessagesPerWakeup ≠ 0 ∧
    w.outgoingCounter = cfg.chan.maxOutgoingMessagesPerWakeup)
  frozen : w.chan.frozen = false
  suspended : w.t.com.suspended = false
  buffer : w.buffers 0 = true
  fileOps : ∀ k, w.fileOps k = true

/-- The first pass has sent everything before `pos`. -/
structure FirstPassAt (source : List Octet) (pos : Nat) (w : World) : Prop where
  subState : w.t.s.subState = .fileData
  fd : ∃ f, w.t.fd = some f ∧ f.file = ⟨source, pos⟩
  foffs : w.t.foffs = pos
  cachedPos : w.t.s.cachedPos = pos
  fsize : w.t.fsize = source.length

/-- The file data PDUs in a list of PDUs, as offset and length. -/
def fdRanges (pdus : List OutPdu) : List (Nat × Nat) :=
  pdus.filterMap fun ph =>
    match ph.intHeader with
    | .fd fd => some (fd.offset.toNat, fd.dataLen)
    | _ => none

/-- Repeated calls on an opened source file. Between two calls everything but the
transaction and the record of PDUs sent may change. -/
structure FirstPassRun (cfg : Config) (source : List Octet) (run : Nat → World) : Prop where
  chunk : 0 < cfg.outgoingFileChunkSize
  size : source.length < lseekResultLimit
  start : FirstPassAt source 0 (run 0)
  ready : ∀ k, Ready cfg (run k)
  t : ∀ k, (run (k + 1)).t = (sSubstateSendFileData cfg (run k)).t
  sent : ∀ k, (run (k + 1)).sent = (sSubstateSendFileData cfg (run k)).sent

/-- After `k` calls the sub-state is EOF, without an error, and the file data PDUs
sent partition the file in order. -/
structure FinishedAt (source : List Octet) (run : Nat → World) (k : Nat) : Prop where
  subState : (run k).t.s.subState = .eof
  history : (run k).t.history = (run 0).t.history
  ranges : Tiles 0 source.length (fdRanges ((run k).sent.drop (run 0).sent.length))

/-! ## One call -/

theorem ready_buffer {cfg : Config} {w : World} (h : Ready cfg w) :
    (msgOutGet cfg w).1 ≠ none := by
  simp only [msgOutGet, if_neg h.limit, h.frozen, h.suspended, h.buffer]
  simp

theorem ready_access {cfg : Config} {w : World} {f : OpenFile} (h : Ready cfg w)
    (hfd : w.t.fd = some f) : ¬((∃ k, w.fileOps k = false) ∨ w.t.fd = none) := by
  rintro (⟨k, hk⟩ | hnone)
  · rw [h.fileOps k] at hk
    cases hk
  · rw [hfd] at hnone
    cases hnone

/-- What a call has left to read. -/
theorem bytesLeft_eq {pos size : Nat} (hpos : pos ≤ size) (hsize : size < lseekResultLimit) :
    toUint32 (size + uint32Modulus - pos) = size - pos := by
  simp only [toUint32, uint32Modulus, lseekResultLimit] at *
  omega

/-- A call that has bytes left sends the next piece. The pass stands behind it
then, and at EOF if the file ends there. -/
theorem firstPass_step {cfg : Config} {source : List Octet} {pos : Nat} {w : World}
    (hready : Ready cfg w) (h : FirstPassAt source pos w) (hchunk : 0 < cfg.outgoingFileChunkSize)
    (hsize : source.length < lseekResultLimit) (hlt : pos < source.length) :
    ∃ n ph, 0 < n ∧ pos + n ≤ source.length ∧ fdRanges [ph] = [(pos, n)] ∧
      (sSubstateSendFileData cfg w).sent = w.sent ++ [ph] ∧
      (sSubstateSendFileData cfg w).t.history = w.t.history ∧
      (pos + n < source.length → FirstPassAt source (pos + n) (sSubstateSendFileData cfg w)) ∧
      (pos + n = source.length → (sSubstateSendFileData cfg w).t.s.subState = .eof) := by
  obtain ⟨hsub, ⟨f, hfd, hfile⟩, hfoffs, hcached, hfsize⟩ := h
  have hleft := bytesLeft_eq hlt.le hsize
  have hout := sSendFileData_outcome cfg w pos (source.length - pos) true
  have hsmall := fileDataSize_le cfg w pos (source.length - pos)
  have hpos : 0 < fileDataSize cfg w pos (source.length - pos) :=
    fileDataSize_pos hchunk (by omega)
  have hwindow : (window source pos (fileDataSize cfg w pos (source.length - pos))).length = _ :=
    window_full (by omega)
  simp only [sSubstateSendFileData, hfoffs, hfsize, hleft]
  generalize sSendFileData cfg w pos (source.length - pos) true = result at hout ⊢
  cases hout with
  | noBuffer noPdu => exact absurd noPdu (ready_buffer hready)
  | refused reason => exact absurd reason (ready_access hready hfd)
  | short fd read size =>
    rw [hfd] at fd
    cases fd
    rw [hcached, accessPos, if_pos rfl, hfile] at read
    exact absurd (read ▸ hwindow) size
  | sent fd read size header wire frame sent =>
    rename_i w' _ octets ph
    rw [hfd] at fd
    cases fd
    rw [hcached, accessPos, if_pos rfl, hfile] at read frame
    have hn : 0 < octets.length := by omega
    have hend : pos + octets.length ≤ source.length := by omega
    have hword : toUint32 (pos + octets.length) = pos + octets.length :=
      toUint32_of_lt (by simp only [lseekResultLimit] at hsize; omega)
    have ht := frame.t
    simp only [hword] at ht
    have hpositive : (octets.length : Int) > 0 := by omega
    have hfoffs' : w'.t.foffs = pos := by rw [ht]; exact hfoffs
    have hfsize' : w'.t.fsize = source.length := by rw [ht]; exact hfsize
    simp only [hpositive, ↓reduceIte, Int.toNat_natCast, hfoffs', hfsize', hword]
    refine ⟨octets.length, ph, hn, hend, ?_, ?_, ?_, fun hmore => ?_, fun hdone => ?_⟩
    · have hoffset : (BitVec.ofNat 32 pos).toNat = pos := by
        rw [BitVec.toNat_ofNat]
        exact toUint32_of_lt (by simp only [lseekResultLimit] at hsize; omega)
      simp [fdRanges, header, hoffset]
    · split <;> exact sent
    · split <;> rw [ht]
    · rw [if_neg (by omega)]
      refine ⟨by rw [ht]; exact hsub, ⟨f.at (pos + octets.length), ?_, ?_⟩, rfl, ?_, ?_⟩
      · rw [ht]
      · simp [OpenFile.at, hfile]
      · rw [ht]
      · rfl
    · rw [if_pos hdone]

/-! ## Runs -/

theorem FirstPassAt.of_t {source : List Octet} {pos : Nat} {w w' : World}
    (h : FirstPassAt source pos w) (ht : w'.t = w.t) : FirstPassAt source pos w' := by
  obtain ⟨hsub, hfd, hfoffs, hcached, hfsize⟩ := h
  rw [← ht] at hsub hfd hfoffs hcached hfsize
  exact ⟨hsub, hfd, hfoffs, hcached, hfsize⟩

/-- The pass stands at `pos` and has sent the pieces up to there. -/
structure UnderwayAt (source : List Octet) (run : Nat → World) (k pos : Nat) : Prop where
  pass : FirstPassAt source pos (run k)
  history : (run k).t.history = (run 0).t.history
  sent : ∃ pdus, (run k).sent = (run 0).sent ++ pdus ∧ Tiles 0 pos (fdRanges pdus)

theorem fdRanges_append (first second : List OutPdu) :
    fdRanges (first ++ second) = fdRanges first ++ fdRanges second :=
  List.filterMap_append

variable {cfg : Config} {source : List Octet} {run : Nat → World}

theorem underway_step (h : FirstPassRun cfg source run) {k pos : Nat}
    (hk : UnderwayAt source run k pos) (hlt : pos < source.length) :
    FinishedAt source run (k + 1) ∨
      ∃ pos', pos < pos' ∧ pos' < source.length ∧ UnderwayAt source run (k + 1) pos' := by
  obtain ⟨pdus, hpdus, htiles⟩ := hk.sent
  obtain ⟨n, ph, hn, hend, hrange, hsent, hhistory, hmore, hdone⟩ :=
    firstPass_step (h.ready k) hk.pass h.chunk h.size hlt
  have hpdus' : (run (k + 1)).sent = (run 0).sent ++ (pdus ++ [ph]) := by
    rw [h.sent, hsent, hpdus, List.append_assoc]
  have htiles' : Tiles 0 (pos + n) (fdRanges (pdus ++ [ph])) := by
    rw [fdRanges_append, hrange]
    exact htiles.snoc hn
  have hhistory' : (run (k + 1)).t.history = (run 0).t.history := by
    rw [h.t, hhistory, hk.history]
  by_cases hlast : pos + n = source.length
  · refine .inl ⟨?_, hhistory', ?_⟩
    · rw [h.t]
      exact hdone hlast
    · rw [hpdus', List.drop_left, ← hlast]
      exact htiles'
  · have hinside : pos + n < source.length := by omega
    exact .inr ⟨pos + n, by omega, hinside, (hmore hinside).of_t (h.t k), hhistory',
      pdus ++ [ph], hpdus', htiles'⟩

/-- After `k` calls the pass has finished or stands at least `k` octets in. -/
theorem finished_or_underway (h : FirstPassRun cfg source run) (hne : 0 < source.length) :
    ∀ k, (∃ k' ≤ k, FinishedAt source run k') ∨
      ∃ pos, k ≤ pos ∧ pos < source.length ∧ UnderwayAt source run k pos
  | 0 => .inr ⟨0, Nat.le_refl 0, hne, h.start, rfl, [], by simp, .nil⟩
  | k + 1 => by
    rcases finished_or_underway h hne k with ⟨k', hk', hfin⟩ | ⟨pos, hle, hlt, hk⟩
    · exact .inl ⟨k', by omega, hfin⟩
    · rcases underway_step h hk hlt with hfin | ⟨pos', hpos, hlt', hk'⟩
      · exact .inl ⟨k + 1, Nat.le_refl _, hfin⟩
      · exact .inr ⟨pos', by omega, hlt', hk'⟩

theorem empty_step {w : World} (hready : Ready cfg w) (h : FirstPassAt [] 0 w) :
    FirstPassAt [] 0 (sSubstateSendFileData cfg w) := by
  obtain ⟨hsub, ⟨f, hfd, hfile⟩, hfoffs, hcached, hfsize⟩ := h
  have hout := sSendFileData_outcome cfg w 0 0 true
  have hzero : fileDataSize cfg w 0 0 = 0 := Nat.le_zero.mp (fileDataSize_le cfg w 0 0)
  have hleft : toUint32 (0 + uint32Modulus - 0) = 0 := by decide
  simp only [sSubstateSendFileData, hfoffs, hfsize, List.length_nil, hleft]
  generalize sSendFileData cfg w 0 0 true = result at hout ⊢
  cases hout with
  | noBuffer noPdu => exact absurd noPdu (ready_buffer hready)
  | refused reason => exact absurd reason (ready_access hready hfd)
  | short fd read size =>
    rw [hzero] at read size
    exact absurd (read ▸ by simp [window]) size
  | sent fd read size header wire frame sent =>
    rename_i w' _ octets ph
    rw [hfd] at fd
    cases fd
    rw [hzero] at size
    have hnil : octets = [] := List.eq_nil_of_length_eq_zero size
    subst hnil
    rw [hcached, accessPos, if_pos rfl, hfile] at frame
    have ht := frame.t
    show FirstPassAt [] 0 w'
    refine ⟨by rw [ht]; exact hsub, ⟨f.at 0, by rw [ht]; rfl, ?_⟩, by rw [ht]; exact hfoffs,
      by rw [ht]; rfl, by rw [ht]; exact hfsize⟩
    simp [OpenFile.at, hfile]

/-- Over an empty file the first pass never ends, however often it is called. -/
theorem empty_file_never_finishes (h : FirstPassRun cfg [] run) :
    ∀ k, FirstPassAt [] 0 (run k)
  | 0 => h.start
  | k + 1 => (empty_step (h.ready k) (empty_file_never_finishes h k)).of_t (h.t k)

/-! ## Runs in a quiet environment -/

def steadyRun (cfg : Config) (w : World) : Nat → World
  | 0 => w
  | k + 1 =>
    { sSubstateSendFileData cfg (steadyRun cfg w k) with
      buffers := fun _ => true
      fileOps := fun _ => true
      chan.frozen := false }

theorem sSubstateSendFileData_com (cfg : Config) (w : World) :
    (sSubstateSendFileData cfg w).t.com = w.t.com := by
  have ht := (sSendFileData_outcome cfg w w.t.foffs
    (toUint32 (w.t.fsize + uint32Modulus - w.t.foffs)) true).t
  simp only [sSubstateSendFileData]
  generalize sSendFileData cfg w w.t.foffs
    (toUint32 (w.t.fsize + uint32Modulus - w.t.foffs)) true = result at ht ⊢
  obtain ⟨bytesProcessed, w'⟩ := result
  obtain ⟨fd, cachedPos, crc, ht⟩ := ht
  have hcom : w'.t.com = w.t.com := by rw [ht]
  simp only [setTxnStatus]
  split
  · split <;> exact hcom
  · split
    · split <;> exact hcom
    · exact hcom

theorem steadyRun_firstPassRun {w : World} (hchunk : 0 < cfg.outgoingFileChunkSize)
    (hlimit : cfg.chan.maxOutgoingMessagesPerWakeup = 0) (hsize : source.length < lseekResultLimit)
    (hready : Ready cfg w) (hstart : FirstPassAt source 0 w) :
    FirstPassRun cfg source (steadyRun cfg w) where
  chunk := hchunk
  size := hsize
  start := hstart
  ready k := by
    have hcom : ∀ k, (steadyRun cfg w k).t.com = w.t.com := by
      intro k
      induction k with
      | zero => rfl
      | succ k ih => exact (sSubstateSendFileData_com cfg _).trans ih
    cases k with
    | zero => exact hready
    | succ k =>
      refine ⟨fun h => h.1 hlimit, rfl, ?_, rfl, fun _ => rfl⟩
      rw [hcom]
      exact hready.suspended
  t _ := rfl
  sent _ := rfl

/-- An opened source file at the start of its first pass. -/
def openedSource (source : List Octet) : World :=
  quietWorld
    { (default : Transaction) with
      state := .s1
      fsize := source.length
      fd := some ⟨[], ⟨source, 0⟩⟩
      s := { (default : TxStateData) with subState := .fileData }
      com := { (default : FlagsCommon) with qIndex := .txa } }
    fun _ => none

/-- Two octets a PDU, and no limit on messages. -/
def twoOctetChunks : Config :=
  { (default : Config) with localEid := 1, outgoingFileChunkSize := 2 }

theorem openedSource_run (source : List Octet) (hsize : source.length < lseekResultLimit) :
    FirstPassRun twoOctetChunks source (steadyRun twoOctetChunks (openedSource source)) :=
  steadyRun_firstPassRun (by decide) rfl hsize
    ⟨fun h => h.1 rfl, rfl, rfl, rfl, fun _ => rfl⟩
    ⟨rfl, ⟨_, rfl, rfl⟩, rfl, rfl, rfl⟩

end Nos3.Cf
