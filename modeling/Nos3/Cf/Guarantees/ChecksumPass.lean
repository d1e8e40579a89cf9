import Nos3.Base.Transition
import Nos3.Cf.Source.CrcPass

/-!
# The checksum of a file, however it is split

Between two wakeups of the pass over a stored file the rest of the transaction and of
the system may do anything that leaves the announced part of the file and the state of
the pass alone, and that moves `cached_pos` with the descriptor.
-/
namespace Nos3.Cf
open Nos3.Base.Transition (Machine)

variable {cfg : Config} {w w' : World} {f : OpenFile}

/-! ## The wakeups of a pass -/

/-- What the file and the pass look like from the transaction. -/
def passView (w : World) : Option (List Octet) × Nat × Nat × Crc × Bool :=
  (w.t.fd.map (bytesBelow w.t), w.t.fsize, w.t.r.r2.rxCrcCalcBytes, w.t.crc, w.t.com.crcCalc)

def Positioned (t : Transaction) : Prop := t.fd.map (·.file.pos) = some t.r.cachedPos

instance (t : Transaction) : Decidable (Positioned t) := inferInstanceAs (Decidable (_ = _))

inductive PassEvent
  | wakeup
  | elsewhere (w : World)

/-- A wakeup comes only while the transaction has no error and the pass has not ended. -/
def crcPass (cfg : Config) : Machine World PassEvent where
  start w := Positioned w.t ∧ w.t.r.r2.rxCrcCalcBytes = 0
  next w
    | .wakeup =>
      if w.t.isError = true ∨ w.t.com.crcCalc = true then none else some (r2CalcCrcChunk cfg w).2
    | .elsewhere w' => if passView w' = passView w ∧ Positioned w'.t then some w' else none

/-- The octets read so far are in the checksum. -/
def Summed (w : World) : Prop :=
  ∃ f, w.t.fd = some f ∧ (w.t.isError = false → f.file.pos = w.t.r.cachedPos) ∧
    w.t.r.r2.rxCrcCalcBytes ≤ (bytesBelow w.t f).length ∧
    (w.t.com.crcCalc = false → w.t.r.r2.rxCrcCalcBytes ≠ 0 →
      w.t.crc = crcDigest crcStart ((bytesBelow w.t f).take w.t.r.r2.rxCrcCalcBytes))

/-- The end of a pass: the checksum of `data` decides. -/
structure Verdict (w w' : World) (data : List Octet) : Prop where
  matching : BitVec.ofNat 32 (wordSum data) = w.t.r.r2.eofCrc →
    w'.t.keep = true ∧ w'.t.r.r2.dc = FinDeliveryCode.complete ∧
      w'.t.r.r2.fs = FinFileStatus.retained ∧ w'.t.history = w.t.history
  different : BitVec.ofNat 32 (wordSum data) ≠ w.t.r.r2.eofCrc →
    w'.t.keep = w.t.keep ∧ w'.t.history.txnStat = .fileChecksumFailure

/-- One wakeup: all octets so far are digested, in front of the descriptor. -/
theorem passLoop_readOn (cfg : Config) (h : Summed w) (hno : w.t.isError = false)
    (hopen : w.t.com.crcCalc = false) :
    ∃ f, w.t.fd = some f ∧ ReadOn f (passStart w) (passLoop cfg w).2 ∧
      (passLoop cfg w).2.t.crc = crcDigest crcStart
        ((bytesBelow w.t f).take (passLoop cfg w).2.t.r.r2.rxCrcCalcBytes) ∧
      if (passLoop cfg w).1 then
        (passLoop cfg w).2.t.fd = some (f.at (passLoop cfg w).2.t.r.cachedPos) ∧
          (passLoop cfg w).2.t.history = w.t.history
      else (passLoop cfg w).2.t.isError = true := by
  obtain ⟨f, hfd, hpos, hinside, hsum⟩ := h
  obtain ⟨crc, hstart⟩ := passStart_frame w
  have hdigested : (passStart w).t.crc =
      crcDigest crcStart ((bytesBelow w.t f).take w.t.r.r2.rxCrcCalcBytes) := by
    unfold passStart
    split
    · rename_i hzero
      rw [hzero]
      rfl
    · rename_i hsome
      exact hsum hopen hsome
  obtain ⟨hread, hend⟩ := calcCrcLoop_readOn (w := passStart w) (f := f) cfg
    (w.t.fsize - w.t.r.r2.rxCrcCalcBytes) 0 (by rw [hstart]; exact hfd)
    (by rw [hstart]; exact hpos hno) (by rw [hstart]; exact hinside)
  have hcrc := hread.sum
  rw [hstart] at hcrc hdigested
  refine ⟨f, hfd, hread, ?_, ?_⟩
  · rw [passLoop, hstart]
    exact hcrc hdigested
  · rw [hstart] at hend
    rw [passLoop, hstart]
    exact hend

/-- A wakeup that ends the pass compares the checksum of the whole announced file. -/
theorem r2CalcCrcChunk_verdict (h : Summed w) (hno : w.t.isError = false)
    (hopen : w.t.com.crcCalc = false) (hend : (r2CalcCrcChunk cfg w).1 = true) :
    ∃ f, w.t.fd = some f ∧ (bytesBelow w.t f).length = w.t.fsize ∧
      Verdict w (r2CalcCrcChunk cfg w).2 (bytesBelow w.t f) := by
  obtain ⟨f, hfd, hread, hcrc, hstatus⟩ := passLoop_readOn cfg h hno hopen
  obtain ⟨hfsize, heof, hkeep, -, hinside⟩ := passLoop_frame hread
  rw [r2CalcCrcChunk_eq] at hend ⊢
  generalize passLoop cfg w = result at *
  obtain ⟨success, w'⟩ := result
  dsimp only at hfsize heof hkeep hinside hcrc hstatus hend ⊢
  split at hend
  · rename_i hdone
    rw [if_pos hdone]
    obtain ⟨rfl, hcount⟩ := Bool.and_eq_true_iff.mp hdone
    have hcount : w'.t.r.r2.rxCrcCalcBytes = w.t.fsize := (beq_iff_eq.mp hcount).trans hfsize
    have hlength : (bytesBelow w.t f).length ≤ w.t.fsize := by
      rw [bytesBelow, List.length_take]
      exact min_le_left _ _
    obtain ⟨-, hhistory⟩ := hstatus
    have hwhole : (crcFinalize w'.t.crc).result =
        BitVec.ofNat 32 (wordSum (bytesBelow w.t f)) := by
      rw [hcrc, List.take_of_length_le (by omega), ← checksum_wordSum]
      rfl
    have hcheck : rCheckCrc w' w'.t.r.r2.eofCrc =
        (BitVec.ofNat 32 (wordSum (bytesBelow w.t f)) == w.t.r.r2.eofCrc,
          { w' with t.crc := crcFinalize w'.t.crc }) := by
      rw [rCheckCrc, hwhole, heof]
    rw [hcheck]
    refine ⟨f, hfd, by omega, fun hmatch => ?_, fun hdifferent => ?_⟩
    · rw [beq_iff_eq.mpr hmatch]
      exact ⟨rfl, rfl, rfl, hhistory⟩
    · rw [beq_eq_false_iff_ne.mpr hdifferent]
      have hfine : ({ w' with t.crc := crcFinalize w'.t.crc } : World).t.isError = false := by
        change w'.t.history.txnStat.isError = false
        rw [hhistory]
        exact hno
      refine ⟨?_, setTxnStatus_txnStat hfine _⟩
      obtain ⟨history, hset⟩ := setTxnStatus_frame
        { w' with t.crc := crcFinalize w'.t.crc } .fileChecksumFailure
      simp only [afterCheck, Bool.false_eq_true, if_false, r2SetFinTxnStatus, hset]
      exact hkeep
  · cases hend

theorem r2CalcCrcChunk_summed (h : Summed w) (hno : w.t.isError = false)
    (hopen : w.t.com.crcCalc = false) : Summed (r2CalcCrcChunk cfg w).2 := by
  obtain ⟨f, hfd, hread, hcrc, hstatus⟩ := passLoop_readOn cfg h hno hopen
  obtain ⟨hfsize, -, -, -, hinside⟩ := passLoop_frame hread
  obtain ⟨pos, hmoved⟩ := hread.fd
  rw [r2CalcCrcChunk_eq]
  generalize passLoop cfg w = result at *
  obtain ⟨success, w'⟩ := result
  dsimp only at hfsize hinside hcrc hstatus hmoved ⊢
  have hbytes : bytesBelow w'.t (f.at pos) = bytesBelow w.t f := by
    rw [bytesBelow, bytesBelow, hfsize, OpenFile.at_data]
  have hposition (hfine : w'.t.isError = false) : (f.at pos).file.pos = w'.t.r.cachedPos := by
    cases success with
    | true =>
      have hsame := Option.some.inj (hmoved.symm.trans hstatus.1)
      rw [hsame, OpenFile.at_pos]
    | false =>
      rw [if_neg (by simp)] at hstatus
      cases hstatus.symm.trans hfine
  have hstopped : Summed w' := by
    refine ⟨f.at pos, hmoved, hposition, ?_, fun _ _ => ?_⟩
    · rw [hbytes]
      exact hinside
    · rw [hbytes]
      exact hcrc
  split
  · -- the pass is over, what counts is where the descriptor is
    have hover {w'' : World} (hfd'' : w''.t.fd = w'.t.fd) (hfs : w''.t.fsize = w'.t.fsize)
        (hcached : w''.t.r.cachedPos = w'.t.r.cachedPos)
        (hcount : w''.t.r.r2.rxCrcCalcBytes = w'.t.r.r2.rxCrcCalcBytes)
        (herror : w''.t.isError = false → w'.t.isError = false)
        (hcalc : w''.t.com.crcCalc = true) : Summed w'' := by
      refine ⟨f.at pos, hfd''.trans hmoved, fun hfine => ?_, ?_, fun hfalse => ?_⟩
      · rw [hcached]
        exact hposition (herror hfine)
      · rw [hcount, bytesBelow, hfs, ← bytesBelow, hbytes]
        exact hinside
      · cases hcalc.symm.trans hfalse
    simp only [rCheckCrc]
    generalize ((crcFinalize w'.t.crc).result == w'.t.r.r2.eofCrc) = ok
    cases ok with
    | true => exact hover rfl rfl rfl rfl id rfl
    | false =>
      obtain ⟨history, hset⟩ := setTxnStatus_frame
        { w' with t.crc := crcFinalize w'.t.crc } .fileChecksumFailure
      have herror := (setTxnStatus_sameProgress
        { w' with t.crc := crcFinalize w'.t.crc } .fileChecksumFailure).error
      simp only [afterCheck, Bool.false_eq_true, if_false, r2SetFinTxnStatus]
      rw [hset] at herror ⊢
      refine hover rfl rfl rfl rfl (fun hfine => ?_) rfl
      by_contra hbad
      cases (herror (Bool.eq_true_of_not_eq_false hbad)).symm.trans hfine
  · exact hstopped

/-- In a file that is long enough, while no operation is refused, a wakeup that does not
end the pass has read as much as it may. -/
theorem r2CalcCrcChunk_progress (h : Summed w) (hno : w.t.isError = false)
    (hopen : w.t.com.crcCalc = false) (hops : ∀ k, w.fileOps k = true)
    (hlong : ∀ f ∈ w.t.fd, w.t.fsize ≤ f.file.data.length) :
    (r2CalcCrcChunk cfg w).1 = true ∨
      w.t.r.r2.rxCrcCalcBytes + cfg.rxCrcCalcBytesPerWakeup ≤
        (r2CalcCrcChunk cfg w).2.t.r.r2.rxCrcCalcBytes := by
  obtain ⟨f, hfd, hread, -, -⟩ := passLoop_readOn cfg h hno hopen
  obtain ⟨hfsize, -, -, -, -⟩ := passLoop_frame hread
  obtain ⟨f', hfd', hpos, hinside, -⟩ := h
  obtain rfl : f = f' := Option.some.inj (hfd.symm.trans hfd')
  obtain ⟨crc, hstart⟩ := passStart_frame w
  have hlength : (bytesBelow w.t f).length ≤ w.t.fsize := by
    rw [bytesBelow, List.length_take]
    exact min_le_left _ _
  obtain ⟨hsuccess, -, hcount⟩ := calcCrcLoop_full (w := passStart w) (f := f) cfg
    (w.t.fsize - w.t.r.r2.rxCrcCalcBytes) 0 (by rw [hstart]; exact hfd)
    (by rw [hstart]; exact hpos hno) (by rw [hstart]; exact hops)
    (by rw [hstart]; exact hlong f hfd) (by rw [hstart]; exact hinside.trans hlength)
    (by rw [hstart])
  rw [r2CalcCrcChunk_eq]
  change (passLoop cfg w).1 = true at hsuccess
  rcases hcount with hall | hmuch
  · left
    change (passLoop cfg w).2.t.r.r2.rxCrcCalcBytes = _ at hall
    have hsize : (passStart w).t.fsize = w.t.fsize := by rw [hstart]
    rw [if_pos (by rw [hsuccess, hall, hsize, hfsize]; simp)]
  · split
    · exact Or.inl rfl
    · right
      change _ ≤ 0 + (passLoop cfg w).2.t.r.r2.rxCrcCalcBytes at hmuch
      rw [hstart] at hmuch
      change cfg.rxCrcCalcBytesPerWakeup + w.t.r.r2.rxCrcCalcBytes ≤ _ at hmuch
      dsimp only
      omega

/-! ## Runs -/

theorem summed_reachable (h : (crcPass cfg).Reachable w) : Summed w := by
  refine @Machine.Reachable.invariant _ _ (crcPass cfg) Summed ?_ ?_ _ h
  · rintro w ⟨hposition, hzero⟩
    obtain ⟨f, hfd, hpos⟩ := Option.map_eq_some_iff.mp hposition
    exact ⟨f, hfd, fun _ => hpos, by omega, fun _ hsome => absurd hzero hsome⟩
  · intro w event w' hw hnext
    cases event with
    | wakeup =>
      simp only [crcPass] at hnext
      split at hnext
      · cases hnext
      · rename_i hallowed
        cases hnext
        obtain ⟨hno, hopen⟩ := not_or.mp hallowed
        exact r2CalcCrcChunk_summed hw (by simpa using hno) (by simpa using hopen)
    | elsewhere w'' =>
      simp only [crcPass] at hnext
      split at hnext
      · rename_i hsame
        cases hnext
        obtain ⟨hview, hposition⟩ := hsame
        obtain ⟨f, hfd, hpos, hinside, hsum⟩ := hw
        obtain ⟨f', hfd', hpos'⟩ := Option.map_eq_some_iff.mp hposition
        simp only [passView, Prod.mk.injEq, hfd, hfd', Option.map_some, Option.some.injEq] at hview
        obtain ⟨hbytes, -, hcount, hcrc, hcalc⟩ := hview
        refine ⟨f', hfd', fun _ => hpos', ?_, ?_⟩
        · rw [hcount, hbytes]
          exact hinside
        · rw [hcount, hbytes, hcrc, hcalc]
          exact hsum
      · cases hnext

/-- A file of five octets that are announced, and one more. -/
def fiveOctets : World :=
  quietWorld { (default : Transaction) with
    state := .r2
    fsize := 5
    fd := some ⟨[97], ⟨[1, 2, 3, 4, 5, 6], 0⟩⟩
    r.r2.eofCrc := 0x06020304 } fun _ => none

end Nos3.Cf
