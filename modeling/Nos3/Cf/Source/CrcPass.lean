import Nos3.Cf.Source.LogicalPdu
import Nos3.Cf.Source.ReceiverRules

/-!
# The checksum as a sum of words

What `CF_CRC_Digest` keeps between calls: the sum of the full words so far, and the
octets of the next word at the bottom of a shift register. The octets above them are
left from earlier words and are shifted out before the register is used.
-/
namespace Nos3.Cf

/-- The number with these octets, most significant first. -/
def wordOf (a b c d : Octet) : Nat :=
  a.toNat * 2 ^ 24 + b.toNat * 2 ^ 16 + c.toNat * 2 ^ 8 + d.toNat

/-- The sum of the big-endian 32-bit words, the last one filled with zeros on the right. -/
def wordSum : List Octet → Nat
  | [] => 0
  | [a] => wordOf a 0 0 0
  | [a, b] => wordOf a b 0 0
  | [a, b, c] => wordOf a b c 0
  | a :: b :: c :: d :: rest => wordOf a b c d + wordSum rest

theorem shiftIn_toNat (working : BitVec 32) (octet : Octet) :
    ((working <<< 8) ||| octet.setWidth 32).toNat =
      (working.toNat * 2 ^ 8 + octet.toNat) % 2 ^ 32 := by
  have hoctet : octet.toNat < 2 ^ 8 := octet.isLt
  have hhigh : working.toNat * 2 ^ 8 % 2 ^ 32 = working.toNat % 2 ^ 24 * 2 ^ 8 := by omega
  have hjoin := Nat.shiftLeft_add_eq_or_of_lt hoctet (working.toNat % 2 ^ 24)
  rw [BitVec.toNat_or, BitVec.toNat_shiftLeft, BitVec.toNat_setWidth, Nat.shiftLeft_eq, hhigh,
    Nat.mod_eq_of_lt (a := octet.toNat) (by omega), ← Nat.shiftLeft_eq, ← hjoin, Nat.shiftLeft_eq]
  omega

/-- A full word goes through the register, whatever is left in it. -/
theorem crcDigest_word (working result : BitVec 32) (a b c d : Octet) :
    ∃ working', crcDigest ⟨working, result, 0⟩ [a, b, c, d] =
      ⟨working', result + BitVec.ofNat 32 (wordOf a b c d), 0⟩ := by
  have hregister : ((((((((working <<< 8) ||| a.setWidth 32) <<< 8) ||| b.setWidth 32) <<< 8) |||
      c.setWidth 32) <<< 8) ||| d.setWidth 32) = BitVec.ofNat 32 (wordOf a b c d) := by
    apply BitVec.eq_of_toNat_eq
    simp only [shiftIn_toNat, BitVec.toNat_ofNat, wordOf]
    omega
  refine ⟨BitVec.ofNat 32 (wordOf a b c d), ?_⟩
  simp [crcDigest, crcDigestOctet, hregister]

/-- The end of the data fills the last word with zeros. -/
theorem crcFinalize_wordSum (working result : BitVec 32) (data : List Octet) :
    (crcFinalize (crcDigest ⟨working, result, 0⟩ data)).result =
      result + BitVec.ofNat 32 (wordSum data) := by
  induction data using wordSum.induct generalizing working result with
  | case1 => simp [crcDigest, crcFinalize, wordSum]
  | case2 a =>
    have hlast : (((working <<< 8) ||| a.setWidth 32) <<< 24) =
        BitVec.ofNat 32 (wordOf a 0 0 0) := by
      apply BitVec.eq_of_toNat_eq
      rw [BitVec.toNat_shiftLeft, shiftIn_toNat, Nat.shiftLeft_eq, BitVec.toNat_ofNat, wordOf]
      have hzero : (0 : Octet).toNat = 0 := rfl
      omega
    simp [crcDigest, crcDigestOctet, crcFinalize, wordSum, hlast]
  | case3 a b =>
    have hlast : (((((working <<< 8) ||| a.setWidth 32) <<< 8) ||| b.setWidth 32) <<< 16) =
        BitVec.ofNat 32 (wordOf a b 0 0) := by
      apply BitVec.eq_of_toNat_eq
      rw [BitVec.toNat_shiftLeft, shiftIn_toNat, shiftIn_toNat, Nat.shiftLeft_eq,
        BitVec.toNat_ofNat, wordOf]
      have hzero : (0 : Octet).toNat = 0 := rfl
      omega
    simp [crcDigest, crcDigestOctet, crcFinalize, wordSum, hlast]
  | case4 a b c =>
    have hlast : (((((((working <<< 8) ||| a.setWidth 32) <<< 8) ||| b.setWidth 32) <<< 8) |||
        c.setWidth 32) <<< 8) = BitVec.ofNat 32 (wordOf a b c 0) := by
      apply BitVec.eq_of_toNat_eq
      rw [BitVec.toNat_shiftLeft, shiftIn_toNat, shiftIn_toNat, shiftIn_toNat, Nat.shiftLeft_eq,
        BitVec.toNat_ofNat, wordOf]
      have hzero : (0 : Octet).toNat = 0 := rfl
      omega
    simp [crcDigest, crcDigestOctet, crcFinalize, wordSum, hlast]
  | case5 a b c d rest ih =>
    obtain ⟨working', hword⟩ := crcDigest_word working result a b c d
    have hsplit : a :: b :: c :: d :: rest = [a, b, c, d] ++ rest := rfl
    rw [hsplit, crcDigest_append, hword, ih, ← hsplit, wordSum, BitVec.ofNat_add, BitVec.add_assoc]

theorem checksum_wordSum (data : List Octet) : checksum data = BitVec.ofNat 32 (wordSum data) := by
  rw [checksum, crcStart, crcFinalize_wordSum]
  exact BitVec.zero_add _

/-- The calls digest the octets of their arguments in turn. -/
theorem foldl_crcDigest (c : Crc) (parts : List (List Octet)) :
    parts.foldl crcDigest c = crcDigest c parts.flatten := by
  induction parts generalizing c with
  | nil => rfl
  | cons part rest ih => rw [List.foldl_cons, ih, List.flatten_cons, crcDigest_append]

end Nos3.Cf

/-!
## The pass over the stored file (cf_cfdp_r.c)

`CF_CFDP_R2_CalcCrcChunk` reads on where it stopped, at most so many octets in a
wakeup. The descriptor is where `cached_pos` says, so that every read is made at the
number of octets read before it, whether the seek is made or skipped.
-/
namespace Nos3.Cf
open Nos3.Base.FileImage

variable {cfg : Config} {w w' : World} {f : OpenFile}

/-- `read_size`. -/
def crcReadSize (t : Transaction) : Nat :=
  if t.r.r2.rxCrcCalcBytes + r2CrcChunkSize > t.fsize then t.fsize - t.r.r2.rxCrcCalcBytes
  else r2CrcChunkSize

theorem crcReadSize_bounds {t : Transaction} (h : t.r.r2.rxCrcCalcBytes < t.fsize) :
    0 < crcReadSize t ∧ t.r.r2.rxCrcCalcBytes + crcReadSize t ≤ t.fsize := by
  have hsize : 0 < r2CrcChunkSize := by decide
  unfold crcReadSize
  split
  · omega
  · omega

theorem Answers.skip_skip (answers : Answers) (m n : Nat) :
    (answers.skip m).skip n = answers.skip (n + m) := by
  funext k
  exact congrArg answers (Nat.add_assoc k n m)

/-- The world after `m` file operations that left the descriptor as `f`. -/
def World.accessed (w : World) (m : Nat) (f : OpenFile) : World :=
  { w with fileOps := w.fileOps.skip m, t.fd := some f }

theorem World.accessed_afterFileOp (w : World) (m : Nat) (f f' : OpenFile) :
    (w.accessed m f).afterFileOp (some f') = w.accessed (1 + m) f' := by
  simp only [World.accessed, World.afterFileOp, Answers.skip_skip]

theorem World.afterFileOp_eq_accessed (w : World) (f : OpenFile) :
    w.afterFileOp (some f) = w.accessed 1 f := rfl

/-- The world after a read of `n` more octets. -/
def World.crcRead (w : World) (f : OpenFile) (m n : Nat) : World :=
  let w' := w.accessed m (f.at (w.t.r.r2.rxCrcCalcBytes + n))
  { w' with
    t.crc := crcDigest w.t.crc (window f.file.data w.t.r.r2.rxCrcCalcBytes n)
    t.r.r2.rxCrcCalcBytes := w.t.r.r2.rxCrcCalcBytes + n
    t.r.cachedPos := w.t.r.r2.rxCrcCalcBytes + n }

/-- A round of the loop reads the next octets, or the file fails it. -/
theorem calcCrcLoop_round (fuel : Nat) {countBytes : Nat} (hfd : w.t.fd = some f)
    (hpos : f.file.pos = w.t.r.cachedPos) (hmore : countBytes < cfg.rxCrcCalcBytesPerWakeup ∧
      w.t.r.r2.rxCrcCalcBytes < w.t.fsize) :
    (w.t.r.r2.rxCrcCalcBytes + crcReadSize w.t ≤ f.file.data.length ∧
      ∃ m, calcCrcLoop cfg (fuel + 1) countBytes w =
        calcCrcLoop cfg fuel (countBytes + crcReadSize w.t) (w.crcRead f m (crcReadSize w.t))) ∨
    ((∀ k, w.fileOps k = true) →
        f.file.data.length < w.t.r.r2.rxCrcCalcBytes + crcReadSize w.t) ∧
      ∃ m pos, calcCrcLoop cfg (fuel + 1) countBytes w =
        (false, setTxnStatus (w.accessed m (f.at pos)) .fileSizeError) := by
  obtain ⟨hpositive, -⟩ := crcReadSize_bounds hmore.2
  have haccess : accessPos w.t.r.cachedPos w.t.r.r2.rxCrcCalcBytes f.file.pos =
      w.t.r.r2.rxCrcCalcBytes := by
    unfold accessPos
    split
    · rename_i hsame
      rw [hpos, hsame]
    · rfl
  have hsize : (if w.t.r.r2.rxCrcCalcBytes + r2CrcChunkSize > w.t.fsize then
      w.t.fsize - w.t.r.r2.rxCrcCalcBytes else r2CrcChunkSize) = crcReadSize w.t := rfl
  rw [calcCrcLoop, if_pos hmore]
  dsimp only
  rw [hsize]
  generalize crcReadSize w.t = n at hpositive
  rcases seekFrom_cases w w.t.r.cachedPos w.t.r.r2.rxCrcCalcBytes with
    ⟨f', m, hf', hseek⟩ | ⟨hnone, -⟩ | ⟨hrefused, hseek⟩
  · obtain rfl : f = f' := Option.some.inj (hfd.symm.trans hf')
    rw [haccess] at hseek
    have hseek : seekFrom w w.t.r.cachedPos w.t.r.r2.rxCrcCalcBytes =
      (true, w.accessed m (f.at w.t.r.r2.rxCrcCalcBytes)) := hseek
    rw [hseek]
    dsimp only
    rcases wrappedRead_cases (w.accessed m (f.at w.t.r.r2.rxCrcCalcBytes)) n with
      ⟨f', hf', -, hread⟩ | ⟨hrefused, hread⟩
    · obtain rfl : f.at w.t.r.r2.rxCrcCalcBytes = f' := Option.some.inj hf'
      rw [hread, World.accessed_afterFileOp]
      simp only [OpenFile.at_data, OpenFile.at_pos, OpenFile.at_at]
      by_cases hfull : (window f.file.data w.t.r.r2.rxCrcCalcBytes n).length = n
      · refine Or.inl ⟨window_full_inside hpositive hfull, 1 + m, (if_pos hfull).trans ?_⟩
        rw [hfull]
        rfl
      · refine Or.inr ⟨fun _ => ?_, 1 + m, _, if_neg hfull⟩
        by_contra hlong
        exact hfull (window_full (by omega))
    · have hfd' : (w.accessed m (f.at w.t.r.r2.rxCrcCalcBytes)).t.fd =
        some (f.at w.t.r.r2.rxCrcCalcBytes) := rfl
      rw [hread, hfd', World.accessed_afterFileOp]
      refine Or.inr ⟨fun hall => ?_, 1 + m, w.t.r.r2.rxCrcCalcBytes, rfl⟩
      cases hrefused (hall _)
  · cases hnone.symm.trans hfd
  · rw [hseek, hfd, World.afterFileOp_eq_accessed]
    refine Or.inr ⟨fun hall => ?_, 1, f.file.pos, rfl⟩
    cases (hrefused (hall 0)).symm.trans hfd

/-! ## The loop -/

/-- The octets that the pass is about. -/
def bytesBelow (t : Transaction) (f : OpenFile) : List Octet := f.file.data.take t.fsize

/-- How far a part of the pass has come: the descriptor moved, and what was digested are
the octets in front of it. -/
structure ReadOn (f : OpenFile) (w w' : World) : Prop where
  fd : ∃ pos, w'.t.fd = some (f.at pos)
  fsize : w'.t.fsize = w.t.fsize
  eofCrc : w'.t.r.r2.eofCrc = w.t.r.r2.eofCrc
  keep : w'.t.keep = w.t.keep
  forward : w.t.r.r2.rxCrcCalcBytes ≤ w'.t.r.r2.rxCrcCalcBytes
  inside : w'.t.r.r2.rxCrcCalcBytes ≤ (bytesBelow w.t f).length
  sum : w.t.crc = crcDigest crcStart ((bytesBelow w.t f).take w.t.r.r2.rxCrcCalcBytes) →
    w'.t.crc = crcDigest crcStart ((bytesBelow w.t f).take w'.t.r.r2.rxCrcCalcBytes)

theorem ReadOn.refl (hfd : w.t.fd = some f)
    (hinside : w.t.r.r2.rxCrcCalcBytes ≤ (bytesBelow w.t f).length) : ReadOn f w w :=
  ⟨⟨f.file.pos, hfd⟩, rfl, rfl, rfl, le_rfl, hinside, id⟩

theorem ReadOn.trans {w' w'' : World} {pos : Nat} (h : ReadOn f w w')
    (h' : ReadOn (f.at pos) w' w'') : ReadOn f w w'' := by
  have hbytes : bytesBelow w'.t (f.at pos) = bytesBelow w.t f := by
    rw [bytesBelow, bytesBelow, h.fsize, OpenFile.at_data]
  refine ⟨h'.fd, h'.fsize.trans h.fsize, h'.eofCrc.trans h.eofCrc, h'.keep.trans h.keep,
    h.forward.trans h'.forward, ?_, fun hsum => ?_⟩
  · rw [← hbytes]
    exact h'.inside
  · have hsum' := h'.sum
    rw [hbytes] at hsum'
    exact hsum' (h.sum hsum)

theorem crcRead_readOn {m n : Nat} (hn : w.t.r.r2.rxCrcCalcBytes + n ≤ w.t.fsize)
    (hlong : w.t.r.r2.rxCrcCalcBytes + n ≤ f.file.data.length) :
    ReadOn f w (w.crcRead f m n) := by
  have hlength : (bytesBelow w.t f).length = min w.t.fsize f.file.data.length := List.length_take
  refine ⟨⟨_, rfl⟩, rfl, rfl, rfl, Nat.le_add_right _ _, ?_, fun hsum => ?_⟩
  · change w.t.r.r2.rxCrcCalcBytes + n ≤ _
    omega
  · change crcDigest w.t.crc _ =
      crcDigest crcStart ((bytesBelow w.t f).take (w.t.r.r2.rxCrcCalcBytes + n))
    rw [hsum, ← crcDigest_append, bytesBelow, List.take_take, List.take_take, min_eq_left hn,
      min_eq_left (by omega), take_window]

/-- What the loop ends with: all octets so far in the checksum, or a failed transaction. -/
theorem calcCrcLoop_readOn (cfg : Config) (fuel countBytes : Nat) (hfd : w.t.fd = some f)
    (hpos : f.file.pos = w.t.r.cachedPos)
    (hinside : w.t.r.r2.rxCrcCalcBytes ≤ (bytesBelow w.t f).length) :
    ReadOn f w (calcCrcLoop cfg fuel countBytes w).2 ∧
      if (calcCrcLoop cfg fuel countBytes w).1 then
        (calcCrcLoop cfg fuel countBytes w).2.t.fd =
            some (f.at (calcCrcLoop cfg fuel countBytes w).2.t.r.cachedPos) ∧
          (calcCrcLoop cfg fuel countBytes w).2.t.history = w.t.history
      else (calcCrcLoop cfg fuel countBytes w).2.t.isError = true := by
  have hstays : w.t.fd = some (f.at w.t.r.cachedPos) := by rw [← hpos, OpenFile.at_self, hfd]
  induction fuel generalizing countBytes w f with
  | zero => exact ⟨.refl hfd hinside, hstays, rfl⟩
  | succ fuel ih =>
    by_cases hmore : countBytes < cfg.rxCrcCalcBytesPerWakeup ∧
        w.t.r.r2.rxCrcCalcBytes < w.t.fsize
    · rcases calcCrcLoop_round fuel hfd hpos hmore with
        ⟨hlong, m, hround⟩ | ⟨-, m, pos, hround⟩
      · rw [hround]
        have hread := crcRead_readOn (m := m) (crcReadSize_bounds hmore.2).2 hlong
        obtain ⟨hrest, hend⟩ := ih (w := w.crcRead f m (crcReadSize w.t))
          (f := f.at (w.t.r.r2.rxCrcCalcBytes + crcReadSize w.t))
          (countBytes + crcReadSize w.t) rfl rfl hread.inside rfl
        exact ⟨hread.trans hrest, hend⟩
      · rw [hround]
        refine ⟨?_, setTxnStatus_isError rfl⟩
        obtain ⟨history, hstatus⟩ := setTxnStatus_frame (w.accessed m (f.at pos)) .fileSizeError
        rw [hstatus]
        exact ⟨⟨pos, rfl⟩, rfl, rfl, rfl, le_rfl, hinside, id⟩
    · rw [calcCrcLoop, if_neg hmore]
      exact ⟨.refl hfd hinside, hstays, rfl⟩

/-- With a file that is long enough and no refused operation the loop reads as much as a
wakeup allows. -/
theorem calcCrcLoop_full (cfg : Config) (fuel countBytes : Nat) (hfd : w.t.fd = some f)
    (hpos : f.file.pos = w.t.r.cachedPos) (hops : ∀ k, w.fileOps k = true)
    (hlong : w.t.fsize ≤ f.file.data.length) (hinside : w.t.r.r2.rxCrcCalcBytes ≤ w.t.fsize)
    (hfuel : w.t.fsize - w.t.r.r2.rxCrcCalcBytes ≤ fuel) :
    (calcCrcLoop cfg fuel countBytes w).1 = true ∧
      (∀ k, (calcCrcLoop cfg fuel countBytes w).2.fileOps k = true) ∧
      ((calcCrcLoop cfg fuel countBytes w).2.t.r.r2.rxCrcCalcBytes = w.t.fsize ∨
        cfg.rxCrcCalcBytesPerWakeup + w.t.r.r2.rxCrcCalcBytes ≤
          countBytes + (calcCrcLoop cfg fuel countBytes w).2.t.r.r2.rxCrcCalcBytes) := by
  induction fuel generalizing countBytes w f with
  | zero => exact ⟨rfl, hops, Or.inl (by change w.t.r.r2.rxCrcCalcBytes = _; omega)⟩
  | succ fuel ih =>
    by_cases hmore : countBytes < cfg.rxCrcCalcBytesPerWakeup ∧
        w.t.r.r2.rxCrcCalcBytes < w.t.fsize
    · obtain ⟨hpositive, hsize⟩ := crcReadSize_bounds hmore.2
      rcases calcCrcLoop_round fuel hfd hpos hmore with ⟨-, m, hround⟩ | ⟨hshort, -⟩
      · rw [hround]
        obtain ⟨hsuccess, hrest, hend⟩ := ih (w := w.crcRead f m (crcReadSize w.t))
          (f := f.at (w.t.r.r2.rxCrcCalcBytes + crcReadSize w.t))
          (countBytes + crcReadSize w.t) rfl rfl (fun k => hops _) hlong hsize
          (by change w.t.fsize - (w.t.r.r2.rxCrcCalcBytes + crcReadSize w.t) ≤ fuel; omega)
        refine ⟨hsuccess, hrest, hend.imp id fun hcount => ?_⟩
        change _ + (w.t.r.r2.rxCrcCalcBytes + crcReadSize w.t) ≤ _ at hcount
        omega
      · have hlow := hshort hops
        omega
    · rw [calcCrcLoop, if_neg hmore]
      refine ⟨rfl, hops, ?_⟩
      change w.t.r.r2.rxCrcCalcBytes = _ ∨ _ ≤ countBytes + w.t.r.r2.rxCrcCalcBytes
      omega

/-! ## A wakeup -/

/-- The world in which the loop of a wakeup starts. -/
def passStart (w : World) : World :=
  if w.t.r.r2.rxCrcCalcBytes = 0 then { w with t.crc := crcStart } else w

theorem passStart_frame (w : World) : ∃ crc, passStart w = { w with t.crc := crc } := by
  unfold passStart
  split
  · exact ⟨crcStart, rfl⟩
  · exact ⟨w.t.crc, rfl⟩

/-- The loop of a wakeup. -/
def passLoop (cfg : Config) (w : World) : Bool × World :=
  calcCrcLoop cfg (w.t.fsize - w.t.r.r2.rxCrcCalcBytes) 0 (passStart w)

/-- What the comparison of the checksum leads to. -/
def afterCheck (ok : Bool) (w : World) : World :=
  let w :=
    if ok then
      { w with
        t.keep := true
        t.r.r2.dc := FinDeliveryCode.complete
        t.r.r2.fs := FinFileStatus.retained }
    else r2SetFinTxnStatus w .fileChecksumFailure
  { w with t.com.crcCalc := true }

theorem r2CalcCrcChunk_eq (cfg : Config) (w : World) :
    r2CalcCrcChunk cfg w =
      if (passLoop cfg w).1 && (passLoop cfg w).2.t.r.r2.rxCrcCalcBytes ==
          (passLoop cfg w).2.t.fsize then
        let (ok, w) := rCheckCrc (passLoop cfg w).2 (passLoop cfg w).2.t.r.r2.eofCrc
        (true, afterCheck ok w)
      else (false, (passLoop cfg w).2) := by
  obtain ⟨crc, hstart⟩ := passStart_frame w
  have hloop : passLoop cfg w = calcCrcLoop cfg
      ((passStart w).t.fsize - (passStart w).t.r.r2.rxCrcCalcBytes) 0 (passStart w) := by
    rw [passLoop, hstart]
  rw [hloop]
  rfl

theorem passLoop_frame (h : ReadOn f (passStart w) w') :
    w'.t.fsize = w.t.fsize ∧ w'.t.r.r2.eofCrc = w.t.r.r2.eofCrc ∧ w'.t.keep = w.t.keep ∧
      w.t.r.r2.rxCrcCalcBytes ≤ w'.t.r.r2.rxCrcCalcBytes ∧
      w'.t.r.r2.rxCrcCalcBytes ≤ (bytesBelow w.t f).length := by
  obtain ⟨crc, hstart⟩ := passStart_frame w
  have hinside := h.inside
  have hforward := h.forward
  have hkeep := h.keep
  have heof := h.eofCrc
  have hfsize := h.fsize
  rw [hstart] at hinside hforward hkeep heof hfsize
  exact ⟨hfsize, heof, hkeep, hforward, hinside⟩

theorem setTxnStatus_txnStat (hno : w.t.isError = false) (status : TxnStatus) :
    (setTxnStatus w status).t.history.txnStat = status := by
  unfold setTxnStatus
  rw [if_neg (by rw [hno]; simp)]

end Nos3.Cf
