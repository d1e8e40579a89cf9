import Nos3.IoLib.Source.TmSdlp
import Nos3.IoLib.Guarantees.FrameStream

/-!
# The error control field of a completed frame

The field is the CRC of the frame as `TM_SDLP_CompleteFrame` finds it. A frame in
which no packet starts gets its first header pointer afterwards: the CRC of what is
left in the buffer is another one, unless the pointer was there already.
-/
namespace Nos3.IoLib
open Base.BigEndian (Octet)
open Base.FileImage (window)
open Base.FixedArray
open Base.CrcRegister

/-- The two octets at `offset` are the CRC of everything before them. -/
def ErrCtrlValid (frame : List Octet) (offset : Nat) : Prop :=
  window frame offset tmErrCtrlFieldLength =
    [(crcCcitt (frame.take offset) >>> 8).setWidth 8, (crcCcitt (frame.take offset)).setWidth 8]

instance (frame : List Octet) (offset : Nat) : Decidable (ErrCtrlValid frame offset) :=
  inferInstanceAs (Decidable (_ = _))

theorem word_of_errCtrl {v w : BitVec 16}
    (h : [(v >>> 8).setWidth 8, v.setWidth 8] = [(w >>> 8).setWidth 8, (w.setWidth 8 : Octet)]) :
    v = w := by
  simp only [List.cons.injEq, and_true] at h
  rw [← Base.BigEndian.word_of_octets v, h.1, h.2, Base.BigEndian.word_of_octets]

/-! ## What is written last -/

/-- The field as it is written is that of the frame before it. -/
theorem updateErrCtrlField_valid {frame : List Octet} {offset : Nat}
    (hoffset : tmPriHdrLength ≤ offset) (hroom : offset + tmErrCtrlFieldLength ≤ frame.length) :
    ErrCtrlValid (updateErrCtrlField errCtrlRegister frame offset) offset ∧
      (updateErrCtrlField errCtrlRegister frame offset).take offset = frame.take offset := by
  have hfront : (frame.take offset).length = offset := List.length_take_of_le (by omega)
  have hclearedLength : (patch frame offset [0, 0]).length = frame.length := patch_length hroom
  have hcleared : (patch frame offset [0, 0]).take (offset + 2) = frame.take offset ++ [0, 0] := by
    rw [patch, List.take_append_of_le_length (by simp [hfront]),
      List.take_of_length_le (by simp [hfront])]
  have hcrc : errCtrlRegister (frame.take offset ++ [0, 0]) = crcCcitt (frame.take offset) :=
    errCtrlRegister_eq_divide _
  have hkept : ∀ a b : Octet,
      (patch (patch frame offset [0, 0]) offset [a, b]).take offset = frame.take offset := by
    intro a b
    have hsecond : window (patch (patch frame offset [0, 0]) offset [a, b]) 0 offset =
        window (patch frame offset [0, 0]) 0 offset :=
      window_patch_before (Nat.le_of_eq (Nat.zero_add offset)) (hclearedLength.symm ▸ hroom)
    have hfirst : window (patch frame offset [0, 0]) 0 offset = window frame 0 offset :=
      window_patch_before (Nat.le_of_eq (Nat.zero_add offset)) hroom
    exact hsecond.trans hfirst
  rw [updateErrCtrlField, if_neg (by omega)]
  dsimp only
  rw [hcleared, hcrc]
  refine ⟨?_, hkept _ _⟩
  rw [ErrCtrlValid, hkept]
  exact window_patch_same (hclearedLength.symm ▸ hroom)

/-- Writing the pointer changes the CRC unless it was there already. -/
theorem crcCcitt_setFirstHdrPtr {frame : List Octet} (hframe : tmPriHdrLength ≤ frame.length) :
    crcCcitt (setFirstHdrPtr frame noFirstHdrPtr) = crcCcitt frame ↔
      firstHdrPtr frame = noFirstHdrPtr := by
  obtain ⟨o0, o1, o2, o3, o4, o5, back, rfl⟩ : ∃ o0 o1 o2 o3 o4 o5 back,
      frame = o0 :: o1 :: o2 :: o3 :: o4 :: o5 :: back := by
    match frame, hframe with
    | o0 :: o1 :: o2 :: o3 :: o4 :: o5 :: back, _ => exact ⟨o0, o1, o2, o3, o4, o5, back, rfl⟩
  have hset : setFirstHdrPtr (o0 :: o1 :: o2 :: o3 :: o4 :: o5 :: back) noFirstHdrPtr =
      [o0, o1, o2, o3] ++ (7 ||| (o4 &&& 0xF8)) :: 0xFF :: back := rfl
  have hptr : firstHdrPtr (o0 :: o1 :: o2 :: o3 :: o4 :: o5 :: back) =
      (o4 &&& 0x07).toNat * 256 + o5.toNat := rfl
  have hhigh : ∀ octet : Octet, 7 ||| (octet &&& 0xF8) = octet ↔ (octet &&& 0x07).toNat = 7 := by
    decide +kernel
  have hlow : ∀ octet : Octet, 0xFF = octet ↔ octet.toNat = 255 := by decide +kernel
  have hmask : ∀ octet : Octet, (octet &&& 0x07).toNat ≤ 7 := by decide +kernel
  have hpointer : (7 ||| (o4 &&& 0xF8) = o4 ∧ 0xFF = o5) ↔
      (o4 &&& 0x07).toNat * 256 + o5.toNat = noFirstHdrPtr := by
    have hseven := hmask o4
    have hlt := o5.isLt
    rw [hhigh, hlow, noFirstHdrPtr]
    omega
  rw [hset, hptr, ← hpointer]
  constructor
  · intro hsame
    exact @crcCcitt_pair [o0, o1, o2, o3] _ _ _ _ _ hsame
  · rintro ⟨hfour, hfive⟩
    rw [hfour, hfive]
    rfl

theorem frameOctet_take {frame : List Octet} {i n : Nat} (h : i < n) :
    frameOctet (frame.take n) i = frameOctet frame i := by
  unfold frameOctet
  simp only [List.getD_eq_getElem?_getD]
  rw [List.getElem?_take_of_lt h]

theorem firstHdrPtr_take {frame : List Octet} {n : Nat} (h : tmPriHdrLength ≤ n) :
    firstHdrPtr (frame.take n) = firstHdrPtr frame := by
  unfold tmPriHdrLength at h
  rw [firstHdrPtr, frameOctet_take (by omega), frameOctet_take (by omega), firstHdrPtr]

theorem take_setFirstHdrPtr {frame : List Octet} {n : Nat} (h : tmPriHdrLength ≤ n) (val : Nat) :
    (setFirstHdrPtr frame val).take n = setFirstHdrPtr (frame.take n) val := by
  unfold tmPriHdrLength at h
  unfold setFirstHdrPtr
  dsimp only
  rw [List.take_set, List.take_set, frameOctet_take (by omega)]

/-! ## Completed frames -/

/-- The register computes the CRC of every string. The field of a frame as it is
left in the buffer is right exactly if a packet starts in the frame or its header
said before that none does. -/
theorem completed_errCtrl_iff {f : FrameInfo} (h : Layout f) (herr : f.globConfig.hasErrCtrl = true)
    {mcFrameCnt : Octet} {ocf : Option (List Octet)}
    (hdone : 0 ≤ (completeFrame errCtrlRegister f mcFrameCnt ocf).1) :
    (∀ data, errCtrlRegister (data ++ [0, 0]) = crcCcitt data) ∧
      (ErrCtrlValid (completeFrame errCtrlRegister f mcFrameCnt ocf).2.2.frame f.errCtrlOffset ↔
        f.isFirstHdrPtrSet = true ∨ firstHdrPtr f.frame = noFirstHdrPtr) := by
  refine ⟨fun data => errCtrlRegister_eq_divide _, ?_⟩
  have hheader := h.header
  have hocf := h.ocf
  have hbehind := h.errCtrl
  have hinside := h.inside
  rw [if_pos herr] at hinside
  have hoffset : tmPriHdrLength ≤ f.errCtrlOffset := by omega
  obtain ⟨hfailed, -⟩ | ⟨-, frame, hkept, hf⟩ :=
    completeFrame_cases h errCtrlRegister mcFrameCnt ocf
  · exact absurd hdone (by omega)
  obtain ⟨hvalid, htake⟩ := updateErrCtrlField_valid hoffset (by rw [hkept.length]; exact hinside)
  rw [hf, if_pos herr]
  generalize updateErrCtrlField errCtrlRegister frame f.errCtrlOffset = written at hvalid htake
  unfold released
  dsimp only
  cases hflag : f.isFirstHdrPtrSet with
  | true => simpa using hvalid
  | false =>
    have hroom : tmPriHdrLength ≤ (frame.take f.errCtrlOffset).length := by
      rw [List.length_take, hkept.length]
      omega
    have hbefore : firstHdrPtr (frame.take f.errCtrlOffset) = firstHdrPtr f.frame := by
      rw [firstHdrPtr_take hoffset, hkept.pointer]
    rw [ErrCtrlValid, htake] at hvalid
    rw [if_pos rfl, ErrCtrlValid, window_setFirstHdrPtr hoffset, take_setFirstHdrPtr hoffset, htake,
      hvalid, ← hbefore, ← crcCcitt_setFirstHdrPtr hroom]
    simp only [Bool.false_eq_true, false_or]
    constructor
    · intro hsame
      exact (word_of_errCtrl hsame).symm
    · intro hsame
      rw [hsame]

def errCtrlGlobal : GlobalConfig := { smallGlobal with hasErrCtrl := true }

/-- The first frame of a packet that is as long as two data fields. -/
def packetFrame : Option FrameInfo := do
  let f ← initChannel errCtrlGlobal smallChannel (some (0, 0))
  let f ← startFrame f
  return (addPacket f (samplePacket 5 0xA1)).2

/-- The second one, in which no packet starts. -/
def continuedFrame : Option FrameInfo := do
  let f ← packetFrame
  startFrame (completeFrame errCtrlRegister f 0 none).2.2

theorem completed_errCtrl_packet : ∃ f ∈ packetFrame,
    ErrCtrlValid (completeFrame errCtrlRegister f 0 none).2.2.frame f.errCtrlOffset := by
  refine ⟨packetFrame.get (by decide +kernel), Option.get_mem _, ?_⟩
  have hlayout : Layout (packetFrame.get (by decide +kernel)) := by
    constructor <;> decide +kernel
  exact ((completed_errCtrl_iff hlayout (by decide +kernel) (by decide +kernel)).2).mpr
    (.inl (by decide +kernel))

/-- The pointer goes into the second frame after its CRC was taken. -/
theorem continued_frame_invalid :
    ¬ ∀ (f : FrameInfo) (mcFrameCnt : Octet) (ocf : Option (List Octet)), Layout f →
      f.globConfig.hasErrCtrl = true →
      0 ≤ (completeFrame errCtrlRegister f mcFrameCnt ocf).1 →
      ErrCtrlValid (completeFrame errCtrlRegister f mcFrameCnt ocf).2.2.frame f.errCtrlOffset := by
  intro hvalid
  have hlayout : Layout (continuedFrame.get (by decide +kernel)) := by
    constructor <;> decide +kernel
  have hframe := hvalid _ 0 none hlayout (by decide +kernel) (by decide +kernel)
  revert hframe
  decide +kernel

end Nos3.IoLib
