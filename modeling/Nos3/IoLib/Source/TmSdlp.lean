import Nos3.Base.BigEndian
import Nos3.Base.FixedArray
import Nos3.Base.CrcRegister
import Nos3.Base.RingBuffer
import Nos3.Base.Transition
import Mathlib.Data.List.GetD

/-!
# Telemetry transfer frames

The header writers of `tmtf.c` that the data link protocol calls, on the octets
of a frame: `Id[2]`, `McFrameCount`, `VcFrameCount`, `DataFieldStatus[2]`, then
the secondary header's id if there is one.
-/
namespace Nos3.IoLib
open Base.BigEndian (Octet)
open Base.FileImage (window)
open Base.FixedArray (patch)

def tmPriHdrLength : Nat := 6
def tmSecHdrMaxLength : Nat := 63
def tmOcfLength : Nat := 4
def tmErrCtrlFieldLength : Nat := 2

/-- `TMTF_NO_FIRST_HDR_PTR`. -/
def noFirstHdrPtr : Nat := 2047

/-- Octet `i` of a frame. -/
def frameOctet (frame : List Octet) (i : Nat) : Octet := frame.getD i 0

def setScId (frame : List Octet) (val : BitVec 16) : List Octet :=
  let frame := frame.set 0 ((frameOctet frame 0 &&& 0xC0) ||| ((val >>> 4).setWidth 8 &&& 0x3F))
  frame.set 1 ((frameOctet frame 1 &&& 0x0F) ||| ((val &&& 0x0F).setWidth 8 <<< 4))

def setVcId (frame : List Octet) (val : Octet) : List Octet :=
  frame.set 1 ((frameOctet frame 1 &&& 0xF1) ||| ((val &&& 0x07) <<< 1))

def setOcfFlag (frame : List Octet) (val : Octet) : List Octet :=
  frame.set 1 ((frameOctet frame 1 &&& 0xFE) ||| (val &&& 0x01))

def setMcFrameCount (frame : List Octet) (val : Octet) : List Octet := frame.set 2 val

def setSecHdrFlag (frame : List Octet) (val : Octet) : List Octet :=
  frame.set 4 ((val <<< 7) ||| (frameOctet frame 4 &&& 0x7F))

def setSyncFlag (frame : List Octet) (val : Octet) : List Octet :=
  frame.set 4 (((val <<< 6) &&& 0x40) ||| (frameOctet frame 4 &&& 0xBF))

def setPacketOrderFlag (frame : List Octet) (val : Octet) : List Octet :=
  frame.set 4 (((val <<< 5) &&& 0x20) ||| (frameOctet frame 4 &&& 0xDF))

def setSegLengthId (frame : List Octet) (val : Octet) : List Octet :=
  frame.set 4 (((val <<< 3) &&& 0x18) ||| (frameOctet frame 4 &&& 0xE7))

/-- `TMTF_SetFirstHdrPtr`: the low eleven bits of the value. -/
def setFirstHdrPtr (frame : List Octet) (val : Nat) : List Octet :=
  let frame := frame.set 4 (BitVec.ofNat 8 (val / 256 % 8) ||| (frameOctet frame 4 &&& 0xF8))
  frame.set 5 (BitVec.ofNat 8 val)

/-- What the receiver of a frame reads as its first header pointer. -/
def firstHdrPtr (frame : List Octet) : Nat :=
  (frameOctet frame 4 &&& 0x07).toNat * 256 + (frameOctet frame 5).toNat

/-- `TMTF_SetSecHdrLength`: written where the flag is set and the length is one of
1 to 63. -/
def setSecHdrLength (frame : List Octet) (val : Octet) : List Octet :=
  if frameOctet frame 4 &&& 0x80 = 0 then frame
  else if val.toNat < 1 ∨ tmSecHdrMaxLength < val.toNat then frame
  else frame.set tmPriHdrLength ((frameOctet frame tmPriHdrLength &&& 0xC0) ||| (val &&& 0x3F))

/-- `TMTF_SetOcf`. -/
def setOcf (frame : List Octet) (data : List Octet) (offset : Nat) : List Octet :=
  if frameOctet frame 1 &&& 0x01 = 0 then frame else patch frame offset (data.take tmOcfLength)

/-- `TMTF_UpdateErrCtrlField`; `crc` is what the table-driven register holds after
the frame and the two cleared octets behind it. -/
def updateErrCtrlField (crc : List Octet → BitVec 16) (frame : List Octet) (offset : Nat) :
    List Octet :=
  if offset < tmPriHdrLength then frame
  else
    let frame := patch frame offset [0, 0]
    let reg := crc (frame.take (offset + 2))
    patch frame offset [(reg >>> 8).setWidth 8, reg.setWidth 8]

/-! ## The first header pointer -/

@[simp] theorem setFirstHdrPtr_length (frame : List Octet) (val : Nat) :
    (setFirstHdrPtr frame val).length = frame.length := by simp [setFirstHdrPtr]

theorem window_set_before {frame : List Octet} {i offset n : Nat} (h : i < offset) (octet : Octet) :
    window (frame.set i octet) offset n = window frame offset n := by
  rw [window, window, List.drop_set_of_lt h]

/-- The pointer lies before the data field. -/
theorem window_setFirstHdrPtr {frame : List Octet} {offset n : Nat} (h : tmPriHdrLength ≤ offset)
    (val : Nat) : window (setFirstHdrPtr frame val) offset n = window frame offset n := by
  unfold tmPriHdrLength at h
  unfold setFirstHdrPtr
  dsimp only
  rw [window_set_before (by omega), window_set_before (by omega)]

theorem pointer_bits (high : Fin 8) (kept : Octet) :
    ((BitVec.ofNat 8 high.val ||| (kept &&& 0xF8)) &&& 0x07).toNat = high.val := by
  revert high kept
  decide +kernel

/-- The pointer reads back modulo 2^11. -/
theorem firstHdrPtr_set {frame : List Octet} (hframe : tmPriHdrLength ≤ frame.length) (val : Nat) :
    firstHdrPtr (setFirstHdrPtr frame val) = val % 2048 := by
  unfold tmPriHdrLength at hframe
  have hfour : frameOctet (setFirstHdrPtr frame val) 4 =
      BitVec.ofNat 8 (val / 256 % 8) ||| (frameOctet frame 4 &&& 0xF8) := by
    unfold frameOctet setFirstHdrPtr
    simp only [List.getD_eq_getElem?_getD]
    rw [List.getElem?_set_ne (by decide), List.getElem?_set_self (by omega)]
    rfl
  have hfive : frameOctet (setFirstHdrPtr frame val) 5 = BitVec.ofNat 8 val := by
    unfold frameOctet setFirstHdrPtr
    simp only [List.getD_eq_getElem?_getD]
    rw [List.getElem?_set_self (by rw [List.length_set]; omega)]
    rfl
  have hhigh := pointer_bits ⟨val / 256 % 8, Nat.mod_lt _ (by decide)⟩ (frameOctet frame 4)
  unfold firstHdrPtr
  rw [hfour, hfive, hhigh, BitVec.toNat_ofNat]
  dsimp only
  omega

/-- A write behind the header keeps the pointer. -/
theorem firstHdrPtr_patch {frame : List Octet} {offset : Nat} (new : List Octet)
    (hoffset : tmPriHdrLength ≤ offset) (hlen : offset ≤ frame.length) :
    firstHdrPtr (patch frame offset new) = firstHdrPtr frame := by
  have hkept : ∀ i < tmPriHdrLength, frameOctet (patch frame offset new) i = frameOctet frame i := by
    intro i hi
    have hlt : i < (frame.take offset).length := by
      rw [List.length_take]
      omega
    unfold frameOctet patch
    rw [List.append_assoc, List.getD_append _ _ _ _ hlt]
    simp only [List.getD_eq_getElem?_getD]
    rw [List.getElem?_take_of_lt (by omega)]
  unfold firstHdrPtr
  rw [hkept 4 (by decide), hkept 5 (by decide)]

end Nos3.IoLib

/-!
## The error control field of telemetry frames

`TMTF_GenCrcTable` and the register of `TMTF_UpdateErrCtrlField`. The register
takes the frame in at its low end, the two cleared octets of the field behind it:
it divides the frame by the polynomial.
-/
namespace Nos3.IoLib
open Base.BigEndian (Octet)
open Base.CrcRegister

def tmtfCrcInitRegistry : BitVec 16 := 0xFFFF
def tmtfCrcPolynomial : BitVec 32 := 0x11021

/-- One round of the inner loop of `TMTF_GenCrcTable`. -/
def genCrcBit (polynomial remainder : BitVec 32) : BitVec 32 :=
  if remainder &&& (1 <<< 15) ≠ 0 then
    ((remainder <<< 1).setWidth 16 ^^^ polynomial.setWidth 16).setWidth 32
  else remainder <<< 1

def genCrcEntry (polynomial : BitVec 32) (val : Nat) : BitVec 16 :=
  ((genCrcBit polynomial)^[8] (BitVec.ofNat 32 val <<< 8)).setWidth 16

def genCrcTable (polynomial : BitVec 32) : List (BitVec 16) :=
  (List.range 256).map (genCrcEntry polynomial)

/-- `crcTable` after `TMTF_LibInit`. -/
def crcTable : List (BitVec 16) := genCrcTable tmtfCrcPolynomial

/-- One round of the loop of `TMTF_UpdateErrCtrlField`. -/
def errCtrlOctet (reg : BitVec 16) (octet : Octet) : BitVec 16 :=
  let byte := (reg >>> 8).setWidth 8 &&& (0xFF : Octet)
  (reg <<< 8 ||| octet.setWidth 16) ^^^ crcTable.getD byte.toNat 0

def errCtrlRegister (data : List Octet) : BitVec 16 := data.foldl errCtrlOctet tmtfCrcInitRegistry

/-! ## Division -/

/-- CRC-16-CCITT: the register, preset to ones, divides the string with sixteen zero
bits behind it by `x^16 + x^12 + x^5 + 1`. -/
def crcCcitt (data : List Octet) : BitVec 16 := divide 0x1021 0xFFFF (data ++ [0, 0])

theorem crcTable_entry (octet : Octet) : crcTable.getD octet.toNat 0 = tableEntry 0x1021 octet := by
  have hentry : ∀ octet : Octet,
      genCrcEntry tmtfCrcPolynomial octet.toNat = tableEntry 0x1021 octet := by
    decide +kernel
  rw [← hentry, crcTable, genCrcTable, List.getD_eq_getElem?_getD, List.getElem?_map,
    List.getElem?_range octet.isLt]
  rfl

theorem errCtrlOctet_eq (reg : BitVec 16) (octet : Octet) :
    errCtrlOctet reg octet = divideOctet 0x1021 reg octet := by
  have hmask : (reg >>> 8).setWidth 8 &&& (0xFF : Octet) = (reg >>> 8).setWidth 8 :=
    BitVec.and_allOnes
  have hjoin : reg <<< 8 ||| octet.setWidth 16 = reg <<< 8 ^^^ octet.setWidth 16 := by
    ext i hi
    by_cases h : i < 8
    · simp [h]
    · simp [h, BitVec.getLsbD_of_ge octet i (by omega)]
  rw [errCtrlOctet, divideOctet_eq, hmask, hjoin, crcTable_entry]

/-- The table-driven register divides. -/
theorem errCtrlRegister_eq_divide (data : List Octet) :
    errCtrlRegister data = divide 0x1021 0xFFFF data := by
  have hstep : errCtrlOctet = divideOctet 0x1021 := by
    funext reg octet
    exact errCtrlOctet_eq reg octet
  rw [errCtrlRegister, hstep, divide_eq_foldl]
  rfl

/-- The test string of the library's unit test. -/
example : crcCcitt [0x31, 0x32, 0x33, 0x34, 0x35, 0x36, 0x37, 0x38, 0x39] = 0xE5CC := by
  decide +kernel

/-- Other octets in two places that follow each other change the CRC. -/
theorem crcCcitt_pair {front back : List Octet} {a b a' b' : Octet}
    (h : crcCcitt (front ++ a :: b :: back) = crcCcitt (front ++ a' :: b' :: back)) :
    a = a' ∧ b = b' := by
  have hsplit : ∀ x y : Octet, crcCcitt (front ++ x :: y :: back) =
      divide 0x1021 (divide 0x1021 (divide 0x1021 0xFFFF front) [x, y]) (back ++ [0, 0]) := by
    intro x y
    rw [crcCcitt, ← divide_append, ← divide_append]
    simp
  rw [hsplit, hsplit] at h
  exact divide_pair_injective (divide_injective (by decide) (back ++ [0, 0]) h)

end Nos3.IoLib

/-!
## The TM space data link protocol

Frames are filled from packets; what does not fit goes to a circular overflow
buffer from which the next frame starts. Pointers into the overflow buffer are
positions in it, and a source pointer is the octets from it on. Counts are
`uint16`; statuses are negative, other results are numbers of free octets.
-/
namespace Nos3.IoLib
open Base.BigEndian (Octet)
open Base.FileImage (window)
open Base.FixedArray (patch)
open Base.RingBuffer (readWrapped writeWrapped)

def sdlpSuccess : Int := 0
def sdlpError : Int := -1
def sdlpInvalidPointer : Int := -2
def sdlpInvalidLength : Int := -3
def sdlpFrameNotInit : Int := -4
def sdlpFrameNotReady : Int := -5
def sdlpOverflowFull : Int := -6

/-- `uint16` subtraction. -/
def sub16 (a b : Nat) : Nat := (a + 2 ^ 16 - b) % 2 ^ 16

def add16 (a b : Nat) : Nat := (a + b) % 2 ^ 16

/-- `TM_SDLP_GlobalConfig_t`. -/
structure GlobalConfig where
  scId : BitVec 16
  frameLength : Nat
  hasErrCtrl : Bool

/-- `TM_SDLP_ChannelConfig_t`. -/
structure ChannelConfig where
  vcId : Octet
  /-- 0: packets, 1: VCA data. -/
  dataType : Octet
  fshFlag : Bool
  ocfFlag : Bool
  secHdrLength : Nat
  overflowSize : Nat

/-- `TM_SDLP_OverflowInfo_t`; `dataStart` and `dataEnd` count from `buffer`. -/
structure OverflowInfo where
  buffSize : Nat
  freeOctets : Nat
  partialOctets : Nat
  dataStart : Nat
  dataEnd : Nat
  buffer : List Octet

/-- `TM_SDLP_FrameInfo_t`. -/
structure FrameInfo where
  dataFieldLength : Nat
  dataFieldOffset : Nat
  ocfOffset : Nat
  errCtrlOffset : Nat
  freeOctets : Nat
  currentDataOffset : Nat
  isFirstHdrPtrSet : Bool
  isReady : Bool
  isInitialized : Bool
  overflowInfo : OverflowInfo
  globConfig : GlobalConfig
  chnlConfig : ChannelConfig
  frame : List Octet

/-! ## Initialisation -/

/-- The header that `TM_SDLP_InitChannel` writes to a cleared frame. -/
def initFrame (glob : GlobalConfig) (chnl : ChannelConfig) : List Octet :=
  let frame := List.replicate glob.frameLength (0 : Octet)
  let frame := setScId frame glob.scId
  let frame := setVcId frame chnl.vcId
  let frame := setOcfFlag frame (if chnl.ocfFlag then 1 else 0)
  let frame := if chnl.fshFlag then
      setSecHdrLength (setSecHdrFlag frame 1) (BitVec.ofNat 8 chnl.secHdrLength)
    else frame
  if chnl.dataType = 0 then
    setFirstHdrPtr (setSegLengthId (setPacketOrderFlag (setSyncFlag frame 0) 0) 3)
      noFirstHdrPtr
  else setSyncFlag frame 1

/-- `TM_SDLP_InitChannel`. `security` are the lengths of the security header and
trailer of the association that serves the channel, if there is one. -/
def initChannel (glob : GlobalConfig) (chnl : ChannelConfig) (security : Option (Octet × Octet)) :
    Option FrameInfo :=
  if (chnl.fshFlag = true ∧ (tmSecHdrMaxLength < chnl.secHdrLength ∨ chnl.secHdrLength < 1)) ∨
      (chnl.fshFlag = false ∧ chnl.secHdrLength ≠ 0) then none
  else
    match security with
    | none => none
    | some (sdlsHeader, sdlsTrailer) =>
      let dataFieldOffset := tmPriHdrLength +
        (if 0 < chnl.secHdrLength then chnl.secHdrLength + 1 else 0) + sdlsHeader.toNat
      let behind := sdlsTrailer.toNat + (if chnl.ocfFlag then tmOcfLength else 0) +
        (if glob.hasErrCtrl then tmErrCtrlFieldLength else 0)
      if glob.frameLength < dataFieldOffset + behind then none
      else
        let dataFieldLength := glob.frameLength - dataFieldOffset - behind
        let ocfOffset := dataFieldOffset + dataFieldLength
        some {
          dataFieldLength := dataFieldLength
          dataFieldOffset := dataFieldOffset
          ocfOffset := ocfOffset
          errCtrlOffset := if chnl.ocfFlag then ocfOffset + tmOcfLength else ocfOffset
          freeOctets := dataFieldLength
          currentDataOffset := dataFieldOffset
          isFirstHdrPtrSet := false
          isReady := false
          isInitialized := true
          overflowInfo := {
            buffSize := chnl.overflowSize
            freeOctets := chnl.overflowSize
            partialOctets := 0
            dataStart := 0
            dataEnd := 0
            buffer := List.replicate chnl.overflowSize 0 }
          globConfig := glob
          chnlConfig := chnl
          frame := initFrame glob chnl }

/-! ## Adding data -/

/-- `TM_SDLP_CopyToOverflow`. -/
def copyToOverflow (o : OverflowInfo) (data : List Octet) (length : Nat) (isPartial : Bool) :
    Int × OverflowInfo :=
  if o.buffSize < length then (sdlpInvalidLength, o)
  else if o.freeOctets < length then (sdlpOverflowFull, o)
  else
    let lengthToEnd := o.buffSize - o.dataEnd
    let o := if length < lengthToEnd then
        { o with
          buffer := patch o.buffer o.dataEnd (data.take length)
          dataEnd := o.dataEnd + length }
      else
        { o with
          buffer := patch (patch o.buffer o.dataEnd (data.take lengthToEnd)) 0
            (window data lengthToEnd (length - lengthToEnd))
          dataEnd := length - lengthToEnd }
    let o := if isPartial then { o with partialOctets := length } else o
    (sdlpSuccess, { o with freeOctets := o.freeOctets - length })

/-- The rest of `TM_SDLP_AddData`, once what does not fit is put away. -/
def copyToFrame (f : FrameInfo) (pData : List Octet) (lengthToCopy : Nat) (isPacket : Bool) :
    Int × FrameInfo :=
  let f := { f with
    frame := patch f.frame f.currentDataOffset (pData.take lengthToCopy)
    freeOctets := f.freeOctets - lengthToCopy }
  let f := if isPacket = true ∧ f.isFirstHdrPtrSet = false then
      { f with
        frame := setFirstHdrPtr f.frame (sub16 f.currentDataOffset f.dataFieldOffset)
        isFirstHdrPtrSet := true }
    else f
  let f := { f with currentDataOffset := add16 f.currentDataOffset lengthToCopy }
  (f.freeOctets, f)

/-- `TM_SDLP_AddData`; `dataLength` is a `uint16`. -/
def addData (f : FrameInfo) (pData : List Octet) (dataLength : Nat) (isPacket : Bool) :
    Int × FrameInfo :=
  if f.isReady = false then (sdlpFrameNotReady, f)
  else if f.freeOctets < dataLength then
    let lengthToCopy := f.freeOctets
    let overflow := copyToOverflow f.overflowInfo (pData.drop lengthToCopy)
      (dataLength - lengthToCopy) (decide (0 < lengthToCopy))
    let f := { f with overflowInfo := overflow.2 }
    if overflow.1 < 0 then (overflow.1, f) else copyToFrame f pData lengthToCopy isPacket
  else copyToFrame f pData dataLength isPacket

/-! ## Packets -/

/-- `CFE_MSG_GetSize` on the first six octets of a packet. -/
def msgSize (packet : List Octet) : Nat :=
  (packet.getD 4 0).toNat * 256 + (packet.getD 5 0).toNat + 7

/-- `CFE_MSG_SetSize`, for the sizes it accepts. -/
def setMsgSize (packet : List Octet) (size : Nat) : List Octet :=
  if size < 7 ∨ 0xFFFF + 7 < size then packet
  else
    (packet.set 4 (BitVec.ofNat 8 ((size - 7) / 256))).set 5 (BitVec.ofNat 8 (size - 7))

/-- `CFE_MSG_GetMsgId`: the stream id. -/
def msgId (packet : List Octet) : Nat := (packet.getD 0 0).toNat * 256 + (packet.getD 1 0).toNat

def idleMsgId : Nat := 0x7FF

/-- `TM_SDLP_AddPacket`; the `size_t` length becomes the `uint16` argument. -/
def addPacket (f : FrameInfo) (packet : List Octet) : Int × FrameInfo :=
  if f.isInitialized = false then (sdlpFrameNotInit, f)
  else addData f packet (msgSize packet % 2 ^ 16) true

/-- The length of the idle packet that fills a frame: at least seven octets. -/
def idleLength (freeOctets : Nat) : Nat := if freeOctets < 7 then 7 else freeOctets

/-- `TM_SDLP_AddIdlePacket`. -/
def addIdlePacket (f : FrameInfo) (idlePacket : List Octet) : Int × FrameInfo :=
  if f.isInitialized = false then (sdlpFrameNotInit, f)
  else if f.freeOctets = 0 then (sdlpSuccess, f)
  else if msgId idlePacket ≠ idleMsgId then (sdlpError, f)
  else
    let lengthToCopy := idleLength f.freeOctets
    addData f (setMsgSize idlePacket lengthToCopy) lengthToCopy true

/-! ## Starting a frame -/

/-- How many octets the packet, or the rest of one, has that the overflow buffer
begins with. -/
def headLength (o : OverflowInfo) : Nat :=
  let lengthToEnd := o.buffSize - o.dataStart
  if 0 < o.partialOctets then o.partialOctets
  else if lengthToEnd < 6 then
    msgSize (window o.buffer o.dataStart lengthToEnd ++ window o.buffer 0 (6 - lengthToEnd))
  else msgSize (window o.buffer o.dataStart 6)

/-- The one or two copies of `TM_SDLP_CopyFromOverflow`. -/
def copyWrapped (f : FrameInfo) (lengthToCopy : Nat) (setHeader : Bool) : Int × FrameInfo :=
  let o := f.overflowInfo
  let lengthToEnd := o.buffSize - o.dataStart
  if lengthToCopy < lengthToEnd then
    let added := addData f (o.buffer.drop o.dataStart) (lengthToCopy % 2 ^ 16) setHeader
    (added.1, { added.2 with
      overflowInfo.dataStart := added.2.overflowInfo.dataStart + lengthToCopy })
  else
    let added := addData f (o.buffer.drop o.dataStart) (lengthToEnd % 2 ^ 16) setHeader
    let added := addData added.2 o.buffer ((lengthToCopy - lengthToEnd) % 2 ^ 16) setHeader
    (added.1, { added.2 with overflowInfo.dataStart := lengthToCopy - lengthToEnd })

/-- `TM_SDLP_CopyFromOverflow`: one packet, or the rest of one, as far as the frame
has room. -/
def copyFromOverflow (f : FrameInfo) : Nat × FrameInfo :=
  let o := f.overflowInfo
  let freeOctets := f.freeOctets
  let setHeader := !decide (0 < o.partialOctets)
  let lengthToCopy := headLength o
  let partialOctets := if freeOctets < lengthToCopy then
      if setHeader then (lengthToCopy - freeOctets) % 2 ^ 16 else sub16 o.partialOctets freeOctets
    else if setHeader then o.partialOctets else 0
  let lengthToCopy := if freeOctets < lengthToCopy then freeOctets else lengthToCopy
  let added := copyWrapped { f with overflowInfo.partialOctets := partialOctets } lengthToCopy
    setHeader
  let f := added.2
  (lengthToCopy, { f with
    overflowInfo.freeOctets := add16 f.overflowInfo.freeOctets lengthToCopy
    freeOctets := (added.1 % 2 ^ 16).toNat })

/-- The loop of `TM_SDLP_StartFrame`. A round that copies nothing is repeated for
ever; `none` is that the rounds do not end. -/
def drainOverflow : Nat → Nat → FrameInfo → Option FrameInfo
  | _, 0, f => some f
  | 0, _ + 1, _ => none
  | fuel + 1, lengthToCopy + 1, f =>
    let copied := copyFromOverflow f
    drainOverflow fuel (sub16 (lengthToCopy + 1) copied.1) copied.2

/-- `TM_SDLP_StartFrame`. -/
def startFrame (f : FrameInfo) : Option FrameInfo :=
  if f.isInitialized = false then some f
  else
    let f := { f with isReady := true }
    let lengthToCopy := sub16 f.overflowInfo.buffSize f.overflowInfo.freeOctets
    let lengthToCopy := if f.dataFieldLength < lengthToCopy then f.dataFieldLength else lengthToCopy
    drainOverflow lengthToCopy lengthToCopy f

/-! ## Completing a frame -/

/-- `TM_SDLP_CompleteFrame`: the status, the master channel frame count and the
frame as it goes out, together with the channel. -/
def completeFrame (crc : List Octet → BitVec 16) (f : FrameInfo) (mcFrameCnt : Octet)
    (ocf : Option (List Octet)) : Int × Octet × FrameInfo :=
  if f.isInitialized = false then (sdlpFrameNotInit, mcFrameCnt, f)
  else if f.chnlConfig.ocfFlag = true ∧ ocf = none then (sdlpInvalidPointer, mcFrameCnt, f)
  else
    let frame := setMcFrameCount f.frame (mcFrameCnt + 1)
    let frame := if f.chnlConfig.ocfFlag then setOcf frame (ocf.getD []) f.ocfOffset else frame
    let frame := if f.globConfig.hasErrCtrl then updateErrCtrlField crc frame f.errCtrlOffset
      else frame
    let frame := if f.isFirstHdrPtrSet = false then setFirstHdrPtr frame noFirstHdrPtr else frame
    (sdlpSuccess, mcFrameCnt + 1, { f with
      frame := frame
      freeOctets := f.dataFieldLength
      currentDataOffset := f.dataFieldOffset
      isFirstHdrPtrSet := false
      isReady := false })

end Nos3.IoLib

/-!
## All calls of a telemetry channel

Beside packets a frame takes data of the VCA service, whose octets are not
packets, and idle data over its whole length. A channel is called in any order
once it is initialised.
-/
namespace Nos3.IoLib
open Base.BigEndian (Octet)
open Base.Transition

/-- `TM_SDLP_AddVcaData`. -/
def addVcaData (f : FrameInfo) (pData : List Octet) (dataLength : Nat) : Int × FrameInfo :=
  if f.isInitialized = false then (sdlpFrameNotInit, f)
  else addData f pData dataLength false

/-- `CFE_SB_MsgHdrSize`: the headers of a message without a secondary one, of a
command and of telemetry. -/
def msgHdrSize (packet : List Octet) : Nat :=
  if packet.getD 0 0 &&& 0x08 = 0 then 6
  else if packet.getD 0 0 &&& 0x10 ≠ 0 then 8
  else 16

/-- `CFE_SB_GetUserData`. -/
def getUserData (packet : List Octet) : List Octet := packet.drop (msgHdrSize packet)

/-- `TMTF_OID_FIRST_HDR_PTR`. -/
def oidFirstHdrPtr : Nat := 2046

/-- `TM_SDLP_SetOidFrame`. -/
def setOidFrame (f : FrameInfo) (idlePacket : List Octet) : Int × FrameInfo :=
  if f.isInitialized = false then (sdlpFrameNotInit, f)
  else if f.freeOctets ≠ f.dataFieldLength then (sdlpError, f)
  else
    addData { f with
        frame := setFirstHdrPtr f.frame oidFirstHdrPtr
        isFirstHdrPtrSet := true }
      (getUserData idlePacket) f.dataFieldLength false

/-- `TM_SDLP_StartFrame`, with at most `rounds` rounds of its loop. -/
def startFrameRounds (rounds : Nat) (f : FrameInfo) : Option FrameInfo :=
  if f.isInitialized = false then some f
  else
    let f := { f with isReady := true }
    let lengthToCopy := sub16 f.overflowInfo.buffSize f.overflowInfo.freeOctets
    let lengthToCopy := if f.dataFieldLength < lengthToCopy then f.dataFieldLength else lengthToCopy
    drainOverflow rounds lengthToCopy f

inductive ChannelCall where
  | startFrame
  | addPacket (packet : List Octet)
  | addIdlePacket (idlePacket : List Octet)
  | addVcaData (pData : List Octet) (dataLength : Nat)
  | setOidFrame (idlePacket : List Octet)
  | completeFrame (mcFrameCnt : Octet) (ocf : Option (List Octet))

/-- One call. A packet is as long as its header says, and the other buffers hold the
octets that are read from them. -/
def channelNext (crc : List Octet → BitVec 16) (f : FrameInfo) : ChannelCall → Option FrameInfo
  | .startFrame => startFrame f
  | .addPacket packet =>
      if msgSize packet ≠ packet.length then none else some (addPacket f packet).2
  | .addIdlePacket idlePacket =>
      if idlePacket.length < idleLength f.freeOctets then none
      else some (addIdlePacket f idlePacket).2
  | .addVcaData pData dataLength =>
      if pData.length < dataLength ∨ 2 ^ 16 ≤ dataLength then none
      else some (addVcaData f pData dataLength).2
  | .setOidFrame idlePacket =>
      if (getUserData idlePacket).length < f.dataFieldLength then none
      else some (setOidFrame f idlePacket).2
  | .completeFrame mcFrameCnt ocf => some (completeFrame crc f mcFrameCnt ocf).2.2

/-- The channels with a configuration, from their initialisation on. -/
def tmChannel (crc : List Octet → BitVec 16) (glob : GlobalConfig) (chnl : ChannelConfig) :
    Machine FrameInfo ChannelCall where
  start f := ∃ security, initChannel glob chnl security = some f
  next := channelNext crc

end Nos3.IoLib
