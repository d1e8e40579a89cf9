import Nos3.Base.BigEndian

/-!
# Telecommand transfer frames

The format functions of `tctf.c`. A frame is the memory behind `tfPtr`, octet 0
being the first of the primary header; the code knows its length only from the
header field. Lengths are `uint16` and are computed modulo 2^16.
-/
namespace Nos3.IoLib
open Base.BigEndian (Octet)

abbrev TransferFrame := Nat → Octet

/-- `TCTF_Service_t`, as stored in the `uint16` field `Service`. -/
def serviceMapp : BitVec 16 := 0
def serviceVcp : BitVec 16 := 1
def serviceMapa : BitVec 16 := 2
def serviceVca : BitVec 16 := 3
def serviceVcf : BitVec 16 := 4
def serviceMcf : BitVec 16 := 5

/-- `TCTF_ChannelService_t`. -/
structure ChannelService where
  service : BitVec 16
  packetVersionNumber : BitVec 16
  spacecraftId : BitVec 16
  virtualChannelId : BitVec 16
  mapId : BitVec 16
  hasSegHdr : Bool
  hasFrameErrCtl : Bool
  deriving DecidableEq

def priHdrSize : BitVec 16 := 5
def frameErrorControlSize : BitVec 16 := 2
def segHdrSize : BitVec 16 := 1

/-- `TCTF_CONTROL_FRAME`. -/
def controlFrame : BitVec 16 := 1

/-! ## Header fields -/

def getVersion (tf : TransferFrame) : BitVec 16 := (tf 0 >>> 6).setWidth 16

def getBypassFlag (tf : TransferFrame) : BitVec 16 := ((tf 0 >>> 5) &&& 0x01).setWidth 16

def getCtlCmdFlag (tf : TransferFrame) : BitVec 16 := ((tf 0 >>> 4) &&& 0x01).setWidth 16

def getScId (tf : TransferFrame) : BitVec 16 :=
  (((tf 0 &&& 0x03).setWidth 16) <<< 8) ||| (tf 1).setWidth 16

def getVcId (tf : TransferFrame) : BitVec 16 := (tf 2 >>> 2).setWidth 16

/-- `TCTF_RD_LENGTH`: one less than the number of octets of the frame. -/
def rdLength (tf : TransferFrame) : BitVec 16 :=
  (((tf 2 &&& 0x03).setWidth 16) <<< 8) ||| (tf 3).setWidth 16

def getLength (tf : TransferFrame) : BitVec 16 := rdLength tf + 1

/-- The field `Sequence` of `TCTF_Hdr_t`. -/
def sequence (tf : TransferFrame) : Octet := tf 4

/-- `TCTF_RD_SEGHDR_MAPID`. -/
def rdSegHdrMapId (tf : TransferFrame) : BitVec 16 := (tf 5 &&& 0x3F).setWidth 16

/-! ## Payload -/

def getPayloadLength (tf : TransferFrame) (channelService : ChannelService) : BitVec 16 :=
  let length := getLength tf - priHdrSize
  let length := if channelService.hasSegHdr then length - segHdrSize else length
  if channelService.hasFrameErrCtl then length - frameErrorControlSize else length

def getPayloadOffset (channelService : ChannelService) : BitVec 16 :=
  if channelService.hasSegHdr then priHdrSize + segHdrSize else priHdrSize

/-- The source of a `CFE_PSP_MemCpy`: `length` octets from `offset` on. -/
structure MemCpy where
  offset : Nat
  length : Nat
  deriving DecidableEq

def MemCpy.octets (copy : MemCpy) (tf : TransferFrame) : List Octet :=
  (List.range copy.length).map fun i => tf (copy.offset + i)

/-- `TCTF_CopyData`: the copied size and the copy, which is not made without a
destination. -/
def copyData (toBuffer : Bool) (tf : TransferFrame) (channelService : ChannelService) :
    BitVec 16 × Option MemCpy :=
  if toBuffer then
    let dataLength := getPayloadLength tf channelService
    let offset := getPayloadOffset channelService
    (dataLength, some ⟨offset.toNat, dataLength.toNat⟩)
  else (0, none)

/-! ## Validation -/

/-- `TCTF_IsValidTf`. -/
def isValidTf (tf : TransferFrame) (channelService : ChannelService) : Bool :=
  let status :=
    if getVersion tf ≠ channelService.packetVersionNumber ∨
        getScId tf ≠ channelService.spacecraftId then false
    else if serviceMcf ≠ channelService.service then
      if getVcId tf ≠ channelService.virtualChannelId then false
      else if serviceVcp ≠ channelService.service ∧ serviceVca ≠ channelService.service ∧
          serviceVcf ≠ channelService.service then
        if rdSegHdrMapId tf ≠ channelService.mapId then false else true
      else true
    else true
  if controlFrame = getCtlCmdFlag tf ∧ getBypassFlag tf = 0 then false else status

/-! ## What the lengths are -/

/-- The octets of a frame that are not payload. -/
def fieldsLength (channelService : ChannelService) : Nat :=
  5 + (if channelService.hasSegHdr then 1 else 0) + (if channelService.hasFrameErrCtl then 2 else 0)

theorem rdLength_lt (tf : TransferFrame) : (rdLength tf).toNat < 1024 := by
  have hhigh : (tf 2 &&& 0x03).toNat < 4 := by
    have hle : (tf 2 &&& 0x03).toNat ≤ 3 := by
      rw [BitVec.toNat_and]
      exact Nat.and_le_right
    omega
  have hlow := (tf 3).isLt
  have hshift : ((tf 2 &&& 0x03).setWidth 16 <<< 8).toNat < 2 ^ 10 := by
    rw [BitVec.toNat_shiftLeft, BitVec.toNat_setWidth, Nat.shiftLeft_eq]
    omega
  rw [rdLength, BitVec.toNat_or]
  apply Nat.or_lt_two_pow hshift
  rw [BitVec.toNat_setWidth]
  omega

theorem getLength_pos (tf : TransferFrame) : 0 < (getLength tf).toNat := by
  have hlt := rdLength_lt tf
  rw [getLength, BitVec.toNat_add]
  show 0 < ((rdLength tf).toNat + 1) % 2 ^ 16
  omega

theorem getLength_le (tf : TransferFrame) : (getLength tf).toNat ≤ 1024 := by
  have hlt := rdLength_lt tf
  rw [getLength, BitVec.toNat_add]
  show ((rdLength tf).toNat + 1) % 2 ^ 16 ≤ 1024
  omega

/-- The computed length is the frame's length less the fields, modulo 2^16. -/
theorem getPayloadLength_toNat (tf : TransferFrame) (channelService : ChannelService) :
    (getPayloadLength tf channelService).toNat =
      ((getLength tf).toNat + 2 ^ 16 - fieldsLength channelService) % 2 ^ 16 := by
  have hpos := getLength_pos tf
  have hle := getLength_le tf
  have hpri : priHdrSize.toNat = 5 := rfl
  have hseg : segHdrSize.toNat = 1 := rfl
  have hecf : frameErrorControlSize.toNat = 2 := rfl
  unfold getPayloadLength fieldsLength
  cases channelService.hasSegHdr <;> cases channelService.hasFrameErrCtl <;>
    simp only [Bool.false_eq_true, ↓reduceIte, BitVec.toNat_sub, hpri, hseg, hecf] <;> omega

theorem getPayloadOffset_toNat (channelService : ChannelService) :
    (getPayloadOffset channelService).toNat = 5 + if channelService.hasSegHdr then 1 else 0 := by
  unfold getPayloadOffset
  cases channelService.hasSegHdr <;> rfl

/-- A frame with room for its fields has the payload that is left. -/
theorem getPayloadLength_exact {tf : TransferFrame} {channelService : ChannelService}
    (h : fieldsLength channelService ≤ (getLength tf).toNat) :
    (getPayloadLength tf channelService).toNat + fieldsLength channelService =
      (getLength tf).toNat := by
  have hle := getLength_le tf
  rw [getPayloadLength_toNat]
  omega

end Nos3.IoLib

/-!
## COP-1 frame acceptance

FARM-1 as `cop1.c` has it: the flags of the CLCW, the sequence check against the
two halves of the sliding window, and the handling of bypass and accept frames.
A missing destination buffer is the caller's sign that it has no room.
-/
namespace Nos3.IoLib
open Base.BigEndian (Octet)

def slidingWindowWidth : Nat := 126

def badInputErr : Int := -1
def invalidTfErr : Int := -2
def farm1Err : Int := -3

inductive Command
  | unknown
  | unlock
  | setVr
  deriving DecidableEq

inductive SequenceValidation
  | unknown
  | pass
  | negative
  | positive
  | lockout
  deriving DecidableEq

/-! ## The CLCW -/

/-- `COP1_Clcw_t`; `status` and `channel` are not touched by frames. -/
structure Clcw where
  status : Octet
  channel : Octet
  flags : Octet
  report : Octet
  deriving DecidableEq

def rdLockoutFlg (clcw : Clcw) : Octet := (clcw.flags &&& 0x20) >>> 5

def wrLockoutFlg (clcw : Clcw) (val : Octet) : Clcw :=
  { clcw with flags := (clcw.flags &&& 0xDF) ||| ((val &&& 0x01) <<< 5) }

def wrWaitFlg (clcw : Clcw) (val : Octet) : Clcw :=
  { clcw with flags := (clcw.flags &&& 0xEF) ||| ((val &&& 0x01) <<< 4) }

def wrRetranFlg (clcw : Clcw) (val : Octet) : Clcw :=
  { clcw with flags := (clcw.flags &&& 0xF7) ||| ((val &&& 0x01) <<< 3) }

def incrFarmbCtr (clcw : Clcw) : Clcw :=
  { clcw with flags := (clcw.flags &&& 0xF9) ||| ((clcw.flags + 0x02) &&& 0x06) }

/-- `COP1_InitClcw`. -/
def initClcw (vcId : BitVec 16) : Clcw :=
  ⟨0x01, (vcId <<< 2).setWidth 8, 0, 0⟩

/-! ## The sequence check -/

def isInWrappedRange (lower value upper : Octet) : Bool :=
  if upper < lower then decide (lower ≤ value ∨ value ≤ upper)
  else decide (lower ≤ value ∧ value ≤ upper)

def halfSlidingWindowWidth : Octet := BitVec.ofNat 8 (slidingWindowWidth / 2)

def checkTfSequence (seqNum expSeqNum : Octet) : SequenceValidation :=
  let posWindowEdge := expSeqNum + halfSlidingWindowWidth - 1
  let negWindowEdge := expSeqNum - halfSlidingWindowWidth
  if seqNum = expSeqNum then .pass
  else if isInWrappedRange expSeqNum seqNum posWindowEdge then .positive
  else if isInWrappedRange negWindowEdge seqNum expSeqNum then .negative
  else .lockout

/-! ## Frames -/

/-- What the processing of a frame leaves behind: the return value, the CLCW and
the copy into the destination buffer. -/
structure FrameResult where
  retVal : Int
  clcw : Clcw
  copied : Option MemCpy
  deriving DecidableEq

/-- `COP1_GetTfCommand`: two octets behind the primary header. -/
def getTfCommand (tf : TransferFrame) : Command :=
  let command := if tf 5 = 0x00 then .unlock else .unknown
  if tf 5 = 0x82 ∧ tf 6 = 0x00 then .setVr else command

/-- `COP1_TF_CMDSEQ_OFFSET`. -/
def getTfCommandedVr (tf : TransferFrame) : Octet := tf 7

def bypassTf (tf : TransferFrame) (clcw : Clcw) (toBuffer : Bool)
    (channelService : ChannelService) : FrameResult :=
  if controlFrame = getCtlCmdFlag tf then
    match getTfCommand tf with
    | .unlock =>
      let clcw := wrRetranFlg clcw 0
      let clcw := wrWaitFlg clcw 0
      let clcw := wrLockoutFlg clcw 0
      ⟨0, incrFarmbCtr clcw, none⟩
    | .setVr =>
      if rdLockoutFlg clcw = 0 then
        let clcw := wrRetranFlg clcw 0
        let clcw := wrWaitFlg clcw 0
        ⟨0, incrFarmbCtr { clcw with report := getTfCommandedVr tf }, none⟩
      else ⟨farm1Err, incrFarmbCtr clcw, none⟩
    | .unknown => ⟨farm1Err, clcw, none⟩
  else
    let copy := copyData toBuffer tf channelService
    ⟨copy.1.toNat, incrFarmbCtr clcw, copy.2⟩

def acceptTf (tf : TransferFrame) (clcw : Clcw) (toBuffer : Bool)
    (channelService : ChannelService) : FrameResult :=
  if rdLockoutFlg clcw = 0 then
    match checkTfSequence (sequence tf) clcw.report with
    | .pass =>
      if toBuffer then
        let clcw := wrWaitFlg clcw 0
        let clcw := wrRetranFlg clcw 0
        let copy := copyData toBuffer tf channelService
        ⟨copy.1.toNat, { clcw with report := clcw.report + 1 }, copy.2⟩
      else
        -- no buffer available: the wait state
        ⟨badInputErr, wrRetranFlg (wrWaitFlg clcw 1) 1, none⟩
    | .positive => ⟨farm1Err, wrRetranFlg clcw 1, none⟩
    | .negative => ⟨farm1Err, clcw, none⟩
    | .lockout => ⟨farm1Err, wrLockoutFlg clcw 1, none⟩
    | .unknown => ⟨0, clcw, none⟩
  else ⟨farm1Err, clcw, none⟩

def processFrame (toBuffer : Bool) (clcw : Clcw) (tf : TransferFrame)
    (channelService : ChannelService) : FrameResult :=
  if isValidTf tf channelService then
    if getBypassFlag tf ≠ 0 then bypassTf tf clcw toBuffer channelService
    else acceptTf tf clcw toBuffer channelService
  else ⟨invalidTfErr, clcw, none⟩

/-! ## The flags -/

section Flags
variable (clcw : Clcw) (val : Octet)

@[simp] theorem wrLockoutFlg_report : (wrLockoutFlg clcw val).report = clcw.report := rfl
@[simp] theorem wrWaitFlg_report : (wrWaitFlg clcw val).report = clcw.report := rfl
@[simp] theorem wrRetranFlg_report : (wrRetranFlg clcw val).report = clcw.report := rfl
@[simp] theorem incrFarmbCtr_report : (incrFarmbCtr clcw).report = clcw.report := rfl

theorem flag_cases : val &&& 0x01 = 0 ∨ val &&& 0x01 = 1 := by
  revert val
  decide +kernel

/-- Writing the wait flag does not touch the lockout flag. -/
@[simp] theorem rdLockoutFlg_wrWaitFlg : rdLockoutFlg (wrWaitFlg clcw val) = rdLockoutFlg clcw := by
  unfold rdLockoutFlg wrWaitFlg
  dsimp only
  generalize clcw.flags = flags
  rcases flag_cases val with hval | hval <;> rw [hval] <;> revert flags <;> decide +kernel

@[simp] theorem rdLockoutFlg_wrRetranFlg :
    rdLockoutFlg (wrRetranFlg clcw val) = rdLockoutFlg clcw := by
  unfold rdLockoutFlg wrRetranFlg
  dsimp only
  generalize clcw.flags = flags
  rcases flag_cases val with hval | hval <;> rw [hval] <;> revert flags <;> decide +kernel

@[simp] theorem rdLockoutFlg_incrFarmbCtr :
    rdLockoutFlg (incrFarmbCtr clcw) = rdLockoutFlg clcw := by
  unfold rdLockoutFlg incrFarmbCtr
  dsimp only
  generalize clcw.flags = flags
  revert flags
  decide +kernel

@[simp] theorem rdLockoutFlg_wrLockoutFlg_zero : rdLockoutFlg (wrLockoutFlg clcw 0) = 0 := by
  unfold rdLockoutFlg wrLockoutFlg
  dsimp only
  generalize clcw.flags = flags
  revert flags
  decide +kernel

@[simp] theorem rdLockoutFlg_report (report : Octet) :
    rdLockoutFlg { clcw with report := report } = rdLockoutFlg clcw := rfl

end Flags

end Nos3.IoLib
