import Nos3.Base.ByteMemory
import Mathlib.Logic.Function.Basic

/-!
# Message headers

A message is its octets from the start of the primary header on. The primary header
is three big-endian words, the extended header two more; behind them lies the secondary
header, a function code and a checksum in a command and the time in telemetry.
-/
namespace Nos3.Msg
open Nos3.Base.BigEndian (Octet)
open Nos3.Base.ByteMemory (Memory)
open Function (update)

abbrev Message := Memory

inductive Status
  | success
  | badArgument
  | wrongMsgType
  deriving DecidableEq

/-! ## Words -/

def STREAM_ID : Nat := 0
def SEQUENCE : Nat := 2
def LENGTH : Nat := 4
def SUBSYSTEM : Nat := 6
def SYSTEM_ID : Nat := 8

/-- `Word[0] << 8 | Word[1]` -/
def word (m : Message) (offset : Nat) : BitVec 16 :=
  ((m offset).setWidth 16 <<< 8) ||| (m (offset + 1)).setWidth 16

def getHeaderField (m : Message) (offset : Nat) (mask : BitVec 16) : BitVec 16 :=
  word m offset &&& mask

def setHeaderField (m : Message) (offset : Nat) (val mask : BitVec 16) : Message :=
  let m := update m offset
    ((m offset &&& ~~~(mask >>> 8).setWidth 8) ||| ((val &&& mask) >>> 8).setWidth 8)
  update m (offset + 1)
    ((m (offset + 1) &&& ~~~mask.setWidth 8) ||| (val &&& mask).setWidth 8)

/-- A flag in the first octet of a word, under the mask of the word. -/
def getFlag (m : Message) (offset : Nat) (mask : BitVec 16) : Bool :=
  m offset &&& (mask >>> 8).setWidth 8 ≠ 0

def setFlag (m : Message) (offset : Nat) (mask : BitVec 16) (flag : Bool) : Message :=
  update m offset (if flag = true then m offset ||| (mask >>> 8).setWidth 8
    else m offset &&& ~~~(mask >>> 8).setWidth 8)

/-! ## The primary header -/

def MSG_SIZE_OFFSET : Nat := 7
def MSG_CCSDSVER_MASK : BitVec 16 := 0xE000
def MSG_CCSDSVER_SHIFT : Nat := 13
def MSG_TYPE_MASK : BitVec 16 := 0x1000
def MSG_SHDR_MASK : BitVec 16 := 0x0800
def MSG_APID_MASK : BitVec 16 := 0x07FF
def MSG_SEGFLG_MASK : BitVec 16 := 0xC000
def MSG_SEGFLG_CNT : BitVec 16 := 0x0000
def MSG_SEGFLG_FIRST : BitVec 16 := 0x4000
def MSG_SEGFLG_LAST : BitVec 16 := 0x8000
def MSG_SEGFLG_UNSEG : BitVec 16 := 0xC000
def MSG_SEQCNT_MASK : BitVec 16 := 0x3FFF

inductive MsgType
  | invalid
  | cmd
  | tlm
  deriving DecidableEq

inductive SegmentationFlag
  | invalid
  | continue
  | first
  | last
  | unsegmented
  deriving DecidableEq

def getHeaderVersion (m : Message) : BitVec 16 :=
  getHeaderField m STREAM_ID MSG_CCSDSVER_MASK >>> MSG_CCSDSVER_SHIFT

def setHeaderVersion (m : Message) (version : BitVec 16) : Status × Message :=
  if MSG_CCSDSVER_MASK >>> MSG_CCSDSVER_SHIFT < version then (.badArgument, m)
  else (.success,
    setHeaderField m STREAM_ID (version <<< MSG_CCSDSVER_SHIFT) MSG_CCSDSVER_MASK)

def getType (m : Message) : MsgType :=
  if getFlag m STREAM_ID MSG_TYPE_MASK = true then .cmd else .tlm

def setType (m : Message) : MsgType → Status × Message
  | .cmd => (.success, setFlag m STREAM_ID MSG_TYPE_MASK true)
  | .tlm => (.success, setFlag m STREAM_ID MSG_TYPE_MASK false)
  | .invalid => (.badArgument, m)

def getHasSecondaryHeader (m : Message) : Bool := getFlag m STREAM_ID MSG_SHDR_MASK

def setHasSecondaryHeader (m : Message) (hasSecondary : Bool) : Status × Message :=
  (.success, setFlag m STREAM_ID MSG_SHDR_MASK hasSecondary)

def getApId (m : Message) : BitVec 16 := getHeaderField m STREAM_ID MSG_APID_MASK

def setApId (m : Message) (apId : BitVec 16) : Status × Message :=
  if apId &&& ~~~MSG_APID_MASK ≠ 0 then (.badArgument, m)
  else (.success, setHeaderField m STREAM_ID apId MSG_APID_MASK)

def getSegmentationFlag (m : Message) : SegmentationFlag :=
  let rawval := getHeaderField m SEQUENCE MSG_SEGFLG_MASK
  if rawval = MSG_SEGFLG_CNT then .continue
  else if rawval = MSG_SEGFLG_FIRST then .first
  else if rawval = MSG_SEGFLG_LAST then .last
  else .unsegmented

def setSegmentationFlag (m : Message) : SegmentationFlag → Status × Message
  | .continue => (.success, setHeaderField m SEQUENCE MSG_SEGFLG_CNT MSG_SEGFLG_MASK)
  | .first => (.success, setHeaderField m SEQUENCE MSG_SEGFLG_FIRST MSG_SEGFLG_MASK)
  | .last => (.success, setHeaderField m SEQUENCE MSG_SEGFLG_LAST MSG_SEGFLG_MASK)
  | .unsegmented => (.success, setHeaderField m SEQUENCE MSG_SEGFLG_UNSEG MSG_SEGFLG_MASK)
  | .invalid => (.badArgument, m)

def getSequenceCount (m : Message) : BitVec 16 := getHeaderField m SEQUENCE MSG_SEQCNT_MASK

def setSequenceCount (m : Message) (seqCnt : BitVec 16) : Status × Message :=
  if seqCnt &&& ~~~MSG_SEQCNT_MASK ≠ 0 then (.badArgument, m)
  else (.success, setHeaderField m SEQUENCE seqCnt MSG_SEQCNT_MASK)

def getSize (m : Message) : Nat :=
  ((m LENGTH).toNat <<< 8) + (m (LENGTH + 1)).toNat + MSG_SIZE_OFFSET

def setSize (m : Message) (size : Nat) : Status × Message :=
  if size < MSG_SIZE_OFFSET ∨ 0xFFFF + MSG_SIZE_OFFSET < size then (.badArgument, m)
  else
    let size := size - MSG_SIZE_OFFSET
    (.success, update (update m LENGTH (BitVec.ofNat 8 (size >>> 8 &&& 0xFF)))
      (LENGTH + 1) (BitVec.ofNat 8 (size &&& 0xFF)))

/-! ## The extended header -/

def MSG_EDSVER_SHIFT : Nat := 11
def MSG_EDSVER_MASK : BitVec 16 := 0xF800
def MSG_ENDIAN_MASK : BitVec 16 := 0x0400
def MSG_PLAYBACK_MASK : BitVec 16 := 0x0200
def MSG_SUBSYS_MASK : BitVec 16 := 0x01FF

inductive Endian
  | invalid
  | big
  | little
  deriving DecidableEq

inductive PlaybackFlag
  | invalid
  | original
  | playback
  deriving DecidableEq

def getEDSVersion (m : Message) : BitVec 16 :=
  getHeaderField m SUBSYSTEM MSG_EDSVER_MASK >>> MSG_EDSVER_SHIFT

def setEDSVersion (m : Message) (version : BitVec 16) : Status × Message :=
  if MSG_EDSVER_MASK >>> MSG_EDSVER_SHIFT < version then (.badArgument, m)
  else (.success, setHeaderField m SUBSYSTEM (version <<< MSG_EDSVER_SHIFT) MSG_EDSVER_MASK)

def getEndian (m : Message) : Endian :=
  if getFlag m SUBSYSTEM MSG_ENDIAN_MASK = true then .little else .big

def setEndian (m : Message) : Endian → Status × Message
  | .little => (.success, setFlag m SUBSYSTEM MSG_ENDIAN_MASK true)
  | .big => (.success, setFlag m SUBSYSTEM MSG_ENDIAN_MASK false)
  | .invalid => (.badArgument, m)

def getPlaybackFlag (m : Message) : PlaybackFlag :=
  if getFlag m SUBSYSTEM MSG_PLAYBACK_MASK = true then .playback else .original

def setPlaybackFlag (m : Message) : PlaybackFlag → Status × Message
  | .playback => (.success, setFlag m SUBSYSTEM MSG_PLAYBACK_MASK true)
  | .original => (.success, setFlag m SUBSYSTEM MSG_PLAYBACK_MASK false)
  | .invalid => (.badArgument, m)

def getSubsystem (m : Message) : BitVec 16 := getHeaderField m SUBSYSTEM MSG_SUBSYS_MASK

def setSubsystem (m : Message) (subsystem : BitVec 16) : Status × Message :=
  if subsystem &&& ~~~MSG_SUBSYS_MASK ≠ 0 then (.badArgument, m)
  else (.success, setHeaderField m SUBSYSTEM subsystem MSG_SUBSYS_MASK)

def getSystem (m : Message) : BitVec 16 :=
  ((m SYSTEM_ID).setWidth 16 <<< 8) + (m (SYSTEM_ID + 1)).setWidth 16

def setSystem (m : Message) (system : BitVec 16) : Status × Message :=
  (.success, update (update m SYSTEM_ID (((system >>> 8) &&& 0xFF).setWidth 8))
    (SYSTEM_ID + 1) ((system &&& 0xFF).setWidth 8))

/-! ## Message ids, version 2 -/

def PLATFORM_SB_HIGHEST_VALID_MSGID : BitVec 32 := 0x1FFF
def MSG_MSGID_APID_MASK : BitVec 32 := 0x007F
def MSG_MSGID_TYPE_MASK : BitVec 32 := 0x0080
def MSG_MSGID_SUBSYS_MASK : BitVec 32 := 0xFF00

def getMsgId (m : Message) : BitVec 32 :=
  let msgidval := (m (STREAM_ID + 1)).setWidth 32 &&& MSG_MSGID_APID_MASK
  let msgidval := if getType m = .cmd then msgidval ||| MSG_MSGID_TYPE_MASK else msgidval
  msgidval ||| (((m (SUBSYSTEM + 1)).setWidth 32 <<< 8) &&& MSG_MSGID_SUBSYS_MASK)

def setMsgId (m : Message) (msgId : BitVec 32) : Status × Message :=
  if PLATFORM_SB_HIGHEST_VALID_MSGID < msgId then (.badArgument, m)
  else
    let m := update m (STREAM_ID + 1)
      ((m (STREAM_ID + 1) &&& ~~~MSG_MSGID_APID_MASK.setWidth 8) |||
        (msgId &&& MSG_MSGID_APID_MASK).setWidth 8)
    let m := update m (SUBSYSTEM + 1) (((msgId &&& MSG_MSGID_SUBSYS_MASK) >>> 8).setWidth 8)
    (.success,
      (setType m (if msgId &&& MSG_MSGID_TYPE_MASK ≠ 0 then .cmd else .tlm)).2)

/-! ## The secondary header -/

/-- `sizeof(CFE_MSG_Message_t)`: the primary header with or without the extended header. -/
inductive Layout
  | pri
  | priExt
  deriving DecidableEq

def Layout.secondaryHeader : Layout → Nat
  | .pri => 6
  | .priExt => 10

/-- The checksum stands behind the function code. -/
def Layout.checksum (layout : Layout) : Nat := layout.secondaryHeader + 1

/-- `sizeof(CFE_MSG_CommandHeader_t)`, which ends in four spare octets where there is an
extended header. -/
def Layout.commandHeaderSize : Layout → Nat
  | .pri => 8
  | .priExt => 16

structure SysTime where
  seconds : BitVec 32
  subseconds : BitVec 32
  deriving DecidableEq

def setMsgTime (layout : Layout) (m : Message) (newTime : SysTime) : Status × Message :=
  if getType m ≠ .tlm ∨ getHasSecondaryHeader m = false then (.wrongMsgType, m)
  else
    let time := layout.secondaryHeader
    let m := update m time (((newTime.seconds >>> 24) &&& 0xFF).setWidth 8)
    let m := update m (time + 1) (((newTime.seconds >>> 16) &&& 0xFF).setWidth 8)
    let m := update m (time + 2) (((newTime.seconds >>> 8) &&& 0xFF).setWidth 8)
    let m := update m (time + 3) ((newTime.seconds &&& 0xFF).setWidth 8)
    let m := update m (time + 4) (((newTime.subseconds >>> 24) &&& 0xFF).setWidth 8)
    let m := update m (time + 5) (((newTime.subseconds >>> 16) &&& 0xFF).setWidth 8)
    (.success, m)

/-- The loop of `CFE_MSG_ComputeCheckSum`; the checksum is wider than an octet. -/
def checkSumLoop (m : Message) : Nat → Nat → BitVec 32 → BitVec 32
  | 0, _, chksum => chksum
  | pktLen + 1, bytePtr, chksum =>
    checkSumLoop m pktLen (bytePtr + 1) (chksum ^^^ (m bytePtr).setWidth 32)

def computeCheckSum (m : Message) : BitVec 32 := checkSumLoop m (getSize m) 0 0xFF

def generateChecksum (layout : Layout) (m : Message) : Status × Message :=
  if getType m ≠ .cmd ∨ getHasSecondaryHeader m = false then (.wrongMsgType, m)
  else
    let m := update m layout.checksum 0
    (.success, update m layout.checksum ((computeCheckSum m).setWidth 8))

/-- The status, and `IsValid` where it is set. -/
def validateChecksum (m : Message) : Status × Option Bool :=
  if getType m ≠ .cmd ∨ getHasSecondaryHeader m = false then (.wrongMsgType, none)
  else (.success, some (computeCheckSum m = 0))

/-- `CFE_MSG_UpdateHeader`; what the three parts return is ignored. -/
def updateHeader (layout : Layout) (currentTime : SysTime) (m : Message) (seqCnt : BitVec 16) :
    Message :=
  let m := (setSequenceCount m seqCnt).2
  let m := (setMsgTime layout m currentTime).2
  (generateChecksum layout m).2

end Nos3.Msg
