import Nos3.Base.ByteMemory
import Mathlib.Data.List.Basic
import Mathlib.Logic.Function.Basic

/-!
# Limit checker constants and results

The watchpoint and actionpoint results carry the numbers the source gives them:
a watchpoint that is `LC_WATCH_TRUE` and an actionpoint that is
`LC_ACTION_FAIL` share one, and so do the other pairs in order.
-/
namespace Nos3.Lc

def LC_MAX_WATCHPOINTS : Nat := 176
theorem LC_MAX_WATCHPOINTS_pos : 0 < LC_MAX_WATCHPOINTS := by decide

def LC_MAX_ACTIONPOINTS : Nat := 176

def LC_MAX_RPN_EQU_SIZE : Nat := 20

def LC_RPN_AND : BitVec 16 := 0xFFF1
def LC_RPN_OR : BitVec 16 := 0xFFF2
def LC_RPN_XOR : BitVec 16 := 0xFFF3
def LC_RPN_NOT : BitVec 16 := 0xFFF4
def LC_RPN_EQUAL : BitVec 16 := 0xFFF5

/-- `LC_WATCH_STALE`, `LC_WATCH_FALSE`, `LC_WATCH_TRUE`, `LC_WATCH_ERROR`. -/
inductive WatchResult
  | stale
  | isFalse
  | isTrue
  | error
  deriving DecidableEq, Repr

/-- `LC_ACTION_STALE`, `LC_ACTION_PASS`, `LC_ACTION_FAIL`, `LC_ACTION_ERROR`. -/
inductive ActionResult
  | stale
  | pass
  | fail
  | error
  deriving DecidableEq, Repr

def WatchResult.ofBool : Bool → WatchResult
  | true => .isTrue
  | false => .isFalse

end Nos3.Lc

/-!
## Evaluation of a watchpoint

One entry of the definition table, its value in a message, and the comparison.
Numbers are in the order of a little-endian host once they are read. How two
floating point numbers that are no NaN compare is a parameter.
-/
namespace Nos3.Lc

abbrev WpIndex := Fin LC_MAX_WATCHPOINTS

abbrev MsgId := BitVec 32

/-- `LC_DATA_*` and `LC_WATCH_NOT_USED`; every other number is undefined. -/
inductive DataType
  | byte
  | ubyte
  | wordBE
  | wordLE
  | uwordBE
  | uwordLE
  | dwordBE
  | dwordLE
  | udwordBE
  | udwordLE
  | floatBE
  | floatLE
  | notUsed
  | undefined
  deriving DecidableEq

/-- `LC_OPER_*`; every other number is invalid. -/
inductive OperatorID
  | lt
  | le
  | ne
  | eq
  | ge
  | gt
  | custom
  | invalid
  deriving DecidableEq

structure WDTEntry where
  dataType : DataType := .notUsed
  operatorID : OperatorID := .lt
  messageID : MsgId := 0
  watchpointOffset : BitVec 32 := 0
  bitMask : BitVec 32 := 0
  comparisonValue : BitVec 32 := 0
  resultAgeWhenStale : BitVec 32 := 0

structure SysTime where
  seconds : BitVec 32 := 0
  subseconds : BitVec 32 := 0
  deriving DecidableEq

/-- A message on the command pipe; its size is the number of its bytes. -/
structure Message where
  messageID : MsgId
  bytes : List (BitVec 8)
  time : SysTime

structure WRTTransition where
  value : BitVec 32 := 0
  dataType : DataType := .undefined
  timestamp : SysTime := {}

structure WRTEntry where
  watchResult : WatchResult := .stale
  countdownToStale : BitVec 32 := 0
  evaluationCount : BitVec 32 := 0
  falseToTrueCount : BitVec 32 := 0
  consecutiveTrueCount : BitVec 32 := 0
  cumulativeTrueCount : BitVec 32 := 0
  lastFalseToTrue : WRTTransition := {}
  lastTrueToFalse : WRTTransition := {}

/-- How the floating point numbers of two words compare, with the tolerance of
the equality tests. -/
abbrev FloatOrder := OperatorID → BitVec 32 → BitVec 32 → Bool

/-- The sizes in the switch of `LC_WPOffsetValid`. -/
def DataType.numOfDataBytes : DataType → Option (BitVec 32)
  | .byte | .ubyte => some 1
  | .wordBE | .wordLE | .uwordBE | .uwordLE => some 2
  | .dwordBE | .dwordLE | .udwordBE | .udwordLE | .floatBE | .floatLE => some 4
  | .notUsed | .undefined => none

/-- `LC_WPOffsetValid` without its writes; the sum is one of 32 bits. -/
def wpOffsetValid (entry : WDTEntry) (message : Message) : Bool :=
  match entry.dataType.numOfDataBytes with
  | none => false
  | some size => (entry.watchpointOffset + size).toNat ≤ message.bytes.length

/-- `LC_GetSizedWPData`: an undefined type gives `some none`, a read outside the
message nothing. -/
def getSizedWPData (entry : WDTEntry) (message : Message) : Option (Option (BitVec 32)) :=
  let data k := message.bytes[entry.watchpointOffset.toNat + k]?
  match entry.dataType with
  | .byte => do
    let b0 ← data 0
    some (some (b0.signExtend 32))
  | .ubyte => do
    let b0 ← data 0
    some (some (b0.zeroExtend 32))
  | .wordBE => do
    let b0 ← data 0
    let b1 ← data 1
    some (some ((b0 ++ b1).signExtend 32))
  | .wordLE => do
    let b0 ← data 0
    let b1 ← data 1
    some (some ((b1 ++ b0).signExtend 32))
  | .uwordBE => do
    let b0 ← data 0
    let b1 ← data 1
    some (some ((b0 ++ b1).zeroExtend 32))
  | .uwordLE => do
    let b0 ← data 0
    let b1 ← data 1
    some (some ((b1 ++ b0).zeroExtend 32))
  | .dwordBE | .udwordBE | .floatBE => do
    let b0 ← data 0
    let b1 ← data 1
    let b2 ← data 2
    let b3 ← data 3
    some (some (b0 ++ b1 ++ b2 ++ b3))
  | .dwordLE | .udwordLE | .floatLE => do
    let b0 ← data 0
    let b1 ← data 1
    let b2 ← data 2
    let b3 ← data 3
    some (some (b3 ++ b2 ++ b1 ++ b0))
  | .notUsed | .undefined => some none

/-- The switch on the operator that the integer comparisons share. -/
def relationalCompare (operatorID : OperatorID) (less equal : Bool) : WatchResult :=
  match operatorID with
  | .le => .ofBool (less || equal)
  | .lt => .ofBool less
  | .eq => .ofBool equal
  | .ne => .ofBool (!equal)
  | .gt => .ofBool (!(less || equal))
  | .ge => .ofBool (!less)
  | .custom | .invalid => .error

def signedCompare (operatorID : OperatorID) (wpValue compareValue : Int) : WatchResult :=
  relationalCompare operatorID (wpValue < compareValue) (wpValue = compareValue)

def unsignedCompare (operatorID : OperatorID) (wpValue compareValue : Nat) : WatchResult :=
  relationalCompare operatorID (wpValue < compareValue) (wpValue = compareValue)

/-- `LC_Uint32IsNAN` -/
def uint32IsNAN (data : BitVec 32) : Bool :=
  data &&& 0x7F800000 = 0x7F800000 ∧ data &&& 0x007FFFFF ≠ 0

def floatCompare (floats : FloatOrder) (operatorID : OperatorID) (wp compare : BitVec 32) :
    WatchResult :=
  if uint32IsNAN wp then .error
  else
    match operatorID with
    | .custom | .invalid => .error
    | operatorID => .ofBool (floats operatorID wp compare)

/-- `LC_OperatorCompare`: the value is cut to the size of its type again. -/
def operatorCompare (floats : FloatOrder) (entry : WDTEntry) (data : BitVec 32) : WatchResult :=
  let signed (w : Nat) := signedCompare entry.operatorID (data.truncate w).toInt
    (entry.comparisonValue.truncate w).toInt
  let unsigned (w : Nat) := unsignedCompare entry.operatorID (data.truncate w).toNat
    (entry.comparisonValue.truncate w).toNat
  match entry.dataType with
  | .byte => signed 8
  | .wordBE | .wordLE => signed 16
  | .dwordBE | .dwordLE => signed 32
  | .ubyte => unsigned 8
  | .uwordBE | .uwordLE => unsigned 16
  | .udwordBE | .udwordLE => unsigned 32
  | .floatBE | .floatLE => floatCompare floats entry.operatorID data entry.comparisonValue
  | .notUsed | .undefined => .error

/-- `LC_CustomFunction` as it is delivered. -/
def customFunction : WatchResult := .isFalse

def evaluateWP (floats : FloatOrder) (entry : WDTEntry) (maskedWPData : BitVec 32) : WatchResult :=
  if entry.operatorID = .custom then customFunction else operatorCompare floats entry maskedWPData

/-- Both error paths that write a result. -/
def WRTEntry.setError (wrt : WRTEntry) : WRTEntry :=
  { wrt with watchResult := .error, countdownToStale := 0 }

/-- What `LC_ProcessWP` writes for an evaluated watchpoint. -/
def updateWP (entry : WDTEntry) (timestamp : SysTime) (masked : BitVec 32)
    (evalResult : WatchResult) (wrt : WRTEntry) : WRTEntry :=
  let previousResult := wrt.watchResult
  let wrt := { wrt with
    watchResult := evalResult, evaluationCount := wrt.evaluationCount + 1 }
  let transition : WRTTransition := ⟨masked, entry.dataType, timestamp⟩
  match evalResult with
  | .isTrue =>
    let wrt := { wrt with
      cumulativeTrueCount := wrt.cumulativeTrueCount + 1
      consecutiveTrueCount := wrt.consecutiveTrueCount + 1
      countdownToStale := entry.resultAgeWhenStale }
    if previousResult = .isFalse ∨ previousResult = .stale then
      { wrt with lastFalseToTrue := transition, falseToTrueCount := wrt.falseToTrueCount + 1 }
    else wrt
  | .isFalse =>
    let wrt := { wrt with
      consecutiveTrueCount := 0, countdownToStale := entry.resultAgeWhenStale }
    if previousResult = .isTrue ∨ previousResult = .stale then
      { wrt with lastTrueToFalse := transition }
    else wrt
  | .stale | .error => { wrt with countdownToStale := 0 }

/-- `LC_WPOffsetValid` and, where it says so, `LC_ProcessWP`; with the result
written, if the watchpoint was evaluated. -/
def processWP (floats : FloatOrder) (entry : WDTEntry) (message : Message) (timestamp : SysTime)
    (wrt : WRTEntry) : Option (WRTEntry × Option WatchResult) :=
  if wpOffsetValid entry message then do
    match ← getSizedWPData entry message with
    | none => some (wrt.setError, none)
    | some sizedWPData =>
      let masked := sizedWPData &&& entry.bitMask
      let evalResult := evaluateWP floats entry masked
      some (updateWP entry timestamp masked evalResult wrt, some evalResult)
  else some (wrt.setError, none)

/-- The body of the age update over the results. -/
def updateAge (wrt : WRTEntry) : WRTEntry :=
  if wrt.countdownToStale ≠ 0 then
    let wrt := { wrt with countdownToStale := wrt.countdownToStale - 1 }
    if wrt.countdownToStale = 0 then { wrt with watchResult := .stale } else wrt
  else wrt

/-- The body of `LC_ResetResultsWP`. -/
def resetWP (resetStatsCmd : Bool) (wrt : WRTEntry) : WRTEntry :=
  let wrt := if resetStatsCmd then wrt
    else { wrt with watchResult := .stale, countdownToStale := 0 }
  { wrt with
    evaluationCount := 0
    falseToTrueCount := 0
    consecutiveTrueCount := 0
    cumulativeTrueCount := 0
    lastFalseToTrue := { wrt.lastFalseToTrue with value := 0, timestamp := {} }
    lastTrueToFalse := { wrt.lastTrueToFalse with value := 0, timestamp := {} } }

end Nos3.Lc

/-!
## Watchpoint values in the union

`LC_GetSizedWPData` and `LC_OperatorCompare` as a processor of either byte order
runs them: the values go through the octets of an `LC_MultiType_t`, whose members
overlap, and the comparison value of the table is one as well.
-/
namespace Nos3.Lc
open Nos3.Base (ByteOrder)
open Nos3.Base.BigEndian (Octet)
open Nos3.Base.ByteMemory (Memory)

/-- `LC_MultiType_t`; the first four octets are its own. -/
structure MultiType where
  rawByte : Memory := fun _ => 0

namespace MultiType

def unsigned8 (host : ByteOrder) (u : MultiType) : BitVec 8 := ByteOrder.load host 1 u.rawByte
def unsigned16 (host : ByteOrder) (u : MultiType) : BitVec 16 := ByteOrder.load host 2 u.rawByte
def unsigned32 (host : ByteOrder) (u : MultiType) : BitVec 32 := ByteOrder.load host 4 u.rawByte

def setUnsigned8 (host : ByteOrder) (u : MultiType) (v : BitVec 8) : MultiType :=
  ⟨ByteOrder.store host 1 v u.rawByte⟩

def setUnsigned16 (host : ByteOrder) (u : MultiType) (v : BitVec 16) : MultiType :=
  ⟨ByteOrder.store host 2 v u.rawByte⟩

def setUnsigned32 (host : ByteOrder) (u : MultiType) (v : BitVec 32) : MultiType :=
  ⟨ByteOrder.store host 4 v u.rawByte⟩

def setRawByte (u : MultiType) (k : Nat) (octet : Octet) : MultiType :=
  ⟨Function.update u.rawByte k octet⟩

variable {host : ByteOrder} {u : MultiType}

@[simp] theorem unsigned8_setUnsigned8 (v : BitVec 8) :
    (u.setUnsigned8 host v).unsigned8 host = v := ByteOrder.load_store

@[simp] theorem unsigned16_setUnsigned16 (v : BitVec 16) :
    (u.setUnsigned16 host v).unsigned16 host = v := ByteOrder.load_store

@[simp] theorem unsigned32_setUnsigned32 (v : BitVec 32) :
    (u.setUnsigned32 host v).unsigned32 host = v := ByteOrder.load_store

@[simp] theorem setRawByte_self (k : Nat) (octet : Octet) :
    (u.setRawByte k octet).rawByte k = octet := Function.update_self ..

theorem setRawByte_of_ne {j k : Nat} (h : j ≠ k) (octet : Octet) :
    (u.setRawByte k octet).rawByte j = u.rawByte j := Function.update_of_ne h ..

end MultiType

/-- An entry of the definition table as it lies in memory. -/
structure WDTRecord where
  dataType : DataType := .notUsed
  operatorID : OperatorID := .lt
  messageID : MsgId := 0
  watchpointOffset : BitVec 32 := 0
  bitMask : BitVec 32 := 0
  comparisonValue : MultiType := {}
  resultAgeWhenStale : BitVec 32 := 0

def LC_16BIT_BE_VAL : BitVec 16 := 0x0001
def LC_16BIT_LE_VAL : BitVec 16 := 0x0100
def LC_32BIT_BE_VAL : BitVec 32 := 0x00010203
def LC_32BIT_LE_VAL : BitVec 32 := 0x03020100

/-- `LC_CopyBytesWithSwap`; reads outside the message give nothing. -/
def copyBytesWithSwap (src : Nat → Option Octet) (swapMap : MultiType) :
    Nat → MultiType → Option MultiType
  | 0, dest => some dest
  | numBytes + 1, dest => do
    let octet ← src (swapMap.rawByte numBytes &&& 0x3).toNat
    copyBytesWithSwap src swapMap numBytes (dest.setRawByte numBytes octet)

/-- The cases of 16 bits: the map, the copy and the extension. -/
def convert16 (host : ByteOrder) (src : Nat → Option Octet) (swapVal : BitVec 16)
    (extend : BitVec 16 → BitVec 32) : Option (BitVec 32) := do
  let convBuffer := MultiType.setUnsigned32 host {} 0
  let tempBuffer := MultiType.setUnsigned32 host {} 0
  let convBuffer := convBuffer.setUnsigned16 host swapVal
  let tempBuffer ← copyBytesWithSwap src convBuffer 2 tempBuffer
  let convBuffer := convBuffer.setUnsigned32 host (extend (tempBuffer.unsigned16 host))
  some (convBuffer.unsigned32 host)

/-- The cases of 32 bits. -/
def convert32 (host : ByteOrder) (src : Nat → Option Octet) (swapVal : BitVec 32) :
    Option (BitVec 32) := do
  let convBuffer := MultiType.setUnsigned32 host {} 0
  let tempBuffer := MultiType.setUnsigned32 host {} 0
  let convBuffer := convBuffer.setUnsigned32 host swapVal
  let tempBuffer ← copyBytesWithSwap src convBuffer 4 tempBuffer
  let convBuffer := convBuffer.setUnsigned32 host (tempBuffer.unsigned32 host)
  some (convBuffer.unsigned32 host)

/-- `LC_GetSizedWPData` on a processor. -/
def getSizedWPDataOn (host : ByteOrder) (entry : WDTRecord) (message : Message) :
    Option (Option (BitVec 32)) :=
  let wpData k := message.bytes[entry.watchpointOffset.toNat + k]?
  let convBuffer := MultiType.setUnsigned32 host {} 0
  let tempBuffer := MultiType.setUnsigned32 host {} 0
  match entry.dataType with
  | .byte => do
    let tempBuffer := tempBuffer.setUnsigned8 host (← wpData 0)
    let convBuffer := convBuffer.setUnsigned32 host ((tempBuffer.unsigned8 host).signExtend 32)
    some (some (convBuffer.unsigned32 host))
  | .ubyte => do
    let convBuffer := convBuffer.setUnsigned32 host ((← wpData 0).zeroExtend 32)
    some (some (convBuffer.unsigned32 host))
  | .wordBE => (convert16 host wpData LC_16BIT_BE_VAL (·.signExtend 32)).map some
  | .wordLE => (convert16 host wpData LC_16BIT_LE_VAL (·.signExtend 32)).map some
  | .uwordBE => (convert16 host wpData LC_16BIT_BE_VAL (·.zeroExtend 32)).map some
  | .uwordLE => (convert16 host wpData LC_16BIT_LE_VAL (·.zeroExtend 32)).map some
  | .dwordBE | .udwordBE | .floatBE => (convert32 host wpData LC_32BIT_BE_VAL).map some
  | .dwordLE | .udwordLE | .floatLE => (convert32 host wpData LC_32BIT_LE_VAL).map some
  | .notUsed | .undefined => some none

/-- The first switch of `LC_OperatorCompare`; the octets behind the member that is
written are not read. -/
def truncatedValue (host : ByteOrder) (dataType : DataType) (processedWPData : BitVec 32) :
    MultiType :=
  match dataType with
  | .ubyte | .byte => MultiType.setUnsigned8 host {} ((processedWPData &&& 0xFF).truncate 8)
  | .wordBE | .wordLE | .uwordBE | .uwordLE =>
    MultiType.setUnsigned16 host {} ((processedWPData &&& 0xFFFF).truncate 16)
  | .dwordBE | .dwordLE | .udwordBE | .udwordLE | .floatBE | .floatLE | .notUsed | .undefined =>
    MultiType.setUnsigned32 host {} processedWPData

/-- `LC_OperatorCompare` on a processor. -/
def operatorCompareOn (floats : FloatOrder) (host : ByteOrder) (entry : WDTRecord)
    (processedWPData : BitVec 32) : WatchResult :=
  let watchpointValue := truncatedValue host entry.dataType processedWPData
  let comparisonValue := entry.comparisonValue
  match entry.dataType with
  | .byte => signedCompare entry.operatorID (watchpointValue.unsigned8 host).toInt
      (comparisonValue.unsigned8 host).toInt
  | .wordBE | .wordLE => signedCompare entry.operatorID (watchpointValue.unsigned16 host).toInt
      (comparisonValue.unsigned16 host).toInt
  | .dwordBE | .dwordLE => signedCompare entry.operatorID (watchpointValue.unsigned32 host).toInt
      (comparisonValue.unsigned32 host).toInt
  | .ubyte => unsignedCompare entry.operatorID (watchpointValue.unsigned8 host).toNat
      (comparisonValue.unsigned8 host).toNat
  | .uwordBE | .uwordLE => unsignedCompare entry.operatorID
      (watchpointValue.unsigned16 host).toNat (comparisonValue.unsigned16 host).toNat
  | .udwordBE | .udwordLE => unsignedCompare entry.operatorID
      (watchpointValue.unsigned32 host).toNat (comparisonValue.unsigned32 host).toNat
  | .floatBE | .floatLE => floatCompare floats entry.operatorID
      (watchpointValue.unsigned32 host) (comparisonValue.unsigned32 host)
  | .notUsed | .undefined => .error

/-- The member of the comparison value that the type of an entry is compared with. -/
def WDTRecord.comparison (host : ByteOrder) (entry : WDTRecord) : BitVec 32 :=
  match entry.dataType with
  | .byte | .ubyte => (entry.comparisonValue.unsigned8 host).zeroExtend 32
  | .wordBE | .wordLE | .uwordBE | .uwordLE =>
    (entry.comparisonValue.unsigned16 host).zeroExtend 32
  | .dwordBE | .dwordLE | .udwordBE | .udwordLE | .floatBE | .floatLE | .notUsed | .undefined =>
    entry.comparisonValue.unsigned32 host

/-- The entry with its comparison value as a number. -/
def WDTRecord.entry (host : ByteOrder) (record : WDTRecord) : WDTEntry where
  dataType := record.dataType
  operatorID := record.operatorID
  messageID := record.messageID
  watchpointOffset := record.watchpointOffset
  bitMask := record.bitMask
  comparisonValue := record.comparison host
  resultAgeWhenStale := record.resultAgeWhenStale

/-- `LC_ProcessWP` behind `LC_WPOffsetValid` on a processor; the offset check and what is
written do not read the comparison value. -/
def processWPOn (floats : FloatOrder) (host : ByteOrder) (record : WDTRecord) (message : Message)
    (timestamp : SysTime) (wrt : WRTEntry) : Option (WRTEntry × Option WatchResult) :=
  let entry := record.entry host
  if wpOffsetValid entry message then do
    match ← getSizedWPDataOn host record message with
    | none => some (wrt.setError, none)
    | some sizedWPData =>
      let masked := sizedWPData &&& record.bitMask
      let evalResult := if record.operatorID = .custom then customFunction
        else operatorCompareOn floats host record masked
      some (updateWP entry timestamp masked evalResult wrt, some evalResult)
  else some (wrt.setError, none)

end Nos3.Lc

/-!
## The watchpoint hash table

Buckets lead to lists of message identifiers, and those to lists of watchpoints.
The links live in two pools and a pointer is an index into its pool; taking a
link behind the end of a pool gives no table.
-/
namespace Nos3.Lc
open Function (update)

def LC_HASH_TABLE_ENTRIES : Nat := 256
def LC_HASH_TABLE_MASK : MsgId := 0x00FF

abbrev Link := Fin LC_MAX_WATCHPOINTS

abbrev HashIndex := Fin LC_HASH_TABLE_ENTRIES

/-- `LC_WatchPtList_t` -/
structure WatchPtList where
  next : Option Link := none
  watchIndex : WpIndex := ⟨0, LC_MAX_WATCHPOINTS_pos⟩

/-- `LC_MessageList_t` -/
structure MessageList where
  next : Option Link := none
  messageID : MsgId := 0
  watchPtList : Option Link := none

/-- The hash table part of `LC_OperData`, with the subscriptions in force. -/
structure HashData where
  hashTable : HashIndex → Option Link := fun _ => none
  messageLinks : Link → MessageList := fun _ => {}
  watchPtLinks : Link → WatchPtList := fun _ => {}
  messageIDsCount : Nat := 0
  watchpointCount : Nat := 0
  subscribed : List MsgId := []

def getHashTableIndex (messageID : MsgId) : HashIndex :=
  ⟨(messageID &&& LC_HASH_TABLE_MASK).toNat, by
    rw [BitVec.toNat_and]
    exact Nat.lt_of_le_of_lt Nat.and_le_right (by decide)⟩

/-- `&MessageLinks[MessageIDsCount++]`, with the identifier and the subscription
of the new link. -/
def takeMessageLink (messageID : MsgId) (h : HashData) : Option (Link × HashData) :=
  if hc : h.messageIDsCount < LC_MAX_WATCHPOINTS then
    let link : Link := ⟨h.messageIDsCount, hc⟩
    some (link, { h with
      messageLinks := update h.messageLinks link
        { h.messageLinks link with messageID := messageID }
      messageIDsCount := h.messageIDsCount + 1
      subscribed := h.subscribed ++ [messageID] })
  else none

/-- `&WatchPtLinks[WatchpointCount++]` -/
def takeWatchPtLink (h : HashData) : Option (Link × HashData) :=
  if hc : h.watchpointCount < LC_MAX_WATCHPOINTS then
    some (⟨h.watchpointCount, hc⟩, { h with watchpointCount := h.watchpointCount + 1 })
  else none

def HashData.setMessageLink (h : HashData) (link : Link) (message : MessageList) : HashData :=
  { h with messageLinks := update h.messageLinks link message }

def HashData.setWatchPtLink (h : HashData) (link : Link) (watchPt : WatchPtList) : HashData :=
  { h with watchPtLinks := update h.watchPtLinks link watchPt }

/-- The search loop of `LC_AddWatchpoint`, which appends a link at the end. -/
def findOrAddMessage (messageID : MsgId) : Nat → Link → HashData → Option (Link × HashData)
  | 0, _, _ => none
  | fuel + 1, link, h =>
    if (h.messageLinks link).messageID = messageID then some (link, h)
    else
      match (h.messageLinks link).next with
      | some next => findOrAddMessage messageID fuel next h
      | none => do
        let (new, h) ← takeMessageLink messageID h
        some (new, h.setMessageLink link { h.messageLinks link with next := some new })

/-- The loop to the end of a watchpoint list. -/
def lastWatchPt (h : HashData) : Nat → Link → Option Link
  | 0, _ => none
  | fuel + 1, link =>
    match (h.watchPtLinks link).next with
    | none => some link
    | some next => lastWatchPt h fuel next

def messageLinkFor (messageID : MsgId) (h : HashData) : Option (Link × HashData) :=
  match h.hashTable (getHashTableIndex messageID) with
  | some first => findOrAddMessage messageID (LC_MAX_WATCHPOINTS + 1) first h
  | none => do
    let (new, h) ← takeMessageLink messageID h
    some (new, { h with
      hashTable := update h.hashTable (getHashTableIndex messageID) (some new) })

/-- `WatchPtLink->Next` becomes a new link. -/
def appendWatchPt (last : Link) (h : HashData) : Option (Link × HashData) := do
  let (new, h) ← takeWatchPtLink h
  some (new, h.setWatchPtLink last { h.watchPtLinks last with next := some new })

def addWatchpoint (messageID : MsgId) (h : HashData) : Option (Link × HashData) := do
  let (messageLink, h) ← messageLinkFor messageID h
  match (h.messageLinks messageLink).watchPtList with
  | none => do
    let (new, h) ← takeWatchPtLink h
    some (new, h.setMessageLink messageLink
      { h.messageLinks messageLink with watchPtList := some new })
  | some first => do
    let last ← lastWatchPt h (LC_MAX_WATCHPOINTS + 1) first
    appendWatchPt last h

/-- What the loop of `LC_CreateHashTable` carries: `WatchPtLink` and
`LastMessageID`. -/
structure HashScan where
  data : HashData
  watchPtLink : Option Link := none
  lastMessageID : MsgId := 0

/-- The link of one used watchpoint: the shortcut, or the search. -/
def nextWatchPtLink (messageID : MsgId) (scan : HashScan) : Option (Link × HashData) :=
  match scan.watchPtLink with
  | some last =>
    if scan.lastMessageID = messageID then appendWatchPt last scan.data
    else addWatchpoint messageID scan.data
  | none => addWatchpoint messageID scan.data

/-- The body of the loop. -/
def addTableEntry (wdt : WpIndex → WDTEntry) (scan : HashScan) (i : WpIndex) : Option HashScan :=
  if (wdt i).dataType ≠ .notUsed then do
    let messageID := (wdt i).messageID
    let (link, h) ← nextWatchPtLink messageID scan
    some ⟨h.setWatchPtLink link { h.watchPtLinks link with watchIndex := i }, some link, messageID⟩
  else some scan

/-- The identifiers in the first links of the pool, which are unsubscribed. -/
def HashData.previousIDs (h : HashData) : List MsgId :=
  ((List.finRange LC_MAX_WATCHPOINTS).take h.messageIDsCount).map
    fun link => (h.messageLinks link).messageID

def createHashTable (wdt : WpIndex → WDTEntry) (h : HashData) : Option HashData := do
  let subscribed := h.previousIDs.foldl List.erase h.subscribed
  let scan ← (List.finRange LC_MAX_WATCHPOINTS).foldlM (addTableEntry wdt)
    ⟨{ subscribed := subscribed }, none, 0⟩
  some scan.data

/-- The search of `LC_CheckMsgForWPs` along a list of messages. -/
def findMessage (h : HashData) (messageID : MsgId) : Nat → Option Link → Option (Option Link)
  | _, none => some none
  | 0, some _ => none
  | fuel + 1, some link =>
    if (h.messageLinks link).messageID = messageID then some (some link)
    else findMessage h messageID fuel (h.messageLinks link).next

/-- The watchpoints of a list, in the order they are processed in. -/
def watchPoints (h : HashData) : Nat → Option Link → Option (List WpIndex)
  | _, none => some []
  | 0, some _ => none
  | fuel + 1, some link =>
    (watchPoints h fuel (h.watchPtLinks link).next).map ((h.watchPtLinks link).watchIndex :: ·)

/-- The watchpoints `LC_CheckMsgForWPs` goes through for a message. -/
def watchPointsFor (h : HashData) (messageID : MsgId) : Option (List WpIndex) := do
  match ← findMessage h messageID LC_MAX_WATCHPOINTS
    (h.hashTable (getHashTableIndex messageID)) with
  | none => some []
  | some link => watchPoints h LC_MAX_WATCHPOINTS (h.messageLinks link).watchPtList

end Nos3.Lc
