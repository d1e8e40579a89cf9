import Nos3.Msg.Source.Header
import Mathlib.Data.List.FinRange
import Mathlib.Logic.Function.Basic

/-!
# The packet filter table of DS and its hash table

The entries of the hash table lead to lists of links, one link for each entry of the filter
table. A pointer to a link is its index. A step that would read behind the end of an array, or
would go on without an end, gives nothing.
-/
namespace Nos3.Ds
open Function (update)

abbrev MsgId := BitVec 32

def DS_PACKETS_IN_FILTER_TABLE : Nat := 256
def DS_HASH_TABLE_ENTRIES : Nat := 256
def DS_HASH_TABLE_MASK : MsgId := 0x00FF
def DS_INDEX_NONE : Int := -1

abbrev PacketIndex := Fin DS_PACKETS_IN_FILTER_TABLE

/-- `DS_HashLink_t`. -/
structure HashLink where
  messageID : MsgId := 0
  index : BitVec 16 := 0
  next : Option PacketIndex := none

/-- `HashLinks` and `HashTable` of `DS_AppData`. -/
structure HashData where
  hashLinks : PacketIndex → HashLink
  hashTable : Fin DS_HASH_TABLE_ENTRIES → Option PacketIndex

def HashData.setLink (h : HashData) (link : PacketIndex) (value : HashLink) : HashData :=
  { h with hashLinks := update h.hashLinks link value }

def tableHashFunction (messageID : MsgId) : Nat := (messageID &&& DS_HASH_TABLE_MASK).toNat

/-- `HashTable[HashIndex]`. -/
def HashData.first? (h : HashData) (hashIndex : Nat) : Option (Option PacketIndex) :=
  if hi : hashIndex < DS_HASH_TABLE_ENTRIES then some (h.hashTable ⟨hashIndex, hi⟩) else none

/-- `HashTable[HashIndex] = NewLink`. -/
def HashData.setFirst? (h : HashData) (hashIndex : Nat) (link : PacketIndex) : Option HashData :=
  if hi : hashIndex < DS_HASH_TABLE_ENTRIES then
    some { h with hashTable := update h.hashTable ⟨hashIndex, hi⟩ (some link) }
  else none

/-- The loop that finds the last link. -/
def lastLink (h : HashData) : Nat → PacketIndex → Option PacketIndex
  | 0, _ => none
  | fuel + 1, linkList =>
    match (h.hashLinks linkList).next with
    | none => some linkList
    | some next => lastLink h fuel next

/-- The result is the hash index. -/
def tableAddMsgID (messageID : MsgId) (filterIndex : PacketIndex) (h : HashData) :
    Option (Nat × HashData) := do
  let h := h.setLink filterIndex
    { h.hashLinks filterIndex with messageID := messageID, index := filterIndex.val }
  let hashIndex := tableHashFunction messageID
  match ← h.first? hashIndex with
  | none => do
    let h ← h.setFirst? hashIndex filterIndex
    some (hashIndex, h)
  | some first => do
    let last ← lastLink h (DS_PACKETS_IN_FILTER_TABLE + 1) first
    some (hashIndex, h.setLink last { h.hashLinks last with next := some filterIndex })

/-- `packet` are the message identifiers of the filter table. -/
def tableCreateHash (packet : PacketIndex → MsgId) (h : HashData) : Option HashData :=
  (List.finRange DS_PACKETS_IN_FILTER_TABLE).foldlM
    (fun h filterIndex => (tableAddMsgID (packet filterIndex) filterIndex h).map Prod.snd)
    { h with hashLinks := fun _ => {}, hashTable := fun _ => none }

/-- `FilterPackets[Index].MessageID`. -/
def messageID? (packet : PacketIndex → MsgId) (index : Nat) : Option MsgId :=
  if hi : index < DS_PACKETS_IN_FILTER_TABLE then some (packet ⟨index, hi⟩) else none

/-- The loop of `tableFindMsgID` from a link on. -/
def findLink (packet : PacketIndex → MsgId) (h : HashData) (messageID : MsgId) :
    Nat → Option PacketIndex → Option Int
  | _, none => some DS_INDEX_NONE
  | 0, some _ => none
  | fuel + 1, some link => do
    let index := (h.hashLinks link).index.toNat
    let other ← messageID? packet index
    if other = messageID then some index
    else findLink packet h messageID fuel (h.hashLinks link).next

def tableFindMsgID (packet : PacketIndex → MsgId) (messageID : MsgId) (h : HashData) :
    Option Int := do
  let first ← h.first? (tableHashFunction messageID)
  findLink packet h messageID DS_PACKETS_IN_FILTER_TABLE first

end Nos3.Ds

/-!
## The packet filters of DS

How the filters of a table entry are verified, and how one is applied to a packet. The time of
a packet stands where the layout of the headers puts it; `getMsgTime` reads it.
-/
namespace Nos3.Ds
open Nos3.Msg (Message SysTime getSequenceCount)

def DS_UNUSED : BitVec 8 := 0
def DS_BY_COUNT : BitVec 16 := 1
def DS_BY_TIME : BitVec 16 := 2
def DS_DEST_FILE_CNT : Nat := 16
def DS_FILTERS_PER_PACKET : Nat := 4

/-- `DS_FilterParms_t`. -/
structure FilterParms where
  fileTableIndex : BitVec 8
  filterType : BitVec 8
  algorithmN : BitVec 16
  algorithmX : BitVec 16
  algorithmO : BitVec 16
  deriving DecidableEq, Repr

/-- `DS_PacketEntry_t`. -/
structure PacketEntry where
  messageID : BitVec 32
  filter : Fin DS_FILTERS_PER_PACKET → FilterParms

/-! ## Verification -/

/-- The octets of the parameters. -/
def FilterParms.octets (f : FilterParms) : List (BitVec 8) :=
  [f.fileTableIndex, f.filterType, f.algorithmN.setWidth 8, (f.algorithmN >>> 8).setWidth 8,
    f.algorithmX.setWidth 8, (f.algorithmX >>> 8).setWidth 8,
    f.algorithmO.setWidth 8, (f.algorithmO >>> 8).setWidth 8]

def tableEntryUnused (buffer : List (BitVec 8)) : Bool := buffer.all fun octet => octet == DS_UNUSED

def tableVerifyFileIndex (fileTableIndex : BitVec 16) : Bool :=
  !decide (DS_DEST_FILE_CNT ≤ fileTableIndex.toNat)

def tableVerifyType (timeVsCount : BitVec 16) : Bool :=
  !(timeVsCount != DS_BY_COUNT && timeVsCount != DS_BY_TIME)

def tableVerifyParms (algorithmN algorithmX algorithmO : BitVec 16) : Bool :=
  if algorithmN ≠ 0 ∨ algorithmX ≠ 0 ∨ algorithmO ≠ 0 then
    if algorithmN > algorithmX then false
    else if algorithmO ≥ algorithmX then false
    else true
  else true

/-- What is wrong with a filter, with the values reported for it. -/
inductive FilterFault
  | fileTableIndex (value : BitVec 8)
  | filterType (value : BitVec 8)
  | filterParms (n x o : BitVec 16)
  deriving DecidableEq, Repr

/-- The text of `DS_FLT_TBL_ERR_EID`, which starts with `Filter table verify err:`. -/
def FilterFault.text : FilterFault → String
  | .fileTableIndex _ => "%s MID = 0x%08lX, index = %d, filter = %d, file table index = %d"
  | .filterType _ => "%s MID = 0x%08lX, index = %d, filter = %d, filter type = %d"
  | .filterParms _ _ _ =>
    "%s MID = 0x%08lX, index = %d, filter = %d, filter parms N = %d, X = %d, O = %d"

structure FilterEvent where
  messageID : BitVec 32
  tableIndex : Int
  filter : Fin DS_FILTERS_PER_PACKET
  fault : FilterFault
  deriving DecidableEq, Repr

/-- The body of the loop over the filters. -/
def filterFault (f : FilterParms) : Option FilterFault :=
  if tableEntryUnused f.octets = false then
    if tableVerifyFileIndex (f.fileTableIndex.setWidth 16) = false then
      some (.fileTableIndex f.fileTableIndex)
    else if tableVerifyType (f.filterType.setWidth 16) = false then some (.filterType f.filterType)
    else if tableVerifyParms f.algorithmN f.algorithmX f.algorithmO = false then
      some (.filterParms f.algorithmN f.algorithmX f.algorithmO)
    else none
  else none

def verifyFilters (packetEntry : PacketEntry) (tableIndex errorCount : Int) :
    List (Fin DS_FILTERS_PER_PACKET) → Bool × List FilterEvent
  | [] => (true, [])
  | i :: rest =>
    match filterFault (packetEntry.filter i) with
    | none => verifyFilters packetEntry tableIndex errorCount rest
    | some fault =>
      (false, if errorCount = 0 then [⟨packetEntry.messageID, tableIndex, i, fault⟩] else [])

def tableVerifyFilterEntry (packetEntry : PacketEntry) (tableIndex errorCount : Int) :
    Bool × List FilterEvent :=
  verifyFilters packetEntry tableIndex errorCount (List.finRange DS_FILTERS_PER_PACKET)

/-! ## The filter algorithm -/

def DS_PKT_SEQUENCE_BASED_FILTER_TYPE : BitVec 16 := 1
def DS_PKT_TIME_BASED_FILTER_TYPE : BitVec 16 := 2
def DS_16_MSB_SUBSECS_SHIFT : Nat := 16
def DS_11_LSB_SECONDS_MASK : BitVec 16 := 0x07FF
def DS_11_LSB_SECONDS_SHIFT : Nat := 4
def DS_4_MSB_SUBSECS_MASK : BitVec 16 := 0xF000
def DS_4_MSB_SUBSECS_SHIFT : Nat := 12

/-- The packet filter value from the timestamp: 11 bits of seconds and 4 of subseconds. -/
def timeValue (packetTime : SysTime) : BitVec 16 :=
  let seconds : BitVec 16 := packetTime.seconds.setWidth 16 &&& DS_11_LSB_SECONDS_MASK
  let subsecs : BitVec 16 :=
    (packetTime.subseconds >>> DS_16_MSB_SUBSECS_SHIFT).setWidth 16 &&& DS_4_MSB_SUBSECS_MASK
  (seconds <<< DS_11_LSB_SECONDS_SHIFT) ||| (subsecs >>> DS_4_MSB_SUBSECS_SHIFT)

def isPacketFiltered (getMsgTime : Message → SysTime) (message : Message)
    (filterType algorithmN algorithmX algorithmO : BitVec 16) : Bool :=
  if algorithmX = 0 then true
  else if algorithmN = 0 then true
  else if algorithmN > algorithmX then true
  else if algorithmO ≥ algorithmX then true
  else if filterType ≠ DS_PKT_TIME_BASED_FILTER_TYPE ∧
      filterType ≠ DS_PKT_SEQUENCE_BASED_FILTER_TYPE then true
  else
    let packetValue :=
      if filterType = DS_PKT_SEQUENCE_BASED_FILTER_TYPE then getSequenceCount message
      else timeValue (getMsgTime message)
    if packetValue < algorithmO then true
    else if (packetValue.toNat - algorithmO.toNat) % algorithmX.toNat < algorithmN.toNat then false
    else true

end Nos3.Ds
