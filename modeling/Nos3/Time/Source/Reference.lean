import Nos3.Time.Source.SysTime
import Nos3.Base.VersionedBuffers
import Nos3.Base.Transition

/-!
# The time reference

What `cfe_time_utils.c` and `cfe_time_tone.c` keep to compute the time from: the reference
data in four buffers, the updates of a time server with an internal source, and the reads of
`CFE_TIME_GetReference`, access by access. The 16-bit fields stand sign-extended. Updates are
made one at a time; a read may be interrupted anywhere.
-/
namespace Nos3.Time
open Nos3.Msg (SysTime)
open Nos3.Base.VersionedBuffers
open Nos3.Base.Transition (Machine)

def CFE_TIME_REFERENCE_BUF_DEPTH : Nat := 4
def CFE_TIME_REFERENCE_BUF_MASK : BitVec 32 := 3
def CFE_PLATFORM_TIME_CFG_START_FLY : BitVec 32 := 2
def CFE_PLATFORM_TIME_CFG_LATCH_FLY : BitVec 32 := 8

def CFE_TIME_SetState_NOT_SET : BitVec 32 := 0
def CFE_TIME_SetState_WAS_SET : BitVec 32 := 1
def CFE_TIME_FlywheelState_NO_FLY : BitVec 32 := 0
def CFE_TIME_FlywheelState_IS_FLY : BitVec 32 := 1
def CFE_TIME_AdjustDirection_ADD : BitVec 32 := 1

inductive ClockState
  | invalid
  | valid
  | flywheel
  deriving DecidableEq

/-- The words of `CFE_TIME_ReferenceState_t` behind its `StateVersion`. -/
inductive RefWord
  | atToneLeapSeconds
  | clockSetState
  | clockFlyState
  | delayDirection
  | atToneMETSeconds
  | atToneMETSubseconds
  | atToneSTCFSeconds
  | atToneSTCFSubseconds
  | atToneDelaySeconds
  | atToneDelaySubseconds
  | atToneLatchSeconds
  | atToneLatchSubseconds
  deriving DecidableEq

abbrev RefState := RefWord → BitVec 32

def RefState.atToneMET (w : RefState) : SysTime := ⟨w .atToneMETSeconds, w .atToneMETSubseconds⟩
def RefState.atToneSTCF (w : RefState) : SysTime :=
  ⟨w .atToneSTCFSeconds, w .atToneSTCFSubseconds⟩
def RefState.atToneLatch (w : RefState) : SysTime :=
  ⟨w .atToneLatchSeconds, w .atToneLatchSubseconds⟩

/-! ## What is read off a reference -/

/-- `CFE_TIME_Reference_t`; the delay is for time clients only. -/
structure Reference where
  words : RefState
  currentLatch : SysTime
  timeSinceTone : SysTime
  currentMET : SysTime

/-- The computation that ends `CFE_TIME_GetReference`. -/
def reference (maxLocalClock : SysTime) (words : RefState) (currentLatch : SysTime) : Reference :=
  let timeSinceTone :=
    if timeCompare currentLatch words.atToneLatch = .aLtB then
      timeAdd (timeSubtract maxLocalClock words.atToneLatch) currentLatch
    else timeSubtract currentLatch words.atToneLatch
  ⟨words, currentLatch, timeSinceTone, timeAdd timeSinceTone words.atToneMET⟩

def calculateTAI (r : Reference) : SysTime := timeAdd r.currentMET r.words.atToneSTCF

def calculateUTC (r : Reference) : SysTime :=
  let timeAsUTC := timeAdd r.currentMET r.words.atToneSTCF
  { timeAsUTC with seconds := timeAsUTC.seconds - r.words .atToneLeapSeconds }

def calculateState (r : Reference) : ClockState :=
  if r.words .clockSetState = CFE_TIME_SetState_WAS_SET then
    if r.words .clockFlyState = CFE_TIME_FlywheelState_NO_FLY then .valid else .flywheel
  else .invalid

/-! ## Updates -/

/-- The updates of the reference, with what they take from their callers: a latched clock,
the virtual MET, a reference that was read before. -/
inductive Update
  | setState (newState : ClockState)
  | setTime (newTime currentMET : SysTime)
  | setMET (newMET latch : SysTime)
  | setSTCF (newSTCF : SysTime)
  | setLeapSeconds (newLeaps : BitVec 32)
  | setAdjust (newAdjust : SysTime) (direction : BitVec 32)
  | oneHzAdjust (adjust : SysTime) (direction : BitVec 32)
  | startFly
  | latchFly (currentMET currentLatch : SysTime)
  | toneUpdate (toneSignalLatch : SysTime) (virtualMET currentMETSeconds : BitVec 32)

abbrev Store := RefWord × BitVec 32

def storeMET (t : SysTime) : List Store :=
  [(.atToneMETSeconds, t.seconds), (.atToneMETSubseconds, t.subseconds)]

def storeSTCF (t : SysTime) : List Store :=
  [(.atToneSTCFSeconds, t.seconds), (.atToneSTCFSubseconds, t.subseconds)]

def storeLatch (t : SysTime) : List Store :=
  [(.atToneLatchSeconds, t.seconds), (.atToneLatchSubseconds, t.subseconds)]

def adjusted (direction : BitVec 32) (t adjust : SysTime) : SysTime :=
  if direction = CFE_TIME_AdjustDirection_ADD then timeAdd t adjust else timeSubtract t adjust

/-- What an update stores between `CFE_TIME_StartReferenceUpdate` and
`CFE_TIME_FinishReferenceUpdate`, where `next` is the copy it starts from. -/
def Update.stores (next : RefState) : Update → List Store
  | .setState .flywheel => [(.clockFlyState, CFE_TIME_FlywheelState_IS_FLY)]
  | .setState .valid => [(.clockSetState, CFE_TIME_SetState_WAS_SET)]
  | .setState .invalid => [(.clockSetState, CFE_TIME_SetState_NOT_SET)]
  | .setTime newTime currentMET => storeSTCF (timeSubtract newTime currentMET)
  | .setMET newMET latch => storeMET newMET ++ storeLatch latch
  | .setSTCF newSTCF => storeSTCF newSTCF
  | .setLeapSeconds newLeaps => [(.atToneLeapSeconds, newLeaps)]
  | .setAdjust newAdjust direction => storeSTCF (adjusted direction next.atToneSTCF newAdjust)
  | .oneHzAdjust adjust direction => storeSTCF (adjusted direction next.atToneSTCF adjust)
  | .startFly => [(.clockFlyState, CFE_TIME_FlywheelState_IS_FLY)]
  | .latchFly currentMET currentLatch => storeMET currentMET ++ storeLatch currentLatch
  | .toneUpdate toneSignalLatch virtualMET currentMETSeconds =>
    let flying := next .clockFlyState = CFE_TIME_FlywheelState_IS_FLY
    storeLatch toneSignalLatch ++
      storeMET ⟨if flying then currentMETSeconds else virtualMET, 0⟩ ++
      if flying then [(.clockFlyState, CFE_TIME_FlywheelState_NO_FLY)] else []

def storeAll (stores : List Store) (w : RefState) : RefState :=
  stores.foldl (fun w s => Function.update w s.1 s.2) w

/-- The update at once. -/
def Update.apply (u : Update) (w : RefState) : RefState := storeAll (u.stores w) w

/-- What `CFE_TIME_Local1HzStateMachine` leaves of the reference, at a reading of the local
clock. -/
def local1HzStateMachine (maxLocalClock oneHzAdjust : SysTime) (oneHzDirection : BitVec 32)
    (w : RefState) (clock : SysTime) : RefState :=
  let w :=
    if oneHzAdjust.seconds ≠ 0 ∨ oneHzAdjust.subseconds ≠ 0 then
      (Update.oneHzAdjust oneHzAdjust oneHzDirection).apply w
    else w
  let r := reference maxLocalClock w clock
  let w :=
    if r.words .clockFlyState = CFE_TIME_FlywheelState_NO_FLY ∧
        CFE_PLATFORM_TIME_CFG_START_FLY ≤ r.timeSinceTone.seconds then Update.startFly.apply w
    else w
  if r.words .clockFlyState = CFE_TIME_FlywheelState_IS_FLY ∧
      CFE_PLATFORM_TIME_CFG_LATCH_FLY ≤ r.timeSinceTone.seconds then
    (Update.latchFly r.currentMET r.currentLatch).apply w
  else w

/-! ## The accesses -/

abbrev BufferIndex := Fin CFE_TIME_REFERENCE_BUF_DEPTH

theorem masked_lt (version : BitVec 32) :
    (version &&& CFE_TIME_REFERENCE_BUF_MASK).toNat < CFE_TIME_REFERENCE_BUF_DEPTH := by
  rw [BitVec.toNat_and]
  exact Nat.and_lt_two_pow (n := 2) _ (by decide)

def bufferIndex (version : BitVec 32) : BufferIndex :=
  ⟨(version &&& CFE_TIME_REFERENCE_BUF_MASK).toNat, masked_lt version⟩

/-- The order in which `CFE_TIME_StartReferenceUpdate` copies. -/
def copyOrder : List RefWord :=
  [.atToneLeapSeconds, .clockSetState, .clockFlyState, .delayDirection, .atToneMETSeconds,
    .atToneMETSubseconds, .atToneSTCFSeconds, .atToneSTCFSubseconds, .atToneDelaySeconds,
    .atToneDelaySubseconds, .atToneLatchSeconds, .atToneLatchSubseconds]

/-- The order in which `CFE_TIME_GetReference` loads. -/
def loadOrder : List RefWord :=
  [.atToneMETSeconds, .atToneMETSubseconds, .atToneSTCFSeconds, .atToneSTCFSubseconds,
    .atToneLeapSeconds, .atToneDelaySeconds, .atToneDelaySubseconds, .atToneLatchSeconds,
    .atToneLatchSubseconds, .clockSetState, .clockFlyState, .delayDirection]

/-- What is left of an update. -/
inductive Progress
  | copying (todo : List RefWord)
  | storing (todo : List Store)

structure Updater where
  update : Update
  draft : Draft (BitVec 32) BufferIndex
  progress : Progress

/-- A call of `CFE_TIME_GetReference`. `since` and `upto` count the updates that were
finished when it began and returned; the code does not know them. -/
inductive Reader
  | idle
  | trying (since : Nat) (retryCount : Nat) (words : RefState)
  | loading (since : Nat) (retryCount : Nat) (currentLatch : SysTime)
      (attempt : Attempt (BitVec 32) RefWord (BitVec 32))
  | returned (since upto : Nat) (result : Option Reference)

/-- `finished` lists the updates that were finished; the code does not know it. -/
structure TimeData (ι : Type) where
  memory : Memory (BitVec 32) BufferIndex RefWord (BitVec 32)
  updater : Option Updater
  readers : ι → Reader
  getReferenceFail : Bool
  finished : List Update

/-- The data that `CFE_TIME_InitData` leaves with its two updates. -/
def TimeData.initial (ι : Type) (words : RefState) : TimeData ι where
  memory :=
    { last := 2
      stamp := fun i => if i.val = 1 then 1 else if i.val = 2 then 2 else 0xFFFFFFFF
      value := fun i => if i.val = 2 then words else fun _ => 0 }
  updater := none
  readers := fun _ => .idle
  getReferenceFail := false
  finished := []

inductive Access (ι : Type)
  | startUpdate (update : Update)
  | write
  | call (reader : ι) (words : RefState)
  | latchClock (reader : ι) (clock : SysTime)
  | read (reader : ι)

section Step
variable {ι : Type} [DecidableEq ι]

/-- `CFE_TIME_StartReferenceUpdate` up to the write of `StateVersion`. -/
def startUpdate (s : TimeData ι) (update : Update) : Option (TimeData ι) :=
  match s.updater with
  | some _ => none
  | none =>
    let version := s.memory.last + 1
    some
      { s with
        memory := s.memory.setStamp (bufferIndex version) version
        updater := some ⟨update, ⟨version, bufferIndex s.memory.last⟩, .copying copyOrder⟩ }

/-- The next access of the update that is going on, the last one being that of
`CFE_TIME_FinishReferenceUpdate`. -/
def write (s : TimeData ι) : Option (TimeData ι) :=
  match s.updater with
  | none => none
  | some u =>
    let next := bufferIndex u.draft.version
    match u.progress with
    | .copying (k :: todo) =>
      some
        { s with
          memory := s.memory.store next k (s.memory.value u.draft.source k)
          updater := some { u with progress := .copying todo } }
    | .copying [] =>
      some
        { s with
          updater :=
            some { u with progress := .storing (u.update.stores (s.memory.value next)) } }
    | .storing (x :: todo) =>
      some
        { s with
          memory := s.memory.store next x.1 x.2
          updater := some { u with progress := .storing todo } }
    | .storing [] =>
      some
        { s with
          memory := { s.memory with last := s.memory.stamp next }
          updater := none
          finished := s.finished ++ [u.update] }

def TimeData.setReader (s : TimeData ι) (i : ι) (r : Reader) : TimeData ι :=
  { s with readers := Function.update s.readers i r }

/-- The next access of a read that has latched the clock. -/
def read (maxLocalClock : SysTime) (s : TimeData ι) (i : ι) : Option (TimeData ι) :=
  match s.readers i with
  | .loading since retryCount currentLatch a =>
    let refState := bufferIndex a.version
    match a.todo with
    | k :: todo =>
      some (s.setReader i
        (.loading since retryCount currentLatch (a.load k todo (s.memory.value refState k))))
    | [] =>
      let valid : Bool := a.version = s.memory.stamp refState
      if valid = false ∧ retryCount ≠ 0 then
        some (s.setReader i (.trying since (retryCount - 1) a.values))
      else if retryCount = 0 then
        some ({ s with getReferenceFail := true }.setReader i
          (.returned since s.finished.length none))
      else
        let result := reference maxLocalClock a.values currentLatch
        some (s.setReader i (.returned since s.finished.length (some result)))
  | _ => none

/-- Updates and reads, access by access. -/
def timeMachine (ι : Type) [DecidableEq ι] (maxLocalClock : SysTime) (words : RefState) :
    Machine (TimeData ι) (Access ι) where
  start s := s = TimeData.initial ι words
  next s a :=
    match a with
    | .startUpdate update => startUpdate s update
    | .write => write s
    | .call i words =>
      match s.readers i with
      | .idle | .returned .. => some (s.setReader i (.trying s.finished.length 4 words))
      | _ => none
    | .latchClock i clock =>
      match s.readers i with
      | .trying since retryCount words =>
        some (s.setReader i
          (.loading since retryCount clock ⟨s.memory.last, words, loadOrder⟩))
      | _ => none
    | .read i => read maxLocalClock s i

end Step

end Nos3.Time
