import Nos3.Sc.Guarantees.AtsVerification
import Nos3.Sc.Source.Process

/-!
# The ATS control block

While an ATS executes, the control block stands on an entry of its time index.
The commands only remark the statuses of an ATS; appending and loading rebuild
its structures. A load of the executing ATS leaves the control block behind.
-/
namespace Nos3.Sc
open Function (update update_self update_of_ne)
open Base.Transition
open Base.FixedArray

/-- The structures built from a table agree with it. -/
structure AtsData.Coherent (d : AtsData) (table : AtsTable) : Prop where
  tbl : d.tbl = some table
  inside : d.atsSize ≤ SC_ATS_BUFF_SIZE32
  status : ∀ i, d.cmdStatus i = .empty ↔ d.cmdIndex i = none
  used : d.numberOfCommands = d.used.card
  entries : ∀ i off, d.cmdIndex i = some off → ∃ size, EntryAt table.cells d.atsSize i off size

structure AtsData.Indexed (d : AtsData) (table : AtsTable) : Prop extends d.Coherent table where
  indexed : d.timeIndex.length = d.numberOfCommands
  numbers : d.Numbers d.timeIndex

/-- An ATS is empty, or all its structures agree. -/
def AtsData.Ready (d : AtsData) : Prop := d.numberOfCommands = 0 ∨ ∃ table, d.Indexed table

/-- Only statuses changed, no entry came or went, and none was loaded again. -/
structure AtsData.Remarked (d d' : AtsData) : Prop where
  tbl : d'.tbl = d.tbl
  cmdIndex : d'.cmdIndex = d.cmdIndex
  timeIndex : d'.timeIndex = d.timeIndex
  numberOfCommands : d'.numberOfCommands = d.numberOfCommands
  atsSize : d'.atsSize = d.atsSize
  empty : ∀ i, d'.cmdStatus i = .empty ↔ d.cmdStatus i = .empty
  quiet : ∀ i, d'.cmdStatus i = .loaded → d.cmdStatus i = .loaded

theorem AtsData.Remarked.refl (d : AtsData) : d.Remarked d :=
  ⟨rfl, rfl, rfl, rfl, rfl, fun _ => Iff.rfl, fun _ => id⟩

theorem AtsData.Remarked.trans {d d' d'' : AtsData} (h : d.Remarked d') (h' : d'.Remarked d'') :
    d.Remarked d'' where
  tbl := h'.tbl.trans h.tbl
  cmdIndex := h'.cmdIndex.trans h.cmdIndex
  timeIndex := h'.timeIndex.trans h.timeIndex
  numberOfCommands := h'.numberOfCommands.trans h.numberOfCommands
  atsSize := h'.atsSize.trans h.atsSize
  empty i := (h'.empty i).trans (h.empty i)
  quiet i hi := h.quiet i (h'.quiet i hi)

theorem AtsData.Remarked.entryTime {d d' : AtsData} (h : d.Remarked d') (i : CmdIndex) :
    d'.entryTime i = d.entryTime i := by
  rw [AtsData.entryTime, AtsData.entryTime, h.tbl, h.cmdIndex]

theorem AtsData.Remarked.indexed {d d' : AtsData} {table : AtsTable} (h : d.Remarked d')
    (hd : d.Indexed table) : d'.Indexed table where
  tbl := h.tbl.trans hd.tbl
  inside := h.atsSize ▸ hd.inside
  status i := by
    rw [h.empty i, h.cmdIndex]
    exact hd.status i
  used := by
    rw [h.numberOfCommands, AtsData.used, h.cmdIndex]
    exact hd.used
  entries := by
    rw [h.cmdIndex, h.atsSize]
    exact hd.entries
  indexed := by
    rw [h.timeIndex, h.numberOfCommands]
    exact hd.indexed
  numbers := by
    rw [h.timeIndex, AtsData.Numbers, h.cmdIndex]
    exact hd.numbers

theorem AtsData.Remarked.ready {d d' : AtsData} (h : d.Remarked d') (hd : d.Ready) :
    d'.Ready :=
  hd.imp h.numberOfCommands.trans fun ⟨table, hd⟩ => ⟨table, h.indexed hd⟩

/-- A mark on one command in use that does not load it. -/
theorem AtsData.remarked_update {d : AtsData} {i : CmdIndex} {status : Status}
    (hold : d.cmdStatus i ≠ .empty) (hempty : status ≠ .empty)
    (hloaded : status = .loaded → d.cmdStatus i = .loaded) :
    d.Remarked { d with cmdStatus := update d.cmdStatus i status } := by
  refine ⟨rfl, rfl, rfl, rfl, rfl, fun j => ?_, fun j hj => ?_⟩
  · by_cases h : j = i
    · subst h
      simp [hold, hempty]
    · simp [update_of_ne h]
  · by_cases h : j = i
    · subst h
      simp only [update_self] at hj
      exact hloaded hj
    · simpa [update_of_ne h] using hj

/-- The control block's view: the entry of the time index it stands on. -/
structure Points (d : AtsData) (timeIndexPtr cmdNumber : Nat) (time : BitVec 32) (i : CmdIndex) :
    Prop where
  inside : timeIndexPtr < d.numberOfCommands
  listed : d.timeIndex[timeIndexPtr]? = some cmdNumber
  number : cmdNumber = i.val + 1
  offset : ∃ off, d.cmdIndex i = some off ∧ off + SC_ATS_HDR_WORDS ≤ SC_ATS_BUFF_SIZE32
  time : d.entryTime i = some time

def AtsState.PointsAtEntry (s : AtsState) : Prop :=
  ∃ a i, atsNumToIndex s.atsNumber = some a ∧
    Points (s.ats a) s.timeIndexPtr s.cmdNumber s.nextCmdTime i

theorem Points.remarked {d d' : AtsData} {timeIndexPtr cmdNumber : Nat} {time : BitVec 32}
    {i : CmdIndex} (h : Points d timeIndexPtr cmdNumber time i) (hd : d.Remarked d') :
    Points d' timeIndexPtr cmdNumber time i where
  inside := hd.numberOfCommands ▸ h.inside
  listed := hd.timeIndex ▸ h.listed
  number := h.number
  offset := hd.cmdIndex ▸ h.offset
  time := (hd.entryTime i).trans h.time

/-- A listed number with its time is an entry to stand on. -/
theorem AtsData.Indexed.points {d : AtsData} {table : AtsTable} (hd : d.Indexed table)
    {timeIndexPtr cmdNumber : Nat} {time : BitVec 32} {i : CmdIndex}
    (hlisted : d.timeIndex[timeIndexPtr]? = some cmdNumber)
    (hi : atsCmdNumToIndex cmdNumber = some i) (htime : d.entryTime i = some time) :
    Points d timeIndexPtr cmdNumber time i := by
  obtain ⟨hinside, hmem⟩ := List.getElem?_eq_some_iff.mp hlisted
  obtain ⟨j, hj, hused⟩ := hd.numbers cmdNumber (hmem ▸ List.getElem_mem hinside)
  have hnumber := atsCmdNumToIndex_eq_some hi
  obtain rfl : j = i := Fin.ext (by omega)
  obtain ⟨off, hoff⟩ := Option.isSome_iff_exists.mp hused
  obtain ⟨size, hentry⟩ := hd.entries j off hoff
  exact ⟨hd.indexed ▸ hinside, hlisted, hnumber,
    ⟨off, hoff, hentry.header_fits.trans hd.inside⟩, htime⟩

/-- A command the time index lists is in use. -/
theorem AtsData.Indexed.status_ne {d : AtsData} {table : AtsTable} (hd : d.Indexed table)
    {timeIndex cmdNumber : Nat} {i : CmdIndex}
    (hlisted : d.timeIndex[timeIndex]? = some cmdNumber)
    (hi : atsCmdNumToIndex cmdNumber = some i) : d.cmdStatus i ≠ .empty := by
  obtain ⟨hinside, hmem⟩ := List.getElem?_eq_some_iff.mp hlisted
  obtain ⟨j, hj, hused⟩ := hd.numbers cmdNumber (hmem ▸ List.getElem_mem hinside)
  have hnumber := atsCmdNumToIndex_eq_some hi
  obtain rfl : j = i := Fin.ext (by omega)
  intro hempty
  rw [(hd.status j).mp hempty] at hused
  cases hused

/-- The loop over the time index remarks and stops at an entry. -/
theorem skipLoop_spec {mark : Status → Status}
    (hmark : ∀ status, status ≠ .empty → mark status ≠ .empty)
    (hquiet : ∀ status, mark status = .loaded → status = .loaded) {startTime : BitVec 32}
    {left timeIndex : Nat} {d d' : AtsData} {found : Option TimeEntry}
    (hd : left ≠ 0 → ∃ table, d.Indexed table)
    (h : skipLoop mark startTime left timeIndex d = some (d', found)) :
    d.Remarked d' ∧ ∀ entry, found = some entry →
      ∃ i, Points d' entry.timeIndex entry.cmdNumber entry.time i := by
  induction left generalizing timeIndex d with
  | zero =>
    cases h
    exact ⟨.refl _, nofun⟩
  | succ left ih =>
    obtain ⟨table, hd⟩ := hd nofun
    obtain ⟨cmdNumber, hlisted, h⟩ := Option.bind_eq_some_iff.mp h
    obtain ⟨i, hi, h⟩ := Option.bind_eq_some_iff.mp h
    obtain ⟨listCmdTime, htime, h⟩ := Option.bind_eq_some_iff.mp h
    split at h
    · have hold := hd.status_ne hlisted hi
      have hremarked := AtsData.remarked_update (d := d) (i := i) hold (hmark _ hold) (hquiet _)
      obtain ⟨hrest, hfound⟩ := ih (fun _ => ⟨table, hremarked.indexed hd⟩) h
      exact ⟨hremarked.trans hrest, hfound⟩
    · cases h
      refine ⟨.refl _, fun entry hentry => ?_⟩
      cases hentry
      exact ⟨i, hd.points hlisted hi htime⟩

/-- Entries lie one behind another from an offset to the end. -/
def Entries (words : List Word) : Nat → Nat → Nat → Prop
  | 0, o, o' => o = o'
  | count + 1, o, o' =>
    ∃ i size, EntryAt words o' i o size ∧ Entries words count (o + size) o'

/-- What holds of the ATS half of the state between requests. -/
structure AtsState.Sound (s : AtsState) : Prop where
  ready : ∀ a, (s.ats a).Ready
  control : s.atpState = .executing ∨ s.atpState = .starting → s.PointsAtEntry
  append : s.appendEntryCount ≠ 0 → ∃ table, s.appendTbl = some table ∧
    s.appendWordCount ≤ SC_APPEND_BUFF_SIZE32 ∧
    Entries table.cells s.appendEntryCount 0 s.appendWordCount

/-- A step that only remarks and moves the control block. -/
structure AtsState.Moves (s s' : AtsState) : Prop where
  remarked : ∀ a, (s.ats a).Remarked (s'.ats a)
  control : s'.atpState = .executing ∨ s'.atpState = .starting → s'.PointsAtEntry
  appendTbl : s'.appendTbl = s.appendTbl
  appendEntryCount : s'.appendEntryCount = s.appendEntryCount
  appendWordCount : s'.appendWordCount = s.appendWordCount

theorem AtsState.Moves.sound {s s' : AtsState} (h : s.Moves s') (hs : s.Sound) : s'.Sound where
  ready a := (h.remarked a).ready (hs.ready a)
  control := h.control
  append hcount := by
    rw [h.appendTbl, h.appendEntryCount, h.appendWordCount]
    exact hs.append (h.appendEntryCount ▸ hcount)

theorem AtsState.Sound.refl {s : AtsState} (hs : s.Sound) : s.Moves s :=
  ⟨fun _ => .refl _, hs.control, rfl, rfl, rfl⟩

theorem AtsState.Moves.trans {s s' s'' : AtsState} (h : s.Moves s') (h' : s'.Moves s'') :
    s.Moves s'' where
  remarked a := (h.remarked a).trans (h'.remarked a)
  control := h'.control
  appendTbl := h'.appendTbl.trans h.appendTbl
  appendEntryCount := h'.appendEntryCount.trans h.appendEntryCount
  appendWordCount := h'.appendWordCount.trans h.appendWordCount

/-- The switch flag has no part in the control block's place. -/
theorem AtsState.Moves.setPend {s s' : AtsState} (h : s.Moves s') (flag : Bool) :
    s.Moves { s' with switchPendFlag := flag } :=
  ⟨h.remarked, h.control, h.appendTbl, h.appendEntryCount, h.appendWordCount⟩

theorem remarked_setAts {s : AtsState} {a : AtsIndex} {d : AtsData} (h : (s.ats a).Remarked d)
    (b : AtsIndex) : (s.ats b).Remarked ((s.setAts a d).ats b) := by
  rw [AtsState.setAts]
  by_cases hb : b = a
  · subst hb
    simpa using h
  · simpa [update_of_ne hb] using .refl _

/-- Killing needs no place of the control block before or after. -/
theorem killAts_moves {s s' : AtsState} (h : killAts s = some s') :
    s.Moves s' ∧ s'.atpState = .idle := by
  rw [killAts] at h
  split at h
  · obtain ⟨a, -, h⟩ := Option.bind_eq_some_iff.mp h
    cases h
    have hremarked : (s.ats a).Remarked { s.ats a with atsUseCtr := (s.ats a).atsUseCtr + 1 } :=
      ⟨rfl, rfl, rfl, rfl, rfl, fun _ => Iff.rfl, fun _ => id⟩
    exact ⟨⟨remarked_setAts hremarked, nofun, rfl, rfl, rfl⟩, rfl⟩
  · cases h
    exact ⟨⟨fun _ => .refl _, nofun, rfl, rfl, rfl⟩, rfl⟩

theorem skipped_mark (status : Status) (_ : status ≠ .empty) : Status.skipped ≠ .empty := nofun

/-- A begin leaves the control block on an entry of the ATS, or kills it. -/
theorem beginAtsAs_moves {status : Status} {currentTime timeOffset : BitVec 32} {a : AtsIndex}
    {s s' : AtsState} {begun : Bool} (hready : (s.ats a).Ready)
    (h : beginAtsAs status currentTime a timeOffset s = some (s', begun)) : s.Moves s' := by
  obtain ⟨⟨mid, begun'⟩, hbegin, h⟩ := Option.bind_eq_some_iff.mp h
  obtain ⟨⟨d, found⟩, hskip, hbegin⟩ := Option.bind_eq_some_iff.mp hbegin
  have hindexed : (s.ats a).numberOfCommands ≠ 0 → ∃ table, (s.ats a).Indexed table :=
    hready.resolve_left
  obtain ⟨hremarked, hfound⟩ := skipLoop_spec skipped_mark nofun hindexed hskip
  cases found with
  | none =>
    obtain ⟨killed, hkill, hbegin⟩ := Option.bind_eq_some_iff.mp hbegin
    cases hbegin
    cases h
    obtain ⟨hmoves, hidle⟩ := killAts_moves hkill
    exact ⟨fun b => (remarked_setAts hremarked b).trans (hmoves.remarked b), hmoves.control,
      hmoves.appendTbl, hmoves.appendEntryCount, hmoves.appendWordCount⟩
  | some entry =>
    cases hbegin
    cases h
    refine ⟨remarked_setAts hremarked, fun _ => ?_, rfl, rfl, rfl⟩
    obtain ⟨i, hpoints⟩ := hfound entry rfl
    refine ⟨a, i, ?_, ?_⟩
    · exact dif_pos ⟨Nat.succ_pos _, a.isLt⟩
    · simpa [AtsState.setAts] using hpoints

theorem startAtsCmd_moves {currentTime : BitVec 32} {atsId : Nat} {s s' : AtsState}
    (hs : s.Sound) (h : startAtsCmd currentTime atsId s = some s') : s.Moves s' := by
  rw [startAtsCmd] at h
  split at h
  · exact Option.some.inj h ▸ hs.refl
  · split at h
    · split at h
      · obtain ⟨⟨next, begun⟩, hbegin, h⟩ := Option.bind_eq_some_iff.mp h
        exact Option.some.inj h ▸ beginAtsAs_moves (hs.ready _) hbegin
      · exact Option.some.inj h ▸ hs.refl
    · exact Option.some.inj h ▸ hs.refl

theorem stopAtsCmd_moves {s s' : AtsState} (h : stopAtsCmd s = some s') : s.Moves s' := by
  obtain ⟨killed, hkill, h⟩ := Option.bind_eq_some_iff.mp h
  exact Option.some.inj h ▸ (killAts_moves hkill).1.setPend false

theorem groundSwitchCmd_moves {s s' : AtsState} (hs : s.Sound)
    (h : groundSwitchCmd s = some s') : s.Moves s' := by
  rw [groundSwitchCmd] at h
  split at h
  · obtain ⟨a, -, h⟩ := Option.bind_eq_some_iff.mp h
    exact Option.some.inj h ▸ hs.refl.setPend _
  · exact Option.some.inj h ▸ hs.refl.setPend false

/-- Both switches kill the current ATS and begin the other one. -/
theorem kill_begin_moves {status : Status} {currentTime timeOffset : BitVec 32} {a : AtsIndex}
    {s killed s' : AtsState} {begun : Bool} (hs : s.Sound) (hkill : killAts s = some killed)
    (h : beginAtsAs status currentTime a timeOffset killed = some (s', begun)) : s.Moves s' := by
  have hmoves := (killAts_moves hkill).1
  exact hmoves.trans (beginAtsAs_moves ((hmoves.sound hs).ready a) h)

theorem serviceSwitchPend_moves {currentTime : BitVec 32} {s s' : AtsState} (hs : s.Sound)
    (h : serviceSwitchPend currentTime s = some s') : s.Moves s' := by
  rw [serviceSwitchPend] at h
  split at h
  · split at h
    · obtain ⟨a, -, h⟩ := Option.bind_eq_some_iff.mp h
      split at h
      · obtain ⟨killed, hkill, h⟩ := Option.bind_eq_some_iff.mp h
        obtain ⟨⟨next, begun⟩, hbegin, h⟩ := Option.bind_eq_some_iff.mp h
        exact Option.some.inj h ▸ (kill_begin_moves hs hkill hbegin).setPend false
      · exact Option.some.inj h ▸ hs.refl.setPend false
    · exact Option.some.inj h ▸ hs.refl.setPend false
  · exact Option.some.inj h ▸ hs.refl

theorem inlineSwitch_moves {currentTime : BitVec 32} {s s' : AtsState} {switched : Bool}
    (hs : s.Sound) (h : inlineSwitch currentTime s = some (s', switched)) : s.Moves s' := by
  obtain ⟨a, -, h⟩ := Option.bind_eq_some_iff.mp h
  split at h
  · obtain ⟨killed, hkill, h⟩ := Option.bind_eq_some_iff.mp h
    obtain ⟨⟨next, begun⟩, hbegin, h⟩ := Option.bind_eq_some_iff.mp h
    cases h
    exact (kill_begin_moves hs hkill hbegin).setPend false
  · cases h
    exact hs.refl.setPend false

theorem jumpMark_ne_empty (status : Status) (h : status ≠ .empty) : jumpMark status ≠ .empty := by
  rw [jumpMark]
  split
  · nofun
  · exact h

theorem jumpMark_loaded (status : Status) (h : jumpMark status = .loaded) : status = .loaded := by
  rw [jumpMark] at h
  split at h
  · cases h
  · exact h

theorem jumpAtsCmd_moves {jumpTime : BitVec 32} {s s' : AtsState} (hs : s.Sound)
    (h : jumpAtsCmd jumpTime s = some s') : s.Moves s' := by
  rw [jumpAtsCmd] at h
  split at h
  · obtain ⟨a, ha, h⟩ := Option.bind_eq_some_iff.mp h
    obtain ⟨⟨d, found⟩, hskip, h⟩ := Option.bind_eq_some_iff.mp h
    have hindexed : (s.ats a).numberOfCommands ≠ 0 → ∃ table, (s.ats a).Indexed table :=
      (hs.ready a).resolve_left
    obtain ⟨hremarked, hfound⟩ := skipLoop_spec jumpMark_ne_empty jumpMark_loaded hindexed hskip
    cases found with
    | none =>
      obtain ⟨hmoves, -⟩ := killAts_moves h
      exact ⟨fun b => (remarked_setAts hremarked b).trans (hmoves.remarked b), hmoves.control,
        hmoves.appendTbl, hmoves.appendEntryCount, hmoves.appendWordCount⟩
    | some entry =>
      cases h
      refine ⟨remarked_setAts hremarked, fun _ => ?_, rfl, rfl, rfl⟩
      obtain ⟨i, hpoints⟩ := hfound entry rfl
      exact ⟨a, i, ha, by simpa [AtsState.setAts] using hpoints⟩
  · exact Option.some.inj h ▸ hs.refl

theorem AtsState.PointsAtEntry.remarked {s s' : AtsState} (h : s.PointsAtEntry)
    (hremarked : ∀ a, (s.ats a).Remarked (s'.ats a)) (hats : s'.atsNumber = s.atsNumber)
    (hptr : s'.timeIndexPtr = s.timeIndexPtr) (hcmd : s'.cmdNumber = s.cmdNumber)
    (htime : s'.nextCmdTime = s.nextCmdTime) : s'.PointsAtEntry := by
  obtain ⟨a, i, ha, hpoints⟩ := h
  refine ⟨a, i, hats ▸ ha, ?_⟩
  rw [hptr, hcmd, htime]
  exact hpoints.remarked (hremarked a)

/-- Marking a command that is in use. -/
theorem AtsState.Moves.setCmdStatus {s s' : AtsState} (h : s.Moves s') {a : AtsIndex}
    {i : CmdIndex} {status : Status} (hold : (s.ats a).cmdStatus i ≠ .empty)
    (hempty : status ≠ .empty) (hloaded : status ≠ .loaded) :
    s.Moves (s'.setCmdStatus a i status) := by
  have hold' : (s'.ats a).cmdStatus i ≠ .empty := fun he => hold (((h.remarked a).empty i).mp he)
  have hremarked := remarked_setAts (s := s') (a := a)
    (AtsData.remarked_update hold' hempty fun hl => absurd hl hloaded)
  exact ⟨fun b => (h.remarked b).trans (hremarked b),
    fun hstate => (h.control hstate).remarked hremarked rfl rfl rfl rfl,
    h.appendTbl, h.appendEntryCount, h.appendWordCount⟩

theorem getNextAtsCommand_moves {s s' : AtsState} (hs : s.Sound)
    (h : getNextAtsCommand s = some s') : s.Moves s' := by
  rw [getNextAtsCommand] at h
  split at h
  · obtain ⟨a, ha, h⟩ := Option.bind_eq_some_iff.mp h
    dsimp only at h
    split at h
    case isTrue hmore =>
      obtain ⟨cmdNumber, hlisted, h⟩ := Option.bind_eq_some_iff.mp h
      obtain ⟨time, htime, h⟩ := Option.bind_eq_some_iff.mp h
      obtain ⟨i, hi, htime⟩ := Option.bind_eq_some_iff.mp htime
      cases h
      obtain hnone | ⟨table, hindexed⟩ := hs.ready a
      · rw [hnone] at hmore
        cases hmore
      · exact ⟨fun _ => .refl _, fun _ => ⟨a, i, ha, hindexed.points hlisted hi htime⟩,
          rfl, rfl, rfl⟩
    case isFalse =>
      obtain ⟨killed, hkill, h⟩ := Option.bind_eq_some_iff.mp h
      exact Option.some.inj h ▸ (killAts_moves hkill).1.setPend false
  · split at h
    case isTrue hstarting =>
      cases h
      exact ⟨fun _ => .refl _, fun _ => hs.control (.inr hstarting), rfl, rfl, rfl⟩
    case isFalse => exact Option.some.inj h ▸ hs.refl

/-- A command that went out was loaded, no longer is, and was the one the control
block stood on. -/
structure SentOnce (s s' : AtsState) (entry : AtsSent) : Prop where
  loaded : (s.ats entry.ats).cmdStatus entry.cmd = .loaded
  marked : (s'.ats entry.ats).cmdStatus entry.cmd ≠ .loaded
  timeTag : entry.timeTag = s.nextCmdTime

theorem setCmdStatus_ne {s : AtsState} {a : AtsIndex} {i : CmdIndex} {status : Status}
    (h : status ≠ .loaded) : ((s.setCmdStatus a i status).ats a).cmdStatus i ≠ .loaded := by
  simpa [AtsState.setCmdStatus, AtsState.setAts] using h

theorem executeAtsCmd_moves {accepted : Bool} {currentTime : BitVec 32} {a : AtsIndex}
    {i : CmdIndex} {words : List Word} {entryIndex : Nat} {s : AtsState} {outcome : AtpOutcome}
    (hs : s.Sound) (hloaded : (s.ats a).cmdStatus i = .loaded)
    (htime : getAtsEntryTime words entryIndex = some s.nextCmdTime)
    (h : executeAtsCmd accepted currentTime a i words entryIndex s = some outcome) :
    s.Moves outcome.state ∧ ∀ entry, outcome.sent = some entry →
      SentOnce s outcome.state entry := by
  have hold : (s.ats a).cmdStatus i ≠ .empty := by
    rw [hloaded]
    nofun
  obtain ⟨messageId, -, h⟩ := Option.bind_eq_some_iff.mp h
  obtain ⟨commandCode, -, h⟩ := Option.bind_eq_some_iff.mp h
  rw [htime, Option.bind_eq_bind, Option.bind_some] at h
  split at h
  · obtain ⟨⟨next, switched⟩, hswitch, h⟩ := Option.bind_eq_some_iff.mp h
    cases h
    refine ⟨(inlineSwitch_moves hs hswitch).setCmdStatus hold ?_ ?_, nofun⟩ <;>
      cases switched <;> nofun
  · split at h <;> cases h
    all_goals
      refine ⟨hs.refl.setCmdStatus hold nofun nofun, fun entry hentry => ?_⟩
      cases hentry
      exact ⟨hloaded, setCmdStatus_ne nofun, rfl⟩

theorem attemptAtsCmd_moves {accepted : Bool} {currentTime : BitVec 32} {s : AtsState}
    {outcome : AtpOutcome} (hs : s.Sound) (hexecuting : s.atpState = .executing)
    (h : attemptAtsCmd accepted currentTime s = some outcome) :
    s.Moves outcome.state ∧ ∀ entry, outcome.sent = some entry →
      SentOnce s outcome.state entry := by
  obtain ⟨a, ha, h⟩ := Option.bind_eq_some_iff.mp h
  obtain ⟨i, hi, h⟩ := Option.bind_eq_some_iff.mp h
  split at h
  case isTrue hloaded =>
    obtain ⟨table, htable, h⟩ := Option.bind_eq_some_iff.mp h
    obtain ⟨entryIndex, hentry, h⟩ := Option.bind_eq_some_iff.mp h
    obtain ⟨cmdNumber, -, h⟩ := Option.bind_eq_some_iff.mp h
    split at h
    · obtain ⟨b, j, hb, hpoints⟩ := hs.control (.inl hexecuting)
      obtain rfl := Option.some.inj (ha.symm.trans hb)
      have hnumber := atsCmdNumToIndex_eq_some hi
      obtain rfl : j = i := Fin.ext (by have := hpoints.number; omega)
      have htime := hpoints.time
      rw [AtsData.entryTime_eq htable hentry] at htime
      exact executeAtsCmd_moves hs hloaded htime h
    · cases h
      exact ⟨hs.refl.setCmdStatus (by rw [hloaded]; nofun) nofun nofun, nofun⟩
  case isFalse =>
    cases h
    exact ⟨hs.refl, nofun⟩

/-- What `SC_ProcessAtpCmd` sends is due. -/
theorem processAtpCmd_moves {accepted : Bool} {currentTime : BitVec 32} {s : AtsState}
    {outcome : AtpOutcome} (hs : s.Sound)
    (h : processAtpCmd accepted currentTime s = some outcome) :
    s.Moves outcome.state ∧ ∀ entry, outcome.sent = some entry →
      SentOnce s outcome.state entry ∧ compareAbsTime s.nextCmdTime currentTime = false := by
  rw [processAtpCmd] at h
  split at h
  case isTrue hready =>
    obtain ⟨attempt, hattempt, h⟩ := Option.bind_eq_some_iff.mp h
    obtain ⟨hmoves, hsent⟩ := attemptAtsCmd_moves hs hready.2 hattempt
    have hend : ∀ next, attempt.state.Moves next → s.Moves next ∧ ∀ entry,
        attempt.sent = some entry →
          SentOnce s next entry ∧ compareAbsTime s.nextCmdTime currentTime = false := by
      refine fun next hnext => ⟨hmoves.trans hnext, fun entry hentry => ⟨?_, hready.1⟩⟩
      have honce := hsent entry hentry
      exact ⟨honce.loaded, fun hl => honce.marked ((hnext.remarked _).quiet _ hl), honce.timeTag⟩
    split at h
    · obtain ⟨killed, hkill, h⟩ := Option.bind_eq_some_iff.mp h
      cases h
      exact hend _ ((killAts_moves hkill).1.setPend false)
    · obtain ⟨next, hnext, h⟩ := Option.bind_eq_some_iff.mp h
      cases h
      exact hend _ (getNextAtsCommand_moves (hmoves.sound hs) hnext)
  case isFalse =>
    cases h
    exact ⟨hs.refl, nofun⟩

/-- An entry is read the same in any words that hold the same there. -/
theorem EntryAt.congr {words words' : List Word} {bufferWords base : Nat} {i : CmdIndex}
    {o size : Nat} (hsame : ∀ k < bufferWords, words'[base + k]? = words[k]?)
    (h : EntryAt words bufferWords i o size) :
    EntryAt words' (base + bufferWords) i (base + o) size := by
  have hheader := h.header_fits
  have hwords : 3 < SC_ATS_HDR_WORDS := by decide
  have hnumber : atsCmdNumber words' (base + o) = atsCmdNumber words o :=
    congrArg (Option.map _) (hsame o (by omega))
  have hsize : atsMsgSize words' (base + o) = atsMsgSize words o := by
    refine congrArg (Option.map _) ?_
    have hlast : o + SC_ATS_HDR_NOPKT_WORDS + 1 < bufferWords := Nat.lt_of_succ_le hheader
    rw [Nat.add_assoc base, Nat.add_assoc base]
    exact hsame _ hlast
  have hfits := h.fits
  exact ⟨hnumber.trans h.number, by omega, hsize ▸ h.packet⟩

/-- The commands of the entries from an offset on. -/
def entryCommands (words : List Word) : Nat → Nat → List CmdIndex
  | 0, _ => []
  | count + 1, o =>
    match (atsCmdNumber words o).bind atsCmdNumToIndex, atsMsgSize words o with
    | some i, some bytes =>
      i :: entryCommands words count (o + (SC_ATS_HDR_NOPKT_WORDS + wordsOf bytes))
    | _, _ => []

theorem entryCommands_cons {words : List Word} {bufferWords count : Nat} {i : CmdIndex}
    {o size : Nat} (h : EntryAt words bufferWords i o size) :
    entryCommands words (count + 1) o = i :: entryCommands words count (o + size) := by
  obtain ⟨bytes, hbytes, -, -, rfl⟩ := h.packet
  rw [entryCommands, h.number, Option.bind_some, atsCmdNumToIndex_succ, hbytes]

theorem Entries.congr {words words' : List Word} {base count o o' : Nat}
    (hsame : ∀ k < o', words'[base + k]? = words[k]?) (h : Entries words count o o') :
    Entries words' count (base + o) (base + o') ∧
      entryCommands words' count (base + o) = entryCommands words count o := by
  induction count generalizing o with
  | zero => exact ⟨congrArg (base + ·) h, rfl⟩
  | succ count ih =>
    obtain ⟨i, size, hentry, hrest⟩ := h
    obtain ⟨hrest', hcommands⟩ := ih hrest
    rw [← Nat.add_assoc] at hrest' hcommands
    have hentry' := hentry.congr hsame
    exact ⟨⟨i, size, hentry', hrest'⟩, by
      rw [entryCommands_cons hentry, entryCommands_cons hentry', hcommands]⟩

/-- One appended entry, new or in the place of an old one. -/
def AtsData.appendEntry (d : AtsData) (i : CmdIndex) (o : Nat) : AtsData :=
  { d with
    numberOfCommands :=
      if d.cmdStatus i = .empty then d.numberOfCommands + 1 else d.numberOfCommands
    cmdIndex := update d.cmdIndex i (some o)
    cmdStatus := update d.cmdStatus i .loaded }

theorem AtsData.used_appendEntry {d : AtsData} {table : AtsTable} (hd : d.Coherent table)
    (i : CmdIndex) (o : Nat) :
    (d.appendEntry i o).numberOfCommands = (d.appendEntry i o).used.card := by
  by_cases hnew : d.cmdStatus i = .empty
  · have hadd := AtsData.used_card_addEntry ((hd.status i).mp hnew) o
    rw [← hd.used] at hadd
    exact (if_pos hnew).trans hadd.symm
  · have hused : (d.appendEntry i o).used = d.used := by
      ext j
      rw [AtsData.mem_used, AtsData.mem_used, AtsData.appendEntry]
      by_cases hj : j = i
      · subst hj
        have hsome := Option.isSome_iff_ne_none.mpr fun h => hnew ((hd.status j).mpr h)
        simp [hsome]
      · simp [update_of_ne hj]
    rw [hused, ← hd.used]
    exact if_neg hnew

theorem AtsData.Coherent.appendEntry {d : AtsData} {table : AtsTable} {i : CmdIndex} {o size : Nat}
    (hd : d.Coherent table) (hentry : EntryAt table.cells d.atsSize i o size) :
    (d.appendEntry i o).Coherent table where
  tbl := hd.tbl
  inside := hd.inside
  status j := by
    rw [AtsData.appendEntry]
    by_cases hj : j = i
    · subst hj
      simp
    · simpa [update_of_ne hj] using hd.status j
  used := AtsData.used_appendEntry hd i o
  entries j off hoff := by
    by_cases hj : j = i
    · subst hj
      simp only [AtsData.appendEntry, update_self] at hoff
      obtain rfl := Option.some.inj hoff
      exact ⟨size, hentry⟩
    · simp only [AtsData.appendEntry, update_of_ne hj] at hoff
      exact hd.entries j off hoff

/-- The appended entries become part of the ATS, and nothing else is loaded. -/
theorem appendLoop_spec {table : AtsTable} {count o : Nat} {d d' : AtsData}
    (hd : d.Coherent table) (he : Entries table.cells count o d.atsSize)
    (h : appendLoop table.cells count o d = some d') :
    d'.Coherent table ∧ ∀ i, d'.cmdStatus i = .loaded →
      d.cmdStatus i = .loaded ∨ i ∈ entryCommands table.cells count o := by
  induction count generalizing o d with
  | zero =>
    cases h
    exact ⟨hd, fun i => .inl⟩
  | succ count ih =>
    obtain ⟨i, size, hentry, hrest⟩ := he
    obtain ⟨bytes, hbytes, -, -, hsize⟩ := hentry.packet
    rw [appendLoop, hentry.number, Option.bind_eq_bind, Option.bind_some, atsCmdNumToIndex_succ,
      Option.bind_eq_bind, Option.bind_some, hbytes, Option.bind_some, ← hsize] at h
    obtain ⟨hcoherent, hloaded⟩ := ih (hd.appendEntry hentry) hrest h
    refine ⟨hcoherent, fun j hj => ?_⟩
    rw [entryCommands_cons hentry]
    obtain hj | hj := hloaded j hj
    · by_cases hij : j = i
      · exact .inr (hij ▸ List.mem_cons_self)
      · simp only [AtsData.appendEntry, update_of_ne hij] at hj
        exact .inl hj
    · exact .inr (List.mem_cons_of_mem i hj)

theorem buildTimeIndexTable_indexed {d d' : AtsData} {table : AtsTable} (hd : d.Coherent table)
    (h : buildTimeIndexTable d = some d') : d'.Indexed table ∧ d'.cmdStatus = d.cmdStatus := by
  obtain ⟨timeIndex, hbuild, hlength, hnumbers⟩ := 
    buildTimeIndexTable_spec (AtsData.timed_of_entries hd.tbl hd.inside hd.entries)
  obtain rfl := Option.some.inj (hbuild.symm.trans h)
  exact ⟨⟨⟨hd.tbl, hd.inside, hd.status, hd.used, hd.entries⟩, hlength.trans hd.used.symm,
    hnumbers⟩, rfl⟩

theorem patch_getElem_before {cells new : List Word} {offset k : Nat} (h : k < offset)
    (hle : offset ≤ cells.length) : (patch cells offset new)[k]? = cells[k]? := by
  rw [patch, List.append_assoc, List.getElem?_append_left (by rw [List.length_take]; omega),
    List.getElem?_take_of_lt h]

theorem patch_getElem_inside {cells new : List Word} {offset k : Nat} (h : k < new.length)
    (hle : offset ≤ cells.length) : (patch cells offset new)[offset + k]? = new[k]? := by
  have hlen : (cells.take offset).length = offset := by
    rw [List.length_take]
    omega
  rw [patch, List.append_assoc, List.getElem?_append_right (by omega), hlen,
    Nat.add_sub_cancel_left, List.getElem?_append_left h]

/-- The table after the copy of an append: the old words in front of the place, the appended ones
from there on. The entries are then read from it. -/
theorem appendEntries_cases {append : AppendTable} {entryCount wordCount : Nat} {table : AtsTable}
    {d d' : AtsData} (htbl : d.tbl = some table) (hsize : d.atsSize ≤ SC_ATS_BUFF_SIZE32)
    (hwords : wordCount ≤ SC_APPEND_BUFF_SIZE32)
    (h : appendEntries append entryCount wordCount d = some d') :
    ∃ written : AtsTable, ∃ appended, d.atsSize + wordCount ≤ SC_ATS_BUFF_SIZE32 ∧
      (∀ k < d.atsSize, written.cells[k]? = table.cells[k]?) ∧
      (∀ k < wordCount, written.cells[d.atsSize + k]? = append.cells[k]?) ∧
      appendLoop written.cells entryCount d.atsSize
        { d with tbl := some written, atsSize := d.atsSize + wordCount } = some appended ∧
      buildTimeIndexTable appended = some d' := by
  rw [appendEntries, htbl, Option.bind_eq_bind, Option.bind_some] at h
  obtain ⟨written, hwrite, h⟩ := Option.bind_eq_some_iff.mp h
  obtain ⟨appended, hloop, h⟩ := Option.bind_eq_some_iff.mp h
  obtain ⟨hfits, hcells⟩ := Buffer.write_cases hwrite
  have hcopied : (append.cells.take wordCount).length = wordCount := by
    rw [List.length_take, append.length_cells]
    omega
  rw [hcopied] at hfits
  have hlen : d.atsSize ≤ table.cells.length := by
    rw [table.length_cells]
    exact hsize
  refine ⟨written, appended, hfits, fun k hk => ?_, fun k hk => ?_, hloop, h⟩
  · rw [hcells]
    exact patch_getElem_before hk hlen
  · have hk' : k < (append.cells.take wordCount).length := by
      rw [hcopied]
      exact hk
    rw [hcells, patch_getElem_inside hk' hlen, List.getElem?_take_of_lt hk]

/-- Appending keeps the structures of an ATS in agreement. -/
theorem appendEntries_spec {append : AppendTable} {entryCount wordCount : Nat} {table : AtsTable}
    {d d' : AtsData} (hd : d.Indexed table) (hwords : wordCount ≤ SC_APPEND_BUFF_SIZE32)
    (he : Entries append.cells entryCount 0 wordCount)
    (h : appendEntries append entryCount wordCount d = some d') :
    (∃ table, d'.Indexed table) ∧ ∀ i, d'.cmdStatus i = .loaded →
      d.cmdStatus i = .loaded ∨ i ∈ entryCommands append.cells entryCount 0 := by
  obtain ⟨written, appended, hfits, hbefore, hinside, hloop, hbuild⟩ :=
    appendEntries_cases hd.tbl hd.inside hwords h
  obtain ⟨hentries, hcommands⟩ := he.congr hinside
  have hcoherent : ({ d with tbl := some written, atsSize := d.atsSize + wordCount } :
      AtsData).Coherent written := by
    refine ⟨rfl, hfits, hd.status, hd.used, fun i off hoff => ?_⟩
    obtain ⟨size, hentry⟩ := hd.entries i off hoff
    have hsame : ∀ k < d.atsSize, written.cells[0 + k]? = table.cells[k]? := fun k hk => by
      rw [Nat.zero_add]
      exact hbefore k hk
    have hentry' := hentry.congr hsame
    rw [Nat.zero_add, Nat.zero_add] at hentry'
    exact ⟨size, hentry'.mono (Nat.le_add_right _ _)⟩
  obtain ⟨happended, hloaded⟩ := appendLoop_spec hcoherent hentries hloop
  obtain ⟨hindexed, hstatus⟩ := buildTimeIndexTable_indexed happended hbuild
  refine ⟨⟨written, hindexed⟩, fun i hi => ?_⟩
  rw [hstatus] at hi
  exact (hloaded i hi).imp_right fun hmem => hcommands ▸ hmem

theorem beginAtsAs_state {status : Status} {currentTime timeOffset : BitVec 32} {a : AtsIndex}
    {s s' : AtsState} {begun : Bool}
    (h : beginAtsAs status currentTime a timeOffset s = some (s', begun)) :
    s'.atpState = status ∨ s'.atpState = .idle := by
  obtain ⟨⟨mid, begun'⟩, hbegin, h⟩ := Option.bind_eq_some_iff.mp h
  obtain ⟨⟨d, found⟩, -, hbegin⟩ := Option.bind_eq_some_iff.mp hbegin
  cases found with
  | none =>
    obtain ⟨killed, hkill, hbegin⟩ := Option.bind_eq_some_iff.mp hbegin
    cases hbegin
    cases h
    exact .inr (killAts_moves hkill).2
  | some entry =>
    cases hbegin
    cases h
    exact .inl rfl

/-- Between two requests no inline switch is under way. -/
structure AtsState.Settled (s : AtsState) : Prop where
  sound : s.Sound
  state : s.atpState ≠ .starting

theorem AtsState.Moves.settled {s s' : AtsState} (h : s.Moves s') (hs : s.Settled)
    (hstate : s'.atpState ≠ .starting) : s'.Settled := ⟨h.sound hs.sound, hstate⟩

theorem state_ne_of_begin {s : AtsState}
    (h : s.atpState = .executing ∨ s.atpState = .idle) : s.atpState ≠ .starting := by
  rcases h with h | h <;> rw [h] <;> nofun

theorem startAtsCmd_state {currentTime : BitVec 32} {atsId : Nat} {s s' : AtsState}
    (hs : s.atpState ≠ .starting) (h : startAtsCmd currentTime atsId s = some s') :
    s'.atpState ≠ .starting := by
  rw [startAtsCmd] at h
  split at h
  · exact Option.some.inj h ▸ hs
  · split at h
    · split at h
      · obtain ⟨⟨next, begun⟩, hbegin, h⟩ := Option.bind_eq_some_iff.mp h
        exact Option.some.inj h ▸ state_ne_of_begin (beginAtsAs_state hbegin)
      · exact Option.some.inj h ▸ hs
    · exact Option.some.inj h ▸ hs

theorem stopAtsCmd_state {s s' : AtsState} (h : stopAtsCmd s = some s') :
    s'.atpState ≠ .starting := by
  obtain ⟨killed, hkill, h⟩ := Option.bind_eq_some_iff.mp h
  exact Option.some.inj h ▸ state_ne_of_begin (.inr (killAts_moves hkill).2)

theorem groundSwitchCmd_state {s s' : AtsState} (hs : s.atpState ≠ .starting)
    (h : groundSwitchCmd s = some s') : s'.atpState ≠ .starting := by
  rw [groundSwitchCmd] at h
  split at h
  · obtain ⟨a, -, h⟩ := Option.bind_eq_some_iff.mp h
    exact Option.some.inj h ▸ hs
  · exact Option.some.inj h ▸ hs

theorem serviceSwitchPend_state {currentTime : BitVec 32} {s s' : AtsState}
    (hs : s.atpState ≠ .starting) (h : serviceSwitchPend currentTime s = some s') :
    s'.atpState ≠ .starting := by
  rw [serviceSwitchPend] at h
  split at h
  · split at h
    · obtain ⟨a, -, h⟩ := Option.bind_eq_some_iff.mp h
      split at h
      · obtain ⟨killed, -, h⟩ := Option.bind_eq_some_iff.mp h
        obtain ⟨⟨next, begun⟩, hbegin, h⟩ := Option.bind_eq_some_iff.mp h
        have hnext := state_ne_of_begin (beginAtsAs_state hbegin)
        exact Option.some.inj h ▸ hnext
      · exact Option.some.inj h ▸ hs
    · exact Option.some.inj h ▸ hs
  · exact Option.some.inj h ▸ hs

theorem jumpAtsCmd_state {jumpTime : BitVec 32} {s s' : AtsState} (hs : s.atpState ≠ .starting)
    (h : jumpAtsCmd jumpTime s = some s') : s'.atpState ≠ .starting := by
  rw [jumpAtsCmd] at h
  split at h
  · obtain ⟨a, -, h⟩ := Option.bind_eq_some_iff.mp h
    obtain ⟨⟨d, found⟩, -, h⟩ := Option.bind_eq_some_iff.mp h
    cases found with
    | none => exact state_ne_of_begin (.inr (killAts_moves h).2)
    | some entry =>
      cases h
      exact hs
  · exact Option.some.inj h ▸ hs

theorem getNextAtsCommand_state {s s' : AtsState} (h : getNextAtsCommand s = some s') :
    s'.atpState ≠ .starting := by
  rw [getNextAtsCommand] at h
  split at h
  case isTrue hexecuting =>
    obtain ⟨a, -, h⟩ := Option.bind_eq_some_iff.mp h
    dsimp only at h
    split at h
    · obtain ⟨cmdNumber, -, h⟩ := Option.bind_eq_some_iff.mp h
      obtain ⟨time, -, h⟩ := Option.bind_eq_some_iff.mp h
      cases h
      exact state_ne_of_begin (.inl hexecuting)
    · obtain ⟨killed, hkill, h⟩ := Option.bind_eq_some_iff.mp h
      exact Option.some.inj h ▸ state_ne_of_begin (.inr (killAts_moves hkill).2)
  case isFalse =>
    split at h
    case isTrue =>
      cases h
      nofun
    case isFalse hother => exact Option.some.inj h ▸ hother

theorem processAtpCmd_state {accepted : Bool} {currentTime : BitVec 32} {s : AtsState}
    {outcome : AtpOutcome} (hs : s.atpState ≠ .starting)
    (h : processAtpCmd accepted currentTime s = some outcome) :
    outcome.state.atpState ≠ .starting := by
  rw [processAtpCmd] at h
  split at h
  · obtain ⟨attempt, -, h⟩ := Option.bind_eq_some_iff.mp h
    split at h
    · obtain ⟨killed, hkill, h⟩ := Option.bind_eq_some_iff.mp h
      exact Option.some.inj h ▸ state_ne_of_begin (.inr (killAts_moves hkill).2)
    · obtain ⟨next, hnext, h⟩ := Option.bind_eq_some_iff.mp h
      exact Option.some.inj h ▸ getNextAtsCommand_state hnext
  · exact Option.some.inj h ▸ hs

/-- New structures for one ATS, which the control block does not stand on. -/
theorem AtsState.Sound.setAts {s : AtsState} (hs : s.Sound) {a : AtsIndex} {d : AtsData}
    (hd : d.Ready)
    (hother : s.atpState = .executing ∨ s.atpState = .starting → s.atsNumber ≠ a.val + 1) :
    (s.setAts a d).Sound where
  ready b := by
    rw [AtsState.setAts]
    by_cases hb : b = a
    · subst hb
      simpa using hd
    · simpa [update_of_ne hb] using hs.ready b
  control hstate := by
    obtain ⟨b, i, hb, hpoints⟩ := hs.control hstate
    have hne : b ≠ a := by
      rintro rfl
      rw [atsNumToIndex] at hb
      split at hb
      · have hval := congrArg Fin.val (Option.some.inj hb)
        have := hother hstate
        simp only at hval
        omega
      · cases hb
    exact ⟨b, i, hb, by simpa [AtsState.setAts, update_of_ne hne] using hpoints⟩
  append := hs.append

/-- The append command is accepted for an ATS in use that has room for what there is to append. -/
def AtsState.TakesAppend (s : AtsState) (a : AtsIndex) : Prop :=
  (s.ats a).numberOfCommands ≠ 0 ∧ s.appendEntryCount ≠ 0 ∧
    (s.ats a).atsSize + s.appendWordCount ≤ SC_ATS_BUFF_SIZE32

instance (s : AtsState) (a : AtsIndex) : Decidable (s.TakesAppend a) :=
  inferInstanceAs (Decidable (_ ∧ _ ∧ _))

/-- An append that is not accepted does nothing; any other one appends to the ATS and then
begins it again where it executes. -/
theorem appendAtsCmd_cases {currentTime : BitVec 32} {atsId : Nat} {s s' : AtsState}
    (h : appendAtsCmd currentTime atsId s = some s') :
    (s' = s ∧ ∀ a, atsNumToIndex atsId = some a → ¬ s.TakesAppend a) ∨
    ∃ a append d, atsNumToIndex atsId = some a ∧ s.TakesAppend a ∧
      s.appendTbl = some append ∧
      appendEntries append s.appendEntryCount s.appendWordCount (s.ats a) = some d ∧
      if s.atpState = .executing ∧ s.atsNumber = a.val + 1 then
        ∃ begun, beginAtsAs .executing currentTime a 0 (s.setAts a d) = some (s', begun)
      else s' = s.setAts a d := by
  rw [appendAtsCmd] at h
  split at h
  case h_1 hnone => exact .inl ⟨(Option.some.inj h).symm, fun a ha => nomatch hnone.symm.trans ha⟩
  case h_2 a ha =>
    have hrefused (hno : ¬ s.TakesAppend a) : ∀ b, some a = some b → ¬ s.TakesAppend b := by
      rintro b ⟨⟩
      exact hno
    rw [ha]
    split at h
    case isTrue hunused =>
      exact .inl ⟨(Option.some.inj h).symm, hrefused fun htakes => htakes.1 hunused⟩
    case isFalse hused =>
      split at h
      case isTrue hnothing =>
        exact .inl ⟨(Option.some.inj h).symm, hrefused fun htakes => htakes.2.1 hnothing⟩
      case isFalse hcount =>
        split at h
        case isTrue hfull =>
          refine .inl ⟨(Option.some.inj h).symm, hrefused fun htakes => ?_⟩
          exact Nat.not_lt.mpr htakes.2.2 hfull
        case isFalse hroom =>
          obtain ⟨append, happend, h⟩ := Option.bind_eq_some_iff.mp h
          obtain ⟨d, hentries, h⟩ := Option.bind_eq_some_iff.mp h
          refine .inr ⟨a, append, d, rfl, ⟨hused, hcount, Nat.not_lt.mp hroom⟩, happend, hentries,
            ?_⟩
          dsimp only at h
          split at h
          case isTrue hexecuting =>
            have hexecuting : s.atpState = .executing ∧ s.atsNumber = a.val + 1 := hexecuting
            rw [if_pos hexecuting]
            obtain ⟨⟨next, begun⟩, hbegin, h⟩ := Option.bind_eq_some_iff.mp h
            obtain rfl := Option.some.inj h
            exact ⟨begun, hbegin⟩
          case isFalse hother =>
            have hother : ¬ (s.atpState = .executing ∧ s.atsNumber = a.val + 1) := hother
            rw [if_neg hother]
            exact (Option.some.inj h).symm

/-- What an append does to the statuses: only its own commands get loaded. -/
theorem appendAtsCmd_settled {currentTime : BitVec 32} {atsId : Nat} {s s' : AtsState}
    (hs : s.Settled) (h : appendAtsCmd currentTime atsId s = some s') :
    s'.Settled ∧ ∀ a i, (s'.ats a).cmdStatus i = .loaded → (s.ats a).cmdStatus i = .loaded ∨
      (atsNumToIndex atsId = some a ∧ (s.ats a).numberOfCommands ≠ 0 ∧
        (s.ats a).atsSize + s.appendWordCount ≤ SC_ATS_BUFF_SIZE32 ∧
        ∃ table, s.appendTbl = some table ∧
          i ∈ entryCommands table.cells s.appendEntryCount 0) := by
  rcases appendAtsCmd_cases h with ⟨rfl, -⟩ |
    ⟨a, append, d, ha, ⟨hused, hcount, hroom⟩, happend, hentries, hend⟩
  · exact ⟨hs, fun _ _ => .inl⟩
  · obtain ⟨table, hindexed⟩ := (hs.sound.ready a).resolve_left hused
    obtain ⟨append', happend', hwords, he⟩ := hs.sound.append hcount
    obtain rfl := Option.some.inj (happend.symm.trans happend')
    obtain ⟨hindexed', hloaded⟩ := appendEntries_spec hindexed hwords he hentries
    have hready : d.Ready := .inr hindexed'
    have hset : ∀ b i, ((s.setAts a d).ats b).cmdStatus i = .loaded →
        (s.ats b).cmdStatus i = .loaded ∨ (some a = some b ∧ (s.ats b).numberOfCommands ≠ 0 ∧
          (s.ats b).atsSize + s.appendWordCount ≤ SC_ATS_BUFF_SIZE32 ∧
          ∃ table, s.appendTbl = some table ∧
            i ∈ entryCommands table.cells s.appendEntryCount 0) := by
      intro b i hi
      by_cases hb : b = a
      · subst hb
        simp only [AtsState.setAts, update_self] at hi
        exact (hloaded i hi).imp_right fun hmem => ⟨rfl, hused, hroom, append, happend, hmem⟩
      · simp only [AtsState.setAts, update_of_ne hb] at hi
        exact .inl hi
    rw [ha]
    split at hend
    case isTrue =>
      obtain ⟨begun, hbegin⟩ := hend
      have hreadySet : ((s.setAts a d).ats a).Ready := by
        simpa [AtsState.setAts] using hready
      have hmoves := beginAtsAs_moves hreadySet hbegin
      have hstate := state_ne_of_begin (beginAtsAs_state hbegin)
      refine ⟨⟨⟨fun b => (hmoves.remarked b).ready ?_, hmoves.control, fun hcount => ?_⟩,
        hstate⟩, fun b i hi => hset b i ((hmoves.remarked b).quiet i hi)⟩
      · by_cases hb : b = a
        · exact hb ▸ hreadySet
        · simpa [AtsState.setAts, update_of_ne hb] using hs.sound.ready b
      · rw [hmoves.appendTbl, hmoves.appendEntryCount, hmoves.appendWordCount]
        exact hs.sound.append (hmoves.appendEntryCount ▸ hcount)
    case isFalse hother =>
      obtain rfl := hend
      refine ⟨⟨hs.sound.setAts hready fun hstate hnumber => hother ⟨?_, hnumber⟩, hs.state⟩,
        hset⟩
      exact hstate.resolve_right hs.state

end Nos3.Sc
