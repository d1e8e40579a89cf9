import Nos3.Sc.Guarantees.AtsRuns
import Nos3.Sc.Guarantees.RtsExecution

/-!
# States the processing never fails in

Every reachable state names an ATS and a command whenever the ATP is not idle,
keeps the structures of both sequences readable and points into the table of
every executing RTS. No read of the processing then leaves a table or an array,
also where a load left the control block behind.
-/
namespace Nos3.Sc
open Function (update update_self update_of_ne)
open Base.Transition

/-! ## One sequence -/

/-- An ATS holds no command, or its structures agree. -/
def AtsData.Usable (d : AtsData) : Prop :=
  (d.numberOfCommands = 0 ∧ ∀ i, d.cmdStatus i = .empty) ∨ ∃ table, d.Indexed table

theorem AtsData.Usable.ready {d : AtsData} (h : d.Usable) : d.Ready := h.imp_left And.left

theorem AtsData.Usable.indexed {d : AtsData} (h : d.Usable) (hcommands : d.numberOfCommands ≠ 0) :
    ∃ table, d.Indexed table := h.resolve_left fun hempty => hcommands hempty.1

theorem AtsData.Usable.indexed_of_status {d : AtsData} (h : d.Usable) {i : CmdIndex}
    (hi : d.cmdStatus i ≠ .empty) : ∃ table, d.Indexed table :=
  h.resolve_left fun hempty => hi (hempty.2 i)

theorem AtsData.Remarked.usable {d d' : AtsData} (h : d.Remarked d') (hd : d.Usable) :
    d'.Usable :=
  hd.imp (fun hempty => ⟨h.numberOfCommands.trans hempty.1, fun i => (h.empty i).mpr (hempty.2 i)⟩)
    fun ⟨table, hindexed⟩ => ⟨table, h.indexed hindexed⟩

/-- Every place of the time index leads to a time tag. -/
theorem AtsData.Indexed.listed {d : AtsData} {table : AtsTable} (hd : d.Indexed table) {k : Nat}
    (hk : k < d.numberOfCommands) : ∃ cmdNumber i time, d.timeIndex[k]? = some cmdNumber ∧
      atsCmdNumToIndex cmdNumber = some i ∧ d.entryTime i = some time := by
  have hinside : k < d.timeIndex.length := hd.indexed ▸ hk
  obtain ⟨i, hnumber, hused⟩ := hd.numbers _ (List.getElem_mem hinside)
  obtain ⟨time, htime⟩ := Option.isSome_iff_exists.mp
    (AtsData.timed_of_entries hd.tbl hd.inside hd.entries i hused)
  refine ⟨d.timeIndex[k], i, time, List.getElem?_eq_getElem hinside, ?_, htime⟩
  rw [hnumber]
  exact atsCmdNumToIndex_succ i

theorem skipLoop_total {mark : Status → Status}
    (hmark : ∀ status, status ≠ .empty → mark status ≠ .empty)
    (hquiet : ∀ status, mark status = .loaded → status = .loaded) (startTime : BitVec 32)
    {left timeIndex : Nat} {d : AtsData} (hd : d.Usable)
    (hleft : timeIndex + left ≤ d.numberOfCommands) :
    ∃ d' found, skipLoop mark startTime left timeIndex d = some (d', found) := by
  induction left generalizing timeIndex d with
  | zero => exact ⟨d, none, rfl⟩
  | succ left ih =>
    obtain ⟨table, hindexed⟩ := hd.indexed (by omega)
    obtain ⟨cmdNumber, i, time, hlisted, hi, htime⟩ :=
      hindexed.listed (show timeIndex < d.numberOfCommands by omega)
    simp only [skipLoop, hlisted, hi, htime, Option.bind_eq_bind, Option.bind_some]
    split
    · have hold := hindexed.status_ne hlisted hi
      have hremarked := AtsData.remarked_update (d := d) (i := i) hold (hmark _ hold) (hquiet _)
      have hcount := hremarked.numberOfCommands
      exact ih (hremarked.usable hd) (by omega)
    · exact ⟨_, _, rfl⟩

/-! ## The ATP -/

/-- What holds of the ATS half of every reachable state. -/
structure AtsState.Usable (s : AtsState) : Prop where
  data : ∀ a, (s.ats a).Usable
  control : s.atpState ≠ .idle →
    ∃ a i, atsNumToIndex s.atsNumber = some a ∧ atsCmdNumToIndex s.cmdNumber = some i
  append : s.appendEntryCount ≠ 0 → ∃ table, s.appendTbl = some table ∧
    s.appendWordCount ≤ SC_APPEND_BUFF_SIZE32 ∧
    Entries table.cells s.appendEntryCount 0 s.appendWordCount

theorem AtsState.PointsAtEntry.numbers {s : AtsState} (h : s.PointsAtEntry) :
    ∃ a i, atsNumToIndex s.atsNumber = some a ∧ atsCmdNumToIndex s.cmdNumber = some i := by
  obtain ⟨a, i, ha, hpoints⟩ := h
  refine ⟨a, i, ha, ?_⟩
  rw [hpoints.number]
  exact atsCmdNumToIndex_succ i

theorem AtsState.Moves.usable {s s' : AtsState} (h : s.Moves s') (hs : s.Usable)
    (hstate : s'.atpState = .idle ∨ s'.atpState = .executing ∨ s'.atpState = .starting) :
    s'.Usable where
  data a := (h.remarked a).usable (hs.data a)
  control hbusy := (h.control (hstate.resolve_left hbusy)).numbers
  append hcount := by
    rw [h.appendTbl, h.appendEntryCount, h.appendWordCount]
    exact hs.append (h.appendEntryCount ▸ hcount)

/-- Statuses of the commands may change in place. -/
theorem AtsState.Usable.remark {s : AtsState} (h : s.Usable) {a : AtsIndex} {d : AtsData}
    (hd : (s.ats a).Remarked d) : (s.setAts a d).Usable :=
  ⟨fun b => (remarked_setAts hd b).usable (h.data b), h.control, h.append⟩

/-- A step that loads nothing: the statuses are all it changes in an ATS. -/
structure AtsState.Keeps (s s' : AtsState) : Prop where
  usable : s'.Usable
  remarked : ∀ a, (s.ats a).Remarked (s'.ats a)

theorem AtsState.Usable.refl {s : AtsState} (hs : s.Usable) : s.Keeps s := ⟨hs, fun _ => .refl _⟩

theorem AtsState.Keeps.trans {s s' s'' : AtsState} (h : s.Keeps s') (h' : s'.Keeps s'') :
    s.Keeps s'' := ⟨h'.usable, fun a => (h.remarked a).trans (h'.remarked a)⟩

theorem AtsState.Keeps.setPend {s s' : AtsState} (h : s.Keeps s') (flag : Bool) :
    s.Keeps { s' with switchPendFlag := flag } :=
  ⟨⟨h.usable.data, h.usable.control, h.usable.append⟩, h.remarked⟩

theorem AtsState.Keeps.setCmdStatus {s s' : AtsState} (h : s.Keeps s') {a : AtsIndex}
    {i : CmdIndex} {status : Status} (hold : (s.ats a).cmdStatus i ≠ .empty)
    (hempty : status ≠ .empty) (hloaded : status ≠ .loaded) :
    s.Keeps (s'.setCmdStatus a i status) := by
  have hold' : (s'.ats a).cmdStatus i ≠ .empty := fun he => hold (((h.remarked a).empty i).mp he)
  have hremarked := AtsData.remarked_update hold' hempty fun hl => absurd hl hloaded
  exact h.trans ⟨h.usable.remark hremarked, remarked_setAts hremarked⟩

theorem killAts_total {s : AtsState}
    (h : s.atpState ≠ .idle → ∃ a, atsNumToIndex s.atsNumber = some a) :
    ∃ s', killAts s = some s' := by
  rw [killAts]
  split
  case isTrue hbusy =>
    obtain ⟨a, ha⟩ := h hbusy
    rw [ha]
    exact ⟨_, rfl⟩
  case isFalse => exact ⟨_, rfl⟩

theorem killAts_usable {s : AtsState} (hs : s.Usable) : ∃ s', killAts s = some s' ∧
    s.Keeps s' ∧ s'.atpState = .idle := by
  obtain ⟨s', hkill⟩ := killAts_total fun hbusy =>
    (hs.control hbusy).imp fun a ⟨i, ha, hi⟩ => ha
  obtain ⟨hmoves, hidle⟩ := killAts_moves hkill
  exact ⟨s', hkill, ⟨hmoves.usable hs (.inl hidle), hmoves.remarked⟩, hidle⟩

theorem beginAtsAs_usable {status : Status} (hstatus : status = .executing ∨ status = .starting)
    {s : AtsState} (hs : s.Usable) (currentTime timeOffset : BitVec 32) (a : AtsIndex) :
    ∃ s' begun, beginAtsAs status currentTime a timeOffset s = some (s', begun) ∧ s.Keeps s' := by
  have htotal : ∃ s' begun,
      beginAtsAs status currentTime a timeOffset s = some (s', begun) := by
    obtain ⟨d, found, hskip⟩ := skipLoop_total skipped_mark nofun
      (computeAbsTime currentTime timeOffset) (hs.data a) (Nat.le_of_eq (Nat.zero_add _))
    rw [beginAtsAs, beginAts]
    simp only [hskip, Option.bind_eq_bind, Option.bind_some]
    cases found with
    | none =>
      obtain ⟨killed, hkill⟩ := killAts_total (s := s.setAts a d) fun hbusy =>
        (hs.control hbusy).imp fun a ⟨i, ha, hi⟩ => ha
      simp only [hkill, Option.bind_some]
      exact ⟨_, _, rfl⟩
    | some entry => exact ⟨_, _, rfl⟩
  obtain ⟨s', begun, hbegin⟩ := htotal
  have hmoves := beginAtsAs_moves (hs.data a).ready hbegin
  refine ⟨s', begun, hbegin, hmoves.usable hs ?_, hmoves.remarked⟩
  obtain hstate | hidle := beginAtsAs_state hbegin
  · exact .inr (hstate ▸ hstatus)
  · exact .inl hidle

theorem toggleAtsIndex_total {s : AtsState} (hs : s.Usable) (hbusy : s.atpState ≠ .idle) :
    ∃ a, toggleAtsIndex s = some a := by
  obtain ⟨a, i, ha, -⟩ := hs.control hbusy
  rw [toggleAtsIndex, ha]
  exact ⟨_, rfl⟩

/-- The kill and the begin of both switches. -/
theorem kill_begin_usable {status : Status} (hstatus : status = .executing ∨ status = .starting)
    {s : AtsState} (hs : s.Usable) (currentTime timeOffset : BitVec 32) (a : AtsIndex) :
    ∃ killed s' begun, killAts s = some killed ∧
      beginAtsAs status currentTime a timeOffset killed = some (s', begun) ∧ s.Keeps s' := by
  obtain ⟨killed, hkill, hkilled, -⟩ := killAts_usable hs
  obtain ⟨s', begun, hbegin, hkeeps⟩ :=
    beginAtsAs_usable hstatus hkilled.usable currentTime timeOffset a
  exact ⟨killed, s', begun, hkill, hbegin, hkilled.trans hkeeps⟩

/-- A pending switch waits until the command that is next is not due. -/
theorem serviceSwitchPend_usable {s : AtsState} (hs : s.Usable) (currentTime : BitVec 32) :
    ∃ s', serviceSwitchPend currentTime s = some s' ∧ s.Keeps s' ∧
      if compareAbsTime s.nextCmdTime currentTime then s'.switchPendFlag = false else s' = s := by
  rw [serviceSwitchPend]
  split
  case isTrue =>
    split
    case isTrue hexecuting =>
      obtain ⟨a, ha⟩ := toggleAtsIndex_total hs (by rw [hexecuting]; decide)
      rw [ha, Option.bind_eq_bind, Option.bind_some]
      split
      case isTrue =>
        obtain ⟨killed, s', begun, hkill, hbegin, hkeeps⟩ :=
          kill_begin_usable (.inl rfl) hs currentTime 1 a
        simp only [hkill, hbegin, Option.bind_eq_bind, Option.bind_some]
        exact ⟨_, rfl, hkeeps.setPend false, rfl⟩
      case isFalse => exact ⟨_, rfl, hs.refl.setPend false, rfl⟩
    case isFalse => exact ⟨_, rfl, hs.refl.setPend false, rfl⟩
  case isFalse => exact ⟨s, rfl, hs.refl, rfl⟩

theorem inlineSwitch_usable {s : AtsState} (hs : s.Usable) (hbusy : s.atpState ≠ .idle)
    (currentTime : BitVec 32) : ∃ s' switched, inlineSwitch currentTime s = some (s', switched) ∧
      s.Keeps s' := by
  obtain ⟨a, ha⟩ := toggleAtsIndex_total hs hbusy
  rw [inlineSwitch, ha, Option.bind_eq_bind, Option.bind_some]
  split
  case isTrue =>
    obtain ⟨killed, s', begun, hkill, hbegin, hkeeps⟩ :=
      kill_begin_usable (.inr rfl) hs currentTime 0 a
    simp only [hkill, hbegin, Option.bind_eq_bind, Option.bind_some]
    exact ⟨_, _, rfl, hkeeps.setPend false⟩
  case isFalse => exact ⟨_, _, rfl, hs.refl.setPend false⟩

/-- The attempt got on in the sequence without sending. -/
def AtsState.Passed (s s' : AtsState) : Prop :=
  s'.atpState ≠ .executing ∧ s'.switchPendFlag = false ∨
  s'.atpState = .executing ∧ s'.switchPendFlag = s.switchPendFlag ∧
    s'.timeIndexPtr = (s.timeIndexPtr + 1) % 0x10000 ∧ s'.timeIndexPtr < SC_MAX_ATS_CMDS

theorem AtsData.Indexed.numberOfCommands_le {d : AtsData} {table : AtsTable}
    (hd : d.Indexed table) : d.numberOfCommands ≤ SC_MAX_ATS_CMDS := by
  rw [hd.used]
  exact (Finset.card_le_univ _).trans_eq (Fintype.card_fin _)

theorem getNextAtsCommand_usable {s : AtsState} (hs : s.Usable) :
    ∃ s', getNextAtsCommand s = some s' ∧ s.Keeps s' ∧
      (s.atpState = .executing → s.Passed s') := by
  rw [getNextAtsCommand]
  split
  case isTrue hexecuting =>
    obtain ⟨a, -, ha, -⟩ := hs.control (by rw [hexecuting]; decide)
    rw [ha, Option.bind_eq_bind, Option.bind_some]
    dsimp only
    split
    case isTrue hmore =>
      obtain ⟨table, hindexed⟩ := (hs.data a).indexed (Nat.ne_of_gt (Nat.zero_lt_of_lt hmore))
      obtain ⟨cmdNumber, i, time, hlisted, hi, htime⟩ := hindexed.listed hmore
      simp only [AtsData.cmdNumTime, hlisted, hi, htime, Option.bind_eq_bind, Option.bind_some]
      refine ⟨_, rfl, ⟨⟨hs.data, fun _ => ⟨a, i, ha, hi⟩, hs.append⟩, fun _ => .refl _⟩,
        fun _ => .inr ?_⟩
      exact ⟨hexecuting, rfl, rfl, hmore.trans_le hindexed.numberOfCommands_le⟩
    case isFalse =>
      obtain ⟨killed, hkill, hkeeps, hidle⟩ := killAts_usable hs
      rw [hkill, Option.bind_eq_bind, Option.bind_some]
      refine ⟨_, rfl, hkeeps.setPend false, fun _ => .inl ⟨?_, rfl⟩⟩
      rw [hidle]
      decide
  case isFalse hother =>
    split
    case isTrue hstarting =>
      refine ⟨_, rfl, ⟨⟨hs.data, fun _ => hs.control ?_, hs.append⟩, fun _ => .refl _⟩,
        fun h => absurd h hother⟩
      rw [hstarting]
      decide
    case isFalse => exact ⟨s, rfl, hs.refl, fun h => absurd h hother⟩

theorem executeAtsCmd_usable {s : AtsState} (hs : s.Usable) (hbusy : s.atpState ≠ .idle)
    {a : AtsIndex} {i : CmdIndex} {table : AtsTable} {off : Nat}
    (hold : (s.ats a).cmdStatus i ≠ .empty)
    (hfits : off + SC_ATS_HDR_WORDS ≤ table.cells.length) (accepted : Bool)
    (currentTime : BitVec 32) : ∃ outcome,
      executeAtsCmd accepted currentTime a i table.cells off s = some outcome ∧
      s.Keeps outcome.state ∧ outcome.counted = true := by
  have hmessage : off + SC_ATS_HDR_NOPKT_WORDS + 1 < table.cells.length := hfits
  have hid : ∃ messageId, atsMsgId table.cells off = some messageId :=
    ⟨_, congrArg (Option.map _) (List.getElem?_eq_getElem (Nat.lt_of_succ_lt hmessage))⟩
  have hcode : ∃ commandCode, atsFcnCode table.cells off = some commandCode :=
    ⟨_, congrArg (Option.map _) (List.getElem?_eq_getElem hmessage)⟩
  obtain ⟨messageId, hid⟩ := hid
  obtain ⟨commandCode, hcode⟩ := hcode
  obtain ⟨timeTag, htime⟩ := getAtsEntryTime_isSome
    (show off + 1 < table.cells.length from (Nat.add_lt_add_left (by decide) off).trans_le hfits)
  simp only [executeAtsCmd, hid, hcode, htime, Option.bind_eq_bind, Option.bind_some]
  split
  case isTrue =>
    obtain ⟨s', switched, hswitch, hkeeps⟩ := inlineSwitch_usable hs hbusy currentTime
    rw [hswitch, Option.bind_some]
    refine ⟨_, rfl, hkeeps.setCmdStatus hold ?_ ?_, rfl⟩ <;> cases switched <;> nofun
  case isFalse =>
    split <;> exact ⟨_, rfl, hs.refl.setCmdStatus hold nofun nofun, rfl⟩

/-- An attempt is counted, ends the sequence or finds nothing to do. -/
theorem attemptAtsCmd_usable {s : AtsState} (hs : s.Usable) (hexecuting : s.atpState = .executing)
    (accepted : Bool) (currentTime : BitVec 32) : ∃ outcome,
      attemptAtsCmd accepted currentTime s = some outcome ∧ s.Keeps outcome.state ∧
      (outcome.counted = true ∨ outcome.sent = none ∧
        (outcome.abort = true ∨ outcome.state = s)) := by
  have hbusy : s.atpState ≠ .idle := by
    rw [hexecuting]
    nofun
  obtain ⟨a, i, ha, hi⟩ := hs.control hbusy
  simp only [attemptAtsCmd, ha, hi, Option.bind_eq_bind, Option.bind_some]
  split
  case isTrue hloaded =>
    have hold : (s.ats a).cmdStatus i ≠ .empty := by
      rw [hloaded]
      nofun
    obtain ⟨table, hindexed⟩ := (hs.data a).indexed_of_status hold
    obtain ⟨off, hoff⟩ := Option.ne_none_iff_exists'.mp fun hnone =>
      hold ((hindexed.status i).mpr hnone)
    obtain ⟨size, hentry⟩ := hindexed.entries i off hoff
    have hfits : off + SC_ATS_HDR_WORDS ≤ table.cells.length := by
      rw [table.length_cells]
      exact hentry.header_fits.trans hindexed.inside
    simp only [hindexed.tbl, hoff, hentry.number, Option.bind_some, if_true]
    obtain ⟨outcome, hexecute, hkeeps, hcounted⟩ :=
      executeAtsCmd_usable hs hbusy hold hfits accepted currentTime
    exact ⟨outcome, hexecute, hkeeps, .inl hcounted⟩
  case isFalse => exact ⟨_, rfl, hs.refl, .inr ⟨rfl, .inr rfl⟩⟩

/-- What one call of `SC_ProcessAtpCmd` can do. -/
theorem processAtpCmd_usable {s : AtsState} (hs : s.Usable) (accepted : Bool)
    (currentTime : BitVec 32) : ∃ outcome,
      processAtpCmd accepted currentTime s = some outcome ∧ s.Keeps outcome.state ∧
      (outcome.counted = true ∨ outcome.counted = false ∧ outcome.sent = none ∧
        if compareAbsTime s.nextCmdTime currentTime = false ∧ s.atpState = .executing then
          s.Passed outcome.state
        else outcome.state = s) := by
  rw [processAtpCmd]
  split
  case isTrue hready =>
    obtain ⟨attempt, hattempt, hkeeps, hkind⟩ :=
      attemptAtsCmd_usable hs hready.2 accepted currentTime
    rw [hattempt, Option.bind_eq_bind, Option.bind_some]
    split
    case isTrue habort =>
      obtain ⟨killed, hkill, hkilled, hidle⟩ := killAts_usable hkeeps.usable
      rw [hkill, Option.bind_eq_bind, Option.bind_some]
      refine ⟨_, rfl, (hkeeps.trans hkilled).setPend false, ?_⟩
      cases hcounted : attempt.counted with
      | true => exact .inl rfl
      | false =>
        have hnotSent := (hkind.resolve_left (by rw [hcounted]; decide)).1
        refine .inr ⟨rfl, hnotSent, .inl ⟨?_, rfl⟩⟩
        rw [hidle]
        decide
    case isFalse hgoesOn =>
      obtain ⟨next, hnext, hnextKeeps, hpassed⟩ := getNextAtsCommand_usable hkeeps.usable
      rw [hnext, Option.bind_eq_bind, Option.bind_some]
      refine ⟨_, rfl, hkeeps.trans hnextKeeps, ?_⟩
      cases hcounted : attempt.counted with
      | true => exact .inl rfl
      | false =>
        obtain ⟨hnotSent, habort | hsame⟩ := hkind.resolve_left (by rw [hcounted]; decide)
        · exact absurd habort hgoesOn
        · refine .inr ⟨rfl, hnotSent, ?_⟩
          rw [hsame] at hpassed
          exact hpassed hready.2
  case isFalse => exact ⟨_, rfl, hs.refl, .inr ⟨rfl, rfl, rfl⟩⟩

/-! ## Commands on the ATP -/

theorem startAtsCmd_usable {currentTime : BitVec 32} {atsId : Nat} {s s' : AtsState}
    (hs : s.Usable) (h : startAtsCmd currentTime atsId s = some s') : s.Keeps s' := by
  rw [startAtsCmd] at h
  split at h
  · exact Option.some.inj h ▸ hs.refl
  case h_2 a ha =>
    split at h
    · split at h
      · obtain ⟨next, begun, hbegin, hkeeps⟩ :=
          beginAtsAs_usable (.inl rfl) hs currentTime 0 a
        rw [hbegin] at h
        exact Option.some.inj h ▸ hkeeps
      · exact Option.some.inj h ▸ hs.refl
    · exact Option.some.inj h ▸ hs.refl

theorem stopAtsCmd_usable {s s' : AtsState} (hs : s.Usable) (h : stopAtsCmd s = some s') :
    s.Keeps s' := by
  obtain ⟨killed, hkill, hkeeps, -⟩ := killAts_usable hs
  rw [stopAtsCmd, hkill] at h
  exact Option.some.inj h ▸ hkeeps.setPend false

theorem groundSwitchCmd_usable {s s' : AtsState} (hs : s.Usable)
    (h : groundSwitchCmd s = some s') : s.Keeps s' := by
  rw [groundSwitchCmd] at h
  split at h
  · obtain ⟨a, -, h⟩ := Option.bind_eq_some_iff.mp h
    exact Option.some.inj h ▸ hs.refl.setPend _
  · exact Option.some.inj h ▸ hs.refl.setPend false

theorem jumpAtsCmd_usable {jumpTime : BitVec 32} {s s' : AtsState} (hs : s.Usable)
    (h : jumpAtsCmd jumpTime s = some s') : s.Keeps s' := by
  rw [jumpAtsCmd] at h
  split at h
  · obtain ⟨a, ha, h⟩ := Option.bind_eq_some_iff.mp h
    obtain ⟨⟨d, found⟩, hskip, h⟩ := Option.bind_eq_some_iff.mp h
    obtain ⟨hremarked, hfound⟩ :=
      skipLoop_spec jumpMark_ne_empty jumpMark_loaded (hs.data a).indexed hskip
    have hmarked : s.Keeps (s.setAts a d) := ⟨hs.remark hremarked, remarked_setAts hremarked⟩
    cases found with
    | none =>
      obtain ⟨killed, hkill, hkilled, -⟩ := killAts_usable hmarked.usable
      exact Option.some.inj (hkill.symm.trans h) ▸ hmarked.trans hkilled
    | some entry =>
      obtain rfl := Option.some.inj h
      obtain ⟨i, hpoints⟩ := hfound entry rfl
      refine ⟨⟨hmarked.usable.data, fun _ => ⟨a, i, ha, ?_⟩, hmarked.usable.append⟩,
        hmarked.remarked⟩
      rw [hpoints.number]
      exact atsCmdNumToIndex_succ i
  · exact Option.some.inj h ▸ hs.refl

/-- New structures for one ATS; the control block may be left behind. -/
theorem AtsState.Usable.setAts {s : AtsState} (hs : s.Usable) {a : AtsIndex} {d : AtsData}
    (hd : d.Usable) : (s.setAts a d).Usable where
  data b := by
    rw [AtsState.setAts]
    by_cases hb : b = a
    · subst hb
      simpa using hd
    · simpa [update_of_ne hb] using hs.data b
  control := hs.control
  append := hs.append

/-- An accepted append is one of whole entries, and what follows it loads nothing. -/
theorem appendAtsCmd_keeps {currentTime : BitVec 32} {atsId : Nat} {s s' : AtsState}
    (hs : s.Usable) (h : appendAtsCmd currentTime atsId s = some s') :
    (s' = s ∧ ∀ a, atsNumToIndex atsId = some a → ¬ s.TakesAppend a) ∨
    ∃ a append table d, atsNumToIndex atsId = some a ∧ s.TakesAppend a ∧
      s.appendTbl = some append ∧ (s.ats a).Indexed table ∧
      s.appendWordCount ≤ SC_APPEND_BUFF_SIZE32 ∧
      Entries append.cells s.appendEntryCount 0 s.appendWordCount ∧
      appendEntries append s.appendEntryCount s.appendWordCount (s.ats a) = some d ∧
      (s.setAts a d).Keeps s' := by
  rcases appendAtsCmd_cases h with hrefused | ⟨a, append, d, ha, htakes, happend, hentries, hend⟩
  · exact .inl hrefused
  · obtain ⟨table, hindexed⟩ := (hs.data a).indexed htakes.1
    obtain ⟨append', happend', hwords, he⟩ := hs.append htakes.2.1
    obtain rfl := Option.some.inj (happend.symm.trans happend')
    have hset := hs.setAts (a := a) (.inr (appendEntries_spec hindexed hwords he hentries).1)
    refine .inr ⟨a, append, table, d, ha, htakes, happend, hindexed, hwords, he, hentries, ?_⟩
    split at hend
    case isTrue =>
      obtain ⟨begun, hbegin⟩ := hend
      obtain ⟨next, begun', hbegin', hkeeps⟩ :=
        beginAtsAs_usable (.inl rfl) hset currentTime 0 a
      cases hbegin.symm.trans hbegin'
      exact hkeeps
    case isFalse =>
      rw [hend]
      exact hset.refl

theorem appendAtsCmd_usable {currentTime : BitVec 32} {atsId : Nat} {s s' : AtsState}
    (hs : s.Usable) (h : appendAtsCmd currentTime atsId s = some s') : s'.Usable := by
  rcases appendAtsCmd_keeps hs h with ⟨rfl, -⟩ | ⟨a, append, table, d, -, -, -, -, -, -, -, hkeeps⟩
  · exact hs
  · exact hkeeps.usable

theorem manageAtsTable_usable {a : AtsIndex} {table : AtsTable} {s s' : AtsState}
    (hs : s.Usable) (h : manageAtsTable a table s = some s') : s'.Usable := by
  obtain ⟨d, hload, h⟩ := Option.bind_eq_some_iff.mp h
  obtain rfl := Option.some.inj h
  refine hs.setAts ?_
  obtain ⟨-, hempty⟩ | ⟨verified, loaded, -, hloaded, hl⟩ := loadAts_spec table (s.ats a)
  · obtain rfl := Option.some.inj (hload.symm.trans hempty)
    exact .inl ⟨rfl, fun _ => rfl⟩
  · obtain rfl := Option.some.inj (hload.symm.trans hloaded)
    exact .inr ⟨table, hl.indexed_table⟩

theorem manageAppendTable_usable {table : AppendTable} {s s' : AtsState} (hs : s.Usable)
    (haccepted : tableAccepted (validateAppend table) = true)
    (h : manageAppendTable table s = some s') : s'.Usable := by
  obtain ⟨entryCount, wordCount, rfl, hfits, hentries⟩ :=
    manageAppendTable_entries haccepted h
  exact ⟨hs.data, hs.control, fun _ => ⟨table, rfl, hfits, hentries⟩⟩

/-! ## The RTP -/

/-- An executing sequence has a table, and a header at its next command. -/
def RtsState.Usable (s : RtsState) : Prop :=
  ∀ i, (s.rtsInfo i).rtsStatus = .executing → ∃ table, s.rtsTbl i = some table ∧
    (s.rtsInfo i).nextCommandPtr ≤ SC_RTS_BUFF_SIZE32 - SC_RTS_HDR_WORDS

theorem RtsState.Usable.setInfo {s : RtsState} (hs : s.Usable) {i : RtsIndex}
    {entry : RtsInfoEntry} (hentry : entry.rtsStatus = .executing → ∃ table,
      s.rtsTbl i = some table ∧ entry.nextCommandPtr ≤ SC_RTS_BUFF_SIZE32 - SC_RTS_HDR_WORDS) :
    (s.setInfo i entry).Usable := by
  intro j hj
  by_cases hij : j = i
  · subst hij
    rw [RtsState.rtsInfo_setInfo] at hj ⊢
    exact hentry hj
  · rw [RtsState.rtsInfo_setInfo_of_ne s hij] at hj ⊢
    exact hs j hj

theorem killRts_usable {s : RtsState} (hs : s.Usable) (rtsIndex : Nat) :
    (killRts rtsIndex s).Usable := by
  rw [killRts]
  split
  · dsimp only
    split
    · split
      · exact hs.setInfo fun h => by cases h
      · exact hs.setInfo fun h => by cases h
    · exact hs
  · exact hs

theorem initRtsInfo_usable {currentTime : BitVec 32} {i : RtsIndex} {s s' : RtsState}
    (hs : s.Usable) (h : initRtsInfo currentTime i s = some s') : s'.Usable := by
  obtain ⟨table, htable, h⟩ := Option.bind_eq_some_iff.mp h
  obtain ⟨timeTag, -, h⟩ := Option.bind_eq_some_iff.mp h
  obtain rfl := Option.some.inj h
  exact hs.setInfo fun _ => ⟨table, htable, Nat.zero_le _⟩

theorem startRtsCmd_usable {currentTime : BitVec 32} {rtsId : BitVec 16} {s s' : RtsState}
    (hs : s.Usable) (h : startRtsCmd currentTime rtsId s = some s') : s'.Usable := by
  rw [startRtsCmd] at h
  split at h
  · dsimp only at h
    split at h
    · split at h
      · obtain ⟨table, -, h⟩ := Option.bind_eq_some_iff.mp h
        obtain ⟨cmdLength, -, h⟩ := Option.bind_eq_some_iff.mp h
        split at h
        · exact initRtsInfo_usable hs h
        · exact Option.some.inj h ▸ hs
      · exact Option.some.inj h ▸ hs
    · exact Option.some.inj h ▸ hs
  · exact Option.some.inj h ▸ hs

theorem startRtsOfGroup_usable {currentTime : BitVec 32} {s s' : RtsState} {i : RtsIndex}
    (hs : s.Usable) (h : startRtsOfGroup currentTime s i = some s') : s'.Usable := by
  rw [startRtsOfGroup] at h
  split at h
  · exact initRtsInfo_usable hs h
  · exact Option.some.inj h ▸ hs

theorem stopRtsCmd_usable {s : RtsState} (hs : s.Usable) (rtsId : BitVec 16) :
    (stopRtsCmd rtsId s).Usable := by
  rw [stopRtsCmd]
  split
  · exact killRts_usable hs _
  · exact hs

theorem stopRtsOfGroup_usable {s : RtsState} {i : RtsIndex} (hs : s.Usable) :
    (stopRtsOfGroup s i).Usable := by
  rw [stopRtsOfGroup]
  split
  · exact killRts_usable hs _
  · exact hs

theorem setDisabled_usable {flag : Bool} {s : RtsState} {i : RtsIndex} (hs : s.Usable) :
    (s.setDisabled flag i).Usable := hs.setInfo (hs i)

theorem disableRtsCmd_usable {rtsId : BitVec 16} {s s' : RtsState} (hs : s.Usable)
    (h : disableRtsCmd rtsId s = some s') : s'.Usable := by
  rw [disableRtsCmd] at h
  split at h
  · split at h
    · exact Option.some.inj h ▸ setDisabled_usable hs
    · cases h
  · exact Option.some.inj h ▸ hs

theorem enableRtsCmd_usable {s : RtsState} (hs : s.Usable) (rtsId : BitVec 16) :
    (enableRtsCmd rtsId s).Usable := by
  rw [enableRtsCmd]
  split
  · exact setDisabled_usable hs
  · exact hs

theorem autoEnableRts_usable {s : RtsState} (hs : s.Usable) (i : RtsIndex) :
    (autoEnableRts i s).Usable := by
  rw [autoEnableRts]
  split
  · exact setDisabled_usable hs
  · exact hs

/-- A load also stops the sequence it replaces. -/
theorem manageRtsTable_usable {s : RtsState} (hs : s.Usable) (i : RtsIndex) (table : RtsTable) :
    (manageRtsTable i table s).Usable := by
  intro j hj
  rw [manageRtsTable, loadRts] at hj ⊢
  by_cases hij : j = i
  · subst hij
    rw [RtsState.rtsInfo_setInfo] at hj
    cases hj
  · rw [RtsState.rtsInfo_setInfo_of_ne _ hij] at hj ⊢
    simpa only [RtsState.setInfo, update_of_ne hij] using hs j hj

theorem getNextRtsTime_usable {s : RtsState} (hs : s.Usable) : (getNextRtsTime s).Usable := by
  rw [getNextRtsTime]
  split <;> exact hs

theorem rtsCmdError_usable {s : RtsState} (hs : s.Usable) (i : RtsIndex) :
    (rtsCmdError i s).Usable := by
  have hcounted : ({ s with rtsCmdErrCtr := s.rtsCmdErrCtr + 1 } : RtsState).Usable := hs
  refine killRts_usable (hcounted.setInfo ?_) _
  exact hs i

theorem getNextRtsCommand_usable {s : RtsState} (hs : s.Usable) (currentTime : BitVec 32) :
    ∃ s', getNextRtsCommand currentTime s = some s' ∧ s'.Usable := by
  rw [getNextRtsCommand]
  split
  case isFalse => exact ⟨s, rfl, hs⟩
  case isTrue =>
    dsimp only
    split
    case isFalse => exact ⟨s, rfl, hs⟩
    case isTrue hexecuting =>
      obtain ⟨table, htable, hptr⟩ := hs _ hexecuting
      obtain ⟨⟨size, hsize⟩, -⟩ := exists_rtsMsgSize table hptr
      simp only [htable, hsize, Option.bind_eq_bind, Option.bind_some]
      split
      case isFalse => exact ⟨_, rfl, killRts_usable hs _⟩
      case isTrue hnext =>
        obtain ⟨⟨next, hnextSize⟩, timeTag, htime⟩ := exists_rtsMsgSize table hnext
        simp only [hnextSize, htime, Option.bind_some]
        split
        case isFalse => exact ⟨_, rfl, killRts_usable hs _⟩
        case isTrue =>
          split
          case isFalse => exact ⟨_, rfl, rtsCmdError_usable hs _⟩
          case isTrue =>
            split
            case isFalse => exact ⟨_, rfl, rtsCmdError_usable hs _⟩
            case isTrue => exact ⟨_, rfl, hs.setInfo fun _ => ⟨table, htable, hnext⟩⟩

theorem countCommand_usable {s : RtsState} (hs : s.Usable) (i : RtsIndex) :
    (s.setInfo i { s.rtsInfo i with cmdCtr := (s.rtsInfo i).cmdCtr + 1 }).Usable := by
  refine hs.setInfo ?_
  exact hs i

/-- The sequence the control block names is due and executes. -/
def RtsState.Due (s : RtsState) (currentTime : BitVec 32) : Prop :=
  ∃ i : RtsIndex, s.rtsNumber = i.val + 1 ∧ s.nextCmdTime ≤ currentTime ∧
    (s.rtsInfo i).rtsStatus = .executing

theorem processRtpCommand_usable {s : RtsState} (hs : s.Usable) (accepted : Bool)
    (currentTime : BitVec 32) : ∃ s' sent,
      processRtpCommand accepted currentTime s = some (s', sent) ∧ s'.Usable ∧
      (s.Due currentTime → sent.isSome = true) := by
  rw [processRtpCommand]
  split
  case isFalse hnumber =>
    refine ⟨s, none, rfl, hs, fun hdue => ?_⟩
    obtain ⟨i, hi, -⟩ := hdue
    exact absurd ⟨by omega, by omega⟩ hnumber
  case isTrue hnumber =>
    dsimp only
    split
    case isFalse hdue =>
      refine ⟨s, none, rfl, hs, fun hready => ?_⟩
      obtain ⟨i, hi, htime, hexecuting⟩ := hready
      refine absurd ⟨htime, ?_⟩ hdue
      have hindex : (⟨s.rtsNumber - 1, by omega⟩ : RtsIndex) = i := Fin.ext (by simp [hi])
      rw [hindex]
      exact hexecuting
    case isTrue hdue =>
      obtain ⟨table, htable, hptr⟩ := hs _ hdue.2
      rw [htable, Option.bind_eq_bind, Option.bind_some]
      split
      case isTrue =>
        obtain ⟨s', hnext, husable⟩ := getNextRtsCommand_usable
          (countCommand_usable hs ⟨s.rtsNumber - 1, by omega⟩) currentTime
        rw [hnext, Option.bind_eq_bind, Option.bind_some]
        exact ⟨_, _, rfl, husable, fun _ => rfl⟩
      case isFalse => exact ⟨_, _, rfl, rtsCmdError_usable hs _, fun _ => rfl⟩

end Nos3.Sc
