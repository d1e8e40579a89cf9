import Nos3.Sc.Source.Rts

/-!
# Execution of a validated sequence

`SC_ParseRts` ends at a packet without message id and with a zero time tag, the
executor at a packet whose length is below the least one. Both walk the same
entries exactly when the packet that ends the table is short as well.
-/
namespace Nos3.Sc

/-- A command sent while one sequence runs: where it is, when it was due and when
it went out. -/
structure RtsStep where
  cmdOffset : Nat
  due : BitVec 32
  time : BitVec 32

/-- A wakeup at `clock`, or as late as the command needs. -/
def serviceTime (due clock : BitVec 32) : BitVec 32 := if due ≤ clock then clock else due

/-- The sequence runs by itself to its end: at each step `SC_GetNextRtsTime` has
chosen it, and the bus accepts what it sends. -/
def executeRts (i : RtsIndex) (clock : Nat → BitVec 32) :
    Nat → Nat → RtsState → Option (RtsState × List RtsStep)
  | 0, _, _ => none
  | fuel + 1, k, s =>
    if (s.rtsInfo i).rtsStatus = .executing then do
      let due := (s.rtsInfo i).nextCommandTime
      let time := serviceTime due (clock k)
      let (s, sent) ← processRtpCommand true time { s with rtsNumber := i + 1, nextCmdTime := due }
      let (s, steps) ← executeRts i clock fuel (k + 1) s
      some (s, (sent.map fun entry => ⟨entry.cmdOffset, due, time⟩).toList ++ steps)
    else some (s, [])

/-- Each command is due its time tag after the one before it went out. -/
def Relative (words : List Word) : BitVec 32 → List RtsStep → Prop
  | _, [] => True
  | previous, step :: steps =>
    (∃ timeTag, rtsTimeTag words step.cmdOffset = some timeTag ∧
      step.due = previous + timeTag) ∧ Relative words step.time steps

/-- The sequence waits for the command at `cmdOffset`. -/
structure Waiting (i : RtsIndex) (table : RtsTable) (cmdOffset : Nat) (s : RtsState) : Prop where
  table : s.rtsTbl i = some table
  status : (s.rtsInfo i).rtsStatus = .executing
  offset : (s.rtsInfo i).nextCommandPtr = cmdOffset

/-- What the table holds behind a command. -/
inductive NextEntry
  | command (cmdOffset : Nat) (timeTag : BitVec 32)
  | complete
  | error

def nextEntry (words : List Word) (cmdOffset : Nat) : Option NextEntry := do
  let cmdLength ← rtsMsgSize words cmdOffset
  let cmdOffset := (cmdOffset + wordsOf (cmdLength + SC_RTS_HEADER_SIZE)) % 0x10000
  if cmdOffset ≤ SC_RTS_BUFF_SIZE32 - SC_RTS_HDR_WORDS then
    let cmdLength ← rtsMsgSize words cmdOffset
    if cmdLength ≥ SC_PACKET_MIN_SIZE then
      if cmdLength ≤ SC_PACKET_MAX_SIZE ∧
          cmdOffset + wordsOf (cmdLength + SC_RTS_HEADER_SIZE) ≤ SC_RTS_BUFF_SIZE32 then
        let timeTag ← rtsTimeTag words cmdOffset
        some (.command cmdOffset timeTag)
      else some .error
    else some .complete
  else some .complete

/-- The state after a command was sent at `time`. -/
def afterCommand (i : RtsIndex) (time : BitVec 32) (s : RtsState) : NextEntry → RtsState
  | .command cmdOffset timeTag =>
    s.setInfo i
      { s.rtsInfo i with
        nextCommandTime := computeAbsTime time timeTag
        nextCommandPtr := cmdOffset }
  | .complete => killRts i s
  | .error => rtsCmdError i s

theorem getNextRtsCommand_eq {i : RtsIndex} {table : RtsTable} {cmdOffset : Nat} {s : RtsState}
    (h : Waiting i table cmdOffset s) (hnumber : s.rtsNumber = i + 1) (time : BitVec 32) :
    getNextRtsCommand time s =
      (nextEntry table.cells cmdOffset).map (afterCommand i time s) := by
  have hvalid : 0 < s.rtsNumber ∧ s.rtsNumber ≤ SC_NUMBER_OF_RTS := by
    have := i.isLt
    omega
  have hval : s.rtsNumber - 1 = i.val := by omega
  have hindex : (⟨s.rtsNumber - 1, by omega⟩ : RtsIndex) = i := Fin.ext hval
  rw [getNextRtsCommand, dif_pos hvalid]
  dsimp only
  rw [hindex, if_pos h.status, h.table, h.offset, nextEntry, hval]
  simp only [Option.bind_eq_bind, Option.bind_some]
  cases rtsMsgSize table.cells cmdOffset with
  | none => rfl
  | some cmdLength =>
    simp only [Option.bind_some]
    split
    case isFalse => rfl
    case isTrue =>
      cases rtsMsgSize table.cells
          ((cmdOffset + wordsOf (cmdLength + SC_RTS_HEADER_SIZE)) % 0x10000) with
      | none => rfl
      | some nextLength =>
        simp only [Option.bind_some]
        split
        case isFalse => rfl
        case isTrue =>
          by_cases hmax : nextLength ≤ SC_PACKET_MAX_SIZE
          · simp only [hmax, true_and, if_true]
            split
            · cases rtsTimeTag table.cells
                ((cmdOffset + wordsOf (cmdLength + SC_RTS_HEADER_SIZE)) % 0x10000) <;> rfl
            · rfl
          · simp only [hmax, false_and, if_false]
            rfl

theorem le_serviceTime (due clock : BitVec 32) : due ≤ serviceTime due clock := by
  rw [serviceTime]
  split
  · assumption
  · exact BitVec.le_refl due

/-- The sequence with its command at the bus. -/
def sentState (i : RtsIndex) (s : RtsState) : RtsState :=
  { s with rtsNumber := i + 1, nextCmdTime := (s.rtsInfo i).nextCommandTime }.setInfo i
    { s.rtsInfo i with cmdCtr := (s.rtsInfo i).cmdCtr + 1 }

theorem Waiting.sentState {i : RtsIndex} {table : RtsTable} {cmdOffset : Nat} {s : RtsState}
    (h : Waiting i table cmdOffset s) : Waiting i table cmdOffset (sentState i s) where
  table := h.table
  status := by
    rw [Sc.sentState, RtsState.rtsInfo_setInfo]
    exact h.status
  offset := by
    rw [Sc.sentState, RtsState.rtsInfo_setInfo]
    exact h.offset

/-- One step of a waiting sequence sends its command and moves on. -/
theorem executeRts_waiting {i : RtsIndex} {table : RtsTable} {cmdOffset : Nat} {s : RtsState}
    (h : Waiting i table cmdOffset s) (clock : Nat → BitVec 32) (fuel k : Nat) {due time : BitVec 32}
    (hdue : due = (s.rtsInfo i).nextCommandTime) (htime : time = serviceTime due (clock k)) :
    executeRts i clock (fuel + 1) k s =
      (nextEntry table.cells cmdOffset).bind fun next =>
        (executeRts i clock fuel (k + 1) (afterCommand i time (sentState i s) next)).map
          fun r => (r.1, ⟨cmdOffset, due, time⟩ :: r.2) := by
  subst hdue
  obtain rfl := h.offset
  have hprocess : processRtpCommand true time
      { s with rtsNumber := i + 1, nextCmdTime := (s.rtsInfo i).nextCommandTime } =
      (getNextRtsCommand time (sentState i s)).map fun s' =>
        (s', some ⟨i, (s.rtsInfo i).nextCommandPtr⟩) := by
    have hvalid : 0 < i.val + 1 ∧ i.val + 1 ≤ SC_NUMBER_OF_RTS := ⟨by omega, i.isLt⟩
    have hready : (s.rtsInfo i).nextCommandTime ≤ time ∧
        (s.rtsInfo i).rtsStatus = .executing := ⟨htime ▸ le_serviceTime _ _, h.status⟩
    rw [processRtpCommand, dif_pos hvalid]
    simp only [Nat.add_sub_cancel]
    rw [if_pos hready, h.table]
    simp only [Option.bind_eq_bind, Option.bind_some, if_true]
    change Option.bind (getNextRtsCommand time (sentState i s)) _ = _
    cases getNextRtsCommand time (sentState i s) <;> rfl
  rw [executeRts, if_pos h.status]
  dsimp only
  rw [← htime, hprocess, getNextRtsCommand_eq h.sentState rfl]
  cases nextEntry table.cells (s.rtsInfo i).nextCommandPtr with
  | none => rfl
  | some next =>
    simp only [Option.map_some, Option.bind_eq_bind, Option.bind_some]
    cases executeRts i clock fuel (k + 1) (afterCommand i time (sentState i s) next) <;> rfl

theorem executeRts_stopped {i : RtsIndex} {s : RtsState}
    (h : (s.rtsInfo i).rtsStatus ≠ .executing) (clock : Nat → BitVec 32) (fuel k : Nat) :
    executeRts i clock (fuel + 1) k s = some (s, []) :=
  if_neg h

theorem waiting_afterCommand {i : RtsIndex} {table : RtsTable} {cmdOffset : Nat} {s : RtsState}
    (h : Waiting i table cmdOffset s) (nextOffset : Nat) (time timeTag : BitVec 32) :
    Waiting i table nextOffset (afterCommand i time (sentState i s) (.command nextOffset timeTag)) ∧
    ((afterCommand i time (sentState i s) (.command nextOffset timeTag)).rtsInfo
      i).nextCommandTime = time + timeTag := by
  have hinfo := RtsState.rtsInfo_setInfo (sentState i s) i
  refine ⟨⟨h.table, ?_, ?_⟩, ?_⟩ <;> rw [afterCommand, hinfo]
  · exact h.sentState.status
  · rfl

theorem killRts_stops (i : RtsIndex) (s : RtsState) :
    ((killRts i s).rtsInfo i).rtsStatus ≠ .executing ∧
    ((s.rtsInfo i).rtsStatus = .executing → ((killRts i s).rtsInfo i).rtsStatus = .loaded) ∧
    (killRts i s).rtsCmdErrCtr = s.rtsCmdErrCtr := by
  rw [killRts, dif_pos i.isLt]
  dsimp only
  by_cases hstatus : (s.rtsInfo i).rtsStatus = .executing
  · rw [if_pos hstatus]
    split <;> simp [RtsState.setInfo]
  · rw [if_neg hstatus]
    exact ⟨hstatus, fun h => absurd h hstatus, rfl⟩

/-- What the walk of `SC_ParseRts` says about the entry it is at. -/
theorem parseRtsLoop_cases {words : List Word} {fuel o : Nat} {entries : List Nat}
    (h : parseRtsLoop words (fuel + 1) o = some (some entries)) :
    entries = [] ∨ ∃ size, rtsMsgSize words o = some size ∧ SC_PACKET_MIN_SIZE ≤ size ∧
      size ≤ SC_PACKET_MAX_SIZE ∧ o + wordsOf (size + SC_RTS_HEADER_SIZE) ≤ SC_RTS_BUFF_SIZE32 ∧
      ((o + wordsOf (size + SC_RTS_HEADER_SIZE) = SC_RTS_BUFF_SIZE32 ∧ entries = [o]) ∨
        ∃ rest, parseRtsLoop words fuel (o + wordsOf (size + SC_RTS_HEADER_SIZE)) =
          some (some rest) ∧ entries = o :: rest) := by
  rw [parseRtsLoop] at h
  split at h
  case isFalse =>
    obtain ⟨word, -, h⟩ := Option.bind_eq_some_iff.mp h
    split at h <;> cases h
    exact .inl rfl
  case isTrue =>
    obtain ⟨size, hsize, h⟩ := Option.bind_eq_some_iff.mp h
    obtain ⟨messageId, -, h⟩ := Option.bind_eq_some_iff.mp h
    split at h
    case isFalse =>
      obtain ⟨timeTag, -, h⟩ := Option.bind_eq_some_iff.mp h
      split at h <;> cases h
      exact .inl rfl
    case isTrue =>
      refine .inr ⟨size, hsize, ?_⟩
      split at h
      case isTrue => cases h
      case isFalse hlength =>
        split at h
        case isTrue => cases h
        case isFalse hfits =>
          refine ⟨by omega, by omega, by omega, ?_⟩
          split at h
          case isTrue hlast =>
            cases h
            exact .inl ⟨hlast, rfl⟩
          case isFalse =>
            obtain ⟨rest, hrest, h⟩ := Option.map_eq_some_iff.mp h
            cases rest with
            | none => cases h
            | some rest =>
              cases h
              exact .inr ⟨rest, hrest, rfl⟩

theorem wordsOf_min {size : Nat} (h : SC_PACKET_MIN_SIZE ≤ size) :
    SC_RTS_HDR_WORDS ≤ wordsOf (size + SC_RTS_HEADER_SIZE) := by
  simp only [wordsOf, SC_RTS_HDR_WORDS, SC_PACKET_MIN_SIZE, SC_RTS_HEADER_SIZE, SC_BYTES_IN_WORD,
    SC_ROUND_UP_BYTES] at h ⊢
  omega

/-- A header that fits into the table can be read. -/
theorem exists_rtsMsgSize (table : RtsTable) {o : Nat}
    (h : o ≤ SC_RTS_BUFF_SIZE32 - SC_RTS_HDR_WORDS) :
    (∃ size, rtsMsgSize table.cells o = some size) ∧
      ∃ timeTag, rtsTimeTag table.cells o = some timeTag := by
  have hlength : table.cells.length = 75 := table.length_cells
  have ho : o ≤ 72 := h
  refine ⟨⟨_, congrArg (Option.map _) (List.getElem?_eq_getElem ?_)⟩,
    ⟨_, congrArg (Option.map _) (List.getElem?_eq_getElem ?_)⟩⟩ <;> omega

section NextEntry
variable {words : List Word} {o e size : Nat} (hsize : rtsMsgSize words o = some size)
  (he : o + wordsOf (size + SC_RTS_HEADER_SIZE) = e) (hfits : e ≤ SC_RTS_BUFF_SIZE32)
include hsize he hfits

theorem nextEntry_eq : nextEntry words o =
    if e ≤ SC_RTS_BUFF_SIZE32 - SC_RTS_HDR_WORDS then do
      let cmdLength ← rtsMsgSize words e
      if cmdLength ≥ SC_PACKET_MIN_SIZE then
        if cmdLength ≤ SC_PACKET_MAX_SIZE ∧
            e + wordsOf (cmdLength + SC_RTS_HEADER_SIZE) ≤ SC_RTS_BUFF_SIZE32 then
          let timeTag ← rtsTimeTag words e
          some (.command e timeTag)
        else some .error
      else some .complete
    else some .complete := by
  have hmod : e % 0x10000 = e := Nat.mod_eq_of_lt (Nat.lt_of_le_of_lt hfits (by decide))
  rw [nextEntry, hsize, Option.bind_eq_bind, Option.bind_some, he, hmod]

/-- Nothing more fits, or what follows is too short. -/
theorem nextEntry_complete
    (h : e ≤ SC_RTS_BUFF_SIZE32 - SC_RTS_HDR_WORDS →
      ∃ next, rtsMsgSize words e = some next ∧ next < SC_PACKET_MIN_SIZE) :
    nextEntry words o = some .complete := by
  rw [nextEntry_eq hsize he hfits]
  split
  case isFalse => rfl
  case isTrue hle =>
    obtain ⟨next, hnext, hshort⟩ := h hle
    rw [hnext]
    exact if_neg (Nat.not_le.mpr hshort)

/-- What follows has a length the executor takes for a command. -/
theorem nextEntry_long {next : Nat} {timeTag : BitVec 32}
    (hle : e ≤ SC_RTS_BUFF_SIZE32 - SC_RTS_HDR_WORDS) (hnext : rtsMsgSize words e = some next)
    (hlong : SC_PACKET_MIN_SIZE ≤ next) (htag : rtsTimeTag words e = some timeTag) :
    nextEntry words o = some (if next ≤ SC_PACKET_MAX_SIZE ∧
      e + wordsOf (next + SC_RTS_HEADER_SIZE) ≤ SC_RTS_BUFF_SIZE32 then .command e timeTag
      else .error) := by
  rw [nextEntry_eq hsize he hfits, if_pos hle, hnext, Option.bind_eq_bind, Option.bind_some,
    if_pos hlong]
  split
  · rw [htag]
    rfl
  · rfl

end NextEntry

/-- Where the last entry of a walk ends. -/
def rtsEnd (words : List Word) (entries : List Nat) : Option Nat := do
  let last ← entries.getLast?
  let size ← rtsMsgSize words last
  some (last + wordsOf (size + SC_RTS_HEADER_SIZE))

/-- A packet header behind the last entry has a length below the least one. -/
def Terminated (words : List Word) (entries : List Nat) : Prop :=
  ∀ o size, rtsEnd words entries = some o → o ≤ SC_RTS_BUFF_SIZE32 - SC_RTS_HDR_WORDS →
    rtsMsgSize words o = some size → size < SC_PACKET_MIN_SIZE

theorem terminated_cons {words : List Word} {o : Nat} {rest : List Nat} (hrest : rest ≠ []) :
    Terminated words (o :: rest) ↔ Terminated words rest := by
  cases rest with
  | nil => exact absurd rfl hrest
  | cons next rest => rw [Terminated, Terminated, rtsEnd, rtsEnd, List.getLast?_cons_cons]

theorem terminated_last {words : List Word} {o e size : Nat}
    (hsize : rtsMsgSize words o = some size)
    (he : o + wordsOf (size + SC_RTS_HEADER_SIZE) = e) :
    Terminated words [o] ↔ (e ≤ SC_RTS_BUFF_SIZE32 - SC_RTS_HDR_WORDS →
      ∀ next, rtsMsgSize words e = some next → next < SC_PACKET_MIN_SIZE) := by
  have hend : rtsEnd words [o] = some e := by
    rw [rtsEnd, List.getLast?_singleton, Option.bind_eq_bind, Option.bind_some, hsize,
      Option.bind_some, he]
  refine ⟨fun h hle next => h e next hend hle, fun h o' next ho' => ?_⟩
  obtain rfl := Option.some.inj (hend.symm.trans ho')
  exact fun hle => h hle next

/-- The walk from an entry: it is the last one, or the next one is walked too. -/
theorem parseRtsLoop_entry {words : List Word} {fuel o : Nat} {entries : List Nat}
    (h : parseRtsLoop words (fuel + 1) o = some (some entries)) (hne : entries ≠ []) :
    ∃ size e, rtsMsgSize words o = some size ∧ o + wordsOf (size + SC_RTS_HEADER_SIZE) = e ∧
      e ≤ SC_RTS_BUFF_SIZE32 ∧
      (entries = [o] ∨ ∃ next rest, entries = o :: rest ∧ rest ≠ [] ∧
        parseRtsLoop words fuel e = some (some rest) ∧ rtsMsgSize words e = some next ∧
        e ≤ SC_RTS_BUFF_SIZE32 - SC_RTS_HDR_WORDS ∧ SC_PACKET_MIN_SIZE ≤ next ∧
        next ≤ SC_PACKET_MAX_SIZE ∧ e + wordsOf (next + SC_RTS_HEADER_SIZE) ≤ SC_RTS_BUFF_SIZE32) := by
  obtain rfl | ⟨size, hsize, -, -, hfits, hentries⟩ := parseRtsLoop_cases h
  · exact absurd rfl hne
  · refine ⟨size, _, hsize, rfl, hfits, ?_⟩
    obtain ⟨-, hlast⟩ | ⟨rest, hrest, rfl⟩ := hentries
    · exact .inl hlast
    · cases rest with
      | nil => exact .inl rfl
      | cons next rest =>
        cases fuel with
        | zero => cases hrest
        | succ fuel =>
          obtain hnil | ⟨length, hlength, hmin, hmax, hnextFits, -⟩ := parseRtsLoop_cases hrest
          · cases hnil
          · have hwords := wordsOf_min hmin
            exact .inr ⟨length, next :: rest, rfl, nofun, hrest, hlength, by omega, hmin, hmax,
              hnextFits⟩

/-- A waiting sequence walks the rest of a terminated table and stops. -/
theorem executeRts_parsed {i : RtsIndex} {table : RtsTable} {clock : Nat → BitVec 32}
    {fuel o k : Nat} {entries : List Nat} {s : RtsState} {previous : BitVec 32}
    (hparse : parseRtsLoop table.cells fuel o = some (some entries)) (hne : entries ≠ [])
    (hterminated : Terminated table.cells entries) (h : Waiting i table o s)
    (hdue : ∃ timeTag, rtsTimeTag table.cells o = some timeTag ∧
      (s.rtsInfo i).nextCommandTime = previous + timeTag) :
    ∃ final steps, executeRts i clock (fuel + 1) k s = some (final, steps) ∧
      steps.map RtsStep.cmdOffset = entries ∧ Relative table.cells previous steps ∧
      final.rtsCmdErrCtr = s.rtsCmdErrCtr ∧ (final.rtsInfo i).rtsStatus = .loaded := by
  induction fuel generalizing o k entries s previous with
  | zero => cases hparse
  | succ fuel ih =>
    obtain ⟨size, e, hsize, he, hfits, rfl | ⟨next, rest, rfl, hrest, hparse', hnext, hle, hmin,
      hmax, hnextFits⟩⟩ := parseRtsLoop_entry hparse hne
    · have hcomplete : nextEntry table.cells o = some .complete := by
        refine nextEntry_complete hsize he hfits fun hle => ?_
        obtain ⟨next, hnext⟩ := (exists_rtsMsgSize table hle).1
        exact ⟨next, hnext, (terminated_last hsize he).mp hterminated hle next hnext⟩
      obtain ⟨hstopped, hloaded, herr⟩ := killRts_stops i (sentState i s)
      rw [executeRts_waiting h clock (fuel + 1) k rfl rfl, hcomplete, Option.bind_some,
        afterCommand, executeRts_stopped hstopped, Option.map_some]
      exact ⟨_, _, rfl, rfl, ⟨hdue, trivial⟩, herr, hloaded h.sentState.status⟩
    · obtain ⟨timeTag, htag⟩ := (exists_rtsMsgSize table hle).2
      have hcommand := nextEntry_long hsize he hfits hle hnext hmin htag
      rw [if_pos ⟨hmax, hnextFits⟩] at hcommand
      obtain ⟨due, hdueEq⟩ : ∃ due, due = (s.rtsInfo i).nextCommandTime := ⟨_, rfl⟩
      obtain ⟨time, htime⟩ : ∃ time, time = serviceTime due (clock k) := ⟨_, rfl⟩
      obtain ⟨hwaiting, hnextTime⟩ := waiting_afterCommand h e time timeTag
      obtain ⟨final, steps, hrun, hoffsets, hrelative, herr, hloaded⟩ :=
        ih (k := k + 1) hparse' hrest ((terminated_cons hrest).mp hterminated) hwaiting
          ⟨timeTag, htag, hnextTime⟩
      rw [executeRts_waiting h clock (fuel + 1) k hdueEq htime, hcommand, Option.bind_some, hrun,
        Option.map_some]
      exact ⟨_, _, rfl, congrArg (o :: ·) hoffsets, ⟨hdueEq ▸ hdue, hrelative⟩, herr, hloaded⟩

/-- A run from a waiting sequence starts with the command it waits for. -/
theorem executeRts_cons {i : RtsIndex} {table : RtsTable} {clock : Nat → BitVec 32}
    {fuel o k : Nat} {s final : RtsState} {steps : List RtsStep} (h : Waiting i table o s)
    (hrun : executeRts i clock fuel k s = some (final, steps)) :
    ∃ left time next rest, fuel = left + 1 ∧ nextEntry table.cells o = some next ∧
      executeRts i clock left (k + 1) (afterCommand i time (sentState i s) next) =
        some (final, rest) ∧ steps.map RtsStep.cmdOffset = o :: rest.map RtsStep.cmdOffset := by
  cases fuel with
  | zero => cases hrun
  | succ left =>
    rw [executeRts_waiting h clock left k rfl rfl] at hrun
    obtain ⟨next, hnext, hrun⟩ := Option.bind_eq_some_iff.mp hrun
    obtain ⟨⟨_, rest⟩, hrest, hpair⟩ := Option.map_eq_some_iff.mp hrun
    cases hpair
    exact ⟨left, _, next, rest, rfl, hnext, hrest, rfl⟩

/-- Behind a table that is not terminated comes one more command, or an error. -/
theorem executeRts_unterminated {i : RtsIndex} {table : RtsTable} {clock : Nat → BitVec 32}
    {fuel left o k : Nat} {entries : List Nat} {s final : RtsState} {steps : List RtsStep}
    (hparse : parseRtsLoop table.cells fuel o = some (some entries)) (hne : entries ≠ [])
    (hunterminated : ¬ Terminated table.cells entries) (h : Waiting i table o s)
    (hrun : executeRts i clock left k s = some (final, steps))
    (hoffsets : steps.map RtsStep.cmdOffset = entries) :
    final.rtsCmdErrCtr ≠ s.rtsCmdErrCtr := by
  induction fuel generalizing o k left entries s steps with
  | zero => cases hparse
  | succ fuel ih =>
    obtain ⟨left, time, nextCmd, rest', rfl, hnextCmd, hrest', hsteps⟩ := executeRts_cons h hrun
    rw [hsteps] at hoffsets
    obtain ⟨size, e, hsize, he, hfits, rfl | ⟨next, rest, rfl, hrest, hparse', hnext, hle, hmin,
      hmax, hnextFits⟩⟩ := parseRtsLoop_entry hparse hne
    · rw [terminated_last hsize he] at hunterminated
      push Not at hunterminated
      obtain ⟨hle, next, hnext, hlong⟩ := hunterminated
      obtain ⟨timeTag, htag⟩ := (exists_rtsMsgSize table hle).2
      have hentry := nextEntry_long hsize he hfits hle hnext (by omega) htag
      have hnil : rest'.map RtsStep.cmdOffset = [] := (List.cons.inj hoffsets).2
      obtain rfl := Option.some.inj (hnextCmd.symm.trans hentry)
      by_cases hcommand : next ≤ SC_PACKET_MAX_SIZE ∧
          e + wordsOf (next + SC_RTS_HEADER_SIZE) ≤ SC_RTS_BUFF_SIZE32
      · -- The bytes behind the last entry go out as a command.
        rw [if_pos hcommand] at hrest'
        obtain ⟨_, _, _, _, _, _, _, hmore⟩ :=
          executeRts_cons (waiting_afterCommand h e time timeTag).1 hrest'
        rw [hnil] at hmore
        cases hmore
      · rw [if_neg hcommand] at hrest'
        obtain ⟨hstopped, -, herr⟩ := killRts_stops i
          ({ sentState i s with rtsCmdErrCtr := (sentState i s).rtsCmdErrCtr + 1 }.setInfo i
            { (sentState i s).rtsInfo i with
              cmdErrCtr := ((sentState i s).rtsInfo i).cmdErrCtr + 1 })
        cases left with
        | zero => cases hrest'
        | succ left =>
          rw [afterCommand, rtsCmdError, executeRts_stopped hstopped] at hrest'
          cases hrest'
          intro hsame
          have hone : s.rtsCmdErrCtr + 1 = s.rtsCmdErrCtr := herr.symm.trans hsame
          exact absurd (BitVec.self_eq_add_right.mp hone.symm) (by decide)
    · obtain ⟨timeTag, htag⟩ := (exists_rtsMsgSize table hle).2
      have hcommand := nextEntry_long hsize he hfits hle hnext hmin htag
      rw [if_pos ⟨hmax, hnextFits⟩] at hcommand
      obtain rfl := Option.some.inj (hnextCmd.symm.trans hcommand)
      exact ih (s := afterCommand i time (sentState i s) (.command e timeTag)) hparse' hrest
        (fun hall => hunterminated ((terminated_cons hrest).mpr hall))
        (waiting_afterCommand h e time timeTag).1 hrest' (List.cons.inj hoffsets).2

/-- Started at any time in any state that holds the table, the sequence sends the
entries and no others, each due its time tag after the one before, and completes
without a command error. -/
def RunsAsParsed (i : RtsIndex) (table : RtsTable) (entries : List Nat) : Prop :=
  ∀ (s : RtsState) (start : BitVec 32) (clock : Nat → BitVec 32), s.rtsTbl i = some table →
    (s.rtsInfo i).disabledFlag = false → (s.rtsInfo i).rtsStatus = .loaded →
    ∃ started fuel final steps, startRtsCmd start (BitVec.ofNat 16 (i + 1)) s = some started ∧
      executeRts i clock fuel 0 started = some (final, steps) ∧
      steps.map RtsStep.cmdOffset = entries ∧ Relative table.cells start steps ∧
      final.rtsCmdErrCtr = s.rtsCmdErrCtr ∧ (final.rtsInfo i).rtsStatus = .loaded

/-- Every sequence holds the table, loaded and enabled. -/
def readyState (table : RtsTable) : RtsState where
  rtsTbl _ := some table
  rtsInfo _ := { rtsStatus := .loaded, disabledFlag := false }

/-- The start command leaves the sequence waiting for its first entry. -/
theorem startRtsCmd_waiting {i : RtsIndex} {table : RtsTable} {fuel : Nat} {entries : List Nat}
    {s : RtsState} (hparse : parseRtsLoop table.cells (fuel + 1) 0 = some (some entries))
    (hne : entries ≠ []) (htable : s.rtsTbl i = some table)
    (henabled : (s.rtsInfo i).disabledFlag = false)
    (hloaded : (s.rtsInfo i).rtsStatus = .loaded) (start : BitVec 32) :
    ∃ started, startRtsCmd start (BitVec.ofNat 16 (i + 1)) s = some started ∧
      Waiting i table 0 started ∧ started.rtsCmdErrCtr = s.rtsCmdErrCtr ∧
      ∃ timeTag, rtsTimeTag table.cells 0 = some timeTag ∧
        (started.rtsInfo i).nextCommandTime = start + timeTag := by
  obtain rfl | ⟨size, hsize, hmin, hmax, -⟩ := parseRtsLoop_cases hparse
  · exact absurd rfl hne
  · obtain ⟨timeTag, htag⟩ := (exists_rtsMsgSize table (Nat.zero_le _)).2
    have hlt := i.isLt
    have hid : (BitVec.ofNat 16 (i + 1)).toNat = i + 1 := by
      rw [BitVec.toNat_ofNat]
      simp only [SC_NUMBER_OF_RTS] at hlt
      omega
    have hvalid : 0 < (BitVec.ofNat 16 (i + 1)).toNat ∧
        (BitVec.ofNat 16 (i + 1)).toNat ≤ SC_NUMBER_OF_RTS := by
      rw [hid]
      omega
    have hindex : (⟨(BitVec.ofNat 16 (i + 1)).toNat - 1, by omega⟩ : RtsIndex) = i :=
      Fin.ext (by simp only [hid]; omega)
    rw [startRtsCmd, dif_pos hvalid]
    dsimp only
    rw [hindex, if_pos henabled, if_pos hloaded, htable, Option.bind_eq_bind, Option.bind_some,
      hsize, Option.bind_eq_bind, Option.bind_some, if_pos ⟨hmin, hmax⟩, initRtsInfo, htable,
      Option.bind_eq_bind, Option.bind_some, htag, Option.bind_eq_bind, Option.bind_some]
    refine ⟨_, rfl, ⟨htable, ?_, ?_⟩, rfl, timeTag, rfl, ?_⟩ <;>
      exact congrArg _ (RtsState.rtsInfo_setInfo s i _)

theorem terminated_of_runsAsParsed {i : RtsIndex} {table : RtsTable} {entries : List Nat}
    (hparse : parseRts table = some (some entries)) (hfirst : entries ≠ [])
    (hruns : RunsAsParsed i table entries) : Terminated table.cells entries := by
  by_contra hunterminated
  obtain ⟨started, fuel, final, steps, hstart, hrun, hoffsets, -, herr, -⟩ := hruns
    (readyState table) 0 (fun _ => 0) rfl rfl rfl
  obtain ⟨started', hstart', hwaiting, hsame, -⟩ :=
    startRtsCmd_waiting (s := readyState table) (i := i) hparse hfirst rfl rfl rfl 0
  obtain rfl := Option.some.inj (hstart.symm.trans hstart')
  exact executeRts_unterminated hparse hfirst hunterminated hwaiting hrun hoffsets
    (herr.trans hsame.symm)

theorem runsAsParsed_of_terminated {i : RtsIndex} {table : RtsTable} {entries : List Nat}
    (hparse : parseRts table = some (some entries)) (hfirst : entries ≠ [])
    (hterminated : Terminated table.cells entries) : RunsAsParsed i table entries := by
  intro s start clock htable henabled hloaded
  obtain ⟨started, hstart, hwaiting, hsame, hdue⟩ :=
    startRtsCmd_waiting hparse hfirst htable henabled hloaded start
  obtain ⟨final, steps, hrun, hoffsets, hrelative, herr, hstatus⟩ :=
    executeRts_parsed hparse hfirst hterminated hwaiting hdue
  exact ⟨started, _, final, steps, hstart, hrun, hoffsets, hrelative, herr.trans hsame, hstatus⟩

/-- An accepted sequence runs as it was parsed exactly when the packet header
behind its last entry, where one fits, is shorter than any command. -/
theorem rts_runs_as_parsed_iff (i : RtsIndex) (table : RtsTable) (entries : List Nat)
    (hparse : parseRts table = some (some entries)) (hfirst : entries ≠ []) :
    RunsAsParsed i table entries ↔ Terminated table.cells entries :=
  ⟨terminated_of_runsAsParsed hparse hfirst, runsAsParsed_of_terminated hparse hfirst⟩

/-- A table with zeros behind the given words. -/
def paddedRts (front : List Word) (h : front.length ≤ SC_RTS_BUFF_SIZE32) : RtsTable :=
  ⟨front ++ List.replicate (SC_RTS_BUFF_SIZE32 - front.length) Word.zero, by
    rw [List.length_append, List.length_replicate]
    omega⟩

/-- Two commands of eight bytes, the second five seconds after the first. -/
def twoCommandRts : RtsTable :=
  paddedRts [⟨0, 0, 0, 0⟩, ⟨0x18, 0x01, 0xC0, 0⟩, ⟨0, 1, 0, 0⟩,
    ⟨5, 0, 0, 0⟩, ⟨0x18, 0x02, 0xC0, 0⟩, ⟨0, 1, 0, 0⟩] (by decide)

theorem terminated_twoCommandRts : Terminated twoCommandRts.cells [0, 3] := by
  intro o size ho _ hsize
  have hend : rtsEnd twoCommandRts.cells [0, 3] = some 6 := by decide
  obtain rfl := Option.some.inj (hend.symm.trans ho)
  have hlast : rtsMsgSize twoCommandRts.cells 6 = some 7 := by decide
  obtain rfl := Option.some.inj (hlast.symm.trans hsize)
  decide

theorem rts_runs_as_parsed_two : RunsAsParsed ⟨0, by decide⟩ twoCommandRts [0, 3] :=
  (rts_runs_as_parsed_iff ⟨0, by decide⟩ twoCommandRts [0, 3] (by decide +kernel) nofun).mpr
    terminated_twoCommandRts

/-- One command, and behind it a packet without message id that has a length. -/
def shadowedRts : RtsTable :=
  paddedRts [⟨0, 0, 0, 0⟩, ⟨0x18, 0x01, 0xC0, 0⟩, ⟨0, 1, 0, 0⟩,
    ⟨0, 0, 0, 0⟩, ⟨0, 0, 0, 0⟩, ⟨0, 1, 0, 0⟩] (by decide)

/-- The validator stops in front of that packet, the executor sends it. -/
theorem rts_runs_past_parsed : parseRts shadowedRts = some (some [0]) ∧
    ¬ RunsAsParsed ⟨0, by decide⟩ shadowedRts [0] := by
  have hparse : parseRts shadowedRts = some (some [0]) := by decide +kernel
  refine ⟨hparse, fun hruns => ?_⟩
  have hterminated := terminated_of_runsAsParsed hparse nofun hruns
  exact absurd (hterminated 3 8 (by decide) (by decide) (by decide)) (by decide)

end Nos3.Sc
