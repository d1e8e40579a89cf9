import Nos3.Sc.Guarantees.TimeOrder
import Nos3.Sc.Guarantees.WakeupRounds

/-!
# The entries an ATS was loaded with

A run records, for each ATS, the entries of its last accepted table and of every append that
was accepted since, in the order of the loads. The offset of a command is that of the last of
them, and the time index is the one built from the offsets, whatever else the run does.
-/
namespace Nos3.Sc
open Function (update update_self update_of_ne)
open Base.Transition

/-- The entries from an offset on: the commands and where they stand. -/
def entriesFrom (words : List Word) : Nat → Nat → List (CmdIndex × Nat)
  | 0, _ => []
  | count + 1, o =>
    match (atsCmdNumber words o).bind atsCmdNumToIndex, atsMsgSize words o with
    | some i, some bytes =>
      (i, o) :: entriesFrom words count (o + (SC_ATS_HDR_NOPKT_WORDS + wordsOf bytes))
    | _, _ => []

/-- The entries of a table the validation accepts. -/
def tableEntries (table : AtsTable) : List (CmdIndex × Nat) :=
  match validateAts table with
  | some (some verified) => entriesFrom table.cells verified.commandCount 0
  | _ => []

/-- The entries of the append table, behind what the ATS holds. -/
def AtsState.appendedEntries (s : AtsState) (a : AtsIndex) : List (CmdIndex × Nat) :=
  match s.appendTbl with
  | some append => (entriesFrom append.cells s.appendEntryCount 0).map fun entry =>
    (entry.1, (s.ats a).atsSize + entry.2)
  | none => []

/-- A table starts the record of its ATS over; an accepted append goes on with it. -/
def recordLoads (request : Request) (s : AtsState) (loads : AtsIndex → List (CmdIndex × Nat)) :
    AtsIndex → List (CmdIndex × Nat) :=
  match request with
  | .manageAts a table => update loads a (tableEntries table)
  | .appendAts atsId =>
    match atsNumToIndex atsId with
    | some a => if s.TakesAppend a then update loads a (loads a ++ s.appendedEntries a) else loads
    | none => loads
  | _ => loads

/-- The offset of the entry of a command that was loaded last. -/
def latest (loads : List (CmdIndex × Nat)) (i : CmdIndex) : Option Nat :=
  (loads.reverse.find? fun load => load.1 = i).map Prod.snd

theorem latest_concat (loads : List (CmdIndex × Nat)) (i : CmdIndex) (o : Nat) :
    latest (loads ++ [(i, o)]) = update (latest loads) i (some o) := by
  funext j
  rw [latest, List.reverse_append, List.reverse_singleton, List.singleton_append, List.find?_cons]
  by_cases hj : i = j
  · subst hj
    simp
  · simp [latest, hj, update_of_ne (Ne.symm hj)]

theorem entriesFrom_cons {words : List Word} {bufferWords count : Nat} {i : CmdIndex}
    {o size : Nat} (h : EntryAt words bufferWords i o size) :
    entriesFrom words (count + 1) o = (i, o) :: entriesFrom words count (o + size) := by
  obtain ⟨bytes, hbytes, -, -, rfl⟩ := h.packet
  rw [entriesFrom, h.number, Option.bind_some, atsCmdNumToIndex_succ, hbytes]

/-- The same entries elsewhere. -/
theorem entriesFrom_congr {words words' : List Word} {base count o o' : Nat}
    (hsame : ∀ k < o', words'[base + k]? = words[k]?) (h : Entries words count o o') :
    entriesFrom words' count (base + o) =
      (entriesFrom words count o).map fun entry => (entry.1, base + entry.2) := by
  induction count generalizing o with
  | zero => rfl
  | succ count ih =>
    obtain ⟨i, size, hentry, hrest⟩ := h
    have htail := ih hrest
    rw [← Nat.add_assoc] at htail
    rw [entriesFrom_cons hentry, entriesFrom_cons (hentry.congr hsame), htail, List.map_cons]

/-! ## The loops of the loads -/

theorem verifyLoop_latest {words : List Word} {bufferWords : Nat}
    (hlen : words.length = bufferWords) {fuel o count count' o' : Nat}
    {dup dup' : CmdIndex → Option Nat} {loads : List (CmdIndex × Nat)} (hdup : dup = latest loads)
    (h : verifyLoop words bufferWords fuel o count dup = some (true, count', o', dup')) :
    ∃ entries, count' = count + entries ∧ dup' = latest (loads ++ entriesFrom words entries o) := by
  induction fuel generalizing o count dup loads with
  | zero => cases h
  | succ fuel ih =>
    rw [verifyLoop] at h
    obtain ⟨hend, -⟩ | herror | ⟨i, size, hcheck, -, hentry⟩ := verifyAtsEntry_cases hlen dup o
    · rw [hend] at h
      cases h
      refine ⟨0, rfl, ?_⟩
      rw [entriesFrom, List.append_nil, hdup]
    · rw [herror] at h
      cases h
    · rw [hcheck] at h
      have hnext : update dup i (some o) = latest (loads ++ [(i, o)]) := by
        rw [latest_concat, hdup]
      obtain ⟨entries, hcount, hlatest⟩ := ih hnext h
      refine ⟨entries + 1, by omega, ?_⟩
      rw [hlatest, entriesFrom_cons hentry, List.append_assoc, List.singleton_append]

/-- The offsets of a verified table are those of its entries. -/
theorem validateAts_latest {table : AtsTable} {verified : VerifiedTable}
    (h : validateAts table = some (some verified)) :
    verified.offsets = latest (tableEntries table) := by
  rw [tableEntries, h]
  rw [validateAts, verifyAtsTable] at h
  obtain ⟨⟨success, count, o, dup⟩, hverify, h⟩ := Option.bind_eq_some_iff.mp h
  dsimp only at h
  split at h
  case isTrue hsuccess =>
    obtain rfl := Option.some.inj (Option.some.inj h)
    have hnone : (fun _ => none) = latest [] := rfl
    rw [hsuccess.1] at hverify
    obtain ⟨entries, hcount, hlatest⟩ := verifyLoop_latest table.length_cells hnone hverify
    rw [Nat.zero_add] at hcount
    rw [hlatest, hcount, List.nil_append]
  case isFalse => cases h

theorem appendLoop_latest {words : List Word} {count o o' : Nat} {d d' : AtsData}
    {loads : List (CmdIndex × Nat)} (he : Entries words count o o')
    (hindex : d.cmdIndex = latest loads) (h : appendLoop words count o d = some d') :
    d'.cmdIndex = latest (loads ++ entriesFrom words count o) := by
  induction count generalizing o d loads with
  | zero =>
    cases h
    rw [entriesFrom, List.append_nil, hindex]
  | succ count ih =>
    obtain ⟨i, size, hentry, hrest⟩ := he
    obtain ⟨bytes, hbytes, -, -, hsize⟩ := hentry.packet
    rw [appendLoop, hentry.number, Option.bind_eq_bind, Option.bind_some, atsCmdNumToIndex_succ,
      Option.bind_eq_bind, Option.bind_some, hbytes, Option.bind_some, ← hsize] at h
    have hnext : (d.appendEntry i o).cmdIndex = latest (loads ++ [(i, o)]) := by
      rw [latest_concat, ← hindex]
      rfl
    rw [ih hrest hnext h, entriesFrom_cons hentry, List.append_assoc, List.singleton_append]

/-! ## One sequence -/

/-- The offsets are those of the entries loaded last, and the time index is built from them. -/
structure AtsData.Tracked (d : AtsData) (loads : List (CmdIndex × Nat)) : Prop where
  built : buildTimeIndexTable d = some d
  latest : d.cmdIndex = latest loads

theorem buildTimeIndexTable_idem {d d' : AtsData} (h : buildTimeIndexTable d = some d') :
    buildTimeIndexTable d' = some d' ∧ d'.cmdIndex = d.cmdIndex := by
  have hbuild := h
  rw [buildTimeIndexTable] at h
  obtain ⟨timeIndex, -, heq⟩ := Option.bind_eq_some_iff.mp h
  obtain rfl := Option.some.inj heq
  exact ⟨buildTimeIndexTable_again hbuild rfl rfl rfl, rfl⟩

theorem AtsData.Remarked.tracked {d d' : AtsData} {loads : List (CmdIndex × Nat)}
    (h : d.Remarked d') (hd : d.Tracked loads) : d'.Tracked loads where
  built := buildTimeIndexTable_again hd.built (funext h.entryTime) h.cmdIndex h.timeIndex
  latest := h.cmdIndex.trans hd.latest

theorem loadAts_tracked {table : AtsTable} {d d' : AtsData}
    (h : loadAts { d with tbl := some table } = some d') (hused : d'.numberOfCommands ≠ 0) :
    d'.Tracked (tableEntries table) := by
  have hload := h
  rw [loadAts, Option.bind_eq_bind, Option.bind_some] at h
  obtain ⟨⟨success, size, loaded⟩, -, h⟩ := Option.bind_eq_some_iff.mp h
  dsimp only at h
  split at h
  case isTrue =>
    refine ⟨(buildTimeIndexTable_idem h).1, ?_⟩
    obtain ⟨-, hempty⟩ | ⟨verified, found, hvalid, hfound, hl⟩ := loadAts_spec table d
    · obtain rfl := Option.some.inj (hload.symm.trans hempty)
      exact absurd rfl hused
    · obtain rfl := Option.some.inj (hload.symm.trans hfound)
      rw [hl.loadedPrefix.index, validateAts_latest hvalid]
  case isFalse =>
    obtain rfl := Option.some.inj h
    exact absurd rfl hused

theorem appendEntries_tracked {append : AppendTable} {entryCount wordCount : Nat}
    {table : AtsTable} {d d' : AtsData} {loads : List (CmdIndex × Nat)} (hd : d.Indexed table)
    (hwords : wordCount ≤ SC_APPEND_BUFF_SIZE32)
    (he : Entries append.cells entryCount 0 wordCount) (hindex : d.cmdIndex = latest loads)
    (h : appendEntries append entryCount wordCount d = some d') :
    d'.Tracked (loads ++ (entriesFrom append.cells entryCount 0).map fun entry =>
      (entry.1, d.atsSize + entry.2)) := by
  obtain ⟨written, appended, -, -, hinside, hloop, hbuild⟩ :=
    appendEntries_cases hd.tbl hd.inside hwords h
  obtain ⟨hbuilt, hkept⟩ := buildTimeIndexTable_idem hbuild
  have hentries := (he.congr hinside).1
  have hcopied := entriesFrom_congr hinside he
  rw [Nat.add_zero] at hentries hcopied
  have hcopy : ({ d with tbl := some written, atsSize := d.atsSize + wordCount } :
      AtsData).cmdIndex = latest loads := hindex
  have hlatest := appendLoop_latest hentries hcopy hloop
  refine ⟨hbuilt, ?_⟩
  rw [hkept, hlatest, hcopied]

/-! ## Every request -/

/-- Every ATS in use is as its record says. -/
def AtsState.Tracked (s : AtsState) (loads : AtsIndex → List (CmdIndex × Nat)) : Prop :=
  ∀ a, (s.ats a).numberOfCommands ≠ 0 → (s.ats a).Tracked (loads a)

theorem AtsState.Keeps.tracked {s s' : AtsState} {loads : AtsIndex → List (CmdIndex × Nat)}
    (h : s.Keeps s') (hs : s.Tracked loads) : s'.Tracked loads := by
  intro a hused
  rw [(h.remarked a).numberOfCommands] at hused
  exact (h.remarked a).tracked (hs a hused)

theorem AtsState.Tracked.setAts {s : AtsState} {loads : AtsIndex → List (CmdIndex × Nat)}
    (hs : s.Tracked loads) {a : AtsIndex} {d : AtsData} {list : List (CmdIndex × Nat)}
    (hd : d.numberOfCommands ≠ 0 → d.Tracked list) :
    (s.setAts a d).Tracked (update loads a list) := by
  intro b
  rw [AtsState.setAts]
  by_cases hb : b = a
  · subst hb
    simpa using hd
  · simpa [update_of_ne hb] using hs b

theorem appendAtsCmd_tracked {currentTime : BitVec 32} {atsId : Nat} {s s' : AtsState}
    {loads : AtsIndex → List (CmdIndex × Nat)} (hs : s.Usable) (ht : s.Tracked loads)
    (h : appendAtsCmd currentTime atsId s = some s') :
    s'.Tracked (recordLoads (.appendAts atsId) s loads) := by
  rw [recordLoads]
  rcases appendAtsCmd_keeps hs h with ⟨rfl, hrefused⟩ |
    ⟨a, append, table, d, ha, htakes, happend, hindexed, hwords, he, hentries, hkeeps⟩
  · cases ha : atsNumToIndex atsId with
    | none => exact ht
    | some a =>
      dsimp only
      rw [if_neg (hrefused a ha)]
      exact ht
  · have hd := appendEntries_tracked hindexed hwords he (ht a htakes.1).latest hentries
    rw [ha]
    dsimp only
    rw [if_pos htakes, AtsState.appendedEntries, happend]
    exact hkeeps.tracked (ht.setAts fun _ => hd)

theorem processRequest_tracked {s s' : ScState} {request : Request}
    {loads : AtsIndex → List (CmdIndex × Nat)} (hs : s.Usable) (ht : s.ats.Tracked loads)
    (h : processRequest request s = some s') :
    s'.ats.Tracked (recordLoads request s.ats loads) := by
  have honRts {rts : Option RtsState} (h : s.onRts rts = some s') : s'.ats.Tracked loads := by
    obtain ⟨next, -, rfl⟩ := Option.map_eq_some_iff.mp h
    exact ht
  have honAts {ats : Option AtsState} (hkeeps : ∀ next, ats = some next → s.ats.Keeps next)
      (h : s.onAts ats = some s') : s'.ats.Tracked loads := by
    obtain ⟨next, hnext, rfl⟩ := Option.map_eq_some_iff.mp h
    exact (hkeeps next hnext).tracked ht
  cases request with
  | startRts | stopRts | disableRts | enableRts | startRtsGrp | stopRtsGrp | disableRtsGrp
  | enableRtsGrp | autoEnable => exact honRts h
  | startAts atsId => exact honAts (fun _ => startAtsCmd_usable hs.ats) h
  | stopAts => exact honAts (fun _ => stopAtsCmd_usable hs.ats) h
  | switchAts => exact honAts (fun _ => groundSwitchCmd_usable hs.ats) h
  | jumpAts newTime => exact honAts (fun _ => jumpAtsCmd_usable hs.ats) h
  | appendAts atsId =>
    obtain ⟨next, hnext, rfl⟩ := Option.map_eq_some_iff.mp h
    exact appendAtsCmd_tracked hs.ats ht hnext
  | manageAts a table =>
    rw [processRequest] at h
    split at h
    · obtain ⟨next, hnext, rfl⟩ := Option.map_eq_some_iff.mp h
      obtain ⟨d, hload, hnext⟩ := Option.bind_eq_some_iff.mp hnext
      obtain rfl := Option.some.inj hnext
      exact ht.setAts (loadAts_tracked hload)
    · cases h
  | manageAppend table =>
    rw [processRequest] at h
    split at h
    · obtain ⟨next, hnext, rfl⟩ := Option.map_eq_some_iff.mp h
      obtain ⟨counts, -, hnext⟩ := Option.bind_eq_some_iff.mp hnext
      obtain rfl := Option.some.inj hnext
      exact ht
    · cases h
  | manageRts i table =>
    rw [processRequest] at h
    split at h
    · exact honRts h
    · cases h
  | wakeup bus fuel =>
    rw [processRequest] at h
    exact (wakeupLoop_keeps (hs.running_at s.currentTime) h).2.tracked ht

/-! ## Recorded runs -/

/-- The state, and for each ATS the record of its loads. -/
structure Recorded where
  state : ScState := {}
  loads : AtsIndex → List (CmdIndex × Nat) := fun _ => []

/-- The same runs, with the record beside them. -/
def recorder : Machine Recorded TimedRequest where
  start r := r = {}
  next r label := (machine.next r.state label).map fun s =>
    ⟨s, recordLoads label.request r.state.ats r.loads⟩

/-- What holds along every recorded run. -/
structure Recorded.Sound (r : Recorded) : Prop where
  usable : r.state.Usable
  tracked : r.state.ats.Tracked r.loads

theorem sound_recorder {r : Recorded} (h : recorder.Reachable r) : r.Sound := by
  refine h.invariant (fun r hstart => ?_) fun r label r' hr hnext => ?_
  · rw [show r = {} from hstart]
    exact ⟨usable_reachable (.start rfl), fun a hused => absurd rfl hused⟩
  · obtain ⟨s', hstep, rfl⟩ := Option.map_eq_some_iff.mp hnext
    have hnow : ({ r.state with currentTime := label.time } : ScState).Usable :=
      ⟨hr.usable.ats, hr.usable.rts, hr.usable.count⟩
    have htracked : ({ r.state with currentTime := label.time } : ScState).ats.Tracked r.loads :=
      hr.tracked
    have hrecorded := processRequest_tracked hnow htracked hstep
    exact ⟨processRequest_usable hnow hstep, hrecorded⟩

/-- In every run the time index of an ATS in use is a permutation of the numbers of its
commands, with `SC_INVALID_CMD_NUMBER` behind it in the buffer. Where no two tags are further
apart than half of their range it is in the order of the tags, and of the numbers within one
time; where they lie within half of it from some tag on, also past zero, it is in the order of
the distances from that. The index of every command is that of the entry loaded last. -/
theorem time_index_sorted_permutation {r : Recorded} (h : recorder.Reachable r) {a : AtsIndex}
    {d : AtsData} (hd : d = r.state.ats.ats a) (hused : d.numberOfCommands ≠ 0) :
    d.timeIndex.length = d.numberOfCommands ∧ d.timeIndex.Perm d.inUse ∧
    (∀ b, ∃ b', buildTimeBuffer d b = some b' ∧ b'.Ends d.timeIndex SC_MAX_ATS_CMDS) ∧
    (∀ base, d.Within base → d.timeIndex.Pairwise (d.Earlier (fromBase base))) ∧
    (d.CloseTags → d.timeIndex.Pairwise (d.Earlier (· < ·))) ∧
    ∀ i, d.cmdIndex i = latest (r.loads a) i ∧ ∀ o, d.cmdIndex i = some o →
      ∃ table size, d.tbl = some table ∧ EntryAt table.cells d.atsSize i o size := by
  subst hd
  obtain ⟨hs, ht⟩ := sound_recorder h
  obtain ⟨hbuilt, hlatest⟩ := ht a hused
  obtain ⟨table, hindexed⟩ := (hs.ats.data a).indexed hused
  have htimed := AtsData.timed_of_entries hindexed.tbl hindexed.inside hindexed.entries
  refine ⟨hindexed.indexed, buildTimeIndexTable_perm htimed hbuilt, buildTimeBuffer_spec hbuilt,
    fun base hwithin => buildTimeIndexTable_sorted hwithin htimed hbuilt,
    fun hclose => buildTimeIndexTable_sorted_plain hclose htimed hbuilt, fun i => ?_⟩
  constructor
  · rw [hlatest]
  · intro o ho
    obtain ⟨size, hentry⟩ := hindexed.entries i o ho
    exact ⟨table, size, hindexed.tbl, hentry⟩

/-- An append table with the first command again, at another time. -/
def oneCommandAppend (timeTag : BitVec 8) : AppendTable :=
  ⟨[⟨0, 0, 1, 0⟩, ⟨0, 0, timeTag, 0⟩, ⟨0x18, 0x01, 0xC0, 0⟩, ⟨0, 1, 0, 0⟩] ++
    List.replicate (SC_APPEND_BUFF_SIZE32 - 4) Word.zero, by
      rw [List.length_append, List.length_replicate]
      exact Nat.add_sub_cancel' (Nat.le_of_ble_eq_true rfl)⟩

theorem time_index_sorted_permutation_appended : ∃ r, recorder.Reachable r ∧
    r.loads atsA = [(firstCommand, 0), (firstCommand, 4)] ∧
    (r.state.ats.ats atsA).timeIndex = [1] ∧
    (r.state.ats.ats atsA).timeIndex.Perm (r.state.ats.ats atsA).inUse ∧
    (r.state.ats.ats atsA).cmdIndex firstCommand = latest (r.loads atsA) firstCommand := by
  obtain ⟨r, hr, hcheck⟩ := recorder.exists_reaches (fun _ _ => True)
    (fun r => r.loads atsA = [(firstCommand, 0), (firstCommand, 4)] ∧
      (r.state.ats.ats atsA).timeIndex = [1] ∧ (r.state.ats.ats atsA).numberOfCommands ≠ 0) rfl
    [⟨.manageAts atsA (oneCommandAts 100), 0⟩, ⟨.manageAppend (oneCommandAppend 50), 0⟩,
      ⟨.appendAts 1, 0⟩] (by decide +kernel)
  obtain ⟨hloads, hlist, hused⟩ := of_decide_eq_true hcheck
  obtain ⟨-, hperm, -, -, -, hlatest⟩ := time_index_sorted_permutation hr rfl hused
  exact ⟨r, hr, hloads, hlist, hperm, (hlatest firstCommand).1⟩

end Nos3.Sc
