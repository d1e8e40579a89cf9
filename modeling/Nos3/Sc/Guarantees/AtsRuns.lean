import Nos3.Sc.Guarantees.AtsControl

/-!
# Runs over the sequences of absolute time

Every request keeps the control block on an entry, unless it loads the executing
ATS. The budget of a command is what it has sent and, while it is loaded, one
more: only a load of the command raises it.
-/
namespace Nos3.Sc
open Function (update update_self update_of_ne)
open Base.Transition
open Base.FixedArray

/-- The structures a load leaves agree. -/
theorem Loaded.indexed_table {table : AtsTable} {verified : VerifiedTable} {d : AtsData}
    (h : Loaded table verified d) : d.Indexed table where
  tbl := h.tbl
  inside := h.size ▸ h.loadedPrefix.inside
  status i := by
    rw [h.loadedPrefix.index]
    exact h.loadedPrefix.empty_iff i
  used := h.loadedPrefix.used
  entries := by
    rw [h.loadedPrefix.index, h.size]
    exact h.loadedPrefix.entries
  indexed := h.indexed
  numbers := h.numbers

/-- A validated table has an entry for a command. -/
def validatedCommand (table : AtsTable) (i : CmdIndex) : Bool :=
  (validateAts table).any fun verified => verified.any fun v => (v.offsets i).isSome

theorem manageAtsTable_settled {a : AtsIndex} {table : AtsTable} {s s' : AtsState}
    (hs : s.Settled) (hother : ¬ (s.atpState = .executing ∧ s.atsNumber = a.val + 1))
    (h : manageAtsTable a table s = some s') :
    s'.Settled ∧ ∀ b i, (s'.ats b).cmdStatus i = .loaded → (s.ats b).cmdStatus i = .loaded ∨
      (b = a ∧ validatedCommand table i = true) := by
  obtain ⟨d, hload, h⟩ := Option.bind_eq_some_iff.mp h
  cases h
  have hd : d.Ready ∧ ∀ i, d.cmdStatus i = .loaded → validatedCommand table i = true := by
    obtain ⟨-, hempty⟩ | ⟨verified, loaded, hvalid, hloaded, hl⟩ := loadAts_spec table (s.ats a)
    · obtain rfl := Option.some.inj (hload.symm.trans hempty)
      exact ⟨.inl rfl, nofun⟩
    · obtain rfl := Option.some.inj (hload.symm.trans hloaded)
      refine ⟨.inr ⟨table, hl.indexed_table⟩, fun i hi => ?_⟩
      rw [hl.loadedPrefix.status i] at hi
      rw [validatedCommand, hvalid]
      split at hi
      case isTrue hsome => exact hsome
      case isFalse => cases hi
  refine ⟨⟨hs.sound.setAts hd.1 fun hstate hnumber => hother ⟨?_, hnumber⟩, hs.state⟩, ?_⟩
  · exact hstate.resolve_right hs.state
  · intro b i hi
    by_cases hb : b = a
    · subst hb
      simp only [AtsState.setAts, update_self] at hi
      exact .inr ⟨rfl, hd.2 i hi⟩
    · simp only [AtsState.setAts, update_of_ne hb] at hi
      exact .inl hi

theorem Entries.le {words : List Word} {count o o' : Nat} (h : Entries words count o o') :
    o ≤ o' := by
  cases count with
  | zero => exact Nat.le_of_eq h
  | succ count =>
    obtain ⟨i, size, hentry, -⟩ := h
    exact (Nat.le_add_right o size).trans hentry.fits

/-- A verification that succeeds walked over whole entries. -/
theorem verifyLoop_entries {words : List Word} {bufferWords : Nat}
    (hlen : words.length = bufferWords) {fuel o count count' o' : Nat}
    {dup dup' : CmdIndex → Option Nat} (hinside : o ≤ bufferWords)
    (h : verifyLoop words bufferWords fuel o count dup = some (true, count', o', dup')) :
    o' ≤ bufferWords ∧ ∃ entries, count' = count + entries ∧ Entries words entries o o' := by
  induction fuel generalizing o count dup with
  | zero => cases h
  | succ fuel ih =>
    rw [verifyLoop] at h
    obtain ⟨hend, -⟩ | herror | ⟨i, size, hcheck, -, hentry⟩ := verifyAtsEntry_cases hlen dup o
    · rw [hend] at h
      cases h
      exact ⟨hinside, 0, rfl, rfl⟩
    · rw [herror] at h
      cases h
    · rw [hcheck] at h
      obtain ⟨hfits, entries, hcount, hrest⟩ := ih hentry.fits h
      refine ⟨hfits, entries + 1, by omega, i, size, ?_, hrest⟩
      exact ⟨hentry.number, hrest.le, hentry.packet⟩

/-- An accepted append table is a row of whole entries. -/
theorem manageAppendTable_entries {table : AppendTable} {s s' : AtsState}
    (haccepted : tableAccepted (validateAppend table) = true)
    (h : manageAppendTable table s = some s') : ∃ entryCount wordCount,
      s' = { s with
        appendTbl := some table
        appendEntryCount := entryCount
        appendWordCount := wordCount } ∧
      wordCount ≤ SC_APPEND_BUFF_SIZE32 ∧ Entries table.cells entryCount 0 wordCount := by
  obtain ⟨⟨entryCount, wordCount⟩, hupdate, h⟩ := Option.bind_eq_some_iff.mp h
  refine ⟨entryCount, wordCount, (Option.some.inj h).symm, ?_⟩
  obtain ⟨⟨success, count, o, dup⟩, hverify⟩ := verifyLoop_total table.length_cells
    0 (fun _ => none) (Nat.zero_le _)
    (show SC_APPEND_BUFF_SIZE32 < SC_APPEND_BUFF_SIZE32 + 1 + 0 by omega)
  rw [validateAppend, verifyAtsTable, hverify] at haccepted
  simp only [Option.bind_eq_bind, Option.bind_some] at haccepted
  split at haccepted
  case isTrue hsuccess =>
    rw [hsuccess.1] at hverify
    obtain ⟨hfits, entries, hcount, hentries⟩ :=
      verifyLoop_entries table.length_cells (Nat.zero_le _) hverify
    obtain ⟨rfl, rfl⟩ := Prod.mk.inj (Option.some.inj
      (hupdate.symm.trans (updateAppendLoop_of_verified table.length_cells hverify)))
    rw [Nat.zero_add] at hcount
    exact ⟨hfits, hcount ▸ hentries⟩
  case isFalse => cases haccepted

theorem manageAppendTable_settled {table : AppendTable} {s s' : AtsState} (hs : s.Settled)
    (haccepted : tableAccepted (validateAppend table) = true)
    (h : manageAppendTable table s = some s') : s'.Settled ∧ s'.ats = s.ats := by
  obtain ⟨entryCount, wordCount, rfl, hfits, hentries⟩ := manageAppendTable_entries haccepted h
  exact ⟨⟨⟨hs.sound.ready, hs.sound.control, fun _ => ⟨table, rfl, hfits, hentries⟩⟩, hs.state⟩,
    rfl⟩

def isTransmission (a : AtsIndex) (i : CmdIndex) (entry : SentAt) : Bool :=
  match entry.command with
  | .ats sent => sent.ats = a ∧ sent.cmd = i
  | .rts _ => false

/-- How often a command of an ATS went to the software bus. -/
def transmissions (a : AtsIndex) (i : CmdIndex) (sent : List SentAt) : Nat :=
  sent.countP (isTransmission a i)

/-- A command of an ATS is not sent before its time tag. -/
def SentAt.OnTime (entry : SentAt) : Prop :=
  match entry.command with
  | .ats sent => compareAbsTime sent.timeTag entry.time = false
  | .rts _ => True

def ScState.loaded (s : ScState) (a : AtsIndex) (i : CmdIndex) : Prop :=
  (s.ats.ats a).cmdStatus i = .loaded

instance (s : ScState) (a : AtsIndex) (i : CmdIndex) : Decidable (s.loaded a i) :=
  inferInstanceAs (Decidable (_ = _))

def ScState.budget (s : ScState) (a : AtsIndex) (i : CmdIndex) : Nat :=
  transmissions a i s.sent + if s.loaded a i then 1 else 0

/-- A step for one command: what it sends is paid for. -/
structure ScState.Pays (s s' : ScState) (a : AtsIndex) (i : CmdIndex) : Prop where
  grows : transmissions a i s.sent ≤ transmissions a i s'.sent
  budget : s'.budget a i ≤ s.budget a i

theorem ScState.Pays.trans {s s' s'' : ScState} {a : AtsIndex} {i : CmdIndex}
    (h : s.Pays s' a i) (h' : s'.Pays s'' a i) : s.Pays s'' a i :=
  ⟨h.grows.trans h'.grows, h'.budget.trans h.budget⟩

theorem ScState.pays_of_quiet {s s' : ScState} {a : AtsIndex} {i : CmdIndex}
    (hquiet : s'.loaded a i → s.loaded a i)
    (hsent : transmissions a i s'.sent = transmissions a i s.sent) : s.Pays s' a i := by
  refine ⟨hsent.ge, ?_⟩
  rw [ScState.budget, ScState.budget, hsent]
  by_cases h : s'.loaded a i
  · rw [if_pos h, if_pos (hquiet h)]
  · rw [if_neg h]
    omega

/-- What holds of the state between the parts of a request. -/
structure ScState.Orderly (s : ScState) : Prop where
  settled : s.ats.Settled
  onTime : ∀ entry ∈ s.sent, entry.OnTime

/-- A part of the processing that loads no command of an ATS. -/
structure ScState.Runs (s s' : ScState) : Prop where
  orderly : s'.Orderly
  pays : ∀ a i, s.Pays s' a i

theorem ScState.Runs.trans {s s' s'' : ScState} (h : s.Runs s') (h' : s'.Runs s'') : s.Runs s'' :=
  ⟨h'.orderly, fun a i => (h.pays a i).trans (h'.pays a i)⟩

/-- A part that sends nothing and only moves the control block. -/
theorem ScState.Orderly.runs {s s' : ScState} (hs : s.Orderly) (hmoves : s.ats.Moves s'.ats)
    (hstate : s'.ats.atpState ≠ .starting) (hsent : s'.sent = s.sent) : s.Runs s' :=
  ⟨⟨hmoves.settled hs.settled hstate, hsent ▸ hs.onTime⟩,
    fun a i => ScState.pays_of_quiet ((hmoves.remarked a).quiet i) (hsent ▸ rfl)⟩

/-- A part that leaves the ATSs alone. -/
theorem ScState.Orderly.runs_ats {s s' : ScState} (hs : s.Orderly) (hats : s'.ats = s.ats)
    (hsent : s'.sent = s.sent) : s.Runs s' :=
  hs.runs (hats ▸ hs.settled.sound.refl) (hats ▸ hs.settled.state) hsent

theorem transmissions_cons (a : AtsIndex) (i : CmdIndex) (entry : SentAt) (sent : List SentAt) :
    transmissions a i (entry :: sent) =
      transmissions a i sent + if isTransmission a i entry then 1 else 0 :=
  List.countP_cons

/-- One command of the ATP: what is sent was loaded before and is not after. -/
theorem processNext_atp {bus : Nat → Bool} {s s' : ScState} {outcome : AtpOutcome}
    (hs : s.Orderly) (h : processAtpCmd (bus s.sent.length) s.currentTime s.ats = some outcome)
    (hats : s'.ats = outcome.state)
    (hsent : s'.sent =
      (outcome.sent.map fun entry => ⟨.ats entry, s.currentTime⟩).toList ++ s.sent) :
    s.Runs s' := by
  obtain ⟨hmoves, honce⟩ := processAtpCmd_moves hs.settled.sound h
  have hstate := processAtpCmd_state hs.settled.state h
  rw [← hats] at hmoves hstate
  cases hnone : outcome.sent with
  | none =>
    rw [hnone] at hsent
    exact hs.runs hmoves hstate hsent
  | some entry =>
    obtain ⟨hsentOnce, hdue⟩ := honce entry hnone
    rw [hnone, Option.map_some, Option.toList_some, List.singleton_append] at hsent
    refine ⟨⟨hmoves.settled hs.settled hstate, fun other hother => ?_⟩, fun a i => ?_⟩
    · rw [hsent] at hother
      obtain rfl | hother := List.mem_cons.mp hother
      · have hdue' : compareAbsTime entry.timeTag s.currentTime = false := by
          rw [hsentOnce.timeTag]
          exact hdue
        exact hdue'
      · exact hs.onTime other hother
    · by_cases hmine : entry.ats = a ∧ entry.cmd = i
      · obtain ⟨rfl, rfl⟩ := hmine
        have hbefore : s.loaded entry.ats entry.cmd := hsentOnce.loaded
        have hafter : ¬ s'.loaded entry.ats entry.cmd := by
          rw [ScState.loaded, hats]
          exact hsentOnce.marked
        have hcount := transmissions_cons entry.ats entry.cmd ⟨.ats entry, s.currentTime⟩ s.sent
        rw [← hsent, if_pos (by simp [isTransmission])] at hcount
        refine ⟨by omega, ?_⟩
        rw [ScState.budget, ScState.budget, if_pos hbefore, if_neg hafter]
        omega
      · refine ScState.pays_of_quiet ((hmoves.remarked a).quiet i) ?_
        rw [hsent, transmissions_cons, if_neg (by simpa [isTransmission] using hmine)]
        rfl

theorem processNext_runs {bus : Nat → Bool} {s s' : ScState} (hs : s.Orderly)
    (h : processNext bus s = some s') : s.Runs s' := by
  rw [processNext] at h
  split at h
  · obtain ⟨outcome, houtcome, h⟩ := Option.bind_eq_some_iff.mp h
    obtain rfl := Option.some.inj h
    exact processNext_atp hs houtcome rfl rfl
  · obtain ⟨⟨rts, sent⟩, -, h⟩ := Option.bind_eq_some_iff.mp h
    obtain rfl := Option.some.inj h
    cases sent with
    | none => exact hs.runs_ats rfl rfl
    | some entry =>
      refine ⟨⟨hs.settled, fun other hother => ?_⟩, fun a i => ?_⟩
      · obtain rfl | hother := List.mem_cons.mp hother
        · trivial
        · exact hs.onTime other hother
      · exact ScState.pays_of_quiet id (transmissions_cons a i _ s.sent)
  · obtain rfl := Option.some.inj h
    exact hs.runs_ats rfl rfl

theorem servicePending_runs {s s' : ScState} (hs : s.Orderly) (h : servicePending s = some s') :
    s.Runs s' := by
  rw [servicePending] at h
  split at h
  · obtain ⟨ats, hats, rfl⟩ := Option.map_eq_some_iff.mp h
    exact hs.runs (serviceSwitchPend_moves hs.settled.sound hats)
      (serviceSwitchPend_state hs.settled.state hats) rfl
  · obtain rfl := Option.some.inj h
    exact hs.runs_ats rfl rfl

theorem endRound_ats (s : ScState) :
    (endRound s).1.ats = s.ats ∧ (endRound s).1.sent = s.sent := by
  rw [endRound]
  split
  · exact ⟨rfl, rfl⟩
  · split <;> exact ⟨rfl, rfl⟩

theorem wakeupBody_runs {bus : Nat → Bool} {s s' : ScState} {another : Bool} (hs : s.Orderly)
    (h : wakeupBody bus s = some (s', another)) : s.Runs s' := by
  obtain ⟨served, hserved, h⟩ := Option.bind_eq_some_iff.mp h
  obtain ⟨next, hnext, h⟩ := Option.bind_eq_some_iff.mp h
  have hserve := servicePending_runs hs hserved
  have hprocess := processNext_runs hserve.orderly hnext
  have hend := endRound_ats (updateNextTime next)
  rw [Option.some.inj h] at hend
  exact hserve.trans (hprocess.trans (hprocess.orderly.runs_ats hend.1 hend.2))

theorem wakeupLoop_runs {bus : Nat → Bool} {fuel : Nat} {s s' : ScState} (hs : s.Orderly)
    (h : wakeupLoop bus fuel s = some s') : s.Runs s' := by
  induction fuel generalizing s with
  | zero => cases h
  | succ fuel ih =>
    obtain ⟨⟨mid, another⟩, hbody, h⟩ := Option.bind_eq_some_iff.mp h
    have hmid := wakeupBody_runs hs hbody
    dsimp only at h
    split at h
    · exact hmid.trans (ih hmid.orderly h)
    · exact Option.some.inj h ▸ hmid

/-- No request activates a table of the ATS that executes. -/
def noExecutingAtsLoad (s : ScState) (label : TimedRequest) : Prop :=
  match label.request with
  | .manageAts a _ => ¬ (s.ats.atpState = .executing ∧ s.ats.atsNumber = a.val + 1)
  | _ => True

instance (s : ScState) (label : TimedRequest) : Decidable (noExecutingAtsLoad s label) := by
  apply Request.casesOn (motive := fun request => Decidable (noExecutingAtsLoad s ⟨request, label.time⟩))
  all_goals
    intros
    delta noExecutingAtsLoad
    infer_instance

/-- The append table has an entry for a command. -/
def appendedCommand (s : AtsState) (i : CmdIndex) : Bool :=
  s.appendTbl.any fun table => i ∈ entryCommands table.cells s.appendEntryCount 0

/-- The request loads a command: a table is activated that has an entry for it,
or an append with one is accepted. -/
def loadsCommand (a : AtsIndex) (i : CmdIndex) (s : ScState) (label : TimedRequest) : Prop :=
  match label.request with
  | .manageAts b table => a = b ∧ validatedCommand table i = true
  | .appendAts atsId =>
    atsNumToIndex atsId = some a ∧ (s.ats.ats a).numberOfCommands ≠ 0 ∧
      (s.ats.ats a).atsSize + s.ats.appendWordCount ≤ SC_ATS_BUFF_SIZE32 ∧
      appendedCommand s.ats i = true
  | _ => False

instance (a : AtsIndex) (i : CmdIndex) (s : ScState) (label : TimedRequest) :
    Decidable (loadsCommand a i s label) := by
  apply Request.casesOn (motive := fun request => Decidable (loadsCommand a i s ⟨request, label.time⟩))
  all_goals
    intros
    delta loadsCommand
    infer_instance

/-- A request keeps the order, and every command it does not load is paid for. -/
structure Accounts (s s' : ScState) (label : TimedRequest) : Prop where
  orderly : s'.Orderly
  pays : ∀ a i, ¬ loadsCommand a i s label → s.Pays s' a i

theorem ScState.Runs.accounts {s s' : ScState} (h : s.Runs s') (label : TimedRequest) :
    Accounts s s' label := ⟨h.orderly, fun a i _ => h.pays a i⟩

theorem onRts_runs {s s' : ScState} {rts : Option RtsState} (hs : s.Orderly)
    (h : s.onRts rts = some s') : s.Runs s' := by
  obtain ⟨next, -, rfl⟩ := Option.map_eq_some_iff.mp h
  exact hs.runs_ats rfl rfl

theorem onAts_runs {s s' : ScState} {ats : Option AtsState} (hs : s.Orderly)
    (hmoves : ∀ next, ats = some next → s.ats.Moves next ∧ next.atpState ≠ .starting)
    (h : s.onAts ats = some s') : s.Runs s' := by
  obtain ⟨next, hnext, rfl⟩ := Option.map_eq_some_iff.mp h
  obtain ⟨hmoves, hstate⟩ := hmoves next hnext
  exact hs.runs hmoves hstate rfl

theorem onAts_accounts {s s' : ScState} {ats : Option AtsState} {label : TimedRequest}
    (hs : s.Orderly)
    (hloads : ∀ next, ats = some next → next.Settled ∧ ∀ a i,
      (next.ats a).cmdStatus i = .loaded → s.loaded a i ∨ loadsCommand a i s label)
    (h : s.onAts ats = some s') : Accounts s s' label := by
  obtain ⟨next, hnext, rfl⟩ := Option.map_eq_some_iff.mp h
  obtain ⟨hsettled, hloads⟩ := hloads next hnext
  refine ⟨⟨hsettled, hs.onTime⟩, fun a i hno => ?_⟩
  exact ScState.pays_of_quiet (fun hi => (hloads a i hi).resolve_right hno) rfl

theorem processRequest_accounts {s s' : ScState} {label : TimedRequest} (hs : s.Orderly)
    (hok : noExecutingAtsLoad s label) (h : processRequest label.request s = some s') :
    Accounts s s' label := by
  obtain ⟨request, time⟩ := label
  cases request with
  | startRts | stopRts | disableRts | enableRts | startRtsGrp | stopRtsGrp | disableRtsGrp
  | enableRtsGrp | autoEnable => exact (onRts_runs hs h).accounts _
  | startAts atsId =>
    exact (onAts_runs hs (fun next hnext => ⟨startAtsCmd_moves hs.settled.sound hnext,
      startAtsCmd_state hs.settled.state hnext⟩) h).accounts _
  | stopAts =>
    exact (onAts_runs hs (fun next hnext => ⟨stopAtsCmd_moves hnext,
      stopAtsCmd_state hnext⟩) h).accounts _
  | switchAts =>
    exact (onAts_runs hs (fun next hnext => ⟨groundSwitchCmd_moves hs.settled.sound hnext,
      groundSwitchCmd_state hs.settled.state hnext⟩) h).accounts _
  | jumpAts newTime =>
    exact (onAts_runs hs (fun next hnext => ⟨jumpAtsCmd_moves hs.settled.sound hnext,
      jumpAtsCmd_state hs.settled.state hnext⟩) h).accounts _
  | appendAts atsId =>
    refine onAts_accounts hs (fun next hnext => ?_) h
    obtain ⟨hsettled, hloads⟩ := appendAtsCmd_settled hs.settled hnext
    refine ⟨hsettled, fun a i hi => (hloads a i hi).imp_right fun happended => ?_⟩
    obtain ⟨ha, hused, hroom, table, htable, hmem⟩ := happended
    refine ⟨ha, hused, hroom, ?_⟩
    rw [appendedCommand, htable]
    exact decide_eq_true hmem
  | manageAts a table =>
    rw [processRequest] at h
    split at h
    · exact onAts_accounts hs (fun next hnext => manageAtsTable_settled hs.settled hok hnext) h
    · cases h
  | manageAppend table =>
    rw [processRequest] at h
    split at h
    case isTrue haccepted =>
      refine onAts_accounts hs (fun next hnext => ?_) h
      obtain ⟨hsettled, hats⟩ := manageAppendTable_settled hs.settled haccepted hnext
      refine ⟨hsettled, fun a i hi => ?_⟩
      rw [hats] at hi
      exact .inl hi
    case isFalse => cases h
  | manageRts i table =>
    rw [processRequest] at h
    split at h
    · exact (onRts_runs hs h).accounts _
    · cases h
  | wakeup bus fuel => exact (wakeupLoop_runs hs h).accounts _

theorem step_accounts {s s' : ScState} {label : TimedRequest} (hs : s.Orderly)
    (hok : noExecutingAtsLoad s label) (h : machine.next s label = some s') :
    Accounts s s' label := by
  have hnow : ({ s with currentTime := label.time } : ScState).Orderly :=
    ⟨hs.settled, hs.onTime⟩
  obtain ⟨horderly, hpays⟩ := processRequest_accounts (s := { s with currentTime := label.time })
    hnow hok h
  exact ⟨horderly, fun a i hno => ⟨(hpays a i hno).grows, (hpays a i hno).budget⟩⟩

theorem orderly_start : ({} : ScState).Orderly where
  settled := by
    refine ⟨⟨fun _ => .inl rfl, ?_, fun h => absurd rfl h⟩, nofun⟩
    rintro (h | h) <;> cases h
  onTime := nofun

theorem orderly_reaches {s : ScState} (h : machine.Reaches noExecutingAtsLoad s) : s.Orderly :=
  h.invariant (fun _ hstart => hstart ▸ orderly_start) fun _ _ _ hs hok hnext =>
    (step_accounts hs hok hnext).orderly

/-- In every run that loads no executing ATS the control block of an executing
ATS stands on an entry of its time index. -/
theorem control_block_points {s : ScState} (h : machine.Reaches noExecutingAtsLoad s)
    (hexecuting : s.ats.atpState = .executing) : s.ats.PointsAtEntry :=
  (orderly_reaches h).settled.sound.control (.inl hexecuting)

/-- The time of the entry that the control block names. -/
def AtsState.currentEntryTime (s : AtsState) : Option (BitVec 32) := do
  let a ← atsNumToIndex s.atsNumber
  (s.ats a).cmdNumTime s.cmdNumber

theorem AtsState.PointsAtEntry.currentEntryTime {s : AtsState} (h : s.PointsAtEntry) :
    s.currentEntryTime = some s.nextCmdTime := by
  obtain ⟨a, i, ha, hpoints⟩ := h
  rw [AtsState.currentEntryTime, ha, Option.bind_eq_bind, Option.bind_some, AtsData.cmdNumTime,
    hpoints.number, atsCmdNumToIndex_succ, Option.bind_some]
  exact hpoints.time

/-- A table with one command, of eight bytes. -/
def oneCommandAts (timeTag : BitVec 8) : AtsTable :=
  ⟨[⟨0, 0, 1, 0⟩, ⟨0, 0, timeTag, 0⟩, ⟨0x18, 0x01, 0xC0, 0⟩, ⟨0, 1, 0, 0⟩] ++
    List.replicate (SC_ATS_BUFF_SIZE32 - 4) Word.zero, by
      rw [List.length_append, List.length_replicate]
      exact Nat.add_sub_cancel' (Nat.le_of_ble_eq_true rfl)⟩

def atsA : AtsIndex := ⟨0, SC_NUMBER_OF_ATS_pos⟩

/-- Load the first ATS with a command at 100 and start it at 50. -/
def startAtsA : List TimedRequest :=
  [⟨.manageAts atsA (oneCommandAts 100), 0⟩, ⟨.startAts 1, 50⟩]

theorem control_block_points_started : ∃ s, machine.Reaches noExecutingAtsLoad s ∧
    s.ats.atpState = .executing ∧ s.ats.PointsAtEntry := by
  obtain ⟨s, hs, hexecuting⟩ := machine.exists_reaches noExecutingAtsLoad
    (fun s => s.ats.atpState = .executing) rfl startAtsA (by decide +kernel)
  have hexecuting := of_decide_eq_true hexecuting
  exact ⟨s, hs, hexecuting, control_block_points hs hexecuting⟩

/-- While the first ATS waits for 100, its table is loaded with the command at 200. -/
def reloadAtsA : List TimedRequest :=
  startAtsA ++ [⟨.manageAts atsA (oneCommandAts 200), 60⟩]

theorem control_block_stale : ∃ s, machine.Reachable s ∧ s.ats.atpState = .executing ∧
    ¬ s.ats.PointsAtEntry := by
  obtain ⟨s, hs, hstale⟩ := machine.exists_reaches (fun _ _ => True)
    (fun s => s.ats.atpState = .executing ∧ s.ats.currentEntryTime ≠ some s.ats.nextCmdTime) rfl
    reloadAtsA (by decide +kernel)
  obtain ⟨hexecuting, hstale⟩ := of_decide_eq_true hstale
  exact ⟨s, hs, hexecuting, fun h => hstale h.currentEntryTime⟩

/-- Runs that go on from a state. -/
def machineFrom (s : ScState) : Machine ScState TimedRequest := { machine with start := (· = s) }

/-- In every run that loads no executing ATS a command is sent at most once until
it is loaded again, not at all once it is no longer loaded, and never before its
time tag. -/
theorem ats_sent_once {s s' : ScState} {a : AtsIndex} {i : CmdIndex}
    (h : machine.Reaches noExecutingAtsLoad s)
    (h' : (machineFrom s).Reaches
      (fun t label => noExecutingAtsLoad t label ∧ ¬ loadsCommand a i t label) s') :
    transmissions a i s'.sent ≤ transmissions a i s.sent + 1 ∧
    (¬ s.loaded a i → ¬ s'.loaded a i ∧ transmissions a i s'.sent = transmissions a i s.sent) ∧
    ∀ entry ∈ s'.sent, entry.OnTime := by
  obtain ⟨horderly, hpays⟩ : s'.Orderly ∧ s.Pays s' a i := by
    refine @Machine.Reaches.invariant _ _ (machineFrom s) _ (fun t => t.Orderly ∧ s.Pays t a i)
      ?_ (fun t label t' ht hok hnext => ?_) s' h'
    · rintro t rfl
      exact ⟨orderly_reaches h, Nat.le_refl _, Nat.le_refl _⟩
    · have haccounts := step_accounts ht.1 hok.1 hnext
      exact ⟨haccounts.orderly, ht.2.trans (haccounts.pays a i hok.2)⟩
  have hbudget := hpays.budget
  have hgrows := hpays.grows
  rw [ScState.budget, ScState.budget] at hbudget
  refine ⟨?_, fun hold => ?_, horderly.onTime⟩
  · split at hbudget <;> split at hbudget <;> omega
  · rw [if_neg hold] at hbudget
    split at hbudget
    · omega
    · exact ⟨‹_›, by omega⟩

def firstCommand : CmdIndex := ⟨0, by decide⟩

theorem ats_sent_once_started : ∃ s s', machine.Reaches noExecutingAtsLoad s ∧
    (machineFrom s).Reaches (fun t label => noExecutingAtsLoad t label ∧
      ¬ loadsCommand atsA firstCommand t label) s' ∧
    transmissions atsA firstCommand s.sent = 0 ∧ transmissions atsA firstCommand s'.sent = 1 ∧
    ∀ entry ∈ s'.sent, entry.OnTime := by
  let ok := fun t label => noExecutingAtsLoad t label ∧ ¬ loadsCommand atsA firstCommand t label
  let sends := fun n (t : ScState) => decide (transmissions atsA firstCommand t.sent = n)
  obtain ⟨s, hs, hrest⟩ := machine.exists_reaches noExecutingAtsLoad
    (fun s => sends 0 s && ((machineFrom s).run ok s
      [⟨.startAts 1, 50⟩, ⟨.wakeup (fun _ => true) 3, 100⟩]).any (sends 1)) rfl
    [⟨.manageAts atsA (oneCommandAts 100), 0⟩] (by decide +kernel)
  obtain ⟨hnone, hrest⟩ := (Bool.and_eq_true _ _).mp hrest
  obtain ⟨s', hs', hone⟩ := (machineFrom s).exists_reaches ok (sends 1) rfl _ hrest
  exact ⟨s, s', hs, hs', of_decide_eq_true hnone, of_decide_eq_true hone,
    (ats_sent_once hs hs').2.2⟩

/-- The new command at 200 goes out when the old one would have. -/
theorem ats_sent_early : ∃ s, machine.Reachable s ∧ ∃ entry ∈ s.sent, ¬ entry.OnTime := by
  obtain ⟨s, hs, hearly⟩ := machine.exists_reaches (fun _ _ => True)
    (fun s => s.sent = [⟨.ats ⟨atsA, firstCommand, 200⟩, 100⟩]) rfl
    (reloadAtsA ++ [⟨.wakeup (fun _ => true) 3, 100⟩]) (by decide +kernel)
  refine ⟨s, hs, _, (of_decide_eq_true hearly) ▸ List.mem_cons_self, ?_⟩
  exact (nofun : ¬ compareAbsTime 200 100 = false)

end Nos3.Sc
