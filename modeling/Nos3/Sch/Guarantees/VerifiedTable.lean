import Mathlib.Data.List.Nodup
import Nos3.Sch.Guarantees.SlotAccounting

/-!
# A verified table runs as written

What the verification accepts the checks at run time accept as well, so that a slot only sends
the messages of the entries that are due. These follow from the number of the pass.
-/
namespace Nos3.Sch
open Nos3.Base.Transition

/-! ## Verification -/

theorem validateRound_result (v : Validation) (e : TableEntry) :
    (validateRound v e).tableResult = CFE_SUCCESS ↔
      v.tableResult = CFE_SUCCESS ∧ validateEntry e = CFE_SUCCESS := by
  unfold validateRound
  by_cases he : validateEntry e = CFE_SUCCESS
  · simp only [he, ne_eq, not_true_eq_false, if_false, false_and, and_true]
    split <;> rfl
  · by_cases hv : v.tableResult = CFE_SUCCESS <;> simp [he, hv]

theorem validateScheduleData_result (tableArray : Nat → TableEntry) :
    (validateScheduleData tableArray).tableResult = CFE_SUCCESS ↔
      ∀ i < SCH_TABLE_ENTRIES, validateEntry (tableArray i) = CFE_SUCCESS := by
  have hloop (indexes : List Nat) (v : Validation) :
      (indexes.foldl (fun v i => validateRound v (tableArray i)) v).tableResult = CFE_SUCCESS ↔
        v.tableResult = CFE_SUCCESS ∧
          ∀ i ∈ indexes, validateEntry (tableArray i) = CFE_SUCCESS := by
    induction indexes generalizing v with
    | nil => simp
    | cons i more ih =>
      rw [List.foldl_cons, ih, validateRound_result, List.forall_mem_cons, and_assoc]
  rw [validateScheduleData, hloop]
  simp

/-- What the checks at run time ask of an enabled entry. -/
structure Sound (entry : ScheduleEntry) : Prop where
  index : entry.messageIndex < SCH_MAX_MESSAGES
  sends : entry.sendMsg = true
  remainder : entry.remainder < entry.frequency

theorem sound_of_validateEntry {e : TableEntry} (h : validateEntry e = CFE_SUCCESS)
    (henabled : e.entry.enableState = .enabled) : Sound e.entry := by
  have hstate : e.enableState = SCH_ENABLED := by
    by_contra hne
    simp only [TableEntry.entry, hne, if_false] at henabled
    split at henabled <;> cases henabled
  have hused : ¬e.enableState = SCH_UNUSED := by
    rw [hstate]
    decide
  rw [validateEntry, if_neg hused, if_pos (Or.inl hstate)] at h
  split at h
  · cases h
  · split at h
    · cases h
    · rename_i hrem
      split at h
      · cases h
      · rename_i htype
        split at h
        · cases h
        · split at h
          · cases h
          · rename_i hindex
            exact ⟨not_le.mp hindex, by simpa [TableEntry.entry] using htype, not_le.mp hrem⟩

/-- The entries that are enabled pass the checks. -/
def SoundTable (table : ScheduleTable) : Prop :=
  ∀ index < SCH_TABLE_ENTRIES, (table index).enableState = .enabled → Sound (table index)

/-! ## The messages of a slot -/

/-- An entry is due on the passes with its remainder. -/
def due (table : ScheduleTable) (pass index : Nat) : Bool :=
  (table index).enableState = .enabled ∧ pass % (table index).frequency = (table index).remainder

def slotIndexes (slot : Nat) : List Nat :=
  (List.range SCH_ENTRIES_PER_SLOT).map (slot * SCH_ENTRIES_PER_SLOT + ·)

/-- The entries whose messages a slot sends. -/
def dueEntries (table : ScheduleTable) (pass slot : Nat) : List Nat :=
  (slotIndexes slot).filter (due table pass)

/-- The entries whose messages `n` slots send, from one of a pass on. -/
def sends (table : ScheduleTable) (pass slot n : Nat) : List Nat :=
  (List.range n).flatMap fun i =>
    dueEntries table ((pass + (slot + i) / SCH_TOTAL_SLOTS) % 2 ^ 32) ((slot + i) % SCH_TOTAL_SLOTS)

/-- The messages of some entries are sent, and no entry is changed. -/
structure Sent (indexes : List Nat) (app app' : AppData) : Prop where
  table : app'.scheduleTable = app.scheduleTable
  bad : app'.badTableDataCount = app.badTableDataCount
  sent : app'.sent = app.sent ++ indexes.map fun index => (app.scheduleTable index).messageIndex

theorem Sent.trans {first second : List Nat} {app mid app' : AppData} (h : Sent first app mid)
    (h' : Sent second mid app') : Sent (first ++ second) app app' := by
  refine ⟨h'.table.trans h.table, h'.bad.trans h.bad, ?_⟩
  rw [h'.sent, h.sent, h.table, List.map_append, List.append_assoc]

theorem processNextEntry_sent (transmit : Transmit) {index : Nat} {app : AppData}
    (h : Sound (app.scheduleTable index))
    (henabled : (app.scheduleTable index).enableState = .enabled) :
    Sent ([index].filter (due app.scheduleTable app.tablePassCount)) app
      (processNextEntry transmit index app) := by
  have hfreq : (app.scheduleTable index).frequency ≠ 0 := by
    have hrem := h.remainder
    omega
  have hsound : ¬((app.scheduleTable index).messageIndex ≥ SCH_MAX_MESSAGES ∨
      (app.scheduleTable index).frequency = 0 ∨ (app.scheduleTable index).sendMsg = false ∨
      (app.scheduleTable index).remainder ≥ (app.scheduleTable index).frequency) := by
    rintro (hindex | hzero | hsend | hrem)
    · exact absurd h.index (not_lt.mpr hindex)
    · exact hfreq hzero
    · rw [h.sends] at hsend
      cases hsend
    · exact absurd h.remainder (not_lt.mpr hrem)
  unfold processNextEntry
  dsimp only
  rw [if_neg hsound]
  by_cases hpass : app.tablePassCount % (app.scheduleTable index).frequency =
      (app.scheduleTable index).remainder
  · have hdue : due app.scheduleTable app.tablePassCount index = true := by
      simp [due, henabled, hpass]
    rw [if_pos hpass, List.filter_cons_of_pos hdue]
    split <;> exact ⟨rfl, rfl, rfl⟩
  · have hdue : ¬due app.scheduleTable app.tablePassCount index = true := by simp [due, hpass]
    rw [if_neg hpass, List.filter_cons_of_neg hdue]
    exact ⟨rfl, rfl, by simp⟩

/-- An entry of the slot, enabled or not. -/
def processEntry (transmit : Transmit) (app : AppData) (entryNumber : Nat) : AppData :=
  let index := app.nextSlotNumber * SCH_ENTRIES_PER_SLOT + entryNumber
  if (app.scheduleTable index).enableState = .enabled then processNextEntry transmit index app
  else app

theorem processEntry_sent (transmit : Transmit) {app : AppData}
    (h : SoundTable app.scheduleTable) (hslot : app.nextSlotNumber < SCH_TOTAL_SLOTS)
    {entryNumber : Nat} (hentry : entryNumber < SCH_ENTRIES_PER_SLOT) :
    SamePlace app (processEntry transmit app entryNumber) ∧
      Sent ([app.nextSlotNumber * SCH_ENTRIES_PER_SLOT + entryNumber].filter
          (due app.scheduleTable app.tablePassCount)) app
        (processEntry transmit app entryNumber) := by
  have hindex : app.nextSlotNumber * SCH_ENTRIES_PER_SLOT + entryNumber < SCH_TABLE_ENTRIES := by
    simp only [SCH_TOTAL_SLOTS, SCH_ENTRIES_PER_SLOT, SCH_TABLE_ENTRIES] at *
    omega
  unfold processEntry
  dsimp only
  split
  · rename_i henabled
    exact ⟨(processNextEntry_frame transmit _ app).toSamePlace,
      processNextEntry_sent transmit (h _ hindex henabled) henabled⟩
  · rename_i hdisabled
    have hdue : ¬due app.scheduleTable app.tablePassCount
        (app.nextSlotNumber * SCH_ENTRIES_PER_SLOT + entryNumber) = true := by
      simp [due, hdisabled]
    rw [List.filter_cons_of_neg hdue]
    exact ⟨⟨rfl, rfl, rfl⟩, rfl, rfl, by simp⟩

theorem processEntries_sent (transmit : Transmit) (app : AppData)
    (h : SoundTable app.scheduleTable) (hslot : app.nextSlotNumber < SCH_TOTAL_SLOTS) :
    Sent (dueEntries app.scheduleTable app.tablePassCount app.nextSlotNumber) app
      (processEntries transmit app) := by
  have hloop (entries : List Nat) (hentries : ∀ entry ∈ entries, entry < SCH_ENTRIES_PER_SLOT)
      (start : AppData) (htable : start.scheduleTable = app.scheduleTable)
      (hplace : SamePlace app start) :
      Sent ((entries.map (app.nextSlotNumber * SCH_ENTRIES_PER_SLOT + ·)).filter
        (due app.scheduleTable app.tablePassCount)) start
        (entries.foldl (processEntry transmit) start) := by
    induction entries generalizing start with
    | nil => exact ⟨rfl, rfl, by simp⟩
    | cons entry more ih =>
      have hsound : SoundTable start.scheduleTable := htable ▸ h
      obtain ⟨hsame, hsent⟩ := processEntry_sent transmit hsound (hplace.next ▸ hslot)
        (hentries entry List.mem_cons_self)
      have hmore := ih (fun e he => hentries e (List.mem_cons_of_mem _ he)) _
        (hsent.table.trans htable) (hplace.trans hsame)
      rw [htable, hplace.next, hplace.pass] at hsent
      rw [List.map_cons, ← List.singleton_append, List.filter_append, List.foldl_cons]
      exact hsent.trans hmore
  exact hloop (List.range SCH_ENTRIES_PER_SLOT) (fun entry => List.mem_range.mp) app rfl
    ⟨rfl, rfl, rfl⟩

/-! ## Commands -/

/-- Commands that leave the table as it is, with a RESET among them only if `reset`. -/
structure Undisturbed (reset : Bool) (table : ScheduleTable) (batch : Batch) : Prop where
  keeps : ∀ cmd ∈ batch.commands, ∀ app : AppData, app.scheduleTable = table →
    (appPipe app cmd).2.scheduleTable = table
  reset : ∀ cmd ∈ batch.commands, cmd.isReset = true → reset = true

/-- No entry is changed or counted as bad; a RESET clears the count. -/
structure Intact (reset : Bool) (app app' : AppData) : Prop where
  table : app'.scheduleTable = app.scheduleTable
  bad : app'.badTableDataCount = app.badTableDataCount ∨
    reset = true ∧ app'.badTableDataCount = 0

/-- Nothing is sent either. -/
structure Quiet (reset : Bool) (app app' : AppData) : Prop extends Intact reset app app' where
  sent : app'.sent = app.sent

theorem Intact.trans {reset : Bool} {app mid app' : AppData} (h : Intact reset app mid)
    (h' : Intact reset mid app') : Intact reset app app' := by
  refine ⟨h'.table.trans h.table, ?_⟩
  rcases h'.bad with hbad | hbad
  · rw [hbad]
    exact h.bad
  · exact Or.inr hbad

theorem Quiet.trans {reset : Bool} {app mid app' : AppData} (h : Quiet reset app mid)
    (h' : Quiet reset mid app') : Quiet reset app app' :=
  ⟨h.toIntact.trans h'.toIntact, h'.sent.trans h.sent⟩

theorem appPipe_counts (app : AppData) (cmd : Command) :
    (appPipe app cmd).2.sent = app.sent ∧
      ((appPipe app cmd).2.badTableDataCount = app.badTableDataCount ∨
        cmd.isReset = true ∧ (appPipe app cmd).2.badTableDataCount = 0) := by
  cases cmd with
  | reset => exact ⟨rfl, Or.inr ⟨rfl, rfl⟩⟩
  | enable slotNumber entryNumber | disable slotNumber entryNumber =>
    simp only [appPipe, setEntryCmd]
    split
    · exact ⟨rfl, Or.inl rfl⟩
    · split <;> exact ⟨rfl, Or.inl rfl⟩
  | enableGroup groupData | disableGroup groupData | housekeeping table tableResult | other =>
    exact ⟨rfl, Or.inl rfl⟩

theorem commandLoop_quiet {reset : Bool} {commands : List Command} (status : Int) {app : AppData}
    {batchStatus : Int} (h : Undisturbed reset app.scheduleTable ⟨commands, batchStatus⟩) :
    Quiet reset app (commandLoop status commands app).2 := by
  induction commands generalizing app with
  | nil => exact ⟨⟨rfl, Or.inl rfl⟩, rfl⟩
  | cons cmd commands ih =>
    obtain ⟨hsent, hbad⟩ := appPipe_counts app cmd
    have htable := h.keeps cmd List.mem_cons_self app rfl
    have hfirst : Quiet reset app (appPipe app cmd).2 :=
      ⟨⟨htable, hbad.imp_right (And.imp_left (h.reset cmd List.mem_cons_self))⟩, hsent⟩
    simp only [commandLoop]
    split
    · refine hfirst.trans (ih ⟨fun c hc => ?_, fun c hc => h.reset c (List.mem_cons_of_mem _ hc)⟩)
      rw [htable]
      exact h.keeps c (List.mem_cons_of_mem _ hc)
    · exact hfirst

theorem processCommands_quiet {reset : Bool} {app : AppData}
    (h : ∀ b ∈ app.batches, Undisturbed reset app.scheduleTable b) :
    Quiet reset app (processCommands app).2 := by
  have hbatch : Undisturbed reset app.scheduleTable
      (app.batches.headD ⟨[], CFE_SB_NO_MESSAGE⟩) := by
    cases hb : app.batches with
    | nil => exact ⟨nofun, nofun⟩
    | cons b batches => exact h b (hb ▸ List.mem_cons_self)
  have hloop : Quiet reset { app with batches := app.batches.tail }
      (commandLoop (app.batches.headD ⟨[], CFE_SB_NO_MESSAGE⟩).status
        (app.batches.headD ⟨[], CFE_SB_NO_MESSAGE⟩).commands
        { app with batches := app.batches.tail }).2 :=
    commandLoop_quiet _ hbatch
  exact ⟨⟨hloop.table, hloop.bad⟩, hloop.sent⟩

/-! ## Slots -/

/-- `n` slots of the table follow one another, and the messages of the entries due in them are
sent. -/
structure Executes (reset : Bool) (app app' : AppData) (n : Nat) : Prop
    extends Intact reset app app' where
  next : app'.nextSlotNumber = (app.nextSlotNumber + n) % SCH_TOTAL_SLOTS
  pass : app'.tablePassCount =
    (app.tablePassCount + (app.nextSlotNumber + n) / SCH_TOTAL_SLOTS) % 2 ^ 32
  executed : app'.executed.length = app.executed.length + n
  sent : app'.sent = app.sent ++
    (sends app.scheduleTable app.tablePassCount app.nextSlotNumber n).map fun index =>
      (app.scheduleTable index).messageIndex

theorem sends_add (table : ScheduleTable) (pass slot n m : Nat) :
    sends table pass slot (n + m) = sends table pass slot n ++
      sends table ((pass + (slot + n) / SCH_TOTAL_SLOTS) % 2 ^ 32)
        ((slot + n) % SCH_TOTAL_SLOTS) m := by
  rw [sends, List.range_add, List.flatMap_append, List.flatMap_map]
  refine congrArg₂ (· ++ ·) rfl ?_
  rw [sends]
  refine List.flatMap_congr fun i _ => ?_
  simp only [SCH_TOTAL_SLOTS]
  congr 1 <;> omega

theorem Executes.trans {reset : Bool} {app mid app' : AppData} {n m : Nat}
    (h : Executes reset app mid n) (h' : Executes reset mid app' m) :
    Executes reset app app' (n + m) := by
  refine ⟨h.toIntact.trans h'.toIntact, ?_, ?_, ?_, ?_⟩
  · rw [h'.next, h.next, Nat.mod_add_mod, Nat.add_assoc]
  · rw [h'.pass, h.pass, h.next]
    simp only [SCH_TOTAL_SLOTS]
    omega
  · rw [h'.executed, h.executed, Nat.add_assoc]
  · rw [h'.sent, h.sent, h.table, h.pass, h.next, sends_add, List.map_append, List.append_assoc]

/-- A step between the slots. -/
theorem executes_zero (reset : Bool) {app app' : AppData} (hfits : Fits app)
    (hframe : EntryFrame app app') (htable : app'.scheduleTable = app.scheduleTable)
    (hbad : app'.badTableDataCount = app.badTableDataCount) (hsent : app'.sent = app.sent) :
    Executes reset app app' 0 := by
  refine ⟨⟨htable, Or.inl hbad⟩, ?_, ?_, ?_, ?_⟩
  · rw [hframe.next, Nat.add_zero, Nat.mod_eq_of_lt hfits.next]
  · rw [hframe.pass, Nat.add_zero, Nat.div_eq_of_lt hfits.next, Nat.add_zero,
      Nat.mod_eq_of_lt hfits.pass]
  · rw [hframe.executed, Nat.add_zero]
  · simp [hsent, sends]

theorem finishSlot_quiet (reset : Bool) (app : AppData) : Quiet reset app (finishSlot app) := by
  simp only [finishSlot]
  split <;> exact ⟨⟨rfl, Or.inl rfl⟩, rfl⟩

theorem processNextSlot_executes (transmit : Transmit) {reset : Bool} {app : AppData}
    (hfits : Fits app) (h : SoundTable app.scheduleTable)
    (hquiet : ∀ b ∈ app.batches, Undisturbed reset app.scheduleTable b) :
    Executes reset app (processNextSlot transmit app).2 1 := by
  have hmoves := processNextSlot_moves transmit hfits
  have hentries : Sent (dueEntries app.scheduleTable app.tablePassCount app.nextSlotNumber)
      { app with executed := app.executed ++ [app.nextSlotNumber] }
      (processEntries transmit { app with executed := app.executed ++ [app.nextSlotNumber] }) :=
    processEntries_sent transmit { app with executed := app.executed ++ [app.nextSlotNumber] } h
      hfits.next
  have hframe :=
    processEntries_frame transmit { app with executed := app.executed ++ [app.nextSlotNumber] }
  have hcommands : Quiet reset (processEntries transmit
      { app with executed := app.executed ++ [app.nextSlotNumber] })
      (processNextSlot transmit app).2 := by
    simp only [processNextSlot]
    split
    · refine (processCommands_quiet ?_).trans (finishSlot_quiet reset _)
      rw [hframe.batches, hentries.table]
      exact hquiet
    · exact finishSlot_quiet reset _
  have hone : sends app.scheduleTable app.tablePassCount app.nextSlotNumber 1 =
      dueEntries app.scheduleTable app.tablePassCount app.nextSlotNumber := by
    rw [sends, List.range_one, List.flatMap_singleton, Nat.add_zero, Nat.div_eq_of_lt hfits.next,
      Nat.add_zero, Nat.mod_eq_of_lt hfits.pass, Nat.mod_eq_of_lt hfits.next]
  have hbad : app.badTableDataCount = (processEntries transmit
      { app with executed := app.executed ++ [app.nextSlotNumber] }).badTableDataCount :=
    hentries.bad.symm
  refine ⟨⟨hcommands.table.trans hentries.table, ?_⟩, hmoves.next, hmoves.pass, ?_, ?_⟩
  · rw [hbad]
    exact hcommands.bad
  · rw [hmoves.executed]
    simp
  · rw [hcommands.sent, hentries.sent, hone]

theorem processSlots_executes (transmit : Transmit) {reset : Bool} (k : Nat) (result : Int)
    {app : AppData} (hfits : Fits app) (h : SoundTable app.scheduleTable)
    (hquiet : ∀ b ∈ app.batches, Undisturbed reset app.scheduleTable b) :
    Fits (processSlots transmit k result app).2 ∧
      ∃ n, Executes reset app (processSlots transmit k result app).2 n := by
  have hzero : Executes reset app app 0 :=
    executes_zero reset hfits ⟨⟨rfl, rfl, rfl⟩, ⟨rfl, rfl⟩, rfl⟩ rfl rfl rfl
  induction k generalizing result app with
  | zero => exact ⟨hfits, 0, hzero⟩
  | succ k ih =>
    simp only [processSlots]
    split
    · have hmoves := processNextSlot_moves transmit hfits
      have hone := processNextSlot_executes transmit hfits h hquiet
      have hsound : SoundTable (processNextSlot transmit app).2.scheduleTable := by
        rw [hone.table]
        exact h
      have hquiet' : ∀ b ∈ (processNextSlot transmit app).2.batches,
          Undisturbed reset (processNextSlot transmit app).2.scheduleTable b := by
        rw [hone.table]
        exact fun b hb => hquiet b (hmoves.batches hb)
      have hfits' : Fits (processNextSlot transmit app).2 := hmoves.fits (by decide)
      obtain ⟨hfits, n, hmore⟩ := ih (processNextSlot transmit app).1 hfits' hsound hquiet'
        (executes_zero reset hfits' ⟨⟨rfl, rfl, rfl⟩, ⟨rfl, rfl⟩, rfl⟩ rfl rfl rfl)
      exact ⟨hfits, 1 + n, hone.trans hmore⟩
    · exact ⟨hfits, 0, hzero⟩

/-! ## Wakeups -/

/-- A wakeup that is not too far behind, so that it does not jump, and whose commands leave the
table as it is. -/
structure WithoutSkip (reset : Bool) (table : ScheduleTable) (app : AppData) (wakeup : Wakeup) :
    Prop where
  near : slotsBehind wakeup.currentSlot app.nextSlotNumber ≤ SCH_MAX_LAG_COUNT ∨
    slotsBehind wakeup.currentSlot app.nextSlotNumber = SCH_TOTAL_SLOTS
  quiet : ∀ b ∈ wakeup.batches, Undisturbed reset table b

/-- The counts that are corrected stay near. -/
theorem corrected_le {processCount : Nat} (app : AppData)
    (h : processCount ≤ SCH_MAX_LAG_COUNT ∨ processCount = SCH_TOTAL_SLOTS) :
    (correctForSameSlot (correctForClock processCount app).1
      (correctForClock processCount app).2).1 ≤ SCH_MAX_LAG_COUNT := by
  rcases h with hle | rfl
  · rcases corrected_cases processCount app with hcorrected | hsame
    · exact hcorrected
    · rw [hsame]
      exact hle
  · by_cases hlast : app.lastProcessCount = 100 <;>
      simp [correctForSameSlot, correctForClock, SCH_MAX_LAG_COUNT, SCH_TOTAL_SLOTS, hlast]

theorem corrections_quiet (reset : Bool) (processCount limited : Nat) (app : AppData) :
    Quiet reset app (countMultiple limited (correctForSameSlot (correctForClock processCount app).1
      (correctForClock processCount app).2).2) := by
  have hclock : Quiet reset app (correctForClock processCount app).2 := by
    unfold correctForClock
    split
    · exact ⟨⟨rfl, Or.inl rfl⟩, rfl⟩
    · split <;> exact ⟨⟨rfl, Or.inl rfl⟩, rfl⟩
  have hsame (count : Nat) (mid : AppData) :
      Quiet reset mid (correctForSameSlot count mid).2 := by
    unfold correctForSameSlot
    split <;> exact ⟨⟨rfl, Or.inl rfl⟩, rfl⟩
  have hmultiple (mid : AppData) : Quiet reset mid (countMultiple limited mid) := by
    unfold countMultiple
    split <;> exact ⟨⟨rfl, Or.inl rfl⟩, rfl⟩
  exact (hclock.trans (hsame _ _)).trans (hmultiple _)

theorem processScheduleTable_executes (transmit : Transmit) {reset : Bool} {app : AppData}
    {currentSlot : Nat} (hfits : Fits app) (h : SoundTable app.scheduleTable)
    (hnear : slotsBehind currentSlot app.nextSlotNumber ≤ SCH_MAX_LAG_COUNT ∨
      slotsBehind currentSlot app.nextSlotNumber = SCH_TOTAL_SLOTS)
    (hquiet : ∀ b ∈ app.batches, Undisturbed reset app.scheduleTable b) :
    Fits (processScheduleTable transmit currentSlot app).2 ∧
      ∃ n, Executes reset app (processScheduleTable transmit currentSlot app).2 n := by
  have hle := corrected_le app hnear
  have hcorrected := corrections_quiet false (slotsBehind currentSlot app.nextSlotNumber)
    (limitCount (correctForSameSlot
      (correctForClock (slotsBehind currentSlot app.nextSlotNumber) app).1
      (correctForClock (slotsBehind currentSlot app.nextSlotNumber) app).2).1) app
  have hframe := ((correctForClock_frame (slotsBehind currentSlot app.nextSlotNumber) app).trans
    (correctForSameSlot_frame
      (correctForClock (slotsBehind currentSlot app.nextSlotNumber) app).1 _)).trans
    (countMultiple_frame (limitCount (correctForSameSlot
      (correctForClock (slotsBehind currentSlot app.nextSlotNumber) app).1
      (correctForClock (slotsBehind currentSlot app.nextSlotNumber) app).2).1) _)
  unfold processScheduleTable
  dsimp only
  generalize correctForSameSlot _ _ = corrected at hle hcorrected hframe ⊢
  obtain ⟨processCount, app₁⟩ := corrected
  dsimp only at hle hcorrected hframe ⊢
  rw [if_neg (not_lt.mpr hle)]
  have hfits₁ : Fits (countMultiple (limitCount processCount) app₁) :=
    ⟨hframe.next ▸ hfits.next, hframe.pass ▸ hfits.pass,
      hframe.counts.processed ▸ hfits.processed, hframe.counts.skipped ▸ hfits.skipped⟩
  have hbad := hcorrected.bad.resolve_right fun hreset => Bool.false_ne_true hreset.1
  have hstart := executes_zero reset hfits hframe hcorrected.table hbad hcorrected.sent
  have hsound : SoundTable (countMultiple (limitCount processCount) app₁).scheduleTable := by
    rw [hcorrected.table]
    exact h
  have hquiet₁ : ∀ b ∈ (countMultiple (limitCount processCount) app₁).batches,
      Undisturbed reset (countMultiple (limitCount processCount) app₁).scheduleTable b := by
    rw [hframe.batches, hcorrected.table]
    exact hquiet
  obtain ⟨hfits', n, hslots⟩ := processSlots_executes transmit (limitCount processCount)
    CFE_SUCCESS hfits₁ hsound hquiet₁
  exact ⟨hfits', 0 + n, hstart.trans hslots⟩

/-- The application in a given state, with the same wakeups. -/
def schedulerFrom (transmit : Transmit) (app : AppData) : Machine AppData Wakeup :=
  { scheduler transmit with start := (· = app) }

/-- Where the slots that follow a state lead. -/
structure Follows (reset : Bool) (app app' : AppData) : Prop where
  fits : Fits app'
  slots : ∃ n, Executes reset app app' n

/-- A run without skips executes the slots that follow. -/
theorem reaches_executes {transmit : Transmit} {reset : Bool} {app : AppData} (hfits : Fits app)
    (h : SoundTable app.scheduleTable) {app' : AppData}
    (hrun : (schedulerFrom transmit app).Reaches (WithoutSkip reset app.scheduleTable) app') :
    Follows reset app app' := by
  refine Machine.Reaches.invariant (fun start hstart => ?_)
    (fun mid wakeup next hinv hok hnext => ?_) hrun
  · cases hstart
    exact ⟨hfits, 0, executes_zero reset hfits ⟨⟨rfl, rfl, rfl⟩, ⟨rfl, rfl⟩, rfl⟩ rfl rfl rfl⟩
  · obtain ⟨hmid, n, hexecutes⟩ := hinv
    have hsound : SoundTable mid.scheduleTable := hexecutes.table ▸ h
    have hquiet : ∀ b ∈ wakeup.batches, Undisturbed reset mid.scheduleTable b := by
      rw [hexecutes.table]
      exact hok.quiet
    have hmid₀ : Fits { mid with batches := wakeup.batches } :=
      ⟨hmid.next, hmid.pass, hmid.processed, hmid.skipped⟩
    have hwakeup := processScheduleTable_executes transmit hmid₀ hsound hok.near hquiet
    have hresult : (processScheduleTable transmit wakeup.currentSlot
        { mid with batches := wakeup.batches }).2 = next := by
      simp only [schedulerFrom, scheduler] at hnext
      split at hnext
      · exact Option.some.inj hnext
      · cases hnext
    rw [hresult] at hwakeup
    obtain ⟨hfits', m, hslots⟩ := hwakeup
    exact ⟨hfits', n + m, hexecutes.trans
      ⟨⟨hslots.table, hslots.bad⟩, hslots.next, hslots.pass, hslots.executed, hslots.sent⟩⟩

/-! ## How often -/

theorem count_sends (table : ScheduleTable) (pass slot n index : Nat) :
    (sends table pass slot n).count index = ((List.range n).map fun i =>
      (dueEntries table ((pass + (slot + i) / SCH_TOTAL_SLOTS) % 2 ^ 32)
        ((slot + i) % SCH_TOTAL_SLOTS)).count index).sum := by
  rw [sends, List.count_flatMap]
  rfl

/-- An entry is sent at most once in a slot, and only in its own. -/
theorem count_dueEntries (table : ScheduleTable) (pass slot index : Nat) :
    (dueEntries table pass slot).count index =
      if index / SCH_ENTRIES_PER_SLOT = slot ∧ due table pass index = true then 1 else 0 := by
  have hnodup : (dueEntries table pass slot).Nodup :=
    (List.Nodup.map (fun _ _ h => Nat.add_left_cancel h) List.nodup_range).filter _
  have hmem : index ∈ dueEntries table pass slot ↔
      index / SCH_ENTRIES_PER_SLOT = slot ∧ due table pass index = true := by
    rw [dueEntries, List.mem_filter, slotIndexes, List.mem_map]
    refine and_congr_left fun _ => ?_
    simp only [List.mem_range, SCH_ENTRIES_PER_SLOT]
    constructor
    · rintro ⟨entry, hentry, rfl⟩
      omega
    · intro hslot
      exact ⟨index % 5, by omega, by omega⟩
  rw [hnodup.count]
  simp only [hmem]

/-- A sum with one term that is one. -/
theorem sum_range_single {n j : Nat} (hj : j < n) {p : Nat → Prop} [DecidablePred p]
    (hp : ∀ i < n, p i ↔ i = j) :
    ((List.range n).map fun i => if p i then 1 else 0).sum = 1 := by
  have hcount (l : List Nat) : (l.map fun i => if p i then 1 else 0).sum = l.countP p := by
    induction l with
    | nil => rfl
    | cons i l ih =>
      rw [List.map_cons, List.sum_cons, ih, List.countP_cons, Nat.add_comm]
      simp
  rw [hcount, List.countP_congr (q := (· == j)) fun i hi => by
    simpa using hp i (List.mem_range.mp hi)]
  exact (List.nodup_range.count (a := j)).trans (if_pos (List.mem_range.mpr hj))

/-- Among as many consecutive numbers as the divisor one has the remainder. -/
theorem exists_remainder (a : Nat) {F R : Nat} (hR : R < F) :
    ∃ t < F, ∀ u < F, (a + u) % F = R ↔ u = t := by
  have hr : a % F < F := Nat.mod_lt _ (by omega)
  have hsum (u : Nat) (hu : u < F) :
      (a + u) % F = if a % F + u < F then a % F + u else a % F + u - F := by
    rw [Nat.add_mod, Nat.mod_eq_of_lt hu]
    split
    · rename_i hlt
      exact Nat.mod_eq_of_lt hlt
    · rename_i hge
      rw [Nat.mod_eq_sub_mod (not_lt.mp hge), Nat.mod_eq_of_lt (by omega)]
  refine ⟨if a % F ≤ R then R - a % F else R + F - a % F, by split <;> omega, fun u hu => ?_⟩
  rw [hsum u hu]
  split <;> split <;> omega

/-- In `frequency` passes that follow one another an enabled entry is sent once. -/
theorem count_passes {table : ScheduleTable} {index : Nat} (hindex : index < SCH_TABLE_ENTRIES)
    (henabled : (table index).enableState = .enabled) (hsound : Sound (table index))
    {pass slot : Nat} (hslot : slot < SCH_TOTAL_SLOTS)
    (hwrap : pass + (slot + (table index).frequency * SCH_TOTAL_SLOTS - 1) / SCH_TOTAL_SLOTS <
      2 ^ 32) :
    (sends table pass slot ((table index).frequency * SCH_TOTAL_SLOTS)).count index = 1 := by
  have hrem := hsound.remainder
  simp only [SCH_TABLE_ENTRIES, SCH_TOTAL_SLOTS, SCH_ENTRIES_PER_SLOT] at hindex hslot hwrap
  -- the first pass that has the slot of the entry before it, and the one with the remainder
  obtain ⟨first, hfirst⟩ : ∃ first, first = if slot ≤ index / 5 then 0 else 1 := ⟨_, rfl⟩
  obtain ⟨t, ht, hunique⟩ := exists_remainder (pass + first) hrem
  have hj : (first + t) * 100 + index / 5 - slot < (table index).frequency * 100 := by
    split at hfirst <;> omega
  rw [count_sends]
  simp only [count_dueEntries, SCH_TOTAL_SLOTS, SCH_ENTRIES_PER_SLOT]
  refine sum_range_single hj fun i hi => ?_
  have hnowrap : (pass + (slot + i) / 100) % 2 ^ 32 = pass + (slot + i) / 100 :=
    Nat.mod_eq_of_lt (by omega)
  rw [hnowrap, due, decide_eq_true_eq, and_iff_right henabled]
  constructor
  · rintro ⟨hplace, hpass⟩
    obtain ⟨u, hu⟩ : ∃ u, (slot + i) / 100 = first + u := by
      refine ⟨(slot + i) / 100 - first, ?_⟩
      split at hfirst <;> omega
    rw [hu, ← Nat.add_assoc] at hpass
    have hut := (hunique u (by split at hfirst <;> omega)).mp hpass
    omega
  · rintro rfl
    have hplace : slot + ((first + t) * 100 + index / 5 - slot) =
        (first + t) * 100 + index / 5 := by
      split at hfirst <;> omega
    rw [hplace]
    refine ⟨by omega, ?_⟩
    have hdiv : ((first + t) * 100 + index / 5) / 100 = first + t := by omega
    rw [hdiv, ← Nat.add_assoc]
    exact (hunique t ht).mpr rfl

theorem count_pass {table : ScheduleTable} {index pass : Nat} (hindex : index < SCH_TABLE_ENTRIES)
    (hpass : pass < 2 ^ 32) :
    (sends table pass 0 SCH_TOTAL_SLOTS).count index = if due table pass index then 1 else 0 := by
  simp only [SCH_TABLE_ENTRIES, SCH_TOTAL_SLOTS, SCH_ENTRIES_PER_SLOT] at hindex
  have hsame {i : Nat} (hi : i < SCH_TOTAL_SLOTS) :
      (pass + (0 + i) / SCH_TOTAL_SLOTS) % 2 ^ 32 = pass := by
    rw [Nat.zero_add, Nat.div_eq_of_lt hi, Nat.add_zero, Nat.mod_eq_of_lt hpass]
  by_cases hdue : due table pass index = true
  · rw [if_pos hdue, count_sends]
    have hj : index / SCH_ENTRIES_PER_SLOT < SCH_TOTAL_SLOTS := by
      simp only [SCH_TOTAL_SLOTS, SCH_ENTRIES_PER_SLOT]
      omega
    simp only [count_dueEntries]
    refine sum_range_single hj fun i hi => ?_
    rw [hsame hi, Nat.zero_add, Nat.mod_eq_of_lt hi, and_iff_left hdue, eq_comm]
  · rw [if_neg hdue, List.count_eq_zero, sends, List.mem_flatMap]
    rintro ⟨i, hi, hmem⟩
    rw [hsame (List.mem_range.mp hi)] at hmem
    exact hdue (List.mem_filter.mp hmem).2

/-- How an entry of a table is sent, in every run of slots. -/
structure AsWritten (table : ScheduleTable) (index : Nat) : Prop where
  pass : ∀ pass < 2 ^ 32, (sends table pass 0 SCH_TOTAL_SLOTS).count index =
    if (table index).enableState = .enabled ∧
      pass % (table index).frequency = (table index).remainder then 1 else 0
  passes : (table index).enableState = .enabled → ∀ pass slot, slot < SCH_TOTAL_SLOTS →
    pass + (slot + (table index).frequency * SCH_TOTAL_SLOTS - 1) / SCH_TOTAL_SLOTS < 2 ^ 32 →
      (sends table pass slot ((table index).frequency * SCH_TOTAL_SLOTS)).count index = 1
  never : (table index).enableState ≠ .enabled → ∀ pass slot n, index ∉ sends table pass slot n

theorem SoundTable.asWritten {table : ScheduleTable} (h : SoundTable table) {index : Nat}
    (hindex : index < SCH_TABLE_ENTRIES) : AsWritten table index := by
  refine ⟨fun pass hpass => ?_, fun henabled pass slot hslot hwrap => ?_,
    fun hdisabled pass slot n hmem => ?_⟩
  · rw [count_pass hindex hpass]
    simp only [due, decide_eq_true_eq]
  · exact count_passes hindex henabled (h index hindex henabled) hslot hwrap
  · obtain ⟨i, -, hdue⟩ := List.mem_flatMap.mp hmem
    have henabled : due table _ index = true := (List.mem_filter.mp hdue).2
    exact hdisabled (of_decide_eq_true henabled).1

/-- A verified table that is not modified runs as written: in every run without skips nothing
counts as bad and the messages sent are those of the entries due in the slots executed. -/
theorem verified_table_runs (transmit : Transmit) {tableArray : Nat → TableEntry}
    (hvalid : (validateScheduleData tableArray).tableResult = CFE_SUCCESS) {app : AppData}
    (hfits : Fits app)
    (htable : ∀ i < SCH_TABLE_ENTRIES, app.scheduleTable i = (tableArray i).entry) :
    (∀ (reset : Bool) (app' : AppData),
      (schedulerFrom transmit app).Reaches (WithoutSkip reset app.scheduleTable) app' →
        ∃ n, Executes reset app app' n) ∧
      ∀ index < SCH_TABLE_ENTRIES, AsWritten app.scheduleTable index := by
  have hsound : SoundTable app.scheduleTable := by
    intro index hindex henabled
    rw [htable index hindex] at henabled ⊢
    exact sound_of_validateEntry ((validateScheduleData_result tableArray).mp hvalid index hindex)
      henabled
  exact ⟨fun reset app' hrun => (reaches_executes hfits hsound hrun).slots,
    fun index hindex => hsound.asWritten hindex⟩

/-- One message on every second pass, the rest is unused. -/
def oneEntry (index : Nat) : TableEntry :=
  if index = 7 then ⟨SCH_ENABLED, SCH_ACTIVITY_SEND_MSG, 2, 1, 3, 0⟩ else ⟨0, 0, 0, 0, 0, 0⟩

theorem verified_table_runs_oneEntry :
    (sends (fun i => (oneEntry i).entry) 10 0 (2 * SCH_TOTAL_SLOTS)).count 7 = 1 := by
  have hvalid : (validateScheduleData oneEntry).tableResult = CFE_SUCCESS := by
    refine (validateScheduleData_result oneEntry).mpr fun i _ => ?_
    unfold oneEntry
    split <;> decide
  have h := verified_table_runs (fun _ => 0) hvalid
    (show Fits { scheduleTable := fun i => (oneEntry i).entry } from
      ⟨by decide, by decide, by decide, by decide⟩) fun _ _ => rfl
  exact (h.2 7 (by decide)).passes rfl 10 0 (by decide) (by decide)

end Nos3.Sch
