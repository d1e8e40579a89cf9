import Mathlib.Data.Nat.ModEq
import Nos3.Sch.Source.ScheduleTable

/-!
# No slot repeated, reordered or silently lost

The position of the scheduler is the number of the slot it is about to process,
counted through all passes over the table. Commands, entries, the jump forward
and each processed slot move it by known amounts, and a wakeup adds these up. A
RESET command takes away the counters of processed slots and of jumps, never the
position.
-/
namespace Nos3.Sch
open Nos3.Base.Transition

/-! ## Commands and entries -/

def Command.isReset : Command → Bool
  | .reset => true
  | _ => false

/-- The status of a command that succeeds. -/
def Command.succeeds : Command → Prop
  | .housekeeping _ tableResult => tableResult = CFE_SUCCESS
  | _ => True

def Batch.succeeds (batch : Batch) : Prop :=
  batch.status = CFE_SB_NO_MESSAGE ∧ ∀ cmd ∈ batch.commands, cmd.succeeds

def resetWaits (batches : List Batch) : Bool := batches.any fun b => b.commands.any Command.isReset

/-- What neither commands nor entries change. -/
structure SamePlace (app app' : AppData) : Prop where
  next : app'.nextSlotNumber = app.nextSlotNumber
  pass : app'.tablePassCount = app.tablePassCount
  executed : app'.executed = app.executed

/-- The two counters of slots are kept. -/
structure SameCounts (app app' : AppData) : Prop where
  processed : app'.slotsProcessedCount = app.slotsProcessedCount
  skipped : app'.skippedSlotsCount = app.skippedSlotsCount

/-- The two counters of slots are kept or start again. -/
def KeptOrReset (app app' : AppData) : Prop :=
  SameCounts app app' ∨ (app'.slotsProcessedCount = 0 ∧ app'.skippedSlotsCount = 0)

theorem SamePlace.trans {app mid app' : AppData} (h : SamePlace app mid) (h' : SamePlace mid app') :
    SamePlace app app' :=
  ⟨h'.next.trans h.next, h'.pass.trans h.pass, h'.executed.trans h.executed⟩

theorem SameCounts.trans {app mid app' : AppData} (h : SameCounts app mid)
    (h' : SameCounts mid app') : SameCounts app app' :=
  ⟨h'.processed.trans h.processed, h'.skipped.trans h.skipped⟩

theorem KeptOrReset.trans {app mid app' : AppData} (h : KeptOrReset app mid)
    (h' : KeptOrReset mid app') : KeptOrReset app app' := by
  rcases h' with h' | h'
  · rcases h with h | h
    · exact .inl (h.trans h')
    · exact .inr ⟨h'.processed.trans h.1, h'.skipped.trans h.2⟩
  · exact .inr h'

theorem setEntryCmd_frame (state : EnableState) (slotNumber entryNumber : Nat) (app : AppData) :
    SamePlace app (setEntryCmd state slotNumber entryNumber app) ∧
      SameCounts app (setEntryCmd state slotNumber entryNumber app) ∧
      (setEntryCmd state slotNumber entryNumber app).batches = app.batches := by
  unfold setEntryCmd
  dsimp only
  split
  · exact ⟨⟨rfl, rfl, rfl⟩, ⟨rfl, rfl⟩, rfl⟩
  · split <;> exact ⟨⟨rfl, rfl, rfl⟩, ⟨rfl, rfl⟩, rfl⟩

theorem appPipe_frame (app : AppData) (cmd : Command) :
    SamePlace app (appPipe app cmd).2 ∧ KeptOrReset app (appPipe app cmd).2 ∧
      (cmd.isReset = false → SameCounts app (appPipe app cmd).2) ∧
      (appPipe app cmd).2.batches = app.batches := by
  cases cmd with
  | reset => exact ⟨⟨rfl, rfl, rfl⟩, .inr ⟨rfl, rfl⟩, nofun, rfl⟩
  | enable slotNumber entryNumber | disable slotNumber entryNumber =>
    obtain ⟨hplace, hcounts, hbatches⟩ := setEntryCmd_frame _ slotNumber entryNumber app
    exact ⟨hplace, .inl hcounts, fun _ => hcounts, hbatches⟩
  | enableGroup groupData | disableGroup groupData | housekeeping table tableResult | other =>
    exact ⟨⟨rfl, rfl, rfl⟩, .inl ⟨rfl, rfl⟩, fun _ => ⟨rfl, rfl⟩, rfl⟩

theorem appPipe_succeeds {cmd : Command} (h : cmd.succeeds) (app : AppData) :
    (appPipe app cmd).1 = CFE_SUCCESS := by
  cases cmd with
  | housekeeping table tableResult => exact h
  | reset | enable slotNumber entryNumber | disable slotNumber entryNumber | enableGroup groupData
  | disableGroup groupData | other => rfl

theorem commandLoop_frame (status : Int) (commands : List Command) (app : AppData) :
    SamePlace app (commandLoop status commands app).2 ∧
      KeptOrReset app (commandLoop status commands app).2 ∧
      (commands.any Command.isReset = false → SameCounts app (commandLoop status commands app).2) ∧
      (commandLoop status commands app).2.batches = app.batches := by
  induction commands generalizing app with
  | nil => exact ⟨⟨rfl, rfl, rfl⟩, .inl ⟨rfl, rfl⟩, fun _ => ⟨rfl, rfl⟩, rfl⟩
  | cons cmd commands ih =>
    obtain ⟨hplace, hkept, hsame, hbatches⟩ := appPipe_frame app cmd
    simp only [commandLoop, List.any_cons, Bool.or_eq_false_iff]
    split
    · obtain ⟨hplace', hkept', hsame', hbatches'⟩ := ih (appPipe app cmd).2
      exact ⟨hplace.trans hplace', hkept.trans hkept', fun h => (hsame h.1).trans (hsame' h.2),
        hbatches'.trans hbatches⟩
    · exact ⟨hplace, hkept, fun h => hsame h.1, hbatches⟩

theorem commandLoop_succeeds {commands : List Command} (h : ∀ cmd ∈ commands, cmd.succeeds)
    (status : Int) (app : AppData) : (commandLoop status commands app).1 = status := by
  induction commands generalizing app with
  | nil => rfl
  | cons cmd commands ih =>
    simp only [commandLoop, appPipe_succeeds (h cmd List.mem_cons_self), ↓reduceIte]
    exact ih (fun c hc => h c (List.mem_cons_of_mem _ hc)) _

/-- What emptying the command pipe does to the place and the counters. -/
structure Commanded (app app' : AppData) : Prop where
  place : SamePlace app app'
  counts : KeptOrReset app app'
  kept : resetWaits app.batches = false → SameCounts app app'
  batches : app'.batches = app.batches.tail

theorem processCommands_commanded (app : AppData) : Commanded app (processCommands app).2 := by
  obtain ⟨hplace, hkept, hsame, hbatches⟩ := commandLoop_frame
    (app.batches.headD ⟨[], CFE_SB_NO_MESSAGE⟩).status
    (app.batches.headD ⟨[], CFE_SB_NO_MESSAGE⟩).commands { app with batches := app.batches.tail }
  refine ⟨⟨hplace.next, hplace.pass, hplace.executed⟩, ?_, fun h => ?_, hbatches⟩
  · exact hkept.imp (fun h => ⟨h.processed, h.skipped⟩) id
  · have hsame := hsame (by
      cases hb : app.batches with
      | nil => rfl
      | cons b batches =>
        rw [hb, resetWaits, List.any_cons, Bool.or_eq_false_iff] at h
        exact h.1)
    exact ⟨hsame.processed, hsame.skipped⟩

theorem processCommands_succeeds {app : AppData} (h : ∀ b ∈ app.batches, b.succeeds) :
    (processCommands app).1 = CFE_SUCCESS := by
  have hbatch : (app.batches.headD ⟨[], CFE_SB_NO_MESSAGE⟩).succeeds := by
    cases hb : app.batches with
    | nil => exact ⟨rfl, nofun⟩
    | cons b batches => exact h b (hb ▸ List.mem_cons_self)
  simp only [processCommands, commandLoop_succeeds hbatch.2, hbatch.1, ↓reduceIte]

/-- What the entries of a slot leave alone. -/
structure EntryFrame (app app' : AppData) : Prop extends SamePlace app app' where
  counts : SameCounts app app'
  batches : app'.batches = app.batches

theorem processNextEntry_frame (transmit : Transmit) (index : Nat) (app : AppData) :
    EntryFrame app (processNextEntry transmit index app) := by
  unfold processNextEntry
  dsimp only
  split
  · exact ⟨⟨rfl, rfl, rfl⟩, ⟨rfl, rfl⟩, rfl⟩
  · split
    · split <;> exact ⟨⟨rfl, rfl, rfl⟩, ⟨rfl, rfl⟩, rfl⟩
    · exact ⟨⟨rfl, rfl, rfl⟩, ⟨rfl, rfl⟩, rfl⟩

theorem processEntries_frame (transmit : Transmit) (app : AppData) :
    EntryFrame app (processEntries transmit app) := by
  unfold processEntries
  induction List.range SCH_ENTRIES_PER_SLOT generalizing app with
  | nil => exact ⟨⟨rfl, rfl, rfl⟩, ⟨rfl, rfl⟩, rfl⟩
  | cons entryNumber entries ih =>
    rw [List.foldl_cons]
    dsimp only
    split
    · have h := processNextEntry_frame transmit
        (app.nextSlotNumber * SCH_ENTRIES_PER_SLOT + entryNumber) app
      have h' := ih (processNextEntry transmit
        (app.nextSlotNumber * SCH_ENTRIES_PER_SLOT + entryNumber) app)
      exact ⟨h.toSamePlace.trans h'.toSamePlace, h.counts.trans h'.counts,
        h'.batches.trans h.batches⟩
    · exact ih app

/-! ## Moving through the table -/

/-- The counters are within their width and the next slot is one of the table. -/
structure Fits (app : AppData) : Prop where
  next : app.nextSlotNumber < SCH_TOTAL_SLOTS
  pass : app.tablePassCount < 2 ^ 32
  processed : app.slotsProcessedCount < 2 ^ 32
  skipped : app.skippedSlotsCount < 2 ^ 16

/-- The counters of slots after `n` more slots and `jumps` more jumps. -/
structure Counted (app app' : AppData) (n jumps : Nat) : Prop where
  processed : app'.slotsProcessedCount = (app.slotsProcessedCount + n) % 2 ^ 32
  skipped : app'.skippedSlotsCount = (app.skippedSlotsCount + jumps) % 2 ^ 16

/-- `skipped` slots are left out, in `jumps` jumps, and the `n` after them are
processed. -/
structure Moves (app app' : AppData) (skipped n jumps : Nat) : Prop where
  next : app'.nextSlotNumber = (app.nextSlotNumber + skipped + n) % SCH_TOTAL_SLOTS
  pass : app'.tablePassCount =
    (app.tablePassCount + (app.nextSlotNumber + skipped + n) / SCH_TOTAL_SLOTS) % 2 ^ 32
  executed : app'.executed = app.executed ++
    (List.range n).map fun i => (app.nextSlotNumber + skipped + i) % SCH_TOTAL_SLOTS
  counts : Counted app app' n jumps ∨ (app'.slotsProcessedCount ≤ n ∧ app'.skippedSlotsCount = 0)
  kept : resetWaits app.batches = false → Counted app app' n jumps ∧ resetWaits app'.batches = false
  batches : app'.batches ⊆ app.batches

theorem Moves.fits {app app' : AppData} {skipped n jumps : Nat} (h : Moves app app' skipped n jumps)
    (hn : n < 2 ^ 32) : Fits app' := by
  refine ⟨?_, ?_, ?_, ?_⟩
  · rw [h.next]
    exact Nat.mod_lt _ (by decide)
  · rw [h.pass]
    exact Nat.mod_lt _ (by decide)
  · rcases h.counts with h | h
    · rw [h.processed]
      exact Nat.mod_lt _ (by decide)
    · exact h.1.trans_lt hn
  · rcases h.counts with h | h
    · rw [h.skipped]
      exact Nat.mod_lt _ (by decide)
    · rw [h.2]
      decide

/-- One more slot after the jump and the slots before. -/
theorem Moves.snoc {app mid app' : AppData} {skipped n jumps : Nat}
    (h : Moves app mid skipped n jumps) (h' : Moves mid app' 0 1 0) :
    Moves app app' skipped (n + 1) jumps := by
  have hcount (hc : Counted app mid n jumps) (hc' : Counted mid app' 1 0) :
      Counted app app' (n + 1) jumps :=
    ⟨by rw [hc'.processed, hc.processed]; omega, by rw [hc'.skipped, hc.skipped]; omega⟩
  have hnext := h'.next
  have hpass := h'.pass
  have hexecuted := h'.executed
  rw [h.next] at hnext hpass hexecuted
  rw [h.pass] at hpass
  simp only [SCH_TOTAL_SLOTS] at hnext hpass hexecuted
  refine ⟨?_, ?_, ?_, ?_, fun hr => ?_, List.Subset.trans h'.batches h.batches⟩
  · rw [hnext]
    simp only [SCH_TOTAL_SLOTS]
    omega
  · rw [hpass]
    simp only [SCH_TOTAL_SLOTS]
    omega
  · rw [hexecuted, h.executed, List.append_assoc, List.range_succ (n := n), List.map_append]
    simp only [SCH_TOTAL_SLOTS, List.range_one, List.map_cons, List.map_nil, Nat.add_zero,
      Nat.mod_mod]
  · rcases h'.counts with hc' | ⟨hp, hs⟩
    · rcases h.counts with hc | ⟨hp, hs⟩
      · exact .inl (hcount hc hc')
      · refine .inr ⟨?_, ?_⟩
        · rw [hc'.processed]
          exact (Nat.mod_le _ _).trans (Nat.succ_le_succ hp)
        · rw [hc'.skipped, hs]
          rfl
    · exact .inr ⟨hp.trans (Nat.le_add_left 1 n), hs⟩
  · obtain ⟨hc, hr⟩ := h.kept hr
    obtain ⟨hc', hr⟩ := h'.kept hr
    exact ⟨hcount hc hc', hr⟩

theorem resetWaits_tail {batches : List Batch} (h : resetWaits batches = false) :
    resetWaits batches.tail = false := by
  cases batches with
  | nil => rfl
  | cons b batches =>
    rw [resetWaits, List.any_cons, Bool.or_eq_false_iff] at h
    exact h.2

/-- A step that takes commands at most, seen from its two counters and its
batches. -/
structure MayCommand (app app' : AppData) : Prop where
  place : SamePlace app app'
  counts : KeptOrReset app app'
  kept : resetWaits app.batches = false → SameCounts app app' ∧ resetWaits app'.batches = false
  batches : app'.batches ⊆ app.batches

theorem mayCommand (c : Prop) [Decidable c] (app : AppData) :
    MayCommand app (if c then processCommands app else (CFE_SUCCESS, app)).2 := by
  split
  · have h := processCommands_commanded app
    refine ⟨h.place, h.counts, fun hr => ⟨h.kept hr, ?_⟩, ?_⟩
    · rw [h.batches]
      exact resetWaits_tail hr
    · rw [h.batches]
      exact (List.tail_sublist _).subset
  · exact ⟨⟨rfl, rfl, rfl⟩, .inl ⟨rfl, rfl⟩, fun hr => ⟨⟨rfl, rfl⟩, hr⟩, List.Subset.refl _⟩

theorem finishSlot_next {app : AppData} (h : app.nextSlotNumber < SCH_TOTAL_SLOTS) :
    (finishSlot app).nextSlotNumber = (app.nextSlotNumber + 1) % SCH_TOTAL_SLOTS := by
  simp only [SCH_TOTAL_SLOTS] at h ⊢
  by_cases hlast : app.nextSlotNumber + 1 = 100
  · simp [finishSlot, SCH_TOTAL_SLOTS, hlast]
  · simp only [finishSlot, SCH_TOTAL_SLOTS, hlast, ↓reduceIte]
    omega

theorem finishSlot_pass {app : AppData} (h : app.nextSlotNumber < SCH_TOTAL_SLOTS)
    (hpass : app.tablePassCount < 2 ^ 32) :
    (finishSlot app).tablePassCount =
      (app.tablePassCount + (app.nextSlotNumber + 1) / SCH_TOTAL_SLOTS) % 2 ^ 32 := by
  simp only [SCH_TOTAL_SLOTS] at h ⊢
  by_cases hlast : app.nextSlotNumber + 1 = 100
  · simp [finishSlot, SCH_TOTAL_SLOTS, incr32, hlast]
  · simp only [finishSlot, SCH_TOTAL_SLOTS, hlast, ↓reduceIte]
    omega

theorem finishSlot_frame (app : AppData) :
    (finishSlot app).executed = app.executed ∧
      (finishSlot app).slotsProcessedCount = incr32 app.slotsProcessedCount ∧
      (finishSlot app).skippedSlotsCount = app.skippedSlotsCount ∧
      (finishSlot app).batches = app.batches := by
  simp only [finishSlot]
  split <;> exact ⟨rfl, rfl, rfl, rfl⟩

/-- A slot: its entries, the commands that may follow them, and its end. -/
theorem moves_slot {app app₁ app₂ : AppData} (hfits : Fits app)
    (h₁ : EntryFrame { app with executed := app.executed ++ [app.nextSlotNumber] } app₁)
    (h₂ : MayCommand app₁ app₂) : Moves app (finishSlot app₂) 0 1 0 := by
  have hnext : app₂.nextSlotNumber = app.nextSlotNumber := h₂.place.next.trans h₁.next
  have hpass : app₂.tablePassCount = app.tablePassCount := h₂.place.pass.trans h₁.pass
  obtain ⟨hexecuted, hprocessed, hskipped, hbatches⟩ := finishSlot_frame app₂
  have hlt : app₂.nextSlotNumber < SCH_TOTAL_SLOTS := hnext ▸ hfits.next
  have hcounted (h : SameCounts app₁ app₂) : Counted app (finishSlot app₂) 1 0 := by
    refine ⟨?_, ?_⟩
    · rw [hprocessed, h.processed, h₁.counts.processed]
      rfl
    · rw [hskipped, h.skipped, h₁.counts.skipped]
      exact (Nat.mod_eq_of_lt hfits.skipped).symm
  refine ⟨?_, ?_, ?_, ?_, fun hr => ?_, ?_⟩
  · rw [finishSlot_next hlt, hnext, Nat.add_zero]
  · rw [finishSlot_pass hlt (hpass ▸ hfits.pass), hnext, hpass, Nat.add_zero]
  · rw [hexecuted, h₂.place.executed, h₁.executed]
    simp [Nat.mod_eq_of_lt hfits.next]
  · refine h₂.counts.imp hcounted fun hzero => ⟨?_, hskipped.trans hzero.2⟩
    rw [hprocessed, hzero.1]
    exact Nat.mod_le _ _
  · obtain ⟨hsame, hr⟩ := h₂.kept (h₁.batches ▸ hr)
    exact ⟨hcounted hsame, hbatches ▸ hr⟩
  · rw [hbatches]
    exact List.Subset.trans h₂.batches (h₁.batches ▸ List.Subset.refl _)

theorem processNextSlot_moves (transmit : Transmit) {app : AppData} (hfits : Fits app) :
    Moves app (processNextSlot transmit app).2 0 1 0 := by
  have hentries :=
    processEntries_frame transmit { app with executed := app.executed ++ [app.nextSlotNumber] }
  simp only [processNextSlot]
  exact moves_slot hfits hentries (mayCommand _ _)

theorem processNextSlot_succeeds (transmit : Transmit) {app : AppData}
    (h : ∀ b ∈ app.batches, b.succeeds) : (processNextSlot transmit app).1 = CFE_SUCCESS := by
  have hframe :=
    processEntries_frame transmit { app with executed := app.executed ++ [app.nextSlotNumber] }
  have hbatches : ∀ b ∈ (processEntries transmit
      { app with executed := app.executed ++ [app.nextSlotNumber] }).batches, b.succeeds := by
    rw [hframe.batches]
    exact h
  simp only [processNextSlot]
  split
  · exact processCommands_succeeds hbatches
  · rfl

theorem processSlots_moves (transmit : Transmit) {app mid : AppData} {skipped n jumps : Nat}
    (hn : n < SCH_TOTAL_SLOTS) (h : Moves app mid skipped n jumps)
    (hok : ∀ b ∈ app.batches, b.succeeds) (k : Nat) (hk : n + k < SCH_TOTAL_SLOTS) :
    (processSlots transmit k CFE_SUCCESS mid).1 = CFE_SUCCESS ∧
      Moves app (processSlots transmit k CFE_SUCCESS mid).2 skipped (n + k) jumps := by
  induction k generalizing mid n with
  | zero => exact ⟨rfl, h⟩
  | succ k ih =>
    have hfits : Fits mid := h.fits (by simp only [SCH_TOTAL_SLOTS] at hn; omega)
    have hsucceeds := processNextSlot_succeeds transmit fun b hb => hok b (h.batches hb)
    simp only [processSlots, ↓reduceIte, hsucceeds]
    rw [show n + (k + 1) = n + 1 + k by omega]
    exact ih (by omega) (h.snoc (processNextSlot_moves transmit hfits)) (by omega)

/-! ## A wakeup -/

theorem Moves.refl {app : AppData} (h : Fits app) : Moves app app 0 0 0 where
  next := (Nat.mod_eq_of_lt h.next).symm
  pass := by
    rw [Nat.add_zero, Nat.div_eq_of_lt h.next, Nat.add_zero, Nat.mod_eq_of_lt h.pass]
  executed := by simp
  counts := .inl ⟨(Nat.mod_eq_of_lt h.processed).symm, (Nat.mod_eq_of_lt h.skipped).symm⟩
  kept hr := ⟨⟨(Nat.mod_eq_of_lt h.processed).symm, (Nat.mod_eq_of_lt h.skipped).symm⟩, hr⟩
  batches := List.Subset.refl _

/-- Other fields do not matter, before the moves or after them. -/
theorem Moves.congr {app app₁ mid mid₁ : AppData} {skipped n jumps : Nat}
    (h : Moves app₁ mid skipped n jumps) (hbefore : EntryFrame app app₁)
    (hafter : EntryFrame mid mid₁) : Moves app mid₁ skipped n jumps := by
  have hcount (hc : Counted app₁ mid n jumps) : Counted app mid₁ n jumps :=
    ⟨by rw [hafter.counts.processed, hc.processed, hbefore.counts.processed],
      by rw [hafter.counts.skipped, hc.skipped, hbefore.counts.skipped]⟩
  refine ⟨?_, ?_, ?_, ?_, fun hr => ?_, ?_⟩
  · rw [hafter.next, h.next, hbefore.next]
  · rw [hafter.pass, h.pass, hbefore.pass, hbefore.next]
  · rw [hafter.executed, h.executed, hbefore.executed, hbefore.next]
  · exact h.counts.imp hcount fun hzero =>
      ⟨hafter.counts.processed ▸ hzero.1, hafter.counts.skipped ▸ hzero.2⟩
  · obtain ⟨hc, hr⟩ := h.kept (hbefore.batches ▸ hr)
    exact ⟨hcount hc, hafter.batches ▸ hr⟩
  · rw [hafter.batches, ← hbefore.batches]
    exact h.batches

theorem countMultiple_frame (processCount : Nat) (app : AppData) :
    EntryFrame app (countMultiple processCount app) := by
  unfold countMultiple
  split <;> exact ⟨⟨rfl, rfl, rfl⟩, ⟨rfl, rfl⟩, rfl⟩

theorem correctForClock_frame (processCount : Nat) (app : AppData) :
    EntryFrame app (correctForClock processCount app).2 := by
  unfold correctForClock
  split
  · exact ⟨⟨rfl, rfl, rfl⟩, ⟨rfl, rfl⟩, rfl⟩
  · split <;> exact ⟨⟨rfl, rfl, rfl⟩, ⟨rfl, rfl⟩, rfl⟩

theorem correctForSameSlot_frame (processCount : Nat) (app : AppData) :
    EntryFrame app (correctForSameSlot processCount app).2 := by
  unfold correctForSameSlot
  split <;> exact ⟨⟨rfl, rfl, rfl⟩, ⟨rfl, rfl⟩, rfl⟩

theorem EntryFrame.trans {app mid app' : AppData} (h : EntryFrame app mid)
    (h' : EntryFrame mid app') : EntryFrame app app' :=
  ⟨h.toSamePlace.trans h'.toSamePlace, h.counts.trans h'.counts, h'.batches.trans h.batches⟩

/-- A corrected count is the whole distance wherever it asks for a jump. -/
theorem corrected_cases (processCount : Nat) (app : AppData) :
    (correctForSameSlot (correctForClock processCount app).1
        (correctForClock processCount app).2).1 ≤ SCH_MAX_LAG_COUNT ∨
      (correctForSameSlot (correctForClock processCount app).1
        (correctForClock processCount app).2).1 = processCount := by
  simp only [correctForSameSlot, correctForClock, SCH_MAX_LAG_COUNT, SCH_TOTAL_SLOTS]
  by_cases h2 : processCount = 2
  · subst h2
    by_cases hlast : app.lastProcessCount = 1 <;> simp [hlast]
  · by_cases h100 : processCount = 100
    · subst h100
      by_cases hlast : app.lastProcessCount = 100 <;> simp [hlast]
    · simp [h2, h100]

/-- Where the jump goes, from the distance. -/
theorem slotsBehind_spec {currentSlot next : Nat} (hcurrent : currentSlot < SCH_TOTAL_SLOTS)
    (hnext : next < SCH_TOTAL_SLOTS) :
    currentSlot = (next + (slotsBehind currentSlot next - 1)) % SCH_TOTAL_SLOTS ∧
      (next + (slotsBehind currentSlot next - 1)) / SCH_TOTAL_SLOTS =
        if currentSlot < next then 1 else 0 := by
  simp only [SCH_TOTAL_SLOTS] at hcurrent hnext ⊢
  simp only [slotsBehind, SCH_TOTAL_SLOTS]
  split <;> omega

/-- The jump as far as the commands, and the slot it ends at. -/
theorem moves_jump {app mid : AppData} {currentSlot : Nat} (hfits : Fits app)
    (hcurrent : currentSlot < SCH_TOTAL_SLOTS)
    (h : MayCommand
      { app with
        skippedSlotsCount := incr16 app.skippedSlotsCount
        tablePassCount :=
          if currentSlot < app.nextSlotNumber then incr32 app.tablePassCount
          else app.tablePassCount } mid) :
    Moves app { mid with nextSlotNumber := currentSlot }
      (slotsBehind currentSlot app.nextSlotNumber - 1) 0 1 := by
  obtain ⟨hslot, hover⟩ := slotsBehind_spec hcurrent hfits.next
  have hcount (hc : SameCounts
      { app with
        skippedSlotsCount := incr16 app.skippedSlotsCount
        tablePassCount :=
          if currentSlot < app.nextSlotNumber then incr32 app.tablePassCount
          else app.tablePassCount } mid) :
      Counted app { mid with nextSlotNumber := currentSlot } 0 1 :=
    ⟨hc.processed.trans (Nat.mod_eq_of_lt hfits.processed).symm, hc.skipped⟩
  refine ⟨hslot, ?_, ?_, ?_, fun hr => ?_, h.batches⟩
  · refine h.place.pass.trans ?_
    dsimp only
    rw [Nat.add_zero, hover]
    split
    · rfl
    · exact (Nat.mod_eq_of_lt hfits.pass).symm
  · simpa using h.place.executed
  · exact h.counts.imp hcount fun hzero => ⟨hzero.1.le, hzero.2⟩
  · obtain ⟨hc, hr⟩ := h.kept hr
    exact ⟨hcount hc, hr⟩

theorem jumpForward_moves {app : AppData} {currentSlot processCount : Nat} (hfits : Fits app)
    (hcurrent : currentSlot < SCH_TOTAL_SLOTS)
    (hcount : processCount = slotsBehind currentSlot app.nextSlotNumber) :
    Moves app (jumpForward currentSlot processCount app).2 (processCount - 1) 0 1 := by
  subst hcount
  unfold jumpForward
  dsimp only
  by_cases hover : currentSlot < app.nextSlotNumber
  · have h := fun c [Decidable c] => moves_jump hfits hcurrent (mayCommand c _)
    simp only [hover, ↓reduceIte] at h ⊢
    exact h _
  · have h := fun c [Decidable c] => moves_jump hfits hcurrent (mayCommand c _)
    simp only [hover, ↓reduceIte] at h ⊢
    exact h _

theorem jumpForward_succeeds {app : AppData} (h : ∀ b ∈ app.batches, b.succeeds)
    (currentSlot processCount : Nat) :
    (jumpForward currentSlot processCount app).1 = CFE_SUCCESS := by
  simp only [jumpForward]
  by_cases hover : currentSlot < app.nextSlotNumber <;> simp only [hover, ↓reduceIte] <;> split
  · exact processCommands_succeeds h
  · rfl
  · exact processCommands_succeeds h
  · rfl

/-- The slots of a wakeup: none or some skipped in one jump to the current slot,
then a few processed. -/
theorem processScheduleTable_moves (transmit : Transmit) {app : AppData} {currentSlot : Nat}
    (hfits : Fits app) (hcurrent : currentSlot < SCH_TOTAL_SLOTS)
    (hok : ∀ b ∈ app.batches, b.succeeds) :
    (processScheduleTable transmit currentSlot app).1 = CFE_SUCCESS ∧
      ((∃ n ≤ SCH_MAX_SLOTS_PER_WAKEUP,
          Moves app (processScheduleTable transmit currentSlot app).2 0 n 0) ∨
        ∃ skipped ≠ 0, (app.nextSlotNumber + skipped) % SCH_TOTAL_SLOTS = currentSlot ∧
          Moves app (processScheduleTable transmit currentSlot app).2 skipped 1 1) := by
  have hcases := corrected_cases (slotsBehind currentSlot app.nextSlotNumber) app
  have hframe := (correctForClock_frame (slotsBehind currentSlot app.nextSlotNumber) app).trans
    (correctForSameSlot_frame (correctForClock (slotsBehind currentSlot app.nextSlotNumber) app).1 _)
  unfold processScheduleTable
  dsimp only
  generalize correctForSameSlot _ _ = corrected at hcases hframe ⊢
  obtain ⟨processCount, app₁⟩ := corrected
  dsimp only at hcases hframe ⊢
  have hfits₁ : Fits app₁ := ⟨hframe.next ▸ hfits.next, hframe.pass ▸ hfits.pass,
    hframe.counts.processed ▸ hfits.processed, hframe.counts.skipped ▸ hfits.skipped⟩
  have hok₁ : ∀ b ∈ app₁.batches, b.succeeds := hframe.batches ▸ hok
  by_cases hlag : processCount > SCH_MAX_LAG_COUNT
  · simp only [hlag, ↓reduceIte]
    have hcount : processCount = slotsBehind currentSlot app₁.nextSlotNumber := by
      rw [hframe.next]
      exact hcases.resolve_left (Nat.not_le.mpr hlag)
    have hjump := (jumpForward_moves hfits₁ hcurrent hcount).congr hframe
      (countMultiple_frame (limitCount 1) _)
    rw [jumpForward_succeeds hok₁]
    obtain ⟨hresult, hmoves⟩ := processSlots_moves transmit (by decide) hjump hok (limitCount 1)
      (by decide)
    refine ⟨hresult, .inr ⟨processCount - 1, ?_, ?_, hmoves⟩⟩
    · simp only [SCH_MAX_LAG_COUNT, SCH_TOTAL_SLOTS] at hlag
      omega
    rw [hcount, hframe.next]
    exact (slotsBehind_spec hcurrent hfits.next).1.symm
  · simp only [hlag, ↓reduceIte]
    have hlimit : limitCount processCount ≤ SCH_MAX_SLOTS_PER_WAKEUP := by
      unfold limitCount
      split <;> omega
    have hstart := (Moves.refl hfits₁).congr hframe (countMultiple_frame (limitCount processCount) _)
    obtain ⟨hresult, hmoves⟩ := processSlots_moves transmit (by decide) hstart hok
      (limitCount processCount) (by simp only [SCH_TOTAL_SLOTS, SCH_MAX_SLOTS_PER_WAKEUP] at *; omega)
    rw [Nat.zero_add] at hmoves
    exact ⟨hresult, .inl ⟨_, hlimit, hmoves⟩⟩

/-! ## Whole runs -/

/-- The number of the next slot, counted through the passes over the table. -/
def AppData.position (app : AppData) : Nat :=
  app.tablePassCount * SCH_TOTAL_SLOTS + app.nextSlotNumber

/-- How often the last slot is among `k` slots from `start` on. -/
def lastSlots (start k : Nat) : Nat :=
  (List.range k).countP fun i => (start + i) % SCH_TOTAL_SLOTS == SCH_TOTAL_SLOTS - 1

theorem lastSlots_eq {start : Nat} (h : start < SCH_TOTAL_SLOTS) (k : Nat) :
    lastSlots start k = (start + k) / SCH_TOTAL_SLOTS := by
  simp only [SCH_TOTAL_SLOTS] at h
  induction k with
  | zero => simp [lastSlots, SCH_TOTAL_SLOTS, Nat.div_eq_of_lt h]
  | succ k ih =>
    have hstep : lastSlots start (k + 1) =
        lastSlots start k + if (start + k) % 100 = 99 then 1 else 0 := by
      simp [lastSlots, List.range_succ, List.countP_append, List.countP_singleton, SCH_TOTAL_SLOTS]
    rw [hstep, ih]
    simp only [SCH_TOTAL_SLOTS]
    split <;> omega

/-- A wakeup processes the `n` slots after the `skipped` ones. -/
structure Conserves (app app' : AppData) (wakeup : Wakeup) (skipped n : Nat) : Prop where
  below : app'.nextSlotNumber < SCH_TOTAL_SLOTS
  bounded : n ≤ SCH_MAX_SLOTS_PER_WAKEUP
  slots : app'.executed = app.executed ++
    (List.range n).map fun i => (app.position + skipped + i) % SCH_TOTAL_SLOTS
  position : app'.position ≡ app.position + skipped + n [MOD 2 ^ 32 * SCH_TOTAL_SLOTS]
  passes : app'.tablePassCount =
    (app.tablePassCount + lastSlots app.nextSlotNumber (skipped + n)) % 2 ^ 32
  jump : skipped ≠ 0 → n = 1 ∧ (app.position + skipped) % SCH_TOTAL_SLOTS = wakeup.currentSlot
  counts : resetWaits wakeup.batches = false →
    app'.slotsProcessedCount = (app.slotsProcessedCount + n) % 2 ^ 32 ∧
      app'.skippedSlotsCount =
        (app.skippedSlotsCount + if skipped = 0 then 0 else 1) % 2 ^ 16
  restarts : app'.slotsProcessedCount = (app.slotsProcessedCount + n) % 2 ^ 32 ∨
    app'.slotsProcessedCount ≤ n ∧ app'.skippedSlotsCount = 0

theorem Moves.conserves {app app' : AppData} {wakeup : Wakeup} {skipped n jumps : Nat}
    (hfits : Fits app) (h : Moves { app with batches := wakeup.batches } app' skipped n jumps)
    (hn : n ≤ SCH_MAX_SLOTS_PER_WAKEUP) (hjumps : jumps = if skipped = 0 then 0 else 1)
    (hjump : skipped ≠ 0 → n = 1 ∧
      (app.nextSlotNumber + skipped) % SCH_TOTAL_SLOTS = wakeup.currentSlot) :
    Conserves app app' wakeup skipped n := by
  have hplace (k : Nat) : (app.position + skipped + k) % SCH_TOTAL_SLOTS =
      (app.nextSlotNumber + skipped + k) % SCH_TOTAL_SLOTS := by
    simp only [AppData.position, SCH_TOTAL_SLOTS]
    omega
  have hlt : n < 2 ^ 32 := by
    simp only [SCH_MAX_SLOTS_PER_WAKEUP] at hn
    omega
  refine ⟨(h.fits hlt).next, hn, ?_, ?_, ?_, fun hs => ?_, fun hr => ?_, ?_⟩
  · simp only [hplace]
    exact h.executed
  · have hpass : app'.tablePassCount * SCH_TOTAL_SLOTS ≡
        (app.tablePassCount + (app.nextSlotNumber + skipped + n) / SCH_TOTAL_SLOTS) *
          SCH_TOTAL_SLOTS [MOD 2 ^ 32 * SCH_TOTAL_SLOTS] := by
      rw [h.pass]
      exact (Nat.mod_modEq _ _).mul_right' _
    have hsum : (app.tablePassCount + (app.nextSlotNumber + skipped + n) / SCH_TOTAL_SLOTS) *
        SCH_TOTAL_SLOTS + (app.nextSlotNumber + skipped + n) % SCH_TOTAL_SLOTS =
          app.position + skipped + n := by
      simp only [AppData.position, SCH_TOTAL_SLOTS]
      omega
    rw [← hsum, AppData.position, h.next]
    exact hpass.add_right _
  · rw [lastSlots_eq hfits.next, ← Nat.add_assoc]
    exact h.pass
  · obtain ⟨hone, hslot⟩ := hjump hs
    exact ⟨hone, (hplace 0).trans hslot⟩
  · obtain ⟨hc, -⟩ := h.kept hr
    exact ⟨hc.processed, hjumps ▸ hc.skipped⟩
  · exact h.counts.imp (fun hc => hc.processed) id

/-- A wakeup whose current slot is one of the table and whose commands succeed. -/
def Orderly (_ : AppData) (wakeup : Wakeup) : Prop :=
  wakeup.currentSlot < SCH_TOTAL_SLOTS ∧ ∀ b ∈ wakeup.batches, b.succeeds

theorem wakeup_conserves (transmit : Transmit) {app : AppData} (hfits : Fits app)
    {wakeup : Wakeup} (hok : Orderly app wakeup) :
    ∃ app' skipped n, (scheduler transmit).next app wakeup = some app' ∧ Fits app' ∧
      Conserves app app' wakeup skipped n := by
  have hfits₀ : Fits { app with batches := wakeup.batches } :=
    ⟨hfits.next, hfits.pass, hfits.processed, hfits.skipped⟩
  obtain ⟨hresult, hmoves⟩ := processScheduleTable_moves transmit hfits₀ hok.1 hok.2
  have hnext : (scheduler transmit).next app wakeup = some (processScheduleTable transmit
      wakeup.currentSlot { app with batches := wakeup.batches }).2 := if_pos hresult
  rcases hmoves with ⟨n, hn, hmoves⟩ | ⟨skipped, hskipped, hslot, hmoves⟩
  · refine ⟨_, 0, n, hnext, hmoves.fits ?_, hmoves.conserves hfits hn rfl nofun⟩
    simp only [SCH_MAX_SLOTS_PER_WAKEUP] at hn
    omega
  · exact ⟨_, skipped, 1, hnext, hmoves.fits (by decide),
      hmoves.conserves hfits (by decide) (if_neg hskipped).symm fun _ => ⟨rfl, hslot⟩⟩

theorem fits_reaches {transmit : Transmit} {app : AppData}
    (h : (scheduler transmit).Reaches Orderly app) : Fits app := by
  refine Machine.Reaches.invariant (fun app hstart => ?_) (fun app wakeup app' hfits hok hnext => ?_) h
  · rw [hstart]
    exact ⟨show 0 < 100 by decide, show 0 < 2 ^ 32 by decide, show 0 < 2 ^ 32 by decide,
      show 0 < 2 ^ 16 by decide⟩
  · obtain ⟨app₁, -, -, hnext₁, hfits₁, -⟩ := wakeup_conserves transmit hfits hok
    rw [hnext₁, Option.some.injEq] at hnext
    exact hnext ▸ hfits₁

/-- An empty schedule before the first wakeup. -/
def idleStart : AppData := { scheduleTable := fun _ => {} }

/-- A wakeup of the minor frame timer. -/
def minorFrame (slot : Nat) (batches : List Batch) : Wakeup := ⟨⟨false, 0, 0, slot⟩, batches⟩

theorem idleStart_reaches : (scheduler fun _ => 0).Reaches Orderly idleStart :=
  .start (show idleStart = { scheduleTable := idleStart.scheduleTable } from rfl)

/-- The state after slot 0. -/
def afterFirst : AppData := (processScheduleTable (fun _ => 0) 99 idleStart).2

def resetBatch : Batch := ⟨[.reset], CFE_SB_NO_MESSAGE⟩

end Nos3.Sch
