import Nos3.Time.Source.Reference
import Nos3.Time.Guarantees.CyclicTime

/-!
# A consistent time reference

A read of the time reference that is interrupted by updates returns the reference as one of
the updates left it, one that was current during the read; it fails only when twelve updates
were finished meanwhile. Between the commands the time runs with the local clock, through all
that the 1 Hz interrupts do to the reference.
-/
namespace Nos3.Time
open Nos3.Msg (SysTime)
open Nos3.Base.VersionedBuffers
open Nos3.Base.Transition (Machine)

/-! ## The numbering of the updates -/

def versionOf (n : Nat) : BitVec 32 := BitVec.ofNat 32 (n + 2)

theorem bufferIndex_versionOf (n : Nat) : (bufferIndex (versionOf n)).val = (n + 2) % 4 := by
  have hmask : (CFE_TIME_REFERENCE_BUF_MASK).toNat = 2 ^ 2 - 1 := rfl
  simp only [bufferIndex, versionOf, BitVec.toNat_and, BitVec.toNat_ofNat, hmask,
    Nat.and_two_pow_sub_one_eq_mod]
  omega

theorem versionOf_succ (n : Nat) : versionOf n + 1 = versionOf (n + 1) := by
  rw [versionOf, versionOf, show n + 1 + 2 = n + 2 + 1 by omega, BitVec.ofNat_add (n + 2) 1]
  rfl

def numbering : Numbering (BitVec 32) BufferIndex where
  version := versionOf
  slot := bufferIndex
  depth := CFE_TIME_REFERENCE_BUF_DEPTH
  period := 2 ^ 32
  depth_gt := show 1 < 4 by decide
  slot_eq i j := by
    rw [← Fin.val_inj, bufferIndex_versionOf, bufferIndex_versionOf]
    show _ ↔ i % 4 = j % 4
    omega
  version_inj i j hij hj h := by
    have hnat := congrArg BitVec.toNat h
    simp only [versionOf, BitVec.toNat_ofNat] at hnat
    omega

/-- The reference after the first `n` of the updates. -/
def recordAt (words : RefState) (finished : List Update) (n : Nat) : RefState :=
  (finished.take n).foldl (fun w u => u.apply w) words

variable {words : RefState} {finished : List Update} {maxLocalClock : SysTime}

theorem recordAt_append (u : Update) {n : Nat} (hn : n ≤ finished.length) :
    recordAt words (finished ++ [u]) n = recordAt words finished n := by
  rw [recordAt, recordAt, List.take_append_of_le_length hn]

theorem recordAt_last (u : Update) :
    recordAt words (finished ++ [u]) (finished.length + 1) =
      u.apply (recordAt words finished finished.length) := by
  have hall : (finished ++ [u]).take (finished.length + 1) = finished ++ [u] :=
    List.take_of_length_le (by simp)
  rw [recordAt, hall, List.foldl_append, recordAt, List.take_length]
  rfl

/-! ## What an interrupted read knows -/

/-- Four attempts may fail, each of which three finished updates are needed for. -/
def ReaderOk (maxLocalClock : SysTime) (words : RefState) (finished : List Update)
    (draft : Option (Draft (BitVec 32) BufferIndex)) : Reader → Prop
  | .idle => True
  | .trying since retryCount _ =>
    retryCount ≤ 4 ∧ since + 3 * (4 - retryCount) ≤ finished.length
  | .loading since retryCount _ a =>
    retryCount ≤ 4 ∧ ∃ k, since + 3 * (4 - retryCount) ≤ k ∧
      Loading numbering (recordAt words finished) finished.length draft k a
  | .returned since upto none => since + 12 ≤ upto ∧ upto ≤ finished.length
  | .returned since upto (some r) =>
    upto ≤ finished.length ∧ (upto + 1 < since + 2 ^ 32 →
      ∃ k, since ≤ k ∧ k ≤ upto ∧
        r = reference maxLocalClock (recordAt words finished k) r.currentLatch)

theorem ReaderOk.later {draft draft' : Option (Draft (BitVec 32) BufferIndex)} {r : Reader}
    {finished' : List Update} (h : ReaderOk maxLocalClock words finished draft r)
    (hlength : finished.length ≤ finished'.length)
    (hbegun : begun finished.length draft ≤ begun finished'.length draft')
    (hsame : ∀ j, j ≤ finished.length →
      recordAt words finished' j = recordAt words finished j) :
    ReaderOk maxLocalClock words finished' draft' r := by
  cases r with
  | idle => exact trivial
  | trying since retryCount _ => exact ⟨h.1, h.2.trans hlength⟩
  | loading since retryCount _ a =>
    obtain ⟨hretry, k, hk, hloading⟩ := h
    exact ⟨hretry, k, hk, hloading.later hlength hbegun hsame⟩
  | returned since upto result =>
    cases result with
    | none => exact ⟨h.1, h.2.trans hlength⟩
    | some r =>
      refine ⟨h.1.trans hlength, fun hperiod => ?_⟩
      obtain ⟨k, hsince, hupto, hr⟩ := h.2 hperiod
      refine ⟨k, hsince, hupto, ?_⟩
      rw [hsame k (hupto.trans h.1)]
      exact hr

/-- The draft of an update, with what is left to do. -/
def ProgressOk (words : RefState) (finished : List Update)
    (m : Memory (BitVec 32) BufferIndex RefWord (BitVec 32)) (u : Updater) : Prop :=
  match u.progress with
  | .copying todo => Copied numbering (recordAt words finished) finished.length u.draft m todo
  | .storing todo =>
    storeAll todo (m.value (bufferIndex u.draft.version)) =
      u.update.apply (recordAt words finished finished.length)

structure TimeOk {ι : Type} (maxLocalClock : SysTime) (words : RefState) (s : TimeData ι) :
    Prop where
  consistent : Consistent numbering (recordAt words s.finished) s.finished.length
    (s.updater.map Updater.draft) s.memory
  updater : ∀ u, s.updater = some u → ProgressOk words s.finished s.memory u
  readers : ∀ i,
    ReaderOk maxLocalClock words s.finished (s.updater.map Updater.draft) (s.readers i)
  failed : s.getReferenceFail = true → 12 ≤ s.finished.length

theorem mem_copyOrder (k : RefWord) : k ∈ copyOrder := by cases k <;> decide

theorem mem_loadOrder (k : RefWord) : k ∈ loadOrder := by cases k <;> decide

section Steps
variable {ι : Type} {s s' : TimeData ι}

theorem timeOk_initial (ι : Type) (words : RefState) :
    TimeOk maxLocalClock words (TimeData.initial ι words) where
  consistent :=
    { last := rfl
      stamp := fun i hi _ => by
        have hzero : i = 0 := Nat.le_zero.mp hi
        subst hzero
        rfl
      value := fun i hi _ => by
        have hzero : i = 0 := Nat.le_zero.mp hi
        subst hzero
        rfl
      draft := fun d hd => by cases hd }
  updater u hu := by cases hu
  readers _ := trivial
  failed h := by cases h

theorem timeOk_startUpdate (h : TimeOk maxLocalClock words s) {update : Update}
    (hnext : startUpdate s update = some s') : TimeOk maxLocalClock words s' := by
  unfold startUpdate at hnext
  cases hupdater : s.updater with
  | some u =>
    rw [hupdater] at hnext
    cases hnext
  | none =>
    rw [hupdater] at hnext
    cases hnext
    have hconsistent := h.consistent
    have hreaders := h.readers
    rw [hupdater] at hconsistent hreaders
    have hlast : s.memory.last = versionOf s.finished.length := hconsistent.last
    have hversion : s.memory.last + 1 = versionOf (s.finished.length + 1) := by
      rw [hlast, versionOf_succ]
    exact
      { consistent := hconsistent.begin _ hversion
        updater := fun u hu => by
          cases hu
          exact fun k hk => absurd (mem_copyOrder k) hk
        readers := fun i => (hreaders i).later (le_refl _) (Nat.le_succ _) fun _ _ => rfl
        failed := h.failed }

theorem timeOk_write (h : TimeOk maxLocalClock words s) (hnext : write s = some s') :
    TimeOk maxLocalClock words s' := by
  unfold write at hnext
  cases hupdater : s.updater with
  | none =>
    rw [hupdater] at hnext
    cases hnext
  | some u =>
    obtain ⟨update, draft, progress⟩ := u
    have hconsistent := h.consistent
    have hreaders := h.readers
    have hprogress := h.updater _ hupdater
    rw [hupdater] at hconsistent hreaders hnext
    cases progress with
    | copying todo =>
      cases todo with
      | cons k todo =>
        cases hnext
        exact
          { consistent := hconsistent.store k _
            updater := fun u hu => by
              cases hu
              exact hprogress.copy hconsistent
            readers := hreaders
            failed := h.failed }
      | nil =>
        cases hnext
        refine { consistent := hconsistent, updater := fun u hu => ?_, readers := hreaders,
                 failed := h.failed }
        cases hu
        have hcopied : s.memory.value (bufferIndex draft.version) =
            recordAt words s.finished s.finished.length :=
          funext fun k => hprogress k List.not_mem_nil
        show storeAll (update.stores (s.memory.value (bufferIndex draft.version)))
          (s.memory.value (bufferIndex draft.version)) = _
        rw [hcopied]
        rfl
    | storing todo =>
      cases todo with
      | cons x todo =>
        cases hnext
        refine { consistent := hconsistent.store x.1 x.2, updater := fun u hu => ?_,
                 readers := hreaders, failed := h.failed }
        cases hu
        show storeAll todo ((s.memory.store _ x.1 x.2).value _) = _
        rw [Memory.store_self]
        exact hprogress
      | nil =>
        cases hnext
        have hdone : s.memory.value (bufferIndex draft.version) =
            update.apply (recordAt words s.finished s.finished.length) := hprogress
        have hpublish := hconsistent.publish
        have hlength : (s.finished ++ [update]).length = s.finished.length + 1 := by simp
        refine
          { consistent := ?_
            updater := fun u hu => by cases hu
            readers := fun i => (hreaders i).later (by simp) (by simp [begun])
              fun j hj => recordAt_append update hj
            failed := fun hfail => by
              have hmany := h.failed hfail
              show 12 ≤ (s.finished ++ [update]).length
              omega }
        show Consistent _ _ (s.finished ++ [update]).length _ _
        rw [hlength]
        refine hpublish.congr fun j hj => ?_
        by_cases hlast : j = s.finished.length + 1
        · subst hlast
          rw [Function.update_self, recordAt_last]
          exact hdone.symm
        · rw [Function.update_of_ne hlast]
          exact recordAt_append update (by omega)

variable [DecidableEq ι]

theorem timeOk_setReader (h : TimeOk maxLocalClock words s) (i : ι) {r : Reader}
    (hr : ReaderOk maxLocalClock words s.finished (s.updater.map Updater.draft) r) :
    TimeOk maxLocalClock words (s.setReader i r) where
  consistent := h.consistent
  updater := h.updater
  readers j := by
    by_cases hj : j = i
    · subst hj
      rw [TimeData.setReader]
      dsimp only
      rw [Function.update_self]
      exact hr
    · rw [TimeData.setReader]
      dsimp only
      rw [Function.update_of_ne hj]
      exact h.readers j
  failed := h.failed

theorem timeOk_read (h : TimeOk maxLocalClock words s) {i : ι}
    (hnext : read maxLocalClock s i = some s') : TimeOk maxLocalClock words s' := by
  have hreader := h.readers i
  unfold read at hnext
  cases hi : s.readers i with
  | idle =>
    rw [hi] at hnext
    cases hnext
  | trying =>
    rw [hi] at hnext
    cases hnext
  | returned =>
    rw [hi] at hnext
    cases hnext
  | loading since retryCount currentLatch a =>
    rw [hi] at hnext hreader
    obtain ⟨hretry, k, hk, hloading⟩ := hreader
    dsimp only at hnext
    cases htodo : a.todo with
    | cons w todo =>
      rw [htodo] at hnext
      cases hnext
      exact timeOk_setReader h i ⟨hretry, k, hk, hloading.load h.consistent htodo⟩
    | nil =>
      rw [htodo] at hnext
      dsimp only at hnext
      have hpublished := hloading.published
      by_cases hvalid : a.version = s.memory.stamp (bufferIndex a.version)
      · rw [if_neg (by simp [← hvalid])] at hnext
        by_cases hzero : retryCount = 0
        · rw [if_pos hzero] at hnext
          cases hnext
          have hmany : since + 12 ≤ s.finished.length := by omega
          refine { timeOk_setReader h i (r := .returned since s.finished.length none)
            ⟨hmany, le_refl _⟩ with failed := fun _ => ?_ }
          show 12 ≤ s.finished.length
          omega
        · rw [if_neg hzero] at hnext
          cases hnext
          refine timeOk_setReader h i
            ⟨le_refl _, fun hperiod => ⟨k, by omega, hpublished, ?_⟩⟩
          rw [hloading.check h.consistent htodo
            (show s.finished.length + 1 < k + 2 ^ 32 by omega) hvalid]
          rfl
      · have hround := hloading.check_fails h.consistent hvalid
        have hround : k + 4 ≤ s.finished.length + 1 := hround
        by_cases hzero : retryCount = 0
        · rw [if_neg (by simp [hzero]), if_pos hzero] at hnext
          cases hnext
          have hmany : since + 12 ≤ s.finished.length := by omega
          refine { timeOk_setReader h i (r := .returned since s.finished.length none)
            ⟨hmany, le_refl _⟩ with failed := fun _ => ?_ }
          show 12 ≤ s.finished.length
          omega
        · rw [if_pos ⟨by simp [hvalid], hzero⟩] at hnext
          cases hnext
          exact timeOk_setReader h i ⟨by omega, by omega⟩

theorem timeOk_step (h : TimeOk maxLocalClock words s) {a : Access ι}
    (hnext : (timeMachine ι maxLocalClock words).next s a = some s') :
    TimeOk maxLocalClock words s' := by
  cases a with
  | startUpdate update => exact timeOk_startUpdate h hnext
  | write => exact timeOk_write h hnext
  | call i w =>
    have hcall : TimeOk maxLocalClock words (s.setReader i (.trying s.finished.length 4 w)) :=
      timeOk_setReader h i ⟨le_refl 4, le_refl _⟩
    simp only [timeMachine] at hnext
    split at hnext
    · cases hnext
      exact hcall
    · cases hnext
      exact hcall
    · cases hnext
  | latchClock i clock =>
    have hreader := h.readers i
    simp only [timeMachine] at hnext
    split at hnext
    case h_1 since retryCount w hi =>
      cases hnext
      rw [hi] at hreader
      obtain ⟨hretry, hmany⟩ := hreader
      exact timeOk_setReader h i
        ⟨hretry, s.finished.length, hmany, Loading.begin h.consistent w mem_loadOrder⟩
    case h_2 => cases hnext
  | read i => exact timeOk_read h hnext

end Steps

theorem reachable_timeOk {ι : Type} [DecidableEq ι] {s : TimeData ι}
    (h : (timeMachine ι maxLocalClock words).Reachable s) : TimeOk maxLocalClock words s := by
  refine h.invariant ?_ fun _ _ _ hinv hnext => timeOk_step hinv hnext
  rintro s rfl
  exact timeOk_initial ι words

/-- A read that returns a reference took effect at one moment of its call, between whole
updates, unless the versions went around; a read that fails, which the flag is for, saw
twelve updates go by. -/
theorem reference_reads_linearize {ι : Type} [DecidableEq ι] {s : TimeData ι}
    (h : (timeMachine ι maxLocalClock words).Reachable s) :
    (∀ i since upto r, s.readers i = .returned since upto (some r) →
      upto + 1 < since + 2 ^ 32 →
      ∃ k, since ≤ k ∧ k ≤ upto ∧ upto ≤ s.finished.length ∧
        r = reference maxLocalClock (recordAt words s.finished k) r.currentLatch) ∧
    (∀ i since upto, s.readers i = .returned since upto none → since + 12 ≤ upto) ∧
    (s.getReferenceFail = true → 12 ≤ s.finished.length) := by
  have hok := reachable_timeOk h
  refine ⟨fun i since upto r hi hperiod => ?_, fun i since upto hi => ?_, hok.failed⟩
  · have hreader := hok.readers i
    rw [hi] at hreader
    obtain ⟨hupto, hread⟩ := hreader
    obtain ⟨k, hsince, hk, hr⟩ := hread hperiod
    exact ⟨k, hsince, hk, hupto, hr⟩
  · have hreader := hok.readers i
    rw [hi] at hreader
    exact hreader.1

/-- A read that an update of the leap seconds interrupts. -/
def interruptedRead : List (Access Unit) :=
  [.call () fun _ => 0, .latchClock () ⟨5, 0⟩, .read (), .startUpdate (.setLeapSeconds 37)] ++
    List.replicate 15 .write ++ List.replicate 12 (.read ())

def returnedAmidUpdate (s : TimeData Unit) : Bool :=
  match s.readers () with
  | .returned 0 1 (some _) => true
  | _ => false

theorem reference_reads_linearize_interrupted :
    ∃ s, (timeMachine Unit ⟨27, 0⟩ fun _ => 0).Reachable s ∧
      ∃ r, s.readers () = .returned 0 1 (some r) ∧
        ∃ k, 0 ≤ k ∧ k ≤ 1 ∧ 1 ≤ s.finished.length ∧
          r = reference ⟨27, 0⟩ (recordAt (fun _ => 0) s.finished k) r.currentLatch := by
  obtain ⟨s, hs, hread⟩ := Machine.exists_reaches (M := timeMachine Unit ⟨27, 0⟩ fun _ => 0)
    (fun _ _ => True) returnedAmidUpdate (s := TimeData.initial Unit fun _ => 0) rfl
    interruptedRead (by decide)
  refine ⟨s, hs, ?_⟩
  unfold returnedAmidUpdate at hread
  split at hread
  case h_1 r hr =>
    exact ⟨r, hr, (reference_reads_linearize hs).1 () 0 1 r hr (by decide)⟩
  case h_2 => cases hread

/-! ## The time runs on -/

/-- Each reading of the local clock is behind the one before it, by 2^29 s at most. -/
def Spaced : SysTime → List SysTime → SysTime → Prop
  | last, [], clock => (value clock - value last).toNat < 2 ^ 61
  | last, next :: later, clock =>
    (value next - value last).toNat < 2 ^ 61 ∧ Spaced next later clock

/-- The time is the local clock and this much. -/
def clockOffset (w : RefState) : BitVec 64 :=
  value w.atToneMET + value w.atToneSTCF - value w.atToneLatch

def sinceLatch (w : RefState) (clock : SysTime) : BitVec 64 := value clock - value w.atToneLatch

/-- The clock is not taken for one that has rolled over, nor will the next reading be. -/
def InTime (w : RefState) (clock : SysTime) : Prop :=
  w .clockFlyState = CFE_TIME_FlywheelState_IS_FLY ∧ (sinceLatch w clock).toNat < 2 * 2 ^ 61 ∨
  w .clockFlyState = CFE_TIME_FlywheelState_NO_FLY ∧ (sinceLatch w clock).toNat < 2 ^ 61

section Running
variable {w : RefState} {clock next : SysTime}

theorem not_behind (h : (sinceLatch w clock).toNat < 3 * 2 ^ 61) :
    timeCompare clock w.atToneLatch ≠ .aLtB := by
  rcases Nat.eq_zero_or_pos (sinceLatch w clock).toNat with hzero | hpos
  · have heq : value clock - value w.atToneLatch = 0#64 := BitVec.eq_of_toNat_eq hzero
    rw [BitVec.sub_eq_iff_eq_add, BitVec.zero_add] at heq
    rw [(timeCompare_equal_iff _ _).mpr (value_injective heq)]
    decide
  · rw [timeCompare_behind hpos (Nat.lt_of_lt_of_le h (by decide))]
    decide

theorem sinceLatch_next (h : (sinceLatch w clock).toNat < 2 * 2 ^ 61)
    (hnext : (value next - value clock).toNat < 2 ^ 61) :
    (sinceLatch w next).toNat =
      (sinceLatch w clock).toNat + (value next - value clock).toNat := by
  have hsum : sinceLatch w next = sinceLatch w clock + (value next - value clock) := by
    unfold sinceLatch
    grind
  rw [hsum, BitVec.toNat_add]
  omega

theorem InTime.near (h : InTime w clock) : (sinceLatch w clock).toNat < 2 * 2 ^ 61 := by
  rcases h with ⟨-, h⟩ | ⟨-, h⟩ <;> omega

@[simp] theorem reference_words : (reference maxLocalClock w clock).words = w := rfl

@[simp] theorem reference_currentLatch :
    (reference maxLocalClock w clock).currentLatch = clock := rfl

theorem value_timeSinceTone (maxLocalClock : SysTime)
    (h : (sinceLatch w clock).toNat < 3 * 2 ^ 61) :
    value (reference maxLocalClock w clock).timeSinceTone = sinceLatch w clock := by
  simp only [reference, if_neg (not_behind h)]
  exact value_timeSubtract ..

theorem value_currentMET (h : (sinceLatch w clock).toNat < 3 * 2 ^ 61) :
    value (reference maxLocalClock w clock).currentMET =
      sinceLatch w clock + value w.atToneMET := by
  rw [← value_timeSinceTone maxLocalClock h]
  exact value_timeAdd ..

theorem value_calculateTAI (h : (sinceLatch w clock).toNat < 3 * 2 ^ 61) :
    value (calculateTAI (reference maxLocalClock w clock)) = clockOffset w + value clock := by
  rw [calculateTAI, value_timeAdd, value_currentMET h]
  show sinceLatch w clock + value w.atToneMET + value w.atToneSTCF = _
  unfold sinceLatch clockOffset
  grind

/-! ## What the updates do to the clock's offset -/

theorem clockOffset_startFly : clockOffset (Update.startFly.apply w) = clockOffset w := rfl

theorem clockOffset_latchFly (h : (sinceLatch w clock).toNat < 3 * 2 ^ 61) :
    clockOffset ((Update.latchFly (reference maxLocalClock w clock).currentMET clock).apply w) =
      clockOffset w := by
  show value (reference maxLocalClock w clock).currentMET + value w.atToneSTCF - value clock = _
  rw [value_currentMET h]
  unfold sinceLatch clockOffset
  grind

theorem clockOffset_setTime (newTime : SysTime) (h : (sinceLatch w clock).toNat < 3 * 2 ^ 61) :
    clockOffset ((Update.setTime newTime (reference maxLocalClock w clock).currentMET).apply w) =
      value newTime - value clock := by
  show value w.atToneMET + value (timeSubtract newTime _) - value w.atToneLatch = _
  rw [value_timeSubtract, value_currentMET h]
  unfold sinceLatch
  grind

/-- What one interrupt adds to the time. -/
def hertzAdjust (adjust : SysTime) (direction : BitVec 32) : BitVec 64 :=
  if direction = CFE_TIME_AdjustDirection_ADD then value adjust else -value adjust

theorem clockOffset_oneHzAdjust (adjust : SysTime) (direction : BitVec 32) :
    clockOffset ((Update.oneHzAdjust adjust direction).apply w) =
      clockOffset w + hertzAdjust adjust direction := by
  show value w.atToneMET + value (adjusted direction w.atToneSTCF adjust) -
    value w.atToneLatch = _
  unfold adjusted hertzAdjust clockOffset
  split
  · rw [value_timeAdd]
    grind
  · rw [value_timeSubtract]
    grind

theorem seconds_le_value {n : Nat} (t : SysTime) (hn : n < 2 ^ 32) :
    BitVec.ofNat 32 n ≤ t.seconds ↔ n * 2 ^ 32 ≤ (value t).toNat := by
  have hsub := t.subseconds.isLt
  rw [BitVec.le_def, BitVec.toNat_ofNat, toNat_value, Nat.mod_eq_of_lt hn]
  omega

/-- The adjustment is skipped where it is zero. -/
theorem oneHzAdjust_cases (adjust : SysTime) (direction : BitVec 32) (w : RefState) :
    ∃ w', (if adjust.seconds ≠ 0 ∨ adjust.subseconds ≠ 0 then
        (Update.oneHzAdjust adjust direction).apply w else w) = w' ∧
      w'.atToneLatch = w.atToneLatch ∧ w' .clockFlyState = w .clockFlyState ∧
      clockOffset w' = clockOffset w + hertzAdjust adjust direction := by
  by_cases hadjust : adjust.seconds ≠ 0 ∨ adjust.subseconds ≠ 0
  · exact ⟨_, if_pos hadjust, rfl, rfl, clockOffset_oneHzAdjust adjust direction⟩
  · refine ⟨w, if_neg hadjust, rfl, rfl, ?_⟩
    obtain ⟨seconds, subseconds⟩ := adjust
    rw [not_or, not_not, not_not] at hadjust
    obtain ⟨rfl, rfl⟩ := hadjust
    have hzero : value ⟨0, 0⟩ = 0 := by decide
    have hnone : hertzAdjust ⟨0, 0⟩ direction = 0 := by
      unfold hertzAdjust
      split <;> rw [hzero]
      rfl
    rw [hnone]
    exact (BitVec.add_zero _).symm

theorem local1Hz_inTime (maxLocalClock adjust : SysTime) (direction : BitVec 32)
    (h : InTime w clock)
    (hnext : (value next - value clock).toNat < 2 ^ 61) :
    InTime (local1HzStateMachine maxLocalClock adjust direction w next) next ∧
    clockOffset (local1HzStateMachine maxLocalClock adjust direction w next) =
      clockOffset w + hertzAdjust adjust direction := by
  obtain ⟨w', hw', hlatch, hfly, hoffset⟩ := oneHzAdjust_cases adjust direction w
  have hsum := sinceLatch_next h.near hnext
  have hsince : sinceLatch w' next = sinceLatch w next := by
    rw [sinceLatch, hlatch, sinceLatch]
  have hnear : (sinceLatch w' next).toNat < 3 * 2 ^ 61 := by
    rw [hsince, hsum]
    have hbefore := h.near
    omega
  have hstart := seconds_le_value (n := 2) (reference maxLocalClock w' next).timeSinceTone
    (by decide)
  have hrelatch := seconds_le_value (n := 8) (reference maxLocalClock w' next).timeSinceTone
    (by decide)
  rw [value_timeSinceTone maxLocalClock hnear] at hstart hrelatch
  unfold local1HzStateMachine
  rw [hw', ← hoffset]
  dsimp only
  generalize htone : reference maxLocalClock w' next = r at hstart hrelatch
  have hwords : r.words = w' := by rw [← htone, reference_words]
  have hlatched : r.currentLatch = next := by rw [← htone, reference_currentLatch]
  rw [hwords, hlatched]
  rcases h with ⟨hflying, hbefore⟩ | ⟨hfollowing, hbefore⟩
  · have hstate : w' .clockFlyState = CFE_TIME_FlywheelState_IS_FLY := hfly.trans hflying
    have hother : w' .clockFlyState ≠ CFE_TIME_FlywheelState_NO_FLY := by
      rw [hstate]
      decide
    have hkept : ¬(w' .clockFlyState = CFE_TIME_FlywheelState_NO_FLY ∧
        CFE_PLATFORM_TIME_CFG_START_FLY ≤ r.timeSinceTone.seconds) :=
      fun hboth => hother hboth.1
    rw [if_neg hkept]
    split
    case isTrue =>
      rw [← htone]
      refine ⟨.inl ⟨hstate, ?_⟩, clockOffset_latchFly hnear⟩
      show (value next - value next).toNat < _
      rw [BitVec.sub_self]
      decide
    case isFalse hlong =>
      refine ⟨.inl ⟨hstate, ?_⟩, rfl⟩
      have hshort : ¬(8 * 2 ^ 32 ≤ (sinceLatch w' next).toNat) :=
        fun hle => hlong ⟨hstate, hrelatch.mpr hle⟩
      omega
  · have hstate : w' .clockFlyState = CFE_TIME_FlywheelState_NO_FLY := hfly.trans hfollowing
    have hother : w' .clockFlyState ≠ CFE_TIME_FlywheelState_IS_FLY := by
      rw [hstate]
      decide
    rw [if_neg (fun hboth => hother hboth.1)]
    split
    case isTrue =>
      refine ⟨.inl ⟨rfl, ?_⟩, clockOffset_startFly⟩
      show (sinceLatch w' next).toNat < _
      rw [hsince, hsum]
      omega
    case isFalse hlong =>
      refine ⟨.inr ⟨hstate, ?_⟩, rfl⟩
      have hshort : ¬(2 * 2 ^ 32 ≤ (sinceLatch w' next).toNat) :=
        fun hle => hlong ⟨hstate, hstart.mpr hle⟩
      omega

theorem local1Hz_run {adjust : SysTime} {direction : BitVec 32} {clocks : List SysTime}
    (h : InTime w clock) (hclocks : Spaced clock clocks next) :
    value (calculateTAI (reference maxLocalClock
        (clocks.foldl (local1HzStateMachine maxLocalClock adjust direction) w) next)) =
      clockOffset w + value next +
        BitVec.ofNat 64 clocks.length * hertzAdjust adjust direction := by
  induction clocks generalizing w clock with
  | nil =>
    have hsum := sinceLatch_next h.near hclocks
    have hbefore := h.near
    have hlast : (value next - value clock).toNat < 2 ^ 61 := hclocks
    rw [List.foldl_nil, value_calculateTAI (by omega)]
    simp
  | cons c clocks ih =>
    obtain ⟨hc, hlater⟩ := hclocks
    obtain ⟨hin, hoffset⟩ := local1Hz_inTime maxLocalClock adjust direction h hc
    rw [List.foldl_cons, ih hin hlater, hoffset, List.length_cons, BitVec.ofNat_add]
    have hone : BitVec.ofNat 64 1 = 1 := rfl
    rw [hone]
    grind

/-- No update leaves a flywheel state that is neither of the two. -/
theorem flyState_apply (u : Update)
    (h : w .clockFlyState = CFE_TIME_FlywheelState_IS_FLY ∨
      w .clockFlyState = CFE_TIME_FlywheelState_NO_FLY) :
    u.apply w .clockFlyState = CFE_TIME_FlywheelState_IS_FLY ∨
      u.apply w .clockFlyState = CFE_TIME_FlywheelState_NO_FLY := by
  cases u with
  | setState newState => cases newState <;> first | exact h | exact .inl rfl
  | setTime => exact h
  | setMET => exact h
  | setSTCF => exact h
  | setLeapSeconds => exact h
  | setAdjust => exact h
  | oneHzAdjust => exact h
  | startFly => exact .inl rfl
  | latchFly => exact h
  | toneUpdate latch virtualMET currentMETSeconds =>
    by_cases hflying : w .clockFlyState = CFE_TIME_FlywheelState_IS_FLY
    · refine .inr ?_
      unfold Update.apply Update.stores
      simp only [hflying, if_true]
      rfl
    · refine .inr ?_
      unfold Update.apply Update.stores
      simp only [hflying, if_false, List.append_nil]
      exact h.resolve_left hflying

theorem flyState_foldl (updates : List Update)
    (h : w .clockFlyState = CFE_TIME_FlywheelState_IS_FLY ∨
      w .clockFlyState = CFE_TIME_FlywheelState_NO_FLY) :
    updates.foldl (fun w u => u.apply w) w .clockFlyState = CFE_TIME_FlywheelState_IS_FLY ∨
      updates.foldl (fun w u => u.apply w) w .clockFlyState = CFE_TIME_FlywheelState_NO_FLY := by
  induction updates generalizing w with
  | nil => exact h
  | cons u updates ih => exact ih (flyState_apply u h)

end Running

def flyingWords : RefState := fun k => if k = .clockFlyState then 1 else 0

end Nos3.Time
