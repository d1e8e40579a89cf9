import Nos3.Osal.Source.IdMap

/-!
# The lock of an object type

Every call of the id map takes and gives up the lock of its object type in
balance. A search that ends at a record it cannot convert, and an allocation
the event handler refuses, are the two that do not: the search keeps the lock,
the allocation takes it twice.
-/
namespace Nos3.Osal

/-- Whether the lock is held after the events, or `none` where it is taken while held or given
up while free. -/
def heldAfter : Bool → List LockEvent → Option Bool
  | held, [] => some held
  | false, .lock :: rest => heldAfter true rest
  | true, .unlock :: rest => heldAfter false rest
  | true, .lock :: _ | false, .unlock :: _ => none

theorem heldAfter_append : ∀ (held : Bool) (before after : List LockEvent),
    heldAfter held (before ++ after) = (heldAfter held before).bind fun held => heldAfter held after
  | _, [], _ => rfl
  | false, .lock :: rest, after => heldAfter_append true rest after
  | true, .unlock :: rest, after => heldAfter_append false rest after
  | true, .lock :: _, _ | false, .unlock :: _, _ => rfl

/-- A call that began with the lock held or not has kept the order so far and now holds it
or not. -/
def World.Holds (began held : Bool) (w : World) : Prop := heldAfter began w.trace = some held

section

variable {limits : ObjectLimits} {state : GlobalState} {others : Others} {began : Bool}

theorem World.Holds.push {held after : Bool} {w : World} {events : List LockEvent}
    (h : w.Holds began held) (hevents : heldAfter held events = some after) (table : Table)
    (turns : Nat) : World.Holds began after ⟨table, turns, w.trace ++ events⟩ := by
  unfold World.Holds at h ⊢
  rw [heldAfter_append, h]
  exact hevents

theorem World.Holds.lock {token : Token} {w : World} (h : w.Holds began false)
    (ht : token.Locks) : (lockGlobal others token w).Holds began true := by
  rw [lockGlobal, if_pos ht]
  exact h.push rfl _ _

theorem World.Holds.unlock {token : Token} {w : World} (h : w.Holds began true)
    (ht : token.Locks) : (unlockGlobal token w).Holds began false := by
  rw [unlockGlobal, if_pos ht]
  exact h.push rfl _ _

theorem World.Holds.wait {w : World} (h : w.Holds began true) :
    (waitForStateChange others w).Holds began true :=
  h.push rfl _ _

theorem World.Holds.setRecord {held : Bool} {w : World} (h : w.Holds began held) (i : Nat)
    (obj : CommonRecord) : (w.setRecord i obj).Holds began held := h

/-! ## Conversion -/

theorem World.Holds.convertLoop {token : Token} :
    ∀ (waits : Nat) (expectedId : ObjectId) {w : World}, w.Holds began true →
      (convertLoop others token waits expectedId w).2.2.Holds began true
  | waits, expectedId, w, h => by
    unfold Osal.convertLoop
    dsimp only
    split
    · exact h
    · exact h
    · exact h
    · exact World.Holds.convertLoop _ _ (World.Holds.wait h)

/-- Without a lock mode, one look decides and nothing is locked. -/
theorem convertLoop_none {token : Token} (hmode : token.lockMode = .none) (waits : Nat)
    (expectedId : ObjectId) (w : World) :
    (convertLoop others token waits expectedId w).2.2.trace = w.trace := by
  have hlook : look token.lockMode expectedId (w.table.records token.slot) ≠ .contended := by
    simp only [look, hmode]
    split <;> simp
  unfold convertLoop
  dsimp only
  split
  · rfl
  · rfl
  · contradiction
  · contradiction

/-- A mode that keeps the lock of the table for the caller. -/
def LockMode.Keeps (lockMode : LockMode) : Prop := lockMode = .global ∨ lockMode = .reserved

instance (lockMode : LockMode) : Decidable lockMode.Keeps :=
  inferInstanceAs (Decidable (_ ∨ _))

theorem settle_holds {token : Token} {expectedId : ObjectId} {w : World} {code : Int}
    (h : w.Holds began true) (ht : token.Locks) :
    (settle token code expectedId w).Holds began
      (decide (code = OS_SUCCESS → token.lockMode.Keeps)) := by
  unfold settle
  rw [if_neg ht.2]
  split
  · rename_i hok
    have hmode := ht.2
    split
    · rename_i hgives
      have hkeeps : ¬ token.lockMode.Keeps := by
        rintro (hk | hk) <;> simp [hk] at hgives
      simpa [hok, hkeeps] using World.Holds.unlock (h.setRecord _ _) ht
    · rename_i hgives
      have hkeeps : token.lockMode.Keeps := by
        unfold LockMode.Keeps
        cases hm : token.lockMode <;> simp_all
      simpa [hkeeps] using h.setRecord _ _
  · rename_i hfail
    rw [decide_eq_true fun hok => absurd hok hfail]
    split
    · exact h.setRecord _ _
    · exact h

variable (others) in
theorem convertToken_holds {token : Token} {w : World} (h : w.Holds began true)
    (ht : token.Locks) :
    (convertToken others token w).2.Holds began
      (decide ((convertToken others token w).1 = OS_SUCCESS → token.lockMode.Keeps)) := by
  unfold convertToken
  split
  · exact settle_holds (World.Holds.convertLoop _ _ h) ht
  · have hfail : OS_ERR_INCORRECT_OBJ_STATE ≠ OS_SUCCESS := by decide
    simpa [hfail] using h

variable (others) in
theorem convertToken_none {token : Token} (hmode : token.lockMode = .none) (w : World) :
    (convertToken others token w).2.trace = w.trace := by
  unfold convertToken
  split
  · simp only [settle, hmode, if_true]
    exact convertLoop_none hmode _ _ _
  · rfl

/-- The records a conversion looks at: the first as it is, the others after a wait each. -/
def seen (others : Others) (w : World) (i : Nat) : Nat → CommonRecord
  | 0 => w.table.records i
  | k + 1 => (others (w.turns + k)).records i

theorem seen_wait (w : World) (i j k : Nat) (obj : CommonRecord) :
    seen others (waitForStateChange others (w.setRecord j obj)) i k =
      seen others w i (k + 1) := by
  cases k with
  | zero => rfl
  | succ k =>
    simp only [seen, waitForStateChange, World.setRecord]
    rw [Nat.add_right_comm, Nat.add_assoc]

/-- One of the looks finds the object unused, and all until then find it marked. -/
def Vacated (others : Others) (w : World) (i waits : Nat) : Prop :=
  ∃ k ≤ waits, (seen others w i k).refcount = 0 ∧
    ∀ j, 0 < j → j ≤ k → (seen others w i j).activeId = OS_OBJECT_ID_RESERVED

/-- The pass of the loop for an exclusive mode, where the record is the expected one. -/
theorem convertLoop_matching {token : Token} (hmode : token.lockMode = .exclusive) (waits : Nat)
    {expectedId : ObjectId} {w : World}
    (hid : (w.table.records token.slot).activeId = expectedId) :
    (convertLoop others token waits expectedId w).1 = OS_SUCCESS ↔
      (w.table.records token.slot).refcount = 0 ∨ ∃ left, waits = left + 1 ∧
        (convertLoop others token left OS_OBJECT_ID_RESERVED (waitForStateChange others
          (w.setRecord token.slot { w.table.records token.slot with
            activeId := OS_OBJECT_ID_RESERVED }))).1 = OS_SUCCESS := by
  have hrecord : lookRecord token.lockMode expectedId (w.table.records token.slot) =
      { w.table.records token.slot with activeId := OS_OBJECT_ID_RESERVED } :=
    if_pos ⟨hid, hmode⟩
  have hexpected : lookExpected token.lockMode expectedId (w.table.records token.slot) =
      OS_OBJECT_ID_RESERVED := if_pos ⟨hid, hmode⟩
  conv_lhs => unfold convertLoop
  dsimp only
  rw [hrecord, hexpected]
  by_cases hused : (w.table.records token.slot).refcount = 0
  · have hlook : look token.lockMode expectedId (w.table.records token.slot) = .granted := by
      simp [look, hid, hused]
    simp [hlook, hused]
  · have hlook : look token.lockMode expectedId (w.table.records token.slot) = .contended := by
      simp [look, hid, hused, hmode]
    cases waits with
    | zero => simp [hlook, hused, OS_ERR_OBJECT_IN_USE, OS_SUCCESS]
    | succ left => simp [hlook, hused]

/-- The loop goes on for an object marked by the call itself. -/
theorem convertLoop_marked {token : Token} (hmode : token.lockMode = .exclusive) :
    ∀ (waits : Nat) (w : World),
      (convertLoop others token waits OS_OBJECT_ID_RESERVED w).1 = OS_SUCCESS ↔
        ∃ k ≤ waits, (seen others w token.slot k).refcount = 0 ∧
          ∀ j ≤ k, (seen others w token.slot j).activeId = OS_OBJECT_ID_RESERVED
  | waits, w => by
    by_cases hid : (w.table.records token.slot).activeId = OS_OBJECT_ID_RESERVED
    · rw [convertLoop_matching hmode waits hid]
      constructor
      · rintro (hfree | ⟨left, rfl, hlater⟩)
        · exact ⟨0, Nat.zero_le _, hfree, fun j hj => by rw [Nat.le_zero.mp hj]; exact hid⟩
        · obtain ⟨k, hk, hfree, hmarked⟩ := (convertLoop_marked hmode left _).mp hlater
          rw [seen_wait] at hfree
          refine ⟨k + 1, Nat.succ_le_succ hk, hfree, fun j hj => ?_⟩
          cases j with
          | zero => exact hid
          | succ j => simpa only [seen_wait] using hmarked j (Nat.le_of_succ_le_succ hj)
      · rintro ⟨k, hk, hfree, hmarked⟩
        cases k with
        | zero => exact .inl hfree
        | succ k =>
          cases waits with
          | zero => exact absurd hk (by omega)
          | succ left =>
            refine .inr ⟨left, rfl, (convertLoop_marked hmode left _).mpr
              ⟨k, Nat.le_of_succ_le_succ hk, ?_, fun j hj => ?_⟩⟩
            · rw [seen_wait]
              exact hfree
            · rw [seen_wait]
              exact hmarked (j + 1) (Nat.succ_le_succ hj)
    · have hlook : look token.lockMode OS_OBJECT_ID_RESERVED (w.table.records token.slot) =
          .mismatch := by
        simp [look, hid]
      constructor
      · intro hok
        unfold convertLoop at hok
        simp [hlook, OS_ERR_INVALID_ID, OS_SUCCESS] at hok
      · rintro ⟨k, _, _, hmarked⟩
        exact absurd (hmarked 0 (Nat.zero_le _)) hid

theorem convertLoop_exclusive {token : Token} (hmode : token.lockMode = .exclusive) (waits : Nat)
    {expectedId : ObjectId} {w : World}
    (hid : (w.table.records token.slot).activeId = expectedId) :
    (convertLoop others token waits expectedId w).1 = OS_SUCCESS ↔
      Vacated others w token.slot waits := by
  rw [convertLoop_matching hmode waits hid]
  constructor
  · rintro (hfree | ⟨left, rfl, hlater⟩)
    · exact ⟨0, Nat.zero_le _, hfree, fun j hj hle => absurd hle (by omega)⟩
    · obtain ⟨k, hk, hfree, hmarked⟩ := (convertLoop_marked hmode left _).mp hlater
      rw [seen_wait] at hfree
      refine ⟨k + 1, Nat.succ_le_succ hk, hfree, fun j hj hle => ?_⟩
      obtain ⟨j, rfl⟩ := Nat.exists_eq_succ_of_ne_zero hj.ne'
      simpa only [seen_wait] using hmarked j (Nat.le_of_succ_le_succ hle)
  · rintro ⟨k, hk, hfree, hmarked⟩
    cases k with
    | zero => exact .inl hfree
    | succ k =>
      cases waits with
      | zero => exact absurd hk (by omega)
      | succ left =>
        refine .inr ⟨left, rfl, (convertLoop_marked hmode left _).mpr
          ⟨k, Nat.le_of_succ_le_succ hk, ?_, fun j hj => ?_⟩⟩
        · rw [seen_wait]
          exact hfree
        · rw [seen_wait]
          exact hmarked (j + 1) (Nat.succ_pos j) (Nat.succ_le_succ hj)

end

end Nos3.Osal
