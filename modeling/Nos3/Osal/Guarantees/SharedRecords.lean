import Mathlib.Data.Fintype.Card
import Nos3.Osal.Source.SharingRules

/-!
# The records tasks share

What holds of the records and the calls whatever the tasks do in turn: a record
is marked by one call at a time and then has the reserved id, an exclusive token
is the only one on its record, `refcount` counts the tokens, and every other id
belongs where it stands. A step touches one call and one record, so it is enough
to look at these two.
-/
namespace Nos3.Osal
open Base.Transition
open Function (update)

variable {platform : Platform} {idtype : Nat}

/-! ## What a call does to a record -/

def CallState.Holds (i : Nat) : CallState → Prop
  | .holding token _ => token.slot = i
  | _ => False

def CallState.Excludes (i : Nat) : CallState → Prop
  | .holding token _ => token.lockMode = .exclusive ∧ token.slot = i
  | _ => False

/-- The call has marked the record with the reserved id. -/
def CallState.Marks (i : Nat) : CallState → Prop
  | .holding token _ => token.lockMode = .exclusive ∧ token.slot = i
  | .waiting token expectedId _ _ =>
    token.lockMode = .exclusive ∧ expectedId = OS_OBJECT_ID_RESERVED ∧ token.slot = i
  | _ => False

instance (i : Nat) (call : CallState) : Decidable (call.Holds i) :=
  match call with
  | .holding token _ => inferInstanceAs (Decidable (token.slot = i))
  | .idle | .waiting .. | .stuck => inferInstanceAs (Decidable False)

instance (i : Nat) (call : CallState) : Decidable (call.Excludes i) :=
  match call with
  | .holding token _ =>
    inferInstanceAs (Decidable (token.lockMode = .exclusive ∧ token.slot = i))
  | .idle | .waiting .. | .stuck => inferInstanceAs (Decidable False)

/-- Every record the call has to do with is the one at `i`. -/
def CallState.Within (i : Nat) : CallState → Prop
  | .holding token _ | .waiting token .. => token.slot = i
  | _ => True

theorem CallState.Excludes.marks {i : Nat} {call : CallState} (h : call.Excludes i) :
    call.Marks i := by
  cases call <;> first | exact h | exact h.elim

theorem CallState.Excludes.holds {i : Nat} {call : CallState} (h : call.Excludes i) :
    call.Holds i := by
  cases call <;> first | exact h.2 | exact h.elim

theorem CallState.Within.of_holds {i j : Nat} {call : CallState} (hw : call.Within i)
    (h : call.Holds j) : j = i := by
  cases call <;> first | exact h.symm.trans hw | exact h.elim

theorem CallState.Within.of_marks {i j : Nat} {call : CallState} (hw : call.Within i)
    (h : call.Marks j) : j = i := by
  cases call with
  | holding token purpose => exact h.2.symm.trans hw
  | waiting token expectedId waits purpose => exact h.2.2.symm.trans hw
  | idle | stuck => exact h.elim

/-! ## The invariant -/

structure Token.Placed (platform : Platform) (idtype : Nat) (token : Token) : Prop where
  objType : token.objType = idtype
  mode : token.lockMode.Shares idtype
  slot_lt : token.slot < platform.maxForObjectType idtype
  fits : platform.Fits idtype token.slot token.objId
  valid : objectIdIsValid token.objId

/-- Creations are exclusive. -/
def Purpose.Suits (token : Token) : Purpose → Prop
  | .lookup _ => True
  | .creation .. => token.lockMode = .exclusive

/-- What a call can rely on while the others go on. -/
def CallState.Sound (idtype : Nat) (s : Shared platform) (c : Caller platform) :
    CallState → Prop
  | .waiting token expectedId _ purpose =>
    token.Placed platform idtype ∧ purpose.Suits token ∧
      (expectedId = token.objId ∨
        token.lockMode = .exclusive ∧ expectedId = OS_OBJECT_ID_RESERVED ∧
          (s.table.records token.slot).activeId = OS_OBJECT_ID_RESERVED)
  | .holding token purpose =>
    token.Placed platform idtype ∧ purpose.Suits token ∧
      (s.table.records token.slot).activeId ≠ OS_OBJECT_ID_UNDEFINED ∧
      (token.lockMode = .exclusive →
        (s.table.records token.slot).activeId = OS_OBJECT_ID_RESERVED) ∧
      (token.lockMode = .global →
        (s.table.records token.slot).activeId = token.objId ∧ s.lock = some c)
  | _ => True

def Shared.holders (s : Shared platform) (i : Nat) : Finset (Caller platform) :=
  Finset.univ.filter fun c => (s.calls c).Holds i

/-- The tokens on a record that are not those of `c`. -/
def Shared.others (s : Shared platform) (c : Caller platform) (i : Nat) :
    Finset (Caller platform) :=
  (s.holders i).erase c

structure Inv (idtype : Nat) (s : Shared platform) : Prop where
  sound : ∀ c, (s.calls c).Sound idtype s c
  sole_mark : ∀ c d i, (s.calls c).Marks i → (s.calls d).Marks i → c = d
  sole_holder : ∀ c d i, (s.calls c).Excludes i → (s.calls d).Holds i → c = d
  counted : ∀ i, (s.table.records i).refcount = (s.holders i).card
  ids : ∀ i < platform.maxForObjectType idtype,
    (s.table.records i).activeId = OS_OBJECT_ID_UNDEFINED ∨
      (s.table.records i).activeId = OS_OBJECT_ID_RESERVED ∨
      platform.Fits idtype i (s.table.records i).activeId

theorem Shared.mem_holders {s : Shared platform} {i : Nat} {c : Caller platform} :
    c ∈ s.holders i ↔ (s.calls c).Holds i := by
  simp [Shared.holders]

theorem Shared.card_holders (s : Shared platform) (c : Caller platform) (i : Nat) :
    (s.holders i).card = (s.others c i).card + if (s.calls c).Holds i then 1 else 0 := by
  by_cases h : (s.calls c).Holds i
  · rw [Shared.others, if_pos h, Finset.card_erase_add_one (Shared.mem_holders.mpr h)]
  · rw [Shared.others, if_neg h, Finset.erase_eq_of_notMem (mt Shared.mem_holders.mp h), Nat.add_zero]

/-- There are never more tokens than `refcount` can count. -/
theorem Shared.others_lt (s : Shared platform) (c : Caller platform) (i : Nat) :
    (s.others c i).card + 1 < 2 ^ 16 := by
  have hlt : (s.others c i).card < Fintype.card (Caller platform) :=
    Finset.card_lt_univ_of_notMem (Finset.notMem_erase c _)
  rw [Fintype.card_fin] at hlt
  have := platform.countable
  omega

theorem Shared.others_congr {s s' : Shared platform} {c : Caller platform}
    (h : ∀ d, d ≠ c → s'.calls d = s.calls d) (i : Nat) : s'.others c i = s.others c i := by
  ext d
  simp only [Shared.others, Finset.mem_erase, Shared.mem_holders]
  exact and_congr_right fun hd => by rw [h d hd]

/-! ## One call, one record -/

/-- A step that changes the call of `c` and the record at `i`, to which the call belongs, and
leaves the others what they rely on. -/
structure Local (c : Caller platform) (i : Nat) (s s' : Shared platform) : Prop where
  calls : ∀ d, d ≠ c → s'.calls d = s.calls d
  records : ∀ j, j ≠ i → s'.table.records j = s.table.records j
  before : (s.calls c).Within i
  after : (s'.calls c).Within i
  locked : ∀ d, d ≠ c → s.lock = some d → s'.lock = some d ∧
    (s'.table.records i).activeId = (s.table.records i).activeId
  defined : ∀ d, d ≠ c → (s.calls d).Holds i →
    (s'.table.records i).activeId ≠ OS_OBJECT_ID_UNDEFINED
  reserved : ∀ d, d ≠ c → (s.calls d).Marks i →
    (s'.table.records i).activeId = OS_OBJECT_ID_RESERVED

/-- What the step makes of the call and the record agrees with the other calls. -/
structure Agrees (idtype : Nat) (c : Caller platform) (i : Nat) (s s' : Shared platform) :
    Prop where
  sound : (s'.calls c).Sound idtype s' c
  marks : (s'.calls c).Marks i → ∀ d, d ≠ c → ¬ (s.calls d).Marks i
  excludes : (s'.calls c).Excludes i → ∀ d, d ≠ c → ¬ (s.calls d).Holds i
  holds : (s'.calls c).Holds i → ∀ d, d ≠ c → ¬ (s.calls d).Excludes i
  refcount : (s'.table.records i).refcount =
    (s.others c i).card + if (s'.calls c).Holds i then 1 else 0
  ids : i < platform.maxForObjectType idtype →
    (s'.table.records i).activeId = OS_OBJECT_ID_UNDEFINED ∨
      (s'.table.records i).activeId = OS_OBJECT_ID_RESERVED ∨
      platform.Fits idtype i (s'.table.records i).activeId

/-- The calls of the others are as sound after the step as before. -/
theorem Local.sound {c d : Caller platform} {i : Nat} {s s' : Shared platform}
    (hl : Local c i s s') (hd : d ≠ c) (h : (s.calls d).Sound idtype s d) :
    (s'.calls d).Sound idtype s' d := by
  rw [hl.calls d hd]
  cases hcall : s.calls d with
  | idle | stuck => trivial
  | waiting token expectedId waits purpose =>
    rw [hcall] at h
    obtain ⟨hplaced, hsuits, hexpected⟩ := h
    refine ⟨hplaced, hsuits, hexpected.imp_right fun ⟨hmode, hreserved, hid⟩ => ?_⟩
    refine ⟨hmode, hreserved, ?_⟩
    by_cases hslot : token.slot = i
    · rw [hslot]
      exact hl.reserved d hd (by rw [hcall]; exact ⟨hmode, hreserved, hslot⟩)
    · rw [hl.records _ hslot, hid]
  | holding token purpose =>
    rw [hcall] at h
    obtain ⟨hplaced, hsuits, hdefined, hexclusive, hglobal⟩ := h
    refine ⟨hplaced, hsuits, ?_, fun hmode => ?_, fun hmode => ?_⟩
    · by_cases hslot : token.slot = i
      · rw [hslot]
        exact hl.defined d hd (by rw [hcall]; exact hslot)
      · rwa [hl.records _ hslot]
    · by_cases hslot : token.slot = i
      · rw [hslot]
        exact hl.reserved d hd (by rw [hcall]; exact ⟨hmode, hslot⟩)
      · rw [hl.records _ hslot, hexclusive hmode]
    · obtain ⟨hid, hlock⟩ := hglobal hmode
      obtain ⟨hlock', hsame⟩ := hl.locked d hd hlock
      refine ⟨?_, hlock'⟩
      by_cases hslot : token.slot = i
      · rw [hslot, hsame, ← hslot, hid]
      · rw [hl.records _ hslot, hid]

theorem Inv.step {c : Caller platform} {i : Nat} {s s' : Shared platform}
    (hinv : Inv idtype s) (hl : Local c i s s') (ha : Agrees idtype c i s s') : Inv idtype s' where
  sound d := by
    by_cases hd : d = c
    · subst hd
      exact ha.sound
    · exact hl.sound hd (hinv.sound d)
  sole_mark d e j hdm hem := by
    by_cases hd : d = c
    · by_cases he : e = c
      · rw [hd, he]
      · subst hd
        obtain rfl := hl.after.of_marks hdm
        exact absurd (hl.calls e he ▸ hem) (ha.marks hdm e he)
    · rw [hl.calls d hd] at hdm
      by_cases he : e = c
      · subst he
        obtain rfl := hl.after.of_marks hem
        exact absurd hdm (ha.marks hem d hd)
      · exact hinv.sole_mark d e j hdm (hl.calls e he ▸ hem)
  sole_holder d e j hde heh := by
    by_cases hd : d = c
    · by_cases he : e = c
      · rw [hd, he]
      · subst hd
        obtain rfl := hl.after.of_marks hde.marks
        exact absurd (hl.calls e he ▸ heh) (ha.excludes hde e he)
    · rw [hl.calls d hd] at hde
      by_cases he : e = c
      · subst he
        obtain rfl := hl.after.of_holds heh
        exact absurd hde (ha.holds heh d hd)
      · exact hinv.sole_holder d e j hde (hl.calls e he ▸ heh)
  counted j := by
    rw [s'.card_holders c j, Shared.others_congr hl.calls]
    by_cases hj : j = i
    · subst hj
      exact ha.refcount
    · have hbefore : ¬ (s.calls c).Holds j := fun h => hj (hl.before.of_holds h)
      have hafter : ¬ (s'.calls c).Holds j := fun h => hj (hl.after.of_holds h)
      rw [hl.records j hj, hinv.counted j, s.card_holders c j, if_neg hbefore, if_neg hafter]
  ids j hj := by
    by_cases hji : j = i
    · subst hji
      exact ha.ids hj
    · rw [hl.records j hji]
      exact hinv.ids j hj

theorem Inv.refcount {s : Shared platform} (hinv : Inv idtype s) (c : Caller platform) (i : Nat) :
    (s.table.records i).refcount =
      (s.others c i).card + if (s.calls c).Holds i then 1 else 0 := by
  rw [hinv.counted, s.card_holders c]

/-! ## A step with the lock in hand -/

section

variable {s : Shared platform} {c : Caller platform} {i : Nat} {obj : CommonRecord}
  {call : CallState} {lock : Option (Caller platform)}

theorem Local.leave (hbefore : (s.calls c).Within i) (hafter : call.Within i)
    (hlock : ∀ d, d ≠ c → s.lock ≠ some d)
    (hdefined : ∀ d, d ≠ c → (s.calls d).Holds i → obj.activeId ≠ OS_OBJECT_ID_UNDEFINED)
    (hreserved : ∀ d, d ≠ c → (s.calls d).Marks i → obj.activeId = OS_OBJECT_ID_RESERVED) :
    Local c i s ((s.setRecord i obj).leave c call lock) where
  calls d hd := Shared.calls_leave_of_ne _ hd ..
  records j hj := Table.records_setRecord_of_ne _ hj _
  before := hbefore
  after := by rwa [Shared.calls_leave_self]
  locked d hd h := absurd h (hlock d hd)
  defined d hd h := by simpa using hdefined d hd h
  reserved d hd h := by simpa using hreserved d hd h

/-- A call that ends here leaves nothing to agree on but the record. -/
theorem Agrees.ended (hcall : call = .idle ∨ call = .stuck)
    (hrefcount : obj.refcount = (s.others c i).card)
    (hid : i < platform.maxForObjectType idtype → obj.activeId = OS_OBJECT_ID_UNDEFINED ∨
      obj.activeId = OS_OBJECT_ID_RESERVED ∨ platform.Fits idtype i obj.activeId) :
    Agrees idtype c i s ((s.setRecord i obj).leave c call lock) := by
  have hends : call.Sound idtype ((s.setRecord i obj).leave c call lock) c ∧
      ¬ call.Marks i ∧ ¬ call.Excludes i ∧ ¬ call.Holds i := by
    obtain rfl | rfl := hcall <;> exact ⟨trivial, id, id, id⟩
  obtain ⟨hsound, hmarks, hexcludes, hholds⟩ := hends
  refine ⟨?_, fun h => ?_, fun h => ?_, fun h => ?_, ?_, fun hlt => ?_⟩
  · rwa [Shared.calls_leave_self]
  · exact absurd (by simpa using h) hmarks
  · exact absurd (by simpa using h) hexcludes
  · exact absurd (by simpa using h) hholds
  · simpa [hholds] using hrefcount
  · simpa using hid hlt

end

/-! ## Looking at a record -/

/-- A call is about to look at the record of its token, with the lock free. -/
structure Looks (idtype : Nat) (s : Shared platform) (c : Caller platform) (token : Token)
    (expectedId : ObjectId) (purpose : Purpose) : Prop where
  unlocked : s.lock = none
  within : (s.calls c).Within token.slot
  unheld : ¬ (s.calls c).Holds token.slot
  placed : token.Placed platform idtype
  suits : purpose.Suits token
  expected : expectedId = token.objId ∨ token.lockMode = .exclusive ∧
    expectedId = OS_OBJECT_ID_RESERVED ∧ (s.calls c).Marks token.slot

theorem Inv.marked {s : Shared platform} (hinv : Inv idtype s) {c : Caller platform} {i : Nat}
    (h : (s.calls c).Marks i) : (s.table.records i).activeId = OS_OBJECT_ID_RESERVED := by
  have hsound := hinv.sound c
  cases hcall : s.calls c with
  | idle | stuck => rw [hcall] at h; exact h.elim
  | waiting token expectedId waits purpose =>
    rw [hcall] at h hsound
    obtain ⟨hmode, hexpected, rfl⟩ := h
    obtain ⟨hplaced, _, hid | ⟨_, _, hid⟩⟩ := hsound
    · exact absurd (hid ▸ hexpected) (objectIdIsValid_ne_reserved hplaced.valid)
    · exact hid
  | holding token purpose =>
    rw [hcall] at h hsound
    obtain ⟨hmode, rfl⟩ := h
    exact hsound.2.2.2.1 hmode

theorem Inv.held {s : Shared platform} (hinv : Inv idtype s) {c : Caller platform} {i : Nat}
    (h : (s.calls c).Holds i) : (s.table.records i).activeId ≠ OS_OBJECT_ID_UNDEFINED := by
  have hsound := hinv.sound c
  cases hcall : s.calls c with
  | idle | stuck | waiting => rw [hcall] at h; exact h.elim
  | holding token purpose =>
    rw [hcall] at h hsound
    obtain rfl := h
    exact hsound.2.2.1

/-- Where a look finds what it expects, no other call has marked the record. -/
theorem Looks.sole {s : Shared platform} (hinv : Inv idtype s) {c : Caller platform}
    {token : Token} {expectedId : ObjectId} {purpose : Purpose}
    (h : Looks idtype s c token expectedId purpose)
    (hid : (s.table.records token.slot).activeId = expectedId) :
    ∀ d, d ≠ c → ¬ (s.calls d).Marks token.slot := by
  intro d hd hmarks
  obtain hobj | ⟨_, _, hown⟩ := h.expected
  · exact objectIdIsValid_ne_reserved h.placed.valid (hobj ▸ hid ▸ hinv.marked hmarks)
  · exact hd (hinv.sole_mark d c _ hmarks hown)

theorem Looks.unlocked_for {s : Shared platform} {c : Caller platform} {token : Token}
    {expectedId : ObjectId} {purpose : Purpose} (h : Looks idtype s c token expectedId purpose) :
    ∀ d, d ≠ c → s.lock ≠ some d := by
  intro d _
  rw [h.unlocked]
  exact nofun

section

variable {s : Shared platform} {c : Caller platform} {token : Token} {expectedId : ObjectId}
  {purpose : Purpose}

theorem Looks.refcount (hinv : Inv idtype s) (h : Looks idtype s c token expectedId purpose) :
    (s.table.records token.slot).refcount = (s.others c token.slot).card := by
  rw [hinv.refcount c, if_neg h.unheld, Nat.add_zero]

/-- The id a granted look leaves. -/
theorem lookRecord_granted (h : Looks idtype s c token expectedId purpose)
    (hid : (s.table.records token.slot).activeId = expectedId) :
    (lookRecord token.lockMode expectedId (s.table.records token.slot)).activeId =
      if token.lockMode = .exclusive then OS_OBJECT_ID_RESERVED else token.objId := by
  unfold lookRecord
  by_cases hmode : token.lockMode = .exclusive
  · simp [hid, hmode]
  · have hobj := h.expected.resolve_right fun hown => hmode hown.1
    simp [hmode, hid, hobj]

@[simp] theorem restoredRecord_refcount (token : Token) (expectedId : ObjectId)
    (obj : CommonRecord) : (restoredRecord token expectedId obj).refcount = obj.refcount := by
  unfold restoredRecord
  split <;> rfl

/-- The look that grants the access. -/
theorem Inv.granted (hinv : Inv idtype s) (h : Looks idtype s c token expectedId purpose)
    (hlook : look token.lockMode expectedId (s.table.records token.slot) = .granted) :
    Inv idtype ((s.setRecord token.slot (lookRecord token.lockMode expectedId
      (s.table.records token.slot))).granted c token purpose) := by
  obtain ⟨hid, hunused⟩ := look_granted hlook
  have hactive := lookRecord_granted h hid
  have hsole := h.sole hinv hid
  rw [Shared.granted, Shared.setRecord_setRecord, Shared.table_setRecord,
    Table.records_setRecord]
  generalize hobj : lookRecord token.lockMode expectedId (s.table.records token.slot) = obj
    at hactive ⊢
  have hrefcount : obj.refcount = (s.others c token.slot).card := by
    rw [← hobj, lookRecord_refcount, h.refcount hinv]
  have hvalid := h.placed.valid
  have hlt := s.others_lt c token.slot
  have hdefined : obj.activeId ≠ OS_OBJECT_ID_UNDEFINED := by
    rw [hactive]
    split
    · decide
    · exact objectIdIsValid_ne_undefined hvalid
  refine hinv.step (Local.leave h.within rfl h.unlocked_for (fun _ _ _ => hdefined)
    fun d hd hmarks => absurd hmarks (hsole d hd)) ⟨?_, fun _ => hsole, fun hex d hd hheld => ?_,
      fun _ d hd hex => hsole d hd hex.marks, ?_, fun _ => ?_⟩
  · rw [Shared.calls_leave_self]
    refine ⟨h.placed, h.suits, ?_, fun hmode => ?_, fun hmode => ?_⟩
    · simpa [CommonRecord.acquire] using hdefined
    · simp [CommonRecord.acquire, hactive, hmode]
    · simp [CommonRecord.acquire, hactive, hmode]
  · -- an exclusive access is granted where nobody holds the record
    rw [Shared.calls_leave_self] at hex
    have hnone : (s.others c token.slot).card = 0 := by
      rw [← h.refcount hinv, hunused hex.1]
    have hmem : d ∈ s.others c token.slot :=
      Finset.mem_erase.mpr ⟨hd, Shared.mem_holders.mpr hheld⟩
    rw [Finset.card_eq_zero.mp hnone] at hmem
    exact absurd hmem (Finset.notMem_empty d)
  · simpa [CommonRecord.acquire, hrefcount, CallState.Holds] using hlt
  · simp only [Shared.table_leave, Shared.table_setRecord, Table.records_setRecord,
      CommonRecord.acquire, hactive]
    split
    · exact .inr (.inl rfl)
    · exact .inr (.inr h.placed.fits)

/-- The look after which the call waits. -/
theorem Inv.waits (hinv : Inv idtype s) (h : Looks idtype s c token expectedId purpose)
    (hlook : look token.lockMode expectedId (s.table.records token.slot) = .contended)
    (waits : Nat) :
    Inv idtype ((s.setRecord token.slot (lookRecord token.lockMode expectedId
      (s.table.records token.slot))).leave c (.waiting token (lookExpected token.lockMode
        expectedId (s.table.records token.slot)) waits purpose) none) := by
  have hmarked : (lookRecord token.lockMode expectedId (s.table.records token.slot)).activeId =
      OS_OBJECT_ID_RESERVED := by
    obtain ⟨hid, hmode⟩ | ⟨hne, hid⟩ := look_contended hlook
    · simp [lookRecord, hid, hmode]
    · rw [lookRecord, if_neg fun hboth => hne hboth.1, hid]
  -- either the call has the mark now, or it still expects the id of its token
  have hexpected : (token.lockMode = .exclusive ∧
      (s.table.records token.slot).activeId = expectedId ∧
      lookExpected token.lockMode expectedId (s.table.records token.slot) =
        OS_OBJECT_ID_RESERVED) ∨
      lookExpected token.lockMode expectedId (s.table.records token.slot) = token.objId := by
    obtain ⟨hid, hmode⟩ | ⟨hne, hid⟩ := look_contended hlook
    · exact .inl ⟨hmode, hid, by simp [lookExpected, hid, hmode]⟩
    · obtain hobj | ⟨_, hreserved, _⟩ := h.expected
      · exact .inr (by rw [lookExpected, if_neg fun hboth => hne hboth.1, hobj])
      · exact absurd (hid.trans hreserved.symm) hne
  refine hinv.step (Local.leave h.within rfl h.unlocked_for (fun _ _ _ => ?_)
    fun _ _ _ => hmarked) ⟨?_, fun hmarks => ?_, fun hex => ?_, fun hheld => ?_, ?_, fun _ => ?_⟩
  · rw [hmarked]
    decide
  · rw [Shared.calls_leave_self]
    refine ⟨h.placed, h.suits, ?_⟩
    obtain ⟨hmode, _, hreserved⟩ | hobj := hexpected
    · exact .inr ⟨hmode, hreserved, by simpa using hmarked⟩
    · exact .inl hobj
  · rw [Shared.calls_leave_self] at hmarks
    obtain ⟨_, hid, _⟩ | hobj := hexpected
    · exact h.sole hinv hid
    · exact absurd (hobj.symm.trans hmarks.2.1) (objectIdIsValid_ne_reserved h.placed.valid)
  · rw [Shared.calls_leave_self] at hex
    exact hex.elim
  · rw [Shared.calls_leave_self] at hheld
    exact hheld.elim
  · simp [h.refcount hinv, CallState.Holds]
  · simp [hmarked]

/-- A failing look puts the id of the token back where the call had the mark, and changes
nothing elsewhere. -/
theorem Looks.restored (hinv : Inv idtype s) (h : Looks idtype s c token expectedId purpose) :
    ((restoredRecord token (lookExpected token.lockMode expectedId (s.table.records token.slot))
        (lookRecord token.lockMode expectedId (s.table.records token.slot))).activeId =
          token.objId ∧ ∀ d, d ≠ c → ¬ (s.calls d).Marks token.slot) ∨
      (restoredRecord token (lookExpected token.lockMode expectedId (s.table.records token.slot))
        (lookRecord token.lockMode expectedId (s.table.records token.slot))).activeId =
          (s.table.records token.slot).activeId := by
  by_cases hrestores : token.lockMode = .exclusive ∧
      lookExpected token.lockMode expectedId (s.table.records token.slot) = OS_OBJECT_ID_RESERVED
  · refine .inl ⟨by rw [restoredRecord, if_pos hrestores], ?_⟩
    by_cases hid : (s.table.records token.slot).activeId = expectedId
    · exact h.sole hinv hid
    · rw [lookExpected, if_neg fun hboth => hid hboth.1] at hrestores
      obtain hobj | ⟨_, _, hown⟩ := h.expected
      · exact absurd (hobj.symm.trans hrestores.2) (objectIdIsValid_ne_reserved h.placed.valid)
      · exact fun d hd hmarks => hd (hinv.sole_mark d c _ hmarks hown)
  · rw [restoredRecord, if_neg hrestores, lookRecord, if_neg]
    · exact .inr rfl
    · rintro ⟨hid, hmode⟩
      exact hrestores ⟨hmode, by rw [lookExpected, if_pos ⟨hid, hmode⟩]⟩

/-- The look that fails, whatever becomes of the call. -/
theorem Inv.gives_up (hinv : Inv idtype s) (h : Looks idtype s c token expectedId purpose) :
    Inv idtype ((s.setRecord token.slot (restoredRecord token (lookExpected token.lockMode
      expectedId (s.table.records token.slot)) (lookRecord token.lockMode expectedId
        (s.table.records token.slot)))).failed c purpose) := by
  obtain ⟨call, lock, hcall, heq⟩ := Shared.failed_eq (s.setRecord token.slot
    (restoredRecord token (lookExpected token.lockMode expectedId (s.table.records token.slot))
      (lookRecord token.lockMode expectedId (s.table.records token.slot)))) c purpose
  rw [heq]
  have hrefcount : (restoredRecord token (lookExpected token.lockMode expectedId
      (s.table.records token.slot)) (lookRecord token.lockMode expectedId
        (s.table.records token.slot))).refcount = (s.others c token.slot).card := by
    simp [h.refcount hinv]
  generalize hobj : restoredRecord token (lookExpected token.lockMode expectedId
    (s.table.records token.slot)) (lookRecord token.lockMode expectedId
      (s.table.records token.slot)) = obj at hrefcount ⊢
  have hkept : obj.activeId = token.objId ∧
        (∀ d, d ≠ c → ¬ (s.calls d).Marks token.slot) ∨
      obj.activeId = (s.table.records token.slot).activeId := by
    rw [← hobj]
    exact h.restored hinv
  have hafter : call.Within token.slot := by
    obtain rfl | rfl := hcall <;> trivial
  refine hinv.step (Local.leave h.within hafter h.unlocked_for (fun d hd hheld => ?_)
    fun d hd hmarks => ?_) (.ended hcall hrefcount fun hlt => ?_)
  · obtain ⟨hid, _⟩ | hid := hkept
    · rw [hid]
      exact objectIdIsValid_ne_undefined h.placed.valid
    · rw [hid]
      exact hinv.held hheld
  · obtain ⟨_, hsole⟩ | hid := hkept
    · exact absurd hmarks (hsole d hd)
    · rw [hid]
      exact hinv.marked hmarks
  · obtain ⟨hid, _⟩ | hid := hkept
    · rw [hid]
      exact .inr (.inr h.placed.fits)
    · rw [hid]
      exact hinv.ids _ hlt

theorem Inv.lookAt (hinv : Inv idtype s) (h : Looks idtype s c token expectedId purpose)
    (waits : Nat) : Inv idtype (s.lookAt c token expectedId waits purpose) := by
  unfold Shared.lookAt
  dsimp only
  split
  · rename_i hlook
    exact hinv.granted h hlook
  · rename_i waits hlook
    exact hinv.waits h hlook waits
  · exact hinv.gives_up h
  · exact hinv.gives_up h

end

/-! ## Beginning a call -/

section

variable {s : Shared platform} {c : Caller platform}

theorem Inv.failed (hinv : Inv idtype s) (hlock : s.lock = none) (hidle : s.calls c = .idle)
    (purpose : Purpose) : Inv idtype (s.failed c purpose) := by
  obtain ⟨call, lock, hcall, heq⟩ := Shared.failed_eq s c purpose
  have hafter : call.Within 0 := by
    obtain rfl | rfl := hcall <;> trivial
  have hrefcount : (s.table.records 0).refcount = (s.others c 0).card := by
    rw [hinv.refcount c, hidle]
    rfl
  rw [heq, ← s.setRecord_self 0]
  exact hinv.step (Local.leave (by rw [hidle]; trivial) hafter (fun d _ => by simp [hlock])
    (fun d _ hheld => hinv.held hheld) fun d _ hmarks => hinv.marked hmarks)
    (.ended hcall hrefcount fun hlt => hinv.ids 0 hlt)

/-- An idle call converts a token whose id, if it is valid at all, belongs to its place. -/
theorem Inv.convert (hinv : Inv idtype s) (hlock : s.lock = none) (hidle : s.calls c = .idle)
    {token : Token} {purpose : Purpose} (hsuits : purpose.Suits token)
    (hplaced : objectIdIsValid token.objId → token.Placed platform idtype) :
    Inv idtype (s.convert c token purpose) := by
  unfold Shared.convert
  split
  · rename_i hvalid
    have hplaced := hplaced hvalid
    exact hinv.lookAt ⟨hlock, by rw [hidle]; trivial, by rw [hidle]; exact id, hplaced, hsuits,
      .inl hplaced.mode.startExpected⟩ _
  · exact hinv.failed hlock hidle purpose

/-- A valid id that a lookup has found belongs to its place. -/
theorem Inv.found_fits (hinv : Inv idtype s) {token : Token} {how : Lookup}
    (hlt : token.slot < platform.maxForObjectType idtype)
    (hfound : how.Found platform.toObjectLimits idtype s.table token)
    (hvalid : objectIdIsValid token.objId) : platform.Fits idtype token.slot token.objId := by
  have hrecord (hid : token.objId = (s.table.records token.slot).activeId)
      (hdefined : (s.table.records token.slot).activeId ≠ OS_OBJECT_ID_UNDEFINED) :
      platform.Fits idtype token.slot token.objId := by
    rw [hid] at hvalid ⊢
    exact ((hinv.ids _ hlt).resolve_left hdefined).resolve_left
      (objectIdIsValid_ne_reserved hvalid)
  cases how with
  | byId id =>
    rw [hfound.1]
    exact hfound.2
  | byName name => exact hrecord hfound.1 hfound.2.1
  | bySearch matchFunc => exact hrecord hfound.1 hfound.2

theorem Inv.lookup (hinv : Inv idtype s) (hlock : s.lock = none) (hidle : s.calls c = .idle)
    {lockMode : LockMode} (hmode : lockMode.Shares idtype) (how : Lookup) :
    Inv idtype (s.lookup idtype c lockMode how) := by
  obtain hsame | ⟨token, rfl, htype, hlt, hfound, heq⟩ := s.lookup_cases idtype c lockMode how
  · rwa [hsame]
  · rw [heq]
    exact hinv.convert hlock hidle trivial fun hvalid =>
      ⟨htype, hmode, hlt, hinv.found_fits hlt hfound hvalid, hvalid⟩

/-! ## Creating -/

/-- A free place takes a new id. -/
theorem Inv.issue (hinv : Inv idtype s) (hlock : s.lock = none) (hidle : s.calls c = .idle)
    {place : Nat × Nat} (creator : ObjectId) (hmax : 0 < platform.maxForObjectType idtype)
    (hplace : allocation platform.toObjectLimits idtype s.table = some place) :
    Inv idtype { s with table := s.table.issue idtype creator place } := by
  obtain ⟨hlt, hfree, hfits, hvalid⟩ := allocation_spec hmax hplace
  have hnone : s.others c place.1 = ∅ := by
    refine Finset.eq_empty_of_forall_notMem fun d hd => ?_
    exact hinv.held (Shared.mem_holders.mp (Finset.mem_of_mem_erase hd)) hfree
  have hrecord : (s.table.issue idtype creator place).records place.1 =
      { activeId := objectIdCompose idtype place.2, creator := creator } :=
    Table.records_setRecord ..
  refine hinv.step (c := c) (i := place.1) ⟨fun _ _ => rfl, fun j hj => ?_, ?_, ?_, ?_, ?_, ?_⟩
    ⟨?_, ?_, ?_, ?_, ?_, ?_⟩
  · exact Table.records_setRecord_of_ne _ hj _
  · rw [hidle]; trivial
  · dsimp only; rw [hidle]; trivial
  · intro d _ h
    rw [hlock] at h
    cases h
  · intro d _ hheld
    exact absurd hfree (hinv.held hheld)
  · intro d _ hmarks
    exact absurd ((hinv.marked hmarks).symm.trans hfree) (by decide)
  · dsimp only; rw [hidle]; trivial
  · dsimp only; rw [hidle]; exact False.elim
  · dsimp only; rw [hidle]; exact False.elim
  · dsimp only; rw [hidle]; exact False.elim
  · simp [hrecord, hidle, hnone, CallState.Holds]
  · intro _
    rw [hrecord]
    exact .inr (.inr hfits)

theorem Inv.allocateNew (hinv : Inv idtype s) (hlock : s.lock = none) (hidle : s.calls c = .idle)
    (creator : ObjectId) (notifyEvent : ObjectId → Int) (name : Option String) :
    Inv idtype (s.allocateNew idtype c creator notifyEvent name) := by
  obtain hsame | ⟨place, hmax, hplace, _, hnext⟩ :=
    s.allocateNew_cases idtype c creator notifyEvent name
  · rwa [hsame]
  have hissued := hinv.issue hlock hidle creator hmax hplace
  obtain hconverts | hfails := hnext
  · obtain ⟨hlt, _, hfits, hvalid⟩ := allocation_spec hmax hplace
    rw [hconverts]
    exact hissued.convert hlock hidle rfl fun _ => ⟨rfl, .inr (.inr rfl), hlt, hfits, hvalid⟩
  · rw [hfails]
    exact hissued.failed hlock hidle _

/-! ## Finishing a call -/

/-- What a finishing call may write: nothing over its id, or the id of the token or none, where
it deletes or creates. -/
def Finishes (idtype : Nat) (token : Token) (finalId : Option ObjectId) : Prop :=
  ∀ id ∈ finalId, (id = token.objId ∨ id = OS_OBJECT_ID_UNDEFINED) ∧
    (token.lockMode = .exclusive ∨
      token.lockMode = .global ∧ idtype = OS_OBJECT_TYPE_OS_TASK)

/-- Nobody else is at a record that is about to be deleted. -/
theorem Inv.alone (hinv : Inv idtype s) {token : Token} {purpose : Purpose}
    (hcall : s.calls c = .holding token purpose)
    (hmode : token.lockMode = .exclusive ∨
      token.lockMode = .global ∧ idtype = OS_OBJECT_TYPE_OS_TASK) :
    ∀ d, d ≠ c → ¬ (s.calls d).Holds token.slot ∧ ¬ (s.calls d).Marks token.slot := by
  intro d hd
  have hsound := hinv.sound c
  rw [hcall] at hsound
  obtain ⟨hplaced, _, _, _, hglobal⟩ := hsound
  obtain hexclusive | ⟨hmode, htask⟩ := hmode
  · have hown : (s.calls c).Excludes token.slot := by
      rw [hcall]
      exact ⟨hexclusive, rfl⟩
    exact ⟨fun hheld => hd (hinv.sole_holder c d _ hown hheld).symm,
      fun hmarks => hd (hinv.sole_mark c d _ hown.marks hmarks).symm⟩
  · obtain ⟨hid, hlock⟩ := hglobal hmode
    have hunmarked : ¬ (s.calls d).Marks token.slot := fun hmarks =>
      objectIdIsValid_ne_reserved hplaced.valid (hid.symm.trans (hinv.marked hmarks))
    refine ⟨fun hheld => ?_, hunmarked⟩
    have hother := hinv.sound d
    cases hcall' : s.calls d with
    | idle | stuck | waiting =>
      rw [hcall'] at hheld
      exact hheld.elim
    | holding token' purpose' =>
      rw [hcall'] at hheld hother hunmarked
      obtain ⟨hplaced', _, _, _, hglobal'⟩ := hother
      obtain ⟨_, hne⟩ | hmode' | hmode' := hplaced'.mode
      · exact hne htask
      · exact hd (Option.some.inj ((hglobal' hmode').2.symm.trans hlock))
      · exact hunmarked ⟨hmode', hheld⟩

theorem Inv.finish (hinv : Inv idtype s) {token : Token} {purpose : Purpose}
    (hcall : s.calls c = .holding token purpose)
    (hlock : s.lock = none ∨ token.lockMode = .global) {finalId : Option ObjectId}
    (hfinal : Finishes idtype token finalId) : Inv idtype (s.finish c token finalId) := by
  have hsound := hinv.sound c
  rw [hcall] at hsound
  obtain ⟨hplaced, _, _, _, hglobal⟩ := hsound
  have hunlocked : ∀ d, d ≠ c → s.lock ≠ some d := by
    intro d hd h
    obtain hnone | hmode := hlock
    · rw [hnone] at h
      cases h
    · exact hd (Option.some.inj (h.symm.trans (hglobal hmode).2))
  have hrefcount : (finishRecord token finalId (s.table.records token.slot)).refcount =
      (s.others c token.slot).card := by
    have hheld : (s.calls c).Holds token.slot := by
      rw [hcall]
      rfl
    simp only [finishRecord, hinv.refcount c, if_pos hheld, Nat.add_sub_cancel]
  -- either the id stays, or it is the call's own business
  have hid : (finishRecord token finalId (s.table.records token.slot)).activeId =
        (s.table.records token.slot).activeId ∨
      ((finishRecord token finalId (s.table.records token.slot)).activeId = token.objId ∨
        (finishRecord token finalId (s.table.records token.slot)).activeId =
          OS_OBJECT_ID_UNDEFINED) ∧
        ∀ d, d ≠ c → ¬ (s.calls d).Holds token.slot ∧ ¬ (s.calls d).Marks token.slot := by
    cases finalId with
    | some id =>
      obtain ⟨hwritten, hmode⟩ := hfinal id rfl
      exact .inr ⟨hwritten, hinv.alone hcall hmode⟩
    | none =>
      by_cases hmode : token.lockMode = .exclusive
      · exact .inr ⟨.inl (by simp [finishRecord, hmode]), hinv.alone hcall (.inl hmode)⟩
      · exact .inl (by simp [finishRecord, hmode])
  unfold Shared.finish
  generalize finishRecord token finalId (s.table.records token.slot) = obj at hrefcount hid ⊢
  refine hinv.step (Local.leave (by rw [hcall]; rfl) trivial hunlocked (fun d hd hheld => ?_)
    fun d hd hmarks => ?_) (.ended (.inl rfl) hrefcount fun hlt => ?_)
  · obtain hid | ⟨_, halone⟩ := hid
    · rw [hid]
      exact hinv.held hheld
    · exact absurd hheld (halone d hd).1
  · obtain hid | ⟨_, halone⟩ := hid
    · rw [hid]
      exact hinv.marked hmarks
    · exact absurd hmarks (halone d hd).2
  · obtain hid | ⟨hid | hid, _⟩ := hid
    · rw [hid]
      exact hinv.ids _ hlt
    · rw [hid]
      exact .inr (.inr hplaced.fits)
    · exact .inl hid

/-- `OS_OBJECT_INIT` changes nothing but the name. -/
theorem Inv.objectInit (hinv : Inv idtype s) {token : Token} {name : String}
    (hcall : s.calls c = .holding token (.creation (some name) false)) :
    Inv idtype ((s.setRecord token.slot
      { s.table.records token.slot with nameEntry := some name }).leave c
        (.holding token (.creation (some name) true)) s.lock) := by
  have hsound := hinv.sound c
  have hheld : (s.calls c).Holds token.slot := by
    rw [hcall]
    rfl
  rw [hcall] at hsound
  obtain ⟨hplaced, hsuits, hdefined, hreserved, hglobal⟩ := hsound
  have hexclusive : token.lockMode = .exclusive := hsuits
  have hown : (s.calls c).Excludes token.slot := by
    rw [hcall]
    exact ⟨hexclusive, rfl⟩
  refine hinv.step (c := c) (i := token.slot) ⟨?_, ?_, ?_, ?_, ?_, ?_, ?_⟩ ⟨?_, ?_, ?_, ?_, ?_, ?_⟩
  · exact fun d hd => Shared.calls_leave_of_ne _ hd ..
  · exact fun j hj => Table.records_setRecord_of_ne _ hj _
  · rw [hcall]; rfl
  · rw [Shared.calls_leave_self]; rfl
  · exact fun d hd h => ⟨h, by simp⟩
  · exact fun d hd h => by simpa using hinv.held h
  · exact fun d hd h => by simpa using hinv.marked h
  · rw [Shared.calls_leave_self]
    exact ⟨hplaced, hsuits, by simpa using hdefined, fun h => by simpa using hreserved h,
      fun h => absurd (hexclusive.symm.trans h) (by decide)⟩
  · exact fun _ d hd h => hd (hinv.sole_mark c d _ hown.marks h).symm
  · exact fun _ d hd h => hd (hinv.sole_holder c d _ hown h).symm
  · exact fun _ d hd h => hd (hinv.sole_mark c d _ hown.marks h.marks).symm
  · have hcount := hinv.refcount c token.slot
    rw [if_pos hheld] at hcount
    simpa [CallState.Holds] using hcount
  · exact fun hlt => by simpa using hinv.ids _ hlt

end

/-! ## Every run -/

theorem Inv.start : Inv idtype ({} : Shared platform) where
  sound _ := trivial
  sole_mark _ _ _ h := h.elim
  sole_holder _ _ _ h := h.elim
  counted i := by
    rw [eq_comm, Finset.card_eq_zero]
    exact Finset.eq_empty_of_forall_notMem fun c h => (Shared.mem_holders.mp h).elim
  ids _ _ := .inl rfl

section

variable {s : Shared platform} {c : Caller platform} {token : Token} {purpose : Purpose}

theorem Inv.looks (hinv : Inv idtype s) (hlock : s.lock = none) {expectedId : ObjectId}
    {waits : Nat} (hcall : s.calls c = .waiting token expectedId waits purpose) :
    Looks idtype s c token expectedId purpose := by
  have hsound := hinv.sound c
  rw [hcall] at hsound
  obtain ⟨hplaced, hsuits, hexpected⟩ := hsound
  refine ⟨hlock, by rw [hcall]; rfl, by rw [hcall]; exact id, hplaced, hsuits, ?_⟩
  refine hexpected.imp_right fun ⟨hmode, hreserved, _⟩ => ⟨hmode, hreserved, ?_⟩
  rw [hcall]
  exact ⟨hmode, hreserved, rfl⟩

theorem Inv.finalizes (hinv : Inv idtype s) {name : Option String} {initialized : Bool}
    (hcall : s.calls c = .holding token (.creation name initialized)) (operationStatus : Int) :
    Finishes idtype token (some (newId operationStatus token)) := by
  have hsound := hinv.sound c
  rw [hcall] at hsound
  rintro _ ⟨⟩
  refine ⟨?_, .inl hsound.2.1⟩
  unfold newId
  split
  · exact .inl rfl
  · exact .inr rfl

theorem Inv.deletes (hinv : Inv idtype s) (hcall : s.calls c = .holding token purpose)
    (hdeletes : token.Deletes s.lock) (operationStatus : Int) :
    Finishes idtype token (some (keptId operationStatus token)) := by
  have hsound := hinv.sound c
  rw [hcall] at hsound
  rintro _ ⟨⟩
  refine ⟨?_, hdeletes.imp And.left fun ⟨hmode, htask⟩ => ⟨hmode, hsound.1.objType ▸ htask⟩⟩
  unfold keptId
  split
  · exact .inr rfl
  · exact .inl rfl

end

theorem Inv.next {s s' : Shared platform} {a : Act platform} (hinv : Inv idtype s)
    (h : s.next idtype a = some s') : Inv idtype s' := by
  cases a with
  | lookup c lockMode how =>
    obtain ⟨hidle, hlock, hmode, rfl⟩ := next_lookup.mp h
    exact hinv.lookup hlock hidle hmode how
  | wake c =>
    obtain ⟨token, expectedId, waits, purpose, hcall, hlock, rfl⟩ := next_wake.mp h
    exact hinv.lookAt (hinv.looks hlock hcall) waits
  | allocateNew c creator notifyEvent name =>
    obtain ⟨hidle, hlock, rfl⟩ := next_allocateNew.mp h
    exact hinv.allocateNew hlock hidle creator notifyEvent name
  | objectInit c =>
    obtain ⟨token, name, hcall, rfl⟩ := next_objectInit.mp h
    exact hinv.objectInit hcall
  | finalizeNew c operationStatus =>
    obtain ⟨token, name, initialized, hcall, hlock, _, rfl⟩ := next_finalizeNew.mp h
    exact hinv.finish hcall (.inl hlock) (hinv.finalizes hcall operationStatus)
  | finalizeDelete c operationStatus =>
    obtain ⟨token, how, hcall, hdeletes, rfl⟩ := next_finalizeDelete.mp h
    exact hinv.finish hcall (hdeletes.imp And.right And.left)
      (hinv.deletes hcall hdeletes operationStatus)
  | release c =>
    obtain ⟨token, how, hcall, hfree, rfl⟩ := next_release.mp h
    exact hinv.finish hcall hfree nofun
  | shutdown =>
    cases h
    exact ⟨hinv.sound, hinv.sole_mark, hinv.sole_holder, hinv.counted, hinv.ids⟩

theorem Inv.reachable {s : Shared platform} (h : (sharing platform idtype).Reachable s) :
    Inv idtype s :=
  Machine.Reachable.invariant (fun _ hs => hs ▸ Inv.start)
    (fun _ _ _ hinv hnext => hinv.next hnext) h

end Nos3.Osal
