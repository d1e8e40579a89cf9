import Nos3.Osal.Guarantees.ExclusiveAccess

/-!
# Names of objects

A creation checks its name with the lock and stores it in the record only after
it has given the lock up. As long as nobody begins a creation under a name that
another has checked and not stored yet, no two records have one name, and a
lookup by name ends at the one finished object of that name.
-/
namespace Nos3.Osal
open Base.Transition

variable {platform : Platform} {idtype : Nat}

/-- The record is in use under the name. -/
def Shared.Stores (idtype : Nat) (s : Shared platform) (i : Nat) (name : String) : Prop :=
  i < platform.maxForObjectType idtype ∧
    (s.table.records i).activeId ≠ OS_OBJECT_ID_UNDEFINED ∧
    (s.table.records i).nameEntry = some name

/-- The record is to get the name, which its creation has checked. -/
def Shared.Awaits (s : Shared platform) (i : Nat) (name : String) : Prop :=
  ∃ c token, s.calls c = .holding token (.creation (some name) false) ∧ token.slot = i

/-- The record is in use or being created under the name. -/
def Shared.Carries (idtype : Nat) (s : Shared platform) (i : Nat) (name : String) : Prop :=
  s.Stores idtype i name ∨ s.Awaits i name

/-- What a call knows of the name of its record. Creations never wait, and a lookup by name waits
only with its mark on the record. -/
def CallState.Named (table : Table) : CallState → Prop
  | .waiting token expectedId _ (.lookup (.byName name)) =>
    token.lockMode = .exclusive ∧ expectedId = OS_OBJECT_ID_RESERVED ∧
      (table.records token.slot).nameEntry = some name
  | .waiting _ _ _ (.creation ..) => False
  | .holding token (.lookup (.byName name)) => (table.records token.slot).nameEntry = some name
  | _ => True

structure NamesInv (idtype : Nat) (s : Shared platform) : Prop where
  unique : ∀ i j name, s.Carries idtype i name → s.Carries idtype j name → i = j
  named : ∀ c, (s.calls c).Named s.table

/-! ## Steps that name nothing -/

/-- A step of `c` after which no record has a name it had not before. -/
structure Quiet (idtype : Nat) (c : Caller platform) (s s' : Shared platform) : Prop where
  others : ∀ d, d ≠ c → s'.calls d = s.calls d
  stores : ∀ i name, s'.Stores idtype i name → s.Stores idtype i name
  names : ∀ d, d ≠ c → ∀ i, (s.calls d).Holds i ∨ (s.calls d).Marks i →
    (s'.table.records i).nameEntry = (s.table.records i).nameEntry
  own : ∀ token name, s'.calls c ≠ .holding token (.creation (some name) false)

theorem CallState.Named.congr {table table' : Table} {call : CallState} (h : call.Named table)
    (hsame : ∀ i, call.Holds i ∨ call.Marks i →
      (table'.records i).nameEntry = (table.records i).nameEntry) : call.Named table' := by
  cases call with
  | idle | stuck => trivial
  | waiting token expectedId waits purpose =>
    match purpose with
    | .lookup (.byName name) =>
      obtain ⟨hmode, hexpected, hname⟩ := h
      exact ⟨hmode, hexpected, (hsame _ (.inr ⟨hmode, hexpected, rfl⟩)).trans hname⟩
    | .lookup (.byId id) | .lookup (.bySearch matchFunc) => trivial
    | .creation .. => exact h.elim
  | holding token purpose =>
    match purpose with
    | .lookup (.byName name) => exact (hsame _ (.inl rfl)).trans h
    | .lookup (.byId id) | .lookup (.bySearch matchFunc) => trivial
    | .creation .. => trivial

theorem Quiet.carries {c : Caller platform} {s s' : Shared platform} (hq : Quiet idtype c s s')
    {i : Nat} {name : String} (h : s'.Carries idtype i name) : s.Carries idtype i name := by
  obtain hstores | ⟨d, token, hcall, hslot⟩ := h
  · exact .inl (hq.stores i name hstores)
  · by_cases hd : d = c
    · subst hd
      exact absurd hcall (hq.own token name)
    · exact .inr ⟨d, token, (hq.others d hd).symm.trans hcall, hslot⟩

theorem NamesInv.quiet {c : Caller platform} {s s' : Shared platform} (hnames : NamesInv idtype s)
    (hq : Quiet idtype c s s') (hown : (s'.calls c).Named s'.table) : NamesInv idtype s' where
  unique i j name hi hj := hnames.unique i j name (hq.carries hi) (hq.carries hj)
  named d := by
    by_cases hd : d = c
    · subst hd
      exact hown
    · rw [hq.others d hd]
      exact (hnames.named d).congr (hq.names d hd)

section

variable {s : Shared platform} {c : Caller platform} {token : Token} {expectedId : ObjectId}
  {purpose : Purpose} {waits : Nat}

/-- A look writes one record and leaves its name. It changes the id only where it finds the id it
expects, or takes its own mark back. -/
theorem lookAt_table (s : Shared platform) (c : Caller platform) (token : Token)
    (expectedId : ObjectId) (purpose : Purpose) (waits : Nat) : ∃ obj : CommonRecord,
    (s.lookAt c token expectedId waits purpose).table = s.table.setRecord token.slot obj ∧
      obj.nameEntry = (s.table.records token.slot).nameEntry ∧
      (obj.activeId = (s.table.records token.slot).activeId ∨
        (s.table.records token.slot).activeId = expectedId ∨
        token.lockMode = .exclusive ∧ expectedId = OS_OBJECT_ID_RESERVED) := by
  have hlooked : (lookRecord token.lockMode expectedId (s.table.records token.slot)).nameEntry =
        (s.table.records token.slot).nameEntry ∧
      ((lookRecord token.lockMode expectedId (s.table.records token.slot)).activeId =
          (s.table.records token.slot).activeId ∨
        (s.table.records token.slot).activeId = expectedId) := by
    unfold lookRecord
    split
    · rename_i hboth
      exact ⟨rfl, .inr hboth.1⟩
    · exact ⟨rfl, .inl rfl⟩
  have hrestored : ∀ obj : CommonRecord, (restoredRecord token (lookExpected token.lockMode
      expectedId (s.table.records token.slot)) obj).nameEntry = obj.nameEntry ∧
      ((restoredRecord token (lookExpected token.lockMode expectedId
          (s.table.records token.slot)) obj).activeId = obj.activeId ∨
        (s.table.records token.slot).activeId = expectedId ∨
        token.lockMode = .exclusive ∧ expectedId = OS_OBJECT_ID_RESERVED) := by
    intro obj
    unfold restoredRecord
    split
    · rename_i hboth
      refine ⟨rfl, .inr ?_⟩
      by_cases hid : (s.table.records token.slot).activeId = expectedId
      · exact .inl hid
      · rw [lookExpected, if_neg fun h => hid h.1] at hboth
        exact .inr hboth
    · exact ⟨rfl, .inl rfl⟩
  obtain ⟨hname, hid⟩ := hlooked
  obtain ⟨hname', hid'⟩ :=
    hrestored (lookRecord token.lockMode expectedId (s.table.records token.slot))
  have hfailed : ∀ obj : CommonRecord, ((s.setRecord token.slot obj).failed c purpose).table =
      s.table.setRecord token.slot obj := fun obj => Shared.table_failed
  unfold Shared.lookAt
  dsimp only
  split
  · rename_i hlook
    refine ⟨(lookRecord token.lockMode expectedId (s.table.records token.slot)).acquire, ?_, hname,
      .inr (.inl (look_granted hlook).1)⟩
    rw [Shared.granted, Shared.setRecord_setRecord, Shared.table_setRecord,
      Table.records_setRecord]
    rfl
  · exact ⟨_, rfl, hname, hid.imp_right .inl⟩
  · exact ⟨_, hfailed _, hname'.trans hname, hid'.elim
      (fun h => hid.imp h.trans .inl) .inr⟩
  · exact ⟨_, hfailed _, hname'.trans hname, hid'.elim
      (fun h => hid.imp h.trans .inl) .inr⟩

theorem lookAt_nameEntry (i : Nat) :
    ((s.lookAt c token expectedId waits purpose).table.records i).nameEntry =
      (s.table.records i).nameEntry := by
  obtain ⟨obj, htable, hname, _⟩ := lookAt_table s c token expectedId purpose waits
  rw [htable]
  by_cases hi : i = token.slot
  · subst hi
    rw [Table.records_setRecord, hname]
  · rw [Table.records_setRecord_of_ne _ hi]

/-- A look takes no record into use. -/
theorem lookAt_stores (hinv : Inv idtype s) (h : Looks idtype s c token expectedId purpose)
    {i : Nat} {name : String}
    (hstores : (s.lookAt c token expectedId waits purpose).Stores idtype i name) :
    s.Stores idtype i name := by
  obtain ⟨hlt, hdefined, hname⟩ := hstores
  rw [lookAt_nameEntry] at hname
  refine ⟨hlt, ?_, hname⟩
  obtain ⟨obj, htable, _, hid⟩ := lookAt_table s c token expectedId purpose waits
  rw [htable] at hdefined
  by_cases hi : i = token.slot
  · subst hi
    rw [Table.records_setRecord] at hdefined
    obtain hsame | hfound | ⟨hmode, hreserved⟩ := hid
    · rwa [← hsame]
    · obtain hobj | ⟨_, hreserved, _⟩ := h.expected
      · rw [hfound, hobj]
        exact objectIdIsValid_ne_undefined h.placed.valid
      · rw [hfound, hreserved]
        decide
    · obtain hobj | ⟨_, _, hmarks⟩ := h.expected
      · exact absurd (hobj.symm.trans hreserved) (objectIdIsValid_ne_reserved h.placed.valid)
      · rw [hinv.marked hmarks]
        decide
  · rwa [Table.records_setRecord_of_ne _ hi] at hdefined

/-- The call after a look. -/
theorem lookAt_call (s : Shared platform) (c : Caller platform) (token : Token)
    (expectedId : ObjectId) (purpose : Purpose) (waits : Nat) :
    (s.lookAt c token expectedId waits purpose).calls c = .holding token purpose ∨
      (∃ left, (s.lookAt c token expectedId waits purpose).calls c = .waiting token
        (lookExpected token.lockMode expectedId (s.table.records token.slot)) left purpose ∧
        look token.lockMode expectedId (s.table.records token.slot) = .contended) ∨
      (s.lookAt c token expectedId waits purpose).calls c = .idle ∨
      (s.lookAt c token expectedId waits purpose).calls c = .stuck := by
  have hfailed : ∀ s : Shared platform, (s.failed c purpose).calls c = .idle ∨
      (s.failed c purpose).calls c = .stuck := by
    intro s
    obtain ⟨call, lock, hcall, heq⟩ := s.failed_eq c purpose
    rwa [heq, Shared.calls_leave_self]
  unfold Shared.lookAt
  dsimp only
  split
  · exact .inl (Shared.calls_leave_self ..)
  · rename_i left hlook
    exact .inr (.inl ⟨left, Shared.calls_leave_self .., hlook⟩)
  · exact .inr (.inr (hfailed _))
  · exact .inr (.inr (hfailed _))

/-- What a lookup by name knows before it looks: it will find the id it expects, under the
name. -/
def Lookup.Knows (s : Shared platform) (token : Token) (expectedId : ObjectId) : Lookup → Prop
  | .byName name => (s.table.records token.slot).activeId = expectedId ∧
    (s.table.records token.slot).nameEntry = some name
  | _ => True

theorem lookAt_named {how : Lookup} (hknows : how.Knows s token expectedId) :
    ((s.lookAt c token expectedId waits (.lookup how)).calls c).Named
      (s.lookAt c token expectedId waits (.lookup how)).table := by
  have hname : ((s.lookAt c token expectedId waits (.lookup how)).table.records
      token.slot).nameEntry = (s.table.records token.slot).nameEntry := lookAt_nameEntry _
  obtain hcall | ⟨left, hcall, hlook⟩ | hcall | hcall :=
    lookAt_call s c token expectedId (.lookup how) waits
  · rw [hcall]
    cases how with
    | byName name => exact hname.trans hknows.2
    | byId id | bySearch matchFunc => trivial
  · rw [hcall]
    cases how with
    | byName name =>
      obtain ⟨hid, hmode⟩ | ⟨hne, _⟩ := look_contended hlook
      · exact ⟨hmode, by rw [lookExpected, if_pos ⟨hid, hmode⟩], hname.trans hknows.2⟩
      · exact absurd hknows.1 hne
    | byId id | bySearch matchFunc => trivial
  · rw [hcall]
    trivial
  · rw [hcall]
    trivial

theorem Quiet.lookAt (hinv : Inv idtype s) {how : Lookup}
    (h : Looks idtype s c token expectedId (.lookup how)) :
    Quiet idtype c s (s.lookAt c token expectedId waits (.lookup how)) where
  others d hd := Shared.calls_lookAt hd _
  stores i name := lookAt_stores hinv h
  names d _ i _ := lookAt_nameEntry i
  own token' name hcall := by
    obtain h | ⟨_, h, _⟩ | h | h := lookAt_call s c token expectedId (.lookup how) waits <;>
      cases h.symm.trans hcall

theorem NamesInv.lookAt (hinv : Inv idtype s) (hnames : NamesInv idtype s) {how : Lookup}
    (h : Looks idtype s c token expectedId (.lookup how))
    (hknows : how.Knows s token expectedId) :
    NamesInv idtype (s.lookAt c token expectedId waits (.lookup how)) :=
  hnames.quiet (Quiet.lookAt hinv h) (lookAt_named hknows)

theorem NamesInv.failed (hnames : NamesInv idtype s) : NamesInv idtype (s.failed c purpose) := by
  obtain ⟨call, lock, hcall, heq⟩ := s.failed_eq c purpose
  have hown : (s.leave c call lock).calls c = .idle ∨ (s.leave c call lock).calls c = .stuck := by
    rwa [Shared.calls_leave_self]
  rw [heq]
  refine hnames.quiet ⟨fun d hd => Shared.calls_leave_of_ne _ hd .., fun _ _ h => h,
    fun _ _ _ _ => rfl, fun token name h => ?_⟩ ?_
  · obtain h' | h' := hown <;> cases h'.symm.trans h
  · obtain h' | h' := hown <;> rw [h'] <;> trivial

theorem NamesInv.lookup (hinv : Inv idtype s) (hnames : NamesInv idtype s) (hlock : s.lock = none)
    (hidle : s.calls c = .idle) {lockMode : LockMode} (hmode : lockMode.Shares idtype)
    (how : Lookup) : NamesInv idtype (s.lookup idtype c lockMode how) := by
  obtain hsame | ⟨token, rfl, htype, hlt, hfound, heq⟩ := s.lookup_cases idtype c lockMode how
  · rwa [hsame]
  rw [heq]
  unfold Shared.convert
  split
  · rename_i hvalid
    rw [hmode.startExpected]
    refine hnames.lookAt hinv ⟨hlock, by rw [hidle]; trivial, by rw [hidle]; exact id,
      ⟨htype, hmode, hlt, hinv.found_fits hlt hfound hvalid, hvalid⟩, trivial, .inl rfl⟩ ?_
    cases how with
    | byName name => exact ⟨hfound.1.symm, hfound.2.2⟩
    | byId id | bySearch matchFunc => trivial
  · exact hnames.failed

theorem NamesInv.wake (hinv : Inv idtype s) (hnames : NamesInv idtype s) (hlock : s.lock = none)
    (hcall : s.calls c = .waiting token expectedId waits purpose) :
    NamesInv idtype (s.lookAt c token expectedId waits purpose) := by
  have hnamed := hnames.named c
  have hlooks := hinv.looks hlock hcall
  rw [hcall] at hnamed
  cases purpose with
  | creation name initialized => exact hnamed.elim
  | lookup how =>
    refine hnames.lookAt hinv hlooks ?_
    cases how with
    | byName name =>
      obtain ⟨hmode, rfl, hname⟩ := hnamed
      have hmarks : (s.calls c).Marks token.slot := by
        rw [hcall]
        exact ⟨hmode, rfl, rfl⟩
      exact ⟨hinv.marked hmarks, hname⟩
    | byId id | bySearch matchFunc => trivial

/-- Finishing a call names nothing. -/
theorem NamesInv.finish (hinv : Inv idtype s) (hnames : NamesInv idtype s)
    (hcall : s.calls c = .holding token purpose) (finalId : Option ObjectId) :
    NamesInv idtype (s.finish c token finalId) := by
  have hheld : (s.calls c).Holds token.slot := by
    rw [hcall]
    rfl
  have hname : ∀ i, ((s.finish c token finalId).table.records i).nameEntry =
      (s.table.records i).nameEntry := by
    intro i
    by_cases hi : i = token.slot
    · subst hi
      simp [Shared.finish, finishRecord]
    · exact congrArg _ (Table.records_setRecord_of_ne _ hi _)
  have hown : (s.finish c token finalId).calls c = .idle := Shared.calls_leave_self ..
  refine hnames.quiet ⟨fun d hd => Shared.calls_leave_of_ne _ hd .., fun i name h => ?_,
    fun d _ i _ => hname i, fun token' name h => by cases hown.symm.trans h⟩ (by rw [hown]; trivial)
  obtain ⟨hlt, hdefined, hnamed⟩ := h
  refine ⟨hlt, ?_, (hname i).symm.trans hnamed⟩
  by_cases hi : i = token.slot
  · subst hi
    exact hinv.held hheld
  · rwa [Shared.finish, Shared.table_leave, Shared.table_setRecord,
      Table.records_setRecord_of_ne _ hi] at hdefined

end

/-! ## Creations -/

section

variable {s : Shared platform} {c : Caller platform} {name : Option String}

/-- The new id is converted at once. -/
theorem convert_issued {creator : ObjectId} {place : Nat × Nat}
    (hvalid : objectIdIsValid (objectIdCompose idtype place.2)) (purpose : Purpose) :
    ({ s with table := s.table.issue idtype creator place }.convert c
        ⟨.exclusive, idtype, place.1, objectIdCompose idtype place.2⟩ purpose) =
      ({ s with table := s.table.issue idtype creator place }.setRecord place.1
        { activeId := OS_OBJECT_ID_RESERVED, creator := creator, refcount := 1 }).leave c
          (.holding ⟨.exclusive, idtype, place.1, objectIdCompose idtype place.2⟩ purpose)
          none := by
  have hrecord : (s.table.issue idtype creator place).records place.1 =
      { activeId := objectIdCompose idtype place.2, creator := creator } :=
    Table.records_setRecord ..
  have hslot : Token.slot ⟨.exclusive, idtype, place.1, objectIdCompose idtype place.2⟩ = place.1 :=
    rfl
  have hstart : startExpected ⟨.exclusive, idtype, place.1, objectIdCompose idtype place.2⟩ =
      objectIdCompose idtype place.2 := rfl
  have hlook : look .exclusive (objectIdCompose idtype place.2)
      ({ activeId := objectIdCompose idtype place.2, creator := creator } : CommonRecord) =
        .granted := by
    simp [look]
  rw [Shared.convert, if_pos hvalid, hstart]
  simp only [Shared.lookAt, hslot, hrecord, hlook]
  rw [Shared.granted, hslot, Shared.setRecord_setRecord, Shared.table_setRecord,
    Table.records_setRecord]
  simp [lookRecord, CommonRecord.acquire]

/-- Nobody else has to do with a free place. -/
theorem Inv.free_place (hinv : Inv idtype s) {i : Nat} {d : Caller platform}
    (hfree : (s.table.records i).activeId = OS_OBJECT_ID_UNDEFINED) :
    ¬ (s.calls d).Holds i ∧ ¬ (s.calls d).Marks i :=
  ⟨fun hheld => hinv.held hheld hfree,
    fun hmarks => absurd ((hinv.marked hmarks).symm.trans hfree) (by decide)⟩

/-- A refused creation leaves a record without a name. -/
theorem NamesInv.refused (hinv : Inv idtype s) (hnames : NamesInv idtype s)
    (hidle : s.calls c = .idle) {place : Nat × Nat} (creator : ObjectId)
    (hfree : (s.table.records place.1).activeId = OS_OBJECT_ID_UNDEFINED) :
    NamesInv idtype { s with table := s.table.issue idtype creator place } := by
  have hother : ∀ j, j ≠ place.1 →
      (s.table.issue idtype creator place).records j = s.table.records j :=
    fun j hj => Table.records_setRecord_of_ne _ hj _
  have hown : (s.table.issue idtype creator place).records place.1 =
      { activeId := objectIdCompose idtype place.2, creator := creator } :=
    Table.records_setRecord ..
  refine hnames.quiet (c := c) ⟨fun _ _ => rfl, fun i text h => ?_, fun d _ i h => ?_,
    fun token text h => ?_⟩ ?_
  · obtain ⟨hlt, hdefined, hname⟩ := h
    by_cases hi : i = place.1
    · subst hi
      rw [hown] at hname
      cases hname
    · rw [hother i hi] at hdefined hname
      exact ⟨hlt, hdefined, hname⟩
  · by_cases hi : i = place.1
    · subst hi
      exact h.elim (fun h => absurd h (hinv.free_place hfree).1)
        fun h => absurd h (hinv.free_place hfree).2
    · dsimp only
      rw [hother i hi]
  · exact nomatch hidle.symm.trans h
  · dsimp only
    rw [hidle]
    trivial

/-- A record has got its new id: its creation is the only one to use the name. -/
theorem NamesInv.converted (hinv : Inv idtype s) (hnames : NamesInv idtype s)
    {place : Nat × Nat} (creator : ObjectId)
    (hfree : (s.table.records place.1).activeId = OS_OBJECT_ID_UNDEFINED)
    (hunnamed : Unnamed platform.toObjectLimits idtype name s.table)
    (hfresh : ∀ text, name = some text → ∀ i, ¬ s.Awaits i text) :
    NamesInv idtype (({ s with table := s.table.issue idtype creator place }.setRecord place.1
      { activeId := OS_OBJECT_ID_RESERVED, creator := creator, refcount := 1 }).leave c
        (.holding ⟨.exclusive, idtype, place.1, objectIdCompose idtype place.2⟩
          (.creation name false)) none) := by
  generalize hs' : (({ s with table := s.table.issue idtype creator place }.setRecord place.1
      { activeId := OS_OBJECT_ID_RESERVED, creator := creator, refcount := 1 }).leave c
        (.holding ⟨.exclusive, idtype, place.1, objectIdCompose idtype place.2⟩
          (.creation name false)) none) = s'
  have hcall : s'.calls c = .holding ⟨.exclusive, idtype, place.1,
      objectIdCompose idtype place.2⟩ (.creation name false) := by
    rw [← hs', Shared.calls_leave_self]
  have hcalls : ∀ d, d ≠ c → s'.calls d = s.calls d := by
    intro d hd
    rw [← hs', Shared.calls_leave_of_ne _ hd, Shared.calls_setRecord]
  have hother : ∀ j, j ≠ place.1 → s'.table.records j = s.table.records j := by
    intro j hj
    rw [← hs', Shared.table_leave, Shared.table_setRecord, Table.records_setRecord_of_ne _ hj]
    exact Table.records_setRecord_of_ne _ hj _
  have hown : (s'.table.records place.1).nameEntry = none := by
    rw [← hs', Shared.table_leave, Shared.table_setRecord, Table.records_setRecord]
  -- a record that carries a name is the new one, or carried it before
  have hcarries : ∀ i text, s'.Carries idtype i text →
      (i = place.1 ∧ name = some text) ∨ s.Carries idtype i text := by
    rintro i text (⟨hlt, hdefined, hname⟩ | ⟨d, token, hcall', hslot⟩)
    · by_cases hi : i = place.1
      · subst hi
        rw [hown] at hname
        cases hname
      · rw [hother i hi] at hdefined hname
        exact .inr (.inl ⟨hlt, hdefined, hname⟩)
    · by_cases hd : d = c
      · subst hd
        cases hcall.symm.trans hcall'
        exact .inl ⟨hslot.symm, rfl⟩
      · exact .inr (.inr ⟨d, token, (hcalls d hd).symm.trans hcall', hslot⟩)
  have hnew : ∀ i text, name = some text → ¬ s.Carries idtype i text := by
    rintro i text htext (⟨hlt, hdefined, hname⟩ | hawaits)
    · exact hunnamed text htext i hlt hdefined hname
    · exact hfresh text htext i hawaits
  refine ⟨fun i j text hi hj => ?_, fun d => ?_⟩
  · obtain ⟨rfl, htext⟩ | hi := hcarries i text hi
    · obtain ⟨rfl, _⟩ | hj := hcarries j text hj
      · rfl
      · exact absurd hj (hnew j text htext)
    · obtain ⟨rfl, htext⟩ | hj := hcarries j text hj
      · exact absurd hi (hnew i text htext)
      · exact hnames.unique i j text hi hj
  · by_cases hd : d = c
    · subst hd
      rw [hcall]
      trivial
    · rw [hcalls d hd]
      refine (hnames.named d).congr fun i h => ?_
      by_cases hi : i = place.1
      · subst hi
        exact h.elim (fun h => absurd h (hinv.free_place hfree).1)
          fun h => absurd h (hinv.free_place hfree).2
      · rw [hother i hi]

theorem NamesInv.allocateNew (hinv : Inv idtype s) (hnames : NamesInv idtype s)
    (hidle : s.calls c = .idle) (creator : ObjectId) (notifyEvent : ObjectId → Int)
    (hfresh : ∀ text, name = some text → ∀ i, ¬ s.Awaits i text) :
    NamesInv idtype (s.allocateNew idtype c creator notifyEvent name) := by
  obtain hsame | ⟨place, hmax, hplace, hunnamed, hnext⟩ :=
    s.allocateNew_cases idtype c creator notifyEvent name
  · rwa [hsame]
  obtain ⟨hlt, hfree, _, hvalid⟩ := allocation_spec hmax hplace
  obtain hconverts | hfails := hnext
  · rw [hconverts, convert_issued hvalid]
    exact hnames.converted hinv creator hfree hunnamed hfresh
  · rw [hfails]
    exact (hnames.refused hinv hidle creator hfree).failed

theorem Inv.creates (hinv : Inv idtype s) {token : Token} {initialized : Bool}
    (hcall : s.calls c = .holding token (.creation name initialized)) :
    token.lockMode = .exclusive := by
  have hsound := hinv.sound c
  rw [hcall] at hsound
  exact hsound.2.1

/-- The name a creation has checked is stored in its record. -/
theorem NamesInv.objectInit (hinv : Inv idtype s) (hnames : NamesInv idtype s) {token : Token}
    {text : String} (hcall : s.calls c = .holding token (.creation (some text) false)) :
    NamesInv idtype ((s.setRecord token.slot
      { s.table.records token.slot with nameEntry := some text }).leave c
        (.holding token (.creation (some text) true)) s.lock) := by
  generalize hs' : (s.setRecord token.slot
      { s.table.records token.slot with nameEntry := some text }).leave c
        (.holding token (.creation (some text) true)) s.lock = s'
  have hcall' : s'.calls c = .holding token (.creation (some text) true) := by
    rw [← hs', Shared.calls_leave_self]
  have hcalls : ∀ d, d ≠ c → s'.calls d = s.calls d := by
    intro d hd
    rw [← hs', Shared.calls_leave_of_ne _ hd, Shared.calls_setRecord]
  have hother : ∀ j, j ≠ token.slot → s'.table.records j = s.table.records j := by
    intro j hj
    rw [← hs', Shared.table_leave, Shared.table_setRecord, Table.records_setRecord_of_ne _ hj]
  have hown : (s'.table.records token.slot).nameEntry = some text := by
    rw [← hs', Shared.table_leave, Shared.table_setRecord, Table.records_setRecord]
  have hcarries : ∀ i other, s'.Carries idtype i other → s.Carries idtype i other := by
    rintro i other (⟨hlt, hdefined, hname⟩ | ⟨d, token', hd', hslot⟩)
    · by_cases hi : i = token.slot
      · subst hi
        rw [hown] at hname
        cases hname
        exact .inr ⟨c, token, hcall, rfl⟩
      · rw [hother i hi] at hdefined hname
        exact .inl ⟨hlt, hdefined, hname⟩
    · by_cases hd : d = c
      · subst hd
        cases hcall'.symm.trans hd'
      · exact .inr ⟨d, token', (hcalls d hd).symm.trans hd', hslot⟩
  refine ⟨fun i j other hi hj => hnames.unique i j other (hcarries i other hi)
    (hcarries j other hj), fun d => ?_⟩
  by_cases hd : d = c
  · subst hd
    rw [hcall']
    trivial
  · rw [hcalls d hd]
    refine (hnames.named d).congr fun i h => ?_
    by_cases hi : i = token.slot
    · subst hi
      have halone := hinv.alone hcall (.inl (hinv.creates hcall)) d hd
      exact h.elim (fun h => absurd h halone.1) fun h => absurd h halone.2
    · rw [hother i hi]

end

/-! ## Runs -/

/-- The call is a creation that has checked the name and not stored it. -/
def CallState.Unstored (name : String) : CallState → Prop
  | .holding _ (.creation (some other) false) => other = name
  | _ => False

instance (name : String) (call : CallState) : Decidable (call.Unstored name) := by
  unfold CallState.Unstored
  split <;> infer_instance

/-- Nobody begins a creation under a name that another creation has checked and not stored. -/
def Apart (s : Shared platform) : Act platform → Prop
  | .allocateNew _ _ _ (some name) => ∀ c, ¬ (s.calls c).Unstored name
  | _ => True

instance (s : Shared platform) (a : Act platform) : Decidable (Apart s a) := by
  unfold Apart
  split <;> infer_instance

theorem Shared.Awaits.unstored {s : Shared platform} {i : Nat} {name : String}
    (h : s.Awaits i name) : ∃ c, (s.calls c).Unstored name := by
  obtain ⟨c, token, hcall, _⟩ := h
  exact ⟨c, by rw [hcall]; rfl⟩

theorem NamesInv.start : NamesInv idtype ({} : Shared platform) where
  unique i j name hi := by
    obtain ⟨_, hdefined, _⟩ | ⟨_, _, hcall, _⟩ := hi
    · exact absurd rfl hdefined
    · cases hcall
  named _ := trivial

theorem NamesInv.next {s s' : Shared platform} {a : Act platform} (hinv : Inv idtype s)
    (hnames : NamesInv idtype s) (hok : Apart s a) (h : s.next idtype a = some s') :
    NamesInv idtype s' := by
  cases a with
  | lookup c lockMode how =>
    obtain ⟨hidle, hlock, hmode, rfl⟩ := next_lookup.mp h
    exact hnames.lookup hinv hlock hidle hmode how
  | wake c =>
    obtain ⟨token, expectedId, waits, purpose, hcall, hlock, rfl⟩ := next_wake.mp h
    exact hnames.wake hinv hlock hcall
  | allocateNew c creator notifyEvent name =>
    obtain ⟨hidle, _, rfl⟩ := next_allocateNew.mp h
    refine hnames.allocateNew hinv hidle creator notifyEvent fun text htext i hawaits => ?_
    subst htext
    obtain ⟨d, hd⟩ := hawaits.unstored
    exact hok d hd
  | objectInit c =>
    obtain ⟨token, name, hcall, rfl⟩ := next_objectInit.mp h
    exact hnames.objectInit hinv hcall
  | finalizeNew c operationStatus =>
    obtain ⟨token, name, initialized, hcall, _, _, rfl⟩ := next_finalizeNew.mp h
    exact hnames.finish hinv hcall _
  | finalizeDelete c operationStatus =>
    obtain ⟨token, how, hcall, _, rfl⟩ := next_finalizeDelete.mp h
    exact hnames.finish hinv hcall _
  | release c =>
    obtain ⟨token, how, hcall, _, rfl⟩ := next_release.mp h
    exact hnames.finish hinv hcall _
  | shutdown =>
    cases h
    exact ⟨hnames.unique, hnames.named⟩

theorem NamesInv.reaches {s : Shared platform} (h : (sharing platform idtype).Reaches Apart s) :
    Inv idtype s ∧ NamesInv idtype s := by
  refine @Machine.Reaches.invariant _ _ (sharing platform idtype) Apart
    (fun s => Inv idtype s ∧ NamesInv idtype s) ?_ ?_ _ h
  · rintro s rfl
    exact ⟨Inv.start, NamesInv.start⟩
  · rintro s a s' ⟨hinv, hnames⟩ hok hnext
    exact ⟨hinv.next hnext, hnames.next hinv hok hnext⟩

/-- The token is for the one record of the name, whose creation has ended, and keeps the id it has
or had before the call marked it. -/
structure Shared.Identifies (idtype : Nat) (s : Shared platform) (c : Caller platform)
    (token : Token) (name : String) : Prop where
  stores : s.Stores idtype token.slot name
  only : ∀ i, s.Carries idtype i name → i = token.slot
  finished : ∀ d token' other initialized,
    s.calls d = .holding token' (.creation other initialized) → token'.slot ≠ token.slot
  given : (s.table.records token.slot).activeId = token.objId ∨ (s.calls c).mark = some token

section

variable {s s' : Shared platform} {c : Caller platform} {token : Token} {name : String}

theorem convert_grants {purpose : Purpose} (hmode : token.lockMode.Shares idtype)
    {token' : Token} {purpose' : Purpose}
    (h : (s.convert c token purpose).calls c = .holding token' purpose') :
    token' = token ∧ purpose' = purpose ∧ objectIdIsValid token.objId := by
  unfold Shared.convert at h
  split at h
  · rename_i hvalid
    obtain h' | ⟨_, h', _⟩ | h' | h' := lookAt_call s c token (startExpected token) purpose maxWaits
    · cases h'.symm.trans h
      exact ⟨rfl, rfl, hvalid⟩
    all_goals cases h'.symm.trans h
  · have hmark := s.failed_eq c purpose
    obtain ⟨call, lock, rfl | rfl, heq⟩ := hmark <;>
      cases (heq ▸ h : (s.leave c _ lock).calls c = _).symm.trans (Shared.calls_leave_self ..)

/-- A record with a valid id, or with the mark of another call, is nobody's creation. -/
theorem Inv.creation_ended (hinv : Inv idtype s) {i : Nat}
    (h : objectIdIsValid (s.table.records i).activeId ∨
      (s.calls c).Marks i ∧ ¬ (s.calls c).Holds i) :
    ∀ d token' other initialized,
      s.calls d = .holding token' (.creation other initialized) → token'.slot ≠ i := by
  rintro d token' other initialized hcall rfl
  have hexcludes : (s.calls d).Excludes token'.slot := by
    rw [hcall]
    exact ⟨hinv.creates hcall, rfl⟩
  obtain hvalid | ⟨hmarks, hunheld⟩ := h
  · exact objectIdIsValid_ne_reserved hvalid (hinv.marked hexcludes.marks)
  · obtain rfl := hinv.sole_mark c d _ hmarks hexcludes.marks
    exact hunheld hexcludes.holds

/-- The token a lookup by name is granted. -/
theorem NamesInv.identifies (hinv : Inv idtype s) (hnames : NamesInv idtype s) {a : Act platform}
    (h : s.next idtype a = some s') (hbefore : ∀ i, ¬ (s.calls c).Holds i)
    (hafter : s'.calls c = .holding token (.lookup (.byName name))) :
    s.Identifies idtype c token name := by
  by_cases hc : a.caller = some c
  · cases a with
    | shutdown => cases hc
    | lookup c lockMode how =>
      cases hc
      obtain ⟨hidle, _, hmode, rfl⟩ := next_lookup.mp h
      obtain hsame | ⟨found, rfl, _, hlt, hfound, heq⟩ := s.lookup_cases idtype c lockMode how
      · rw [hsame, hidle] at hafter
        cases hafter
      rw [heq] at hafter
      obtain ⟨rfl, hhow, hvalid⟩ := convert_grants hmode hafter
      cases hhow
      obtain ⟨hid, hdefined, hname⟩ := hfound
      have hstores : s.Stores idtype token.slot name := ⟨hlt, hdefined, hname⟩
      exact ⟨hstores, fun i hi => hnames.unique i _ name hi (.inl hstores),
        hinv.creation_ended (c := c) (.inl (hid ▸ hvalid)), .inl hid.symm⟩
    | wake c =>
      cases hc
      obtain ⟨found, expectedId, waits, purpose, hcall, hlock, rfl⟩ := next_wake.mp h
      obtain h' | ⟨_, h', _⟩ | h' | h' := lookAt_call s c found expectedId purpose waits
      · cases h'.symm.trans hafter
        have hnamed := hnames.named c
        rw [hcall] at hnamed
        obtain ⟨hmode, rfl, hname⟩ := hnamed
        have hmarks : (s.calls c).Marks token.slot := by
          rw [hcall]
          exact ⟨hmode, rfl, rfl⟩
        have hstores : s.Stores idtype token.slot name := by
          refine ⟨(hinv.looks hlock hcall).placed.slot_lt, ?_, hname⟩
          rw [hinv.marked hmarks]
          decide
        refine ⟨hstores, fun i hi => hnames.unique i _ name hi (.inl hstores),
          hinv.creation_ended (.inr ⟨hmarks, hbefore _⟩), .inr ?_⟩
        rw [hcall, CallState.mark, if_pos ⟨hmode, rfl⟩]
      all_goals cases h'.symm.trans hafter
    | allocateNew c creator notifyEvent other =>
      cases hc
      obtain ⟨hidle, _, rfl⟩ := next_allocateNew.mp h
      obtain hsame | ⟨place, hmax, hplace, _, hconverts | hfails⟩ :=
        s.allocateNew_cases idtype c creator notifyEvent other
      · rw [hsame, hidle] at hafter
        cases hafter
      · rw [hconverts] at hafter
        have hmode : LockMode.exclusive.Shares idtype := .inr (.inr rfl)
        cases (convert_grants hmode hafter).2.1
      · rw [hfails] at hafter
        obtain ⟨call, lock, rfl | rfl, heq⟩ := Shared.failed_eq
          { s with table := s.table.issue idtype creator place } c (.creation other false) <;>
          rw [heq, Shared.calls_leave_self] at hafter <;> cases hafter
    | objectInit c =>
      cases hc
      obtain ⟨_, _, hcall, _⟩ := next_objectInit.mp h
      exact absurd (by rw [hcall]; rfl) (hbefore _)
    | finalizeNew c operationStatus =>
      cases hc
      obtain ⟨_, _, _, hcall, _⟩ := next_finalizeNew.mp h
      exact absurd (by rw [hcall]; rfl) (hbefore _)
    | finalizeDelete c operationStatus =>
      cases hc
      obtain ⟨_, _, hcall, _⟩ := next_finalizeDelete.mp h
      exact absurd (by rw [hcall]; rfl) (hbefore _)
    | release c =>
      cases hc
      obtain ⟨_, _, hcall, _⟩ := next_release.mp h
      exact absurd (by rw [hcall]; rfl) (hbefore _)
  · rw [Shared.calls_next h hc] at hafter
    exact absurd (by rw [hafter]; rfl) (hbefore token.slot)

end

/-- In a run in which creations of one name keep apart. -/
theorem names_unique {s : Shared platform} (h : (sharing platform idtype).Reaches Apart s) :
    (∀ i j name, s.Carries idtype i name → s.Carries idtype j name → i = j) ∧
    ∀ a s' c token name, s.next idtype a = some s' → (∀ i, ¬ (s.calls c).Holds i) →
      s'.calls c = .holding token (.lookup (.byName name)) → s.Identifies idtype c token name := by
  obtain ⟨hinv, hnames⟩ := NamesInv.reaches h
  exact ⟨hnames.unique, fun a s' c token name => hnames.identifies hinv⟩

theorem names_unique_created : ∃ s : Shared nos3Platform,
    s.Stores OS_OBJECT_TYPE_OS_QUEUE 1 "Q" ∧
      ∀ i, s.Carries OS_OBJECT_TYPE_OS_QUEUE i "Q" → i = 1 := by
  obtain ⟨s, hs, hstored⟩ := Machine.exists_reaches
    (M := sharing nos3Platform OS_OBJECT_TYPE_OS_QUEUE) Apart
    (fun s => (s.table.records 1).activeId == OS_OBJECT_ID_RESERVED &&
      (s.table.records 1).nameEntry == some "Q") rfl created (by decide)
  simp only [Bool.and_eq_true, beq_iff_eq] at hstored
  have hstores : s.Stores OS_OBJECT_TYPE_OS_QUEUE 1 "Q" := by
    refine ⟨by decide, ?_, hstored.2⟩
    rw [hstored.1]
    decide
  exact ⟨s, hstores, fun i hi => (names_unique hs).1 i 1 "Q" hi (.inl hstores)⟩

/-- Two tasks create a queue of one name, each before the other has stored it. -/
def createdTwice : List (Act nos3Platform) :=
  [.allocateNew 0 0 (fun _ => OS_SUCCESS) (some "Q"),
    .allocateNew 1 0 (fun _ => OS_SUCCESS) (some "Q"), .objectInit 0, .objectInit 1,
    .finalizeNew 0 OS_SUCCESS, .finalizeNew 1 OS_SUCCESS]

/-- Both succeed. -/
theorem name_used_twice : ¬ ∀ s : Shared nos3Platform,
    (sharing nos3Platform OS_OBJECT_TYPE_OS_QUEUE).Reachable s → ∀ i j name,
      s.Carries OS_OBJECT_TYPE_OS_QUEUE i name → s.Carries OS_OBJECT_TYPE_OS_QUEUE j name →
        i = j := by
  intro h
  obtain ⟨s, hs, hboth⟩ := Machine.exists_reaches
    (M := sharing nos3Platform OS_OBJECT_TYPE_OS_QUEUE) (fun _ _ => True)
    (fun s => objectIdIsValid (s.table.records 1).activeId &&
      objectIdIsValid (s.table.records 2).activeId &&
      (s.table.records 1).nameEntry == some "Q" && (s.table.records 2).nameEntry == some "Q")
    rfl createdTwice (by decide)
  simp only [Bool.and_eq_true, beq_iff_eq] at hboth
  obtain ⟨⟨⟨hfirst, hsecond⟩, hname⟩, hname'⟩ := hboth
  exact absurd (h s hs 1 2 "Q" (.inl ⟨by decide, objectIdIsValid_ne_undefined hfirst, hname⟩)
    (.inl ⟨by decide, objectIdIsValid_ne_undefined hsecond, hname'⟩)) (by decide)

end Nos3.Osal
