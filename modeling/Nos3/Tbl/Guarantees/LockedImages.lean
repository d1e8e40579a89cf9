import Nos3.Tbl.Source.TableServices

/-!
# Images that applications hold

Who may write where: the working buffer of a load belongs to one table, no handle is locked on
it, and so an image whose address was given out stays as it is until it is released.
-/
namespace Nos3.Tbl
open Nos3.Base.BigEndian (Octet)
open Nos3.Base.Transition (Machine)

theorem inactive_ne (a : Fin 2) : 1 - a ≠ a := by
  revert a
  decide

structure Wf (s : Global) : Prop where
  handles : ∀ h r, h ∈ (s.registry r).accessList ↔
    (s.handles h).usedFlag = true ∧ (s.handles h).regIndex = r
  single : ∀ r, (s.registry r).doubleBuffered = false → (s.registry r).activeBufferIndex = 0
  inactive : ∀ r i, (s.registry r).doubleBuffered = true →
    (s.registry r).loadInProgress = some i → i = (1 - (s.registry r).activeBufferIndex).val
  unlocked : ∀ h i, (s.handles h).usedFlag = true → (s.handles h).lockFlag = true →
    (s.registry (s.handles h).regIndex).doubleBuffered = true →
    (s.registry (s.handles h).regIndex).loadInProgress = some i →
    (s.handles h).bufferIndex = (s.registry (s.handles h).regIndex).activeBufferIndex
  taken : ∀ r i, (s.registry r).doubleBuffered = false →
    (s.registry r).loadInProgress = some i → (s.loadBuffs i).taken = true
  distinct : ∀ r r' i, (s.registry r).doubleBuffered = false →
    (s.registry r').doubleBuffered = false → (s.registry r).loadInProgress = some i →
    (s.registry r').loadInProgress = some i → r = r'
  owned : ∀ i, (s.loadBuffs i).taken = true →
    ∃ r, (s.registry r).doubleBuffered = false ∧ (s.registry r).loadInProgress = some i

theorem eq_of_ne_inactive {a i : Fin 2} (h : i ≠ 1 - a) : i = a := by
  revert a i
  decide

/-- What the descriptors say but for the mark of an update. -/
abbrev SameHandles (s s' : Global) : Prop :=
  ∀ h, (s'.handles h).usedFlag = (s.handles h).usedFlag ∧
    (s'.handles h).regIndex = (s.handles h).regIndex ∧
    (s'.handles h).lockFlag = (s.handles h).lockFlag ∧
    (s'.handles h).bufferIndex = (s.handles h).bufferIndex

theorem sameHandles_of_eq {s s' : Global} (h : s'.handles = s.handles) : SameHandles s s' := by
  intro handle
  rw [h]
  exact ⟨rfl, rfl, rfl, rfl⟩

/-- The two states agree in all that says whose buffers are whose. -/
structure Alike (s s' : Global) : Prop where
  registry : ∀ r, (s'.registry r).doubleBuffered = (s.registry r).doubleBuffered ∧
    (s'.registry r).accessList = (s.registry r).accessList ∧
    (s'.registry r).loadInProgress = (s.registry r).loadInProgress ∧
    (s'.registry r).activeBufferIndex = (s.registry r).activeBufferIndex
  taken : ∀ i, (s'.loadBuffs i).taken = (s.loadBuffs i).taken
  handles : SameHandles s s'

theorem Wf.alike {s s' : Global} (h : Wf s) (ha : Alike s s') : Wf s' := by
  obtain ⟨hregistry, htaken, hhandles⟩ := ha
  constructor
  · grind -ring [h.handles]
  · grind -ring [h.single]
  · grind -ring [h.inactive]
  · grind -ring [h.unlocked]
  · grind -ring [h.taken]
  · grind -ring [h.distinct]
  · grind -ring [h.owned]

@[grind =] theorem registry_setRec (s : Global) (r r' : Nat) (t : RegistryRec) :
    (s.setRec r t).registry r' = if r' = r then t else s.registry r' :=
  Function.update_apply s.registry r t r'

@[simp] theorem setRec_same (s : Global) (r : Nat) (t : RegistryRec) :
    (s.setRec r t).registry r = t := by
  rw [registry_setRec, if_pos rfl]

theorem setRec_other {s : Global} {r r' : Nat} (t : RegistryRec) (h : r' ≠ r) :
    (s.setRec r t).registry r' = s.registry r' := by
  rw [registry_setRec, if_neg h]

@[simp, grind =] theorem loadBuffs_setRec (s : Global) (r : Nat) (t : RegistryRec) :
    (s.setRec r t).loadBuffs = s.loadBuffs := rfl

@[simp, grind =] theorem handles_setRec (s : Global) (r : Nat) (t : RegistryRec) :
    (s.setRec r t).handles = s.handles := rfl

@[grind =] theorem loadBuffs_setBuff (s : Global) (i i' : Nat) (b : LoadBuff) :
    (s.setBuff i b).loadBuffs i' = if i' = i then b else s.loadBuffs i' :=
  Function.update_apply s.loadBuffs i b i'

@[simp, grind =] theorem registry_setBuff (s : Global) (i : Nat) (b : LoadBuff) :
    (s.setBuff i b).registry = s.registry := rfl

@[simp, grind =] theorem handles_setBuff (s : Global) (i : Nat) (b : LoadBuff) :
    (s.setBuff i b).handles = s.handles := rfl

theorem alike_setRec {s : Global} {r : Nat} {t : RegistryRec}
    (hdouble : t.doubleBuffered = (s.registry r).doubleBuffered)
    (haccess : t.accessList = (s.registry r).accessList)
    (hload : t.loadInProgress = (s.registry r).loadInProgress)
    (hactive : t.activeBufferIndex = (s.registry r).activeBufferIndex) :
    Alike s (s.setRec r t) := by
  refine ⟨?_, fun _ => rfl, sameHandles_of_eq rfl⟩
  intro r'
  rw [registry_setRec]
  split
  · rename_i hr
    rw [hr]
    exact ⟨hdouble, haccess, hload, hactive⟩
  · exact ⟨rfl, rfl, rfl, rfl⟩

theorem alike_setBuffer {s : Global} {r : Nat} {ref : BufferRef} {b : LoadBuff}
    (htaken : b.taken = (s.buffer r ref).taken) : Alike s (s.setBuffer r ref b) := by
  cases ref with
  | dedicated i => exact alike_setRec rfl rfl rfl rfl
  | shared i =>
    refine ⟨fun _ => ⟨rfl, rfl, rfl, rfl⟩, ?_, sameHandles_of_eq rfl⟩
    intro i'
    show ((s.setBuff i b).loadBuffs i').taken = (s.loadBuffs i').taken
    rw [loadBuffs_setBuff]
    split
    · rename_i hi
      rw [hi]
      exact htaken
    · rfl

/-! ## What a step does to the images that are held -/

/-- Handles keep what they hold, and every image that a handle has locked since its table was
loaded keeps its octets. -/
structure Keeps (s s' : Global) : Prop where
  handles : SameHandles s s'
  loaded : ∀ r, (s.registry r).tableLoadedOnce = true → (s'.registry r).tableLoadedOnce = true
  images : ∀ h, (s.handles h).usedFlag = true → (s.handles h).lockFlag = true →
    (s.registry (s.handles h).regIndex).tableLoadedOnce = true →
    ((s'.registry (s.handles h).regIndex).buffers (s.handles h).bufferIndex).image =
      ((s.registry (s.handles h).regIndex).buffers (s.handles h).bufferIndex).image

theorem Keeps.refl (s : Global) : Keeps s s :=
  ⟨sameHandles_of_eq rfl, fun _ => id, fun _ _ _ _ => rfl⟩

theorem Keeps.trans {s s' s'' : Global} (h : Keeps s s') (h' : Keeps s' s'') : Keeps s s'' := by
  obtain ⟨hhandles, hloaded, himages⟩ := h
  obtain ⟨hhandles', hloaded', himages'⟩ := h'
  constructor
  · grind -ring
  · grind -ring
  · grind -ring

/-- Only common buffers and the records of validations are different. -/
theorem Keeps.of_eq {s s' : Global} (hregistry : s'.registry = s.registry)
    (hhandles : s'.handles = s.handles) : Keeps s s' := by
  refine ⟨sameHandles_of_eq hhandles, ?_, ?_⟩
  · rw [hregistry]
    exact fun _ => id
  · rw [hregistry]
    exact fun _ _ _ _ => rfl

theorem Keeps.setBuff (s : Global) (i : Nat) (b : LoadBuff) : Keeps s (s.setBuff i b) :=
  Keeps.of_eq rfl rfl

/-- Steps that leave the state in order and the images that are held alone. -/
def Safe (s s' : Global) : Prop := Wf s → Wf s' ∧ Keeps s s'

theorem Safe.refl (s : Global) : Safe s s := fun h => ⟨h, Keeps.refl s⟩

theorem Safe.trans {s s' s'' : Global} (h : Safe s s') (h' : Safe s' s'') : Safe s s'' := by
  intro hwf
  obtain ⟨hwf', hkeeps⟩ := h hwf
  obtain ⟨hwf'', hkeeps'⟩ := h' hwf'
  exact ⟨hwf'', hkeeps.trans hkeeps'⟩

theorem Keeps.of_setRec {s : Global} {r : Nat} {t : RegistryRec}
    (hloaded : (s.registry r).tableLoadedOnce = true → t.tableLoadedOnce = true)
    (himages : ∀ i, (t.buffers i).image = ((s.registry r).buffers i).image) :
    Keeps s (s.setRec r t) := by
  constructor
  · exact sameHandles_of_eq rfl
  · grind -ring
  · grind -ring

/-- A step on a record that is about neither its buffers nor its load. -/
theorem Safe.of_setRec {s : Global} {r : Nat} {t : RegistryRec} (ha : Alike s (s.setRec r t))
    (hloaded : t.tableLoadedOnce = (s.registry r).tableLoadedOnce)
    (hbuffers : t.buffers = (s.registry r).buffers) : Safe s (s.setRec r t) :=
  fun h => ⟨h.alike ha, Keeps.of_setRec hloaded.trans fun _ => by rw [hbuffers]⟩

/-- Buffer `i` of a table may be written where no handle with a loaded image is locked on it. -/
theorem Keeps.of_buffer {s : Global} {r : Nat} {i : Fin 2} {t : RegistryRec} {b : LoadBuff}
    (hloaded : t.tableLoadedOnce = (s.registry r).tableLoadedOnce)
    (hbuffers : t.buffers = Function.update (s.registry r).buffers i b)
    (hfree : ∀ h, (s.handles h).usedFlag = true → (s.handles h).lockFlag = true →
      (s.handles h).regIndex = r → (s.registry r).tableLoadedOnce = true →
      (s.handles h).bufferIndex ≠ i) : Keeps s (s.setRec r t) := by
  refine ⟨sameHandles_of_eq rfl, ?_, ?_⟩
  · grind -ring
  · intro h hused hlocked hload
    by_cases hr : (s.handles h).regIndex = r
    · rw [hr] at hload ⊢
      rw [setRec_same, hbuffers, Function.update_of_ne (hfree h hused hlocked hr hload)]
    · rw [setRec_other _ hr]

theorem working_eq_shared {t : RegistryRec} {i : Nat} :
    t.working = some (.shared i) ↔ t.doubleBuffered = false ∧ t.loadInProgress = some i := by
  unfold RegistryRec.working
  cases t.loadInProgress with
  | none => simp
  | some j => cases t.doubleBuffered <;> simp

theorem working_eq_dedicated {t : RegistryRec} {i : Fin 2} :
    t.working = some (.dedicated i) ↔ t.doubleBuffered = true ∧
      (∃ index, t.loadInProgress = some index) ∧ 1 - t.activeBufferIndex = i := by
  unfold RegistryRec.working
  cases t.loadInProgress with
  | none => simp
  | some j => cases t.doubleBuffered <;> simp

/-- The working buffer of a load may be filled: no handle is locked on it. -/
theorem Keeps.of_working {s : Global} (hwf : Wf s) {r : Nat} {ref : BufferRef}
    (hworking : (s.registry r).working = some ref) (b : LoadBuff) :
    Keeps s (s.setBuffer r ref b) := by
  cases ref with
  | shared i => exact Keeps.setBuff s i b
  | dedicated i =>
    obtain ⟨hdouble, ⟨index, hload⟩, rfl⟩ := working_eq_dedicated.mp hworking
    refine Keeps.of_buffer rfl rfl ?_
    rintro h hused hlocked rfl _
    rw [hwf.unlocked h index hused hlocked hdouble hload]
    exact (inactive_ne _).symm

/-- So may the active buffer of a table that was never loaded. -/
theorem Keeps.of_notLoaded {s : Global} {r : Nat} {i : Fin 2}
    (hnot : (s.registry r).tableLoadedOnce = false) (b : LoadBuff) :
    Keeps s (s.setBuffer r (.dedicated i) b) := by
  refine Keeps.of_buffer rfl rfl ?_
  intro h _ _ _ hloaded
  rw [hnot] at hloaded
  cases hloaded

/-! ## Starting and ending a load -/

/-- Where a load may go: to its buffer, to the active one before anything was loaded, or to one
that is free. -/
theorem getWorkingBuffer_cases (r : Nat) (calledByApp : Bool) (s : Global) :
    getWorkingBuffer r calledByApp s = (none, s) ∨
    (∃ ref, (s.registry r).working = some ref ∧
      getWorkingBuffer r calledByApp s = (some ref, s)) ∨
    ((s.registry r).loadInProgress = none ∧ (s.registry r).tableLoadedOnce = false ∧
      calledByApp = true ∧ getWorkingBuffer r calledByApp s = (some (.dedicated
        (if (s.registry r).doubleBuffered then (s.registry r).activeBufferIndex else 0)), s)) ∨
    ((s.registry r).loadInProgress = none ∧
      ((s.registry r).tableLoadedOnce = true ∨ calledByApp = false) ∧
      (s.registry r).doubleBuffered = true ∧
      (∀ h ∈ (s.registry r).accessList, (s.handles h).lockFlag = true →
        (s.handles h).bufferIndex = (s.registry r).activeBufferIndex) ∧
      ∃ b, getWorkingBuffer r calledByApp s =
        (some (.dedicated (1 - (s.registry r).activeBufferIndex)), startDedicated s r b)) ∨
    ((s.registry r).loadInProgress = none ∧
      ((s.registry r).tableLoadedOnce = true ∨ calledByApp = false) ∧
      (s.registry r).doubleBuffered = false ∧ ∃ i b,
        (s.loadBuffs i).taken = false ∧ b.taken = true ∧
        getWorkingBuffer r calledByApp s = (some (.shared i), startShared s r i b)) := by
  unfold getWorkingBuffer
  dsimp only
  split
  · rename_i i hload
    refine Or.inr (Or.inl ⟨_, ?_, rfl⟩)
    rw [RegistryRec.working, hload, Option.map_some]
  · rename_i hload
    split
    · rename_i hfirst
      exact Or.inr (Or.inr (Or.inl ⟨hload, hfirst.1, hfirst.2, rfl⟩))
    · rename_i hlater
      have hlater : (s.registry r).tableLoadedOnce = true ∨ calledByApp = false := by
        grind -ring
      split
      · rename_i hdouble
        split
        · exact Or.inl rfl
        · rename_i hfree
          refine Or.inr (Or.inr (Or.inr (Or.inl ⟨hload, hlater, hdouble, ?_, _, rfl⟩)))
          intro h hmem hlocked
          refine eq_of_ne_inactive fun heq => hfree ?_
          exact List.any_eq_true.mpr ⟨h, hmem, by simp [heq, hlocked]⟩
      · rename_i hsingle
        split
        · exact Or.inl rfl
        · rename_i i hfound
          have hfree : (s.loadBuffs i).taken = false := by
            simpa using List.find?_some hfound
          exact Or.inr (Or.inr (Or.inr (Or.inr ⟨hload, hlater, Bool.eq_false_iff.mpr hsingle, i, _,
            hfree, rfl, rfl⟩)))

section Start
variable {s : Global} {r i : Nat} {b : LoadBuff}

theorem Wf.startDedicated (h : Wf s) (hdouble : (s.registry r).doubleBuffered = true)
    (hunlocked : ∀ h ∈ (s.registry r).accessList, (s.handles h).lockFlag = true →
      (s.handles h).bufferIndex = (s.registry r).activeBufferIndex) :
    Wf (startDedicated s r b) := by
  have hhandles := h.handles
  constructor <;> simp only [Tbl.startDedicated, registry_setRec, loadBuffs_setRec, handles_setRec]
  · grind -ring
  · grind -ring [h.single]
  · grind -ring [h.inactive]
  · grind -ring [h.unlocked]
  · grind -ring [h.taken]
  · grind -ring [h.distinct]
  · grind -ring [h.owned]

theorem Keeps.startDedicated (h : Wf s)
    (hunlocked : ∀ h ∈ (s.registry r).accessList, (s.handles h).lockFlag = true →
      (s.handles h).bufferIndex = (s.registry r).activeBufferIndex) :
    Keeps s (startDedicated s r b) := by
  refine Keeps.of_buffer rfl rfl ?_
  intro handle hused hlocked hr _
  rw [hunlocked handle ((h.handles handle r).mpr ⟨hused, hr⟩) hlocked]
  exact (inactive_ne _).symm

theorem working_startDedicated (hdouble : (s.registry r).doubleBuffered = true) :
    ((startDedicated s r b).registry r).working =
      some (.dedicated (1 - (s.registry r).activeBufferIndex)) := by
  simp only [Tbl.startDedicated, setRec_same, RegistryRec.working, Option.map_some, hdouble,
    if_true]

theorem Wf.startShared (h : Wf s) (hload : (s.registry r).loadInProgress = none)
    (hsingle : (s.registry r).doubleBuffered = false)
    (hfree : (s.loadBuffs i).taken = false) (hb : b.taken = true) : Wf (startShared s r i b) := by
  have hhandles := h.handles
  constructor <;> simp only [Tbl.startShared, registry_setBuff, registry_setRec, loadBuffs_setBuff,
    loadBuffs_setRec, handles_setBuff, handles_setRec]
  · grind -ring
  · grind -ring [h.single]
  · grind -ring [h.inactive]
  · grind -ring [h.unlocked]
  · grind -ring [h.taken]
  · grind -ring [h.distinct, h.taken]
  · grind -ring [h.owned]

theorem Keeps.startShared : Keeps s (startShared s r i b) := by
  refine Keeps.trans ?_ (Keeps.setBuff _ i b)
  exact Keeps.of_setRec id fun _ => rfl

theorem working_startShared (hsingle : (s.registry r).doubleBuffered = false) :
    ((startShared s r i b).registry r).working = some (.shared i) := by
  simp only [Tbl.startShared, registry_setBuff, setRec_same, RegistryRec.working,
    Option.map_some, hsingle, Bool.false_eq_true, if_false]

end Start

/-- The load of one table is over: its common buffer, if it had one, is free again. -/
structure Ends (r : Nat) (s s' : Global) : Prop where
  registry : ∀ r', (s'.registry r').doubleBuffered = (s.registry r').doubleBuffered ∧
    (s'.registry r').accessList = (s.registry r').accessList
  others : ∀ r', r' ≠ r → (s'.registry r').loadInProgress = (s.registry r').loadInProgress ∧
    (s'.registry r').activeBufferIndex = (s.registry r').activeBufferIndex
  ended : (s'.registry r).loadInProgress = none
  active : (s.registry r).doubleBuffered = false →
    (s'.registry r).activeBufferIndex = (s.registry r).activeBufferIndex
  freed : ∀ i, (s'.loadBuffs i).taken = true ↔ (s.loadBuffs i).taken = true ∧
    ¬((s.registry r).doubleBuffered = false ∧ (s.registry r).loadInProgress = some i)
  handles : SameHandles s s'

theorem Wf.ends {s s' : Global} {r : Nat} (h : Wf s) (he : Ends r s s') : Wf s' := by
  obtain ⟨hregistry, hothers, hended, hactive, hfreed, hhandles⟩ := he
  have hlinked := h.handles
  constructor
  · grind -ring
  · grind -ring [h.single]
  · grind -ring [h.inactive]
  · grind -ring [h.unlocked]
  · grind -ring [h.taken, h.distinct]
  · grind -ring [h.distinct]
  · grind -ring [h.owned]

theorem handles_notify (r : Nat) (s : Global) : SameHandles s (notifyTblUsersOfUpdate r s) := by
  intro h
  unfold notifyTblUsersOfUpdate
  dsimp only
  split <;> exact ⟨rfl, rfl, rfl, rfl⟩

theorem registry_notify (r : Nat) (s : Global) (r' : Nat) :
    (notifyTblUsersOfUpdate r s).registry r' =
      if r' = r then { s.registry r with
        loadInProgress := none, loadPending := false, tableLoadedOnce := true }
      else s.registry r' :=
  registry_setRec s r r' _

theorem loadBuffs_notify (r : Nat) (s : Global) :
    (notifyTblUsersOfUpdate r s).loadBuffs = s.loadBuffs := rfl

theorem keeps_notify (r : Nat) (s : Global) : Keeps s (notifyTblUsersOfUpdate r s) := by
  refine ⟨handles_notify r s, ?_, ?_⟩
  · intro r' hloaded
    rw [registry_notify]
    split
    · rfl
    · exact hloaded
  · intro h _ _ _
    rw [registry_notify]
    split
    · rename_i hr
      rw [hr]
    · rfl

/-- The first load ends without a buffer to free. -/
theorem ends_notify {r : Nat} {s : Global} (hload : (s.registry r).loadInProgress = none) :
    Ends r s (notifyTblUsersOfUpdate r s) := by
  constructor
  · grind -ring [registry_notify]
  · grind -ring [registry_notify]
  · grind -ring [registry_notify]
  · grind -ring [registry_notify]
  · grind -ring [loadBuffs_notify]
  · exact handles_notify r s

/-- What an update does: nothing, a change of the active buffer, or a copy into it. -/
theorem updateInternal_cases (r : Nat) (s : Global) :
    (updateInternal r s).2 = s ∨
    ∃ i, (s.registry r).loadInProgress = some i ∧
      (((s.registry r).doubleBuffered = true ∧ (updateInternal r s).2 =
        notifyTblUsersOfUpdate r (swapBuffers r (Fin.ofNat 2 i) s)) ∨
      ((s.registry r).doubleBuffered = false ∧
        (∀ h ∈ (s.registry r).accessList, (s.handles h).lockFlag = false) ∧
        (updateInternal r s).2 = notifyTblUsersOfUpdate r (copyBuffer r i s))) := by
  unfold updateInternal
  dsimp only
  split
  · exact Or.inl rfl
  · rename_i i hload
    split
    · exact Or.inl rfl
    · split
      · rename_i hdouble
        exact Or.inr ⟨i, hload, Or.inl ⟨hdouble, rfl⟩⟩
      · rename_i hsingle
        split
        · exact Or.inl rfl
        · rename_i hfree
          refine Or.inr ⟨i, hload, Or.inr ⟨Bool.eq_false_iff.mpr hsingle, ?_, rfl⟩⟩
          intro h hmem
          refine Bool.eq_false_iff.mpr fun hlocked => hfree ?_
          exact List.any_eq_true.mpr ⟨h, hmem, hlocked⟩

theorem ends_swapBuffers {s : Global} {r : Nat} (active : Fin 2)
    (hdouble : (s.registry r).doubleBuffered = true) :
    Ends r s (notifyTblUsersOfUpdate r (swapBuffers r active s)) := by
  constructor
  · grind -ring [registry_notify, swapBuffers]
  · grind -ring [registry_notify, swapBuffers]
  · grind -ring [registry_notify]
  · grind -ring
  · grind -ring [loadBuffs_notify, swapBuffers]
  · exact handles_notify r _

theorem ends_copyBuffer {s : Global} {r i : Nat} (hload : (s.registry r).loadInProgress = some i)
    (hsingle : (s.registry r).doubleBuffered = false) :
    Ends r s (notifyTblUsersOfUpdate r (copyBuffer r i s)) := by
  refine ⟨?_, ?_, ?_, ?_, ?_, handles_notify r _⟩ <;> simp only [copyBuffer, registry_notify,
    loadBuffs_notify, registry_setBuff, registry_setRec, loadBuffs_setBuff, loadBuffs_setRec]
  · grind -ring
  · grind -ring
  · grind -ring
  · grind -ring
  · grind -ring

theorem keeps_copyBuffer {s : Global} (h : Wf s) {r : Nat} (i : Nat)
    (hfree : ∀ h ∈ (s.registry r).accessList, (s.handles h).lockFlag = false) :
    Keeps s (copyBuffer r i s) := by
  refine Keeps.trans ?_ (Keeps.setBuff _ i _)
  refine Keeps.of_buffer rfl rfl ?_
  intro handle hused hlocked hr _
  rw [hfree handle ((h.handles handle r).mpr ⟨hused, hr⟩)] at hlocked
  cases hlocked

theorem updateInternal_safe (r : Nat) (s : Global) : Safe s (updateInternal r s).2 := by
  intro h
  rcases updateInternal_cases r s with hsame | ⟨i, hload, hcase⟩
  · rw [hsame]
    exact ⟨h, Keeps.refl s⟩
  · rcases hcase with ⟨hdouble, hupdate⟩ | ⟨hsingle, hfree, hupdate⟩
    · rw [hupdate]
      have hswap : Keeps s (swapBuffers r (Fin.ofNat 2 i) s) := Keeps.of_setRec id fun _ => rfl
      exact ⟨h.ends (ends_swapBuffers _ hdouble), hswap.trans (keeps_notify r _)⟩
    · rw [hupdate]
      exact ⟨h.ends (ends_copyBuffer hload hsingle),
        (keeps_copyBuffer h i hfree).trans (keeps_notify r _)⟩

theorem loadBuffs_freeBuff (s : Global) (index : Option Nat) (i : Nat) :
    ((freeBuff s index).loadBuffs i).taken = true ↔
      (s.loadBuffs i).taken = true ∧ index ≠ some i := by
  cases index with
  | none => exact ⟨fun h => ⟨h, Option.some_ne_none i |>.symm⟩, fun h => h.1⟩
  | some j => grind -ring [freeBuff]

theorem registry_freeBuff (s : Global) (index : Option Nat) :
    (freeBuff s index).registry = s.registry := by
  cases index <;> rfl

theorem handles_freeBuff (s : Global) (index : Option Nat) :
    (freeBuff s index).handles = s.handles := by
  cases index <;> rfl

/-- A load that ends without an update: its record, with the buffers that are free again. -/
theorem ends_setRec {s s' : Global} {r : Nat} {t : RegistryRec}
    (hregistry : s'.registry = s.registry) (hhandles : s'.handles = s.handles)
    (hfreed : ∀ i, (s'.loadBuffs i).taken = true ↔ (s.loadBuffs i).taken = true ∧
      ¬((s.registry r).doubleBuffered = false ∧ (s.registry r).loadInProgress = some i))
    (hsame : t.doubleBuffered = (s.registry r).doubleBuffered ∧
      t.accessList = (s.registry r).accessList ∧
      t.activeBufferIndex = (s.registry r).activeBufferIndex)
    (hover : t.loadInProgress = none) : Ends r s (s'.setRec r t) := by
  constructor
  · grind -ring
  · grind -ring
  · grind -ring
  · grind -ring
  · grind -ring
  · exact sameHandles_of_eq hhandles

/-- A load that is given up: its common buffer is free again, where it had one. -/
theorem safe_giveUp {s s' : Global} {r : Nat} {t : RegistryRec}
    (hbuffs : s' = freeBuff s (s.registry r).loadInProgress ∧
        (s.registry r).doubleBuffered = false ∨
      s' = s ∧ ((s.registry r).doubleBuffered = true ∨ (s.registry r).loadInProgress = none))
    (hsame : t.doubleBuffered = (s.registry r).doubleBuffered ∧
      t.accessList = (s.registry r).accessList ∧
      t.activeBufferIndex = (s.registry r).activeBufferIndex)
    (hloaded : t.tableLoadedOnce = (s.registry r).tableLoadedOnce)
    (hbuffers : t.buffers = (s.registry r).buffers)
    (hover : t.loadInProgress = none) : Safe s (s'.setRec r t) := by
  have hregistry : s'.registry = s.registry := by
    rcases hbuffs with ⟨rfl, -⟩ | ⟨rfl, -⟩
    · exact registry_freeBuff s _
    · rfl
  have hhandles : s'.handles = s.handles := by
    rcases hbuffs with ⟨rfl, -⟩ | ⟨rfl, -⟩
    · exact handles_freeBuff s _
    · rfl
  have hkeeps : Keeps s (s'.setRec r t) := by
    refine (Keeps.of_eq hregistry hhandles).trans (Keeps.of_setRec ?_ ?_)
    · rw [hregistry]
      exact hloaded.trans
    · rw [hregistry, hbuffers]
      exact fun _ => rfl
  refine fun h => ⟨h.ends (ends_setRec hregistry hhandles (fun i => ?_) hsame hover), hkeeps⟩
  rcases hbuffs with ⟨rfl, hsingle⟩ | ⟨rfl, hnone⟩
  · rw [loadBuffs_freeBuff]
    simp only [hsingle, true_and, ne_eq]
  · rcases hnone with hnone | hnone <;> simp [hnone]

theorem abortLoad_safe (r : Nat) (s : Global) : Safe s (abortLoad r s) := by
  refine safe_giveUp ?_ ⟨rfl, rfl, rfl⟩ rfl rfl rfl
  split
  · rename_i hsingle
    exact Or.inl ⟨rfl, hsingle⟩
  · rename_i hdouble
    exact Or.inr ⟨rfl, Or.inl (Bool.eq_true_of_not_eq_false hdouble)⟩

/-- The buffer of a failed load is free again, as it was the load of a table loaded before. -/
theorem releaseWorkingBuffer_safe {s : Global} {r : Nat}
    (hloaded : (s.registry r).tableLoadedOnce = true ∨ (s.registry r).loadInProgress = none) :
    Safe s (releaseWorkingBuffer r s) := by
  refine safe_giveUp ?_ ⟨rfl, rfl, rfl⟩ rfl rfl rfl
  split
  · rename_i hsingle
    exact Or.inl ⟨rfl, hsingle.1⟩
  · rename_i hnot
    refine Or.inr ⟨rfl, ?_⟩
    grind -ring

/-! ## Calls -/

theorem defineAddress_safe {s s' : Global} {st : Status} {r : Nat} {src : Source}
    (hnot : (s.registry r).tableLoadedOnce = false)
    (hstep : defineAddress r src s = some (st, s')) : Safe s s' := by
  unfold defineAddress at hstep
  split at hstep
  · cases hstep
    refine fun h => ⟨h.alike (alike_setRec rfl rfl rfl rfl), sameHandles_of_eq rfl, ?_, ?_⟩
    · grind -ring
    · intro handle _ _ hloaded
      have hr : (s.handles handle).regIndex ≠ r := by
        rintro rfl
        rw [hnot] at hloaded
        cases hloaded
      rw [setRec_other _ hr]
  · cases hstep

/-- The working buffer as it was before the load, with whether the table may have it filled. -/
theorem getWorkingBuffer_safe {s s' : Global} (h : Wf s) {r : Nat} {calledByApp : Bool}
    {ref : BufferRef} (hget : getWorkingBuffer r calledByApp s = (some ref, s')) :
    Wf s' ∧ Keeps s s' ∧ (s'.registry r).tableLoadedOnce = (s.registry r).tableLoadedOnce ∧
      (((s'.registry r).working = some ref ∧ ((s.registry r).loadInProgress ≠ none ∨
          (s.registry r).tableLoadedOnce = true ∨ calledByApp = false)) ∨
        (s' = s ∧ (s.registry r).tableLoadedOnce = false ∧
          (s.registry r).loadInProgress = none ∧ calledByApp = true ∧
          ref = .dedicated (s.registry r).activeBufferIndex)) := by
  rcases getWorkingBuffer_cases r calledByApp s with hnone | ⟨ref', hworking, hsame⟩ |
    ⟨hload, hnot, happ, hfirst⟩ | ⟨hload, hlater, hdouble, hfree, b, hstart⟩ |
    ⟨hload, hlater, hsingle, i, b, hfree, hb, hstart⟩
  · rw [hnone] at hget
    cases hget
  · rw [hsame] at hget
    cases hget
    refine ⟨h, Keeps.refl s, rfl, Or.inl ⟨hworking, Or.inl fun hnone => ?_⟩⟩
    rw [RegistryRec.working, hnone] at hworking
    cases hworking
  · rw [hfirst] at hget
    cases hget
    refine ⟨h, Keeps.refl s, rfl, Or.inr ⟨rfl, hnot, hload, happ, ?_⟩⟩
    split
    · rfl
    · rename_i hsingle
      rw [h.single r (Bool.eq_false_iff.mpr hsingle)]
  · rw [hstart] at hget
    cases hget
    refine ⟨h.startDedicated hdouble hfree, Keeps.startDedicated h hfree, ?_,
      Or.inl ⟨working_startDedicated hdouble, Or.inr hlater⟩⟩
    rw [startDedicated, setRec_same]
  · rw [hstart] at hget
    cases hget
    refine ⟨h.startShared hload hsingle hfree hb, Keeps.startShared, ?_,
      Or.inl ⟨working_startShared hsingle, Or.inr hlater⟩⟩
    rw [startShared, registry_setBuff, setRec_same]

/-- The buffer that a load is given may be filled. -/
theorem fill_safe {s s' : Global} {r : Nat} {calledByApp : Bool} {ref : BufferRef}
    (hget : getWorkingBuffer r calledByApp s = (some ref, s')) {b : LoadBuff}
    (htaken : b.taken = (s'.buffer r ref).taken) : Safe s (s'.setBuffer r ref b) := by
  intro h
  obtain ⟨hwf, hkeeps, _, hworking | ⟨rfl, hnot, _, _, rfl⟩⟩ := getWorkingBuffer_safe h hget
  · exact ⟨hwf.alike (alike_setBuffer htaken), hkeeps.trans (Keeps.of_working hwf hworking.1 b)⟩
  · exact ⟨hwf.alike (alike_setBuffer htaken), Keeps.of_notLoaded hnot b⟩

theorem taken_loadSource {calculateCRC : List Octet → Nat} {t : RegistryRec} {src : Source}
    {b : LoadBuff} {loaded : Status × LoadBuff}
    (hload : loadSource calculateCRC t src b = some loaded) : loaded.2.taken = b.taken := by
  unfold loadSource at hload
  split at hload
  · cases hload
    rfl
  · obtain ⟨fromFile, hfile, rfl⟩ := Option.map_eq_some_iff.mp hload
    have hkept : fromFile.2.taken = b.taken := by
      unfold loadFromFile at hfile
      split at hfile
      · cases hfile
        rfl
      · split at hfile
        · cases hfile
          rfl
        · obtain ⟨image, _, rfl⟩ := Option.map_eq_some_iff.mp hfile
          split
          · rfl
          · split <;> rfl
    split <;> exact hkept
  · split at hload
    · cases hload
      rfl
    · cases hload
  · cases hload
    rfl

theorem taken_validateLoaded (t : RegistryRec) (loaded : Status × LoadBuff) :
    (validateLoaded t loaded).2.taken = loaded.2.taken := by
  unfold validateLoaded
  split
  · rfl
  · split
    · rfl
    · rename_i validationFunc _
      show (if validationFunc loaded.2.image = 0 then _ else _ : Status × LoadBuff).2.taken = _
      split <;> rfl

theorem setLoadPending_safe (r : Nat) (s : Global) : Safe s (setLoadPending r s) :=
  Safe.of_setRec (alike_setRec rfl rfl rfl rfl) rfl rfl

theorem setLastFileLoaded_safe (r : Nat) (name : String) (s : Global) :
    Safe s (setLastFileLoaded r name s) :=
  Safe.of_setRec (alike_setRec rfl rfl rfl rfl) rfl rfl

/-- The first load ends. -/
theorem notify_safe {r : Nat} {s : Global} (hload : (s.registry r).loadInProgress = none) :
    Safe s (notifyTblUsersOfUpdate r s) :=
  fun h => ⟨h.ends (ends_notify hload), keeps_notify r s⟩

theorem registry_setBuffer_fields (s : Global) (r : Nat) (ref : BufferRef) (b : LoadBuff) :
    ((s.setBuffer r ref b).registry r).tableLoadedOnce = (s.registry r).tableLoadedOnce ∧
    ((s.setBuffer r ref b).registry r).loadInProgress = (s.registry r).loadInProgress := by
  cases ref with
  | dedicated i =>
    rw [Global.setBuffer, setRec_same]
    exact ⟨rfl, rfl⟩
  | shared i => exact ⟨rfl, rfl⟩

theorem finishLoad_safe {s s' : Global} {r : Nat} {ref : BufferRef}
    (hload : (s.registry r).loadInProgress = none)
    (hget : getWorkingBuffer r true s = (some ref, s')) {checked : Status × LoadBuff}
    (htaken : checked.2.taken = (s'.buffer r ref).taken) :
    Safe s (finishLoad r ref checked s').2 := by
  intro h
  refine ((fill_safe hget htaken).trans ?_) h
  obtain ⟨hloaded, hindex⟩ := registry_setBuffer_fields s' r ref checked.2
  have hnone : ((s'.setBuffer r ref checked.2).registry r).tableLoadedOnce = true ∨
      ((s'.setBuffer r ref checked.2).registry r).loadInProgress = none := by
    rw [hloaded, hindex]
    obtain ⟨_, _, hsame, ⟨_, hnot | hlater | happ⟩ | ⟨rfl, _, hlip, _⟩⟩ :=
      getWorkingBuffer_safe h hget
    · exact absurd hload hnot
    · exact Or.inl (hsame.trans hlater)
    · cases happ
    · exact Or.inr hlip
  unfold finishLoad
  dsimp only
  split
  · exact releaseWorkingBuffer_safe hnone
  · split
    · exact (setLoadPending_safe r _).trans (updateInternal_safe r _)
    · rename_i hnot
      refine (setLastFileLoaded_safe r _ _).trans (notify_safe ?_)
      rw [setLastFileLoaded, setRec_same]
      exact hnone.resolve_left hnot

theorem none_of_getWorkingBuffer {r : Nat} {calledByApp : Bool} {s s' : Global}
    (hget : getWorkingBuffer r calledByApp s = (none, s')) : s' = s := by
  rcases getWorkingBuffer_cases r calledByApp s with hsame | hother
  · rw [hsame] at hget
    cases hget
    rfl
  · grind -ring

theorem load_safe {calculateCRC : List Octet → Nat} {handle app : Nat} {src : Source}
    {s s' : Global} {st : Status} (hstep : load calculateCRC handle app src s = some (st, s')) :
    Safe s s' := by
  unfold load at hstep
  dsimp only at hstep
  split at hstep
  · cases hstep
    exact Safe.refl s
  · split at hstep
    · split at hstep
      · cases hstep
        exact Safe.refl s
      · rename_i hdefine
        refine defineAddress_safe ?_ hstep
        grind -ring
    · split at hstep
      · cases hstep
        exact Safe.refl s
      · rename_i hlip
        have hnone := Option.not_isSome_iff_eq_none.mp hlip
        split at hstep
        · rename_i s1 hget
          cases hstep
          rw [none_of_getWorkingBuffer hget]
          exact Safe.refl s
        · rename_i ref s1 hget
          obtain ⟨loaded, hsource, hfinish⟩ := Option.map_eq_some_iff.mp hstep
          have htaken : (validateLoaded (s.registry (s.handles handle).regIndex) loaded).2.taken =
              (s1.buffer (s.handles handle).regIndex ref).taken := by
            rw [taken_validateLoaded, taken_loadSource hsource]
          have hsafe := finishLoad_safe hnone hget htaken
          rw [hfinish] at hsafe
          exact hsafe

theorem loadCmd_safe {calculateCRC : List Octet → Nat} {file : Option TableFile}
    {s s' : Global} {ok : Bool} (hstep : loadCmd calculateCRC file s = some (ok, s')) :
    Safe s s' := by
  have hsame : ∀ ok', some (ok', s) = some (ok, s') → Safe s s' := by
    intro ok' heq
    cases heq
    exact Safe.refl s
  unfold loadCmd at hstep
  dsimp only at hstep
  split at hstep
  · exact hsame _ hstep
  · split at hstep
    · exact hsame _ hstep
    · rename_i r hfound
      split at hstep
      · exact hsame _ hstep
      · split at hstep
        · exact hsame _ hstep
        · split at hstep
          · split at hstep
            · rename_i s1 hget
              rw [none_of_getWorkingBuffer hget] at hstep
              exact hsame _ hstep
            · rename_i ref s1 hget
              obtain ⟨loaded, hload, heq⟩ := Option.map_eq_some_iff.mp hstep
              obtain ⟨image, _, rfl⟩ := Option.map_eq_some_iff.mp hload
              cases heq
              refine fill_safe hget ?_
              split <;> rfl
          · exact hsame _ hstep

theorem setResult_safe (v : Nat) (result : ValidationResult) (s : Global) :
    Safe s (s.setResult v result) :=
  fun h => ⟨h.alike ⟨fun _ => ⟨rfl, rfl, rfl, rfl⟩, fun _ => rfl, sameHandles_of_eq rfl⟩,
    Keeps.of_eq rfl rfl⟩

theorem validateIndex_safe (r : Nat) (active inactive : Option Nat) (s : Global) :
    Safe s (s.setRec r { s.registry r with
      validateActiveIndex := active, validateInactiveIndex := inactive }) :=
  Safe.of_setRec (alike_setRec rfl rfl rfl rfl) rfl rfl

theorem validateCmd_safe (calculateCRC : List Octet → Nat) (name : String)
    (select : BufferSelect) (s : Global) :
    Safe s (validateCmd calculateCRC name select s).2 := by
  unfold validateCmd
  dsimp only
  split
  · exact Safe.refl s
  · split
    · exact Safe.refl s
    · split
      · exact Safe.refl s
      · rename_i r _ _ image _ _ v _
        split
        · split
          · exact (setResult_safe v _ s).trans (validateIndex_safe r (some v) _ _)
          · exact (setResult_safe v _ s).trans (validateIndex_safe r _ (some v) _)
        · exact setResult_safe v _ s

theorem activateCmd_safe (name : String) (s : Global) : Safe s (activateCmd name s).2 := by
  have hcase : ∀ (r : Nat) (b : LoadBuff),
      Safe s (if b.validated then (true, setLoadPending r s) else (false, s)).2 := by
    intro r b
    split
    · exact setLoadPending_safe r s
    · exact Safe.refl s
  unfold activateCmd
  dsimp only
  split
  · exact Safe.refl s
  · split
    · exact Safe.refl s
    · split
      · exact Safe.refl s
      · exact hcase _ _

theorem abortLoadCmd_safe (name : String) (s : Global) : Safe s (abortLoadCmd name s).2 := by
  unfold abortLoadCmd
  dsimp only
  split
  · exact Safe.refl s
  · split
    · exact abortLoad_safe _ s
    · exact Safe.refl s

theorem reportValidation_safe (s : Global) : Safe s (reportValidation s) := by
  unfold reportValidation
  split
  · exact Safe.refl s
  · exact setResult_safe _ _ s

theorem markValidated_safe (r : Nat) (ref : BufferRef) (s : Global) :
    Safe s (s.setBuffer r ref { s.buffer r ref with validated := true }) := by
  refine fun h => ⟨h.alike (alike_setBuffer rfl), ?_⟩
  cases ref with
  | dedicated i =>
    refine Keeps.of_setRec id fun i' => ?_
    show (Function.update (s.registry r).buffers i _ i').image = _
    rw [Function.update_apply]
    split
    · rename_i hi
      rw [hi]
      rfl
    · rfl
  | shared i => exact Keeps.of_eq rfl rfl

theorem validate_safe {handle app : Nat} {s s' : Global} {st : Status}
    (hstep : validate handle app s = some (st, s')) : Safe s s' := by
  unfold validate at hstep
  dsimp only at hstep
  split at hstep
  · cases hstep
    exact Safe.refl s
  · split at hstep
    · split at hstep
      · cases hstep
        split
        · exact (setResult_safe _ _ s).trans
            ((markValidated_safe _ _ _).trans (validateIndex_safe _ _ none _))
        · exact (setResult_safe _ _ s).trans (validateIndex_safe _ _ none _)
      · cases hstep
    · obtain ⟨validationFunc, _, heq⟩ := Option.map_eq_some_iff.mp hstep
      cases heq
      exact (setResult_safe _ _ s).trans (validateIndex_safe _ none _ _)
    · cases hstep
      exact Safe.refl s

theorem update_safe (handle app : Nat) (s : Global) : Safe s (update handle app s).2 := by
  unfold update
  split
  · exact Safe.refl s
  · exact updateInternal_safe _ s

theorem handles_setHandle (s : Global) (handle : Nat) (d : AccessDescriptor) (h : Nat) :
    (s.setHandle handle d).handles h = if h = handle then d else s.handles h :=
  Function.update_apply s.handles handle d h

theorem Wf.setHandle {s : Global} (h : Wf s) {handle : Nat} {d : AccessDescriptor}
    (hused : d.usedFlag = (s.handles handle).usedFlag)
    (hindex : d.regIndex = (s.handles handle).regIndex)
    (hlock : d.lockFlag = true →
      d.bufferIndex = (s.registry d.regIndex).activeBufferIndex ∨
      ((s.handles handle).lockFlag = true ∧ d.bufferIndex = (s.handles handle).bufferIndex)) :
    Wf (s.setHandle handle d) := by
  have hlinked := h.handles
  have hunlocked := h.unlocked
  refine ⟨?_, h.single, h.inactive, ?_, h.taken, h.distinct, h.owned⟩
  · intro h' r
    rw [handles_setHandle]
    show h' ∈ (s.registry r).accessList ↔ _
    grind -ring
  · intro h' i
    rw [handles_setHandle]
    show _ → _ → (s.registry _).doubleBuffered = true → (s.registry _).loadInProgress = some i →
      _ = (s.registry _).activeBufferIndex
    grind -ring

theorem getAddress_cases (handle app : Nat) (s : Global) :
    (getAddress handle app s).2 = (none, s) ∨
    ((s.handles handle).usedFlag = true ∧ (getAddress handle app s).2 =
      (some (s.registry (s.handles handle).regIndex).activeBufferIndex,
        s.setHandle handle { s.handles handle with
          lockFlag := true
          bufferIndex := (s.registry (s.handles handle).regIndex).activeBufferIndex
          updated := false })) := by
  unfold getAddress
  dsimp only
  split
  · exact Or.inl rfl
  · rename_i haccess
    split
    · exact Or.inl rfl
    · refine Or.inr ⟨?_, rfl⟩
      grind -ring [validateAccess]

theorem releaseAddress_cases (handle app : Nat) (s : Global) :
    (releaseAddress handle app s).2 = s ∨
    (releaseAddress handle app s).2 =
      s.setHandle handle { s.handles handle with lockFlag := false } := by
  unfold releaseAddress
  split
  · exact Or.inl rfl
  · exact Or.inr rfl

/-! ## Runs -/

/-- The handle whose lock a call is about. -/
def Call.locks (handle : Nat) : Call → Prop
  | .getAddress h _ => h = handle
  | .releaseAddress h _ => h = handle
  | _ => False

theorem Registered.wf {s : Global} (h : Registered s) : Wf s := by
  have hnone : ∀ r i, (s.registry r).loadInProgress ≠ some i := by
    intro r i hi
    rw [(h.noLoad r).1] at hi
    cases hi
  refine ⟨h.handles, fun r _ => h.firstBuffer r, fun r i _ hi => absurd hi (hnone r i), ?_,
    fun r i _ hi => absurd hi (hnone r i), fun r _ i _ _ hi => absurd hi (hnone r i), ?_⟩
  · exact fun _ i _ _ _ hi => absurd hi (hnone _ i)
  · intro i htaken
    rw [h.free i] at htaken
    cases htaken

section Next
variable {calculateCRC : List Octet → Nat} {s s' : Global} {call : Call}

theorem map_snd_eq_some {α β : Type} {x : Option (α × β)} {b : β}
    (h : x.map Prod.snd = some b) : ∃ a, x = some (a, b) := by
  obtain ⟨⟨a, b'⟩, hx, rfl⟩ := Option.map_eq_some_iff.mp h
  exact ⟨a, hx⟩

/-- Every call but those that lock or release. -/
theorem next_safe (hcall : ∀ handle, ¬call.locks handle)
    (hnext : call.next calculateCRC s = some s') : Safe s s' := by
  cases call with
  | load handle app src =>
    obtain ⟨st, hload⟩ := map_snd_eq_some hnext
    exact load_safe hload
  | update handle app =>
    cases hnext
    exact update_safe handle app s
  | loadCmd file =>
    obtain ⟨ok, hload⟩ := map_snd_eq_some hnext
    exact loadCmd_safe hload
  | validateCmd name select =>
    cases hnext
    exact validateCmd_safe calculateCRC name select s
  | validate handle app =>
    obtain ⟨st, hvalidate⟩ := map_snd_eq_some hnext
    exact validate_safe hvalidate
  | activateCmd name =>
    cases hnext
    exact activateCmd_safe name s
  | abortLoadCmd name =>
    cases hnext
    exact abortLoadCmd_safe name s
  | reportValidation =>
    cases hnext
    exact reportValidation_safe s
  | getAddress handle app => exact absurd rfl (hcall handle)
  | releaseAddress handle app => exact absurd rfl (hcall handle)

/-- A call that locks or releases changes one descriptor only. -/
theorem next_locks (h : Wf s) {handle : Nat} (hcall : call.locks handle)
    (hnext : call.next calculateCRC s = some s') :
    Wf s' ∧ ∃ d, s' = s.setHandle handle d := by
  have hself : s = s.setHandle handle (s.handles handle) := by
    rw [Global.setHandle, Function.update_eq_self]
  cases call with
  | getAddress h' app =>
    obtain rfl : h' = handle := hcall
    obtain rfl := Option.some.inj hnext
    rcases getAddress_cases h' app s with hnone | ⟨_, hlocked⟩
    · rw [hnone]
      exact ⟨h, _, hself⟩
    · rw [hlocked]
      exact ⟨h.setHandle rfl rfl fun _ => Or.inl rfl, _, rfl⟩
  | releaseAddress h' app =>
    obtain rfl : h' = handle := hcall
    obtain rfl := Option.some.inj hnext
    rcases releaseAddress_cases h' app s with hsame | hreleased
    · rw [hsame]
      exact ⟨h, _, hself⟩
    · rw [hreleased]
      exact ⟨h.setHandle rfl rfl fun hlock => Bool.noConfusion hlock, _, rfl⟩
  | _ => exact hcall.elim

theorem Wf.next (h : Wf s) (hnext : call.next calculateCRC s = some s') : Wf s' := by
  by_cases hcall : ∃ handle, call.locks handle
  · obtain ⟨handle, hcall⟩ := hcall
    exact (next_locks h hcall hnext).1
  · exact (next_safe (not_exists.mp hcall) hnext h).1

end Next

theorem wf_of_reachable {calculateCRC : List Octet → Nat} {s : Global}
    (h : (machine calculateCRC).Reachable s) : Wf s :=
  Machine.Reachable.invariant (fun _ hs => Registered.wf hs)
    (fun s call s' hwf hnext => @Wf.next calculateCRC s s' call hwf hnext) h

/-- A handle that is locked on an image. -/
structure Holds (s : Global) (handle r : Nat) (b : Fin 2) (image : List Octet) : Prop where
  used : (s.handles handle).usedFlag = true
  index : (s.handles handle).regIndex = r
  locked : (s.handles handle).lockFlag = true
  buffer : (s.handles handle).bufferIndex = b
  loaded : (s.registry r).tableLoadedOnce = true
  image_eq : ((s.registry r).buffers b).image = image

theorem Holds.next {calculateCRC : List Octet → Nat} {s s' : Global} {call : Call} {handle r : Nat}
    {b : Fin 2} {image : List Octet} (hwf : Wf s) (h : Holds s handle r b image)
    (hcall : ¬call.locks handle) (hnext : call.next calculateCRC s = some s') :
    Holds s' handle r b image := by
  obtain ⟨hused, hindex, hlocked, hbuffer, hloaded, himage⟩ := h
  by_cases hother : ∃ handle', call.locks handle'
  · obtain ⟨handle', hother⟩ := hother
    obtain ⟨_, d, rfl⟩ := next_locks hwf hother hnext
    have hne : handle ≠ handle' := by
      rintro rfl
      exact hcall hother
    have hsame : (s.setHandle handle' d).handles handle = s.handles handle := by
      rw [handles_setHandle, if_neg hne]
    refine ⟨?_, ?_, ?_, ?_, hloaded, himage⟩ <;> rw [hsame] <;> assumption
  · obtain ⟨_, hkeeps⟩ := next_safe (not_exists.mp hother) hnext hwf
    obtain ⟨hused', hindex', hlocked', hbuffer'⟩ := hkeeps.handles handle
    subst hindex hbuffer
    exact ⟨hused'.trans hused, hindex', hlocked'.trans hlocked, hbuffer', hkeeps.loaded _ hloaded,
      (hkeeps.images handle hused hlocked hloaded).trans himage⟩

theorem Holds.run {calculateCRC : List Octet → Nat} {handle r : Nat} {b : Fin 2}
    {image : List Octet} (calls : List Call) {s s' : Global} (hwf : Wf s)
    (h : Holds s handle r b image) (hcalls : ∀ call ∈ calls, ¬call.locks handle)
    (hrun : runCalls calculateCRC calls s = some s') :
    Holds s' handle r b image := by
  induction calls generalizing s with
  | nil =>
    cases hrun
    exact h
  | cons call calls ih =>
    rw [runCalls, List.foldlM_cons] at hrun
    obtain ⟨mid, hnext, hrest⟩ := Option.bind_eq_some_iff.mp hrun
    have hhead := hcalls call List.mem_cons_self
    exact ih (hwf.next hnext) (h.next hwf hhead hnext)
      (fun c hc => hcalls c (List.mem_cons_of_mem call hc)) hrest

/-- In any run of loads, commands, validations, updates and aborts by anyone, the image whose
address an application was given keeps its octets until the application releases the address or
asks for it again. -/
theorem held_image_unchanged {calculateCRC : List Octet → Nat} {s s1 s2 : Global} {st : Status}
    {handle app : Nat} {b : Fin 2} (hreach : (machine calculateCRC).Reachable s)
    (hget : getAddress handle app s = (st, some b, s1))
    (hloaded : (s.registry (s.handles handle).regIndex).tableLoadedOnce = true) (calls : List Call)
    (hcalls : ∀ call ∈ calls, ¬call.locks handle)
    (hrun : runCalls calculateCRC calls s1 = some s2) :
    b = (s.registry (s.handles handle).regIndex).activeBufferIndex ∧
    ((s2.registry (s.handles handle).regIndex).buffers b).image =
      ((s.registry (s.handles handle).regIndex).buffers b).image := by
  have hwf := wf_of_reachable hreach
  have hwf1 : Wf s1 := by
    have hnext : (Call.getAddress handle app).next calculateCRC s = some s1 := by
      rw [Call.next, hget]
    exact hwf.next hnext
  rcases getAddress_cases handle app s with hnone | ⟨hused, hlocked⟩
  · rw [hget] at hnone
    cases hnone
  · rw [hget] at hlocked
    cases hlocked
    refine ⟨rfl, (Holds.run calls hwf1 ⟨?_, ?_, ?_, ?_, hloaded, rfl⟩ hcalls hrun).image_eq⟩ <;>
      rw [handles_setHandle, if_pos rfl]
    exact hused

/-- One table with one handle. -/
def oneTable : Global where
  registry r :=
    { ownerAppId := if r = 0 then some 1 else none
      name := "TBL"
      size := 2
      buffers := fun _ => ⟨[0, 0], ⟨"", 0, 0⟩, 0, false, false⟩
      validationFuncPtr := some fun image => if image.head? = some 0 then -1 else 0
      accessList := if r = 0 then [0] else []
      loadInProgress := none
      validateActiveIndex := none
      validateInactiveIndex := none
      tableLoadedOnce := false
      loadPending := false
      dumpOnly := false
      doubleBuffered := false
      userDefAddr := false
      activeBufferIndex := ⟨0, Nat.two_pos⟩
      lastFileLoaded := "" }
  loadBuffs _ := ⟨[], ⟨"", 0, 0⟩, 0, false, false⟩
  handles h := ⟨1, 0, h == 0, false, false, ⟨0, Nat.two_pos⟩⟩
  validationResults _ := ⟨.free, 0, 0, false, ""⟩
  tableTaskAppId := 2

theorem oneTable_registered : Registered oneTable := by
  refine ⟨?_, fun _ => rfl, fun _ => ⟨rfl, rfl⟩, fun _ => rfl, fun _ _ => rfl, fun _ => rfl⟩
  intro h r
  show h ∈ (if r = 0 then [0] else []) ↔ (h == 0) = true ∧ 0 = r
  grind -ring

theorem held_image_unchanged_loads : ∃ s s1 s2 : Global,
    (machine List.length).Reachable s ∧ (getAddress 0 1 s).2 = (some 0, s1) ∧
    runCalls List.length [.loadCmd (some ⟨"FILE", "TBL", 0, 2, 0, 0, [3, 4]⟩),
      .validateCmd "TBL" .inactive, .validate 0 1, .activateCmd "TBL", .update 0 1] s1 = some s2 ∧
    ((s2.registry (s.handles 0).regIndex).buffers 0).image =
      ((s.registry (s.handles 0).regIndex).buffers 0).image := by
  let calls := [Call.loadCmd (some ⟨"FILE", "TBL", 0, 2, 0, 0, [3, 4]⟩),
    .validateCmd "TBL" .inactive, .validate 0 1, .activateCmd "TBL", .update 0 1]
  obtain ⟨s, hreach, hcheck⟩ := Machine.exists_reaches (M := machine List.length)
    (fun _ _ => True) (fun s => (s.registry (s.handles 0).regIndex).tableLoadedOnce &&
      ((getAddress 0 1 s).2.1 == some 0) &&
      (runCalls List.length calls (getAddress 0 1 s).2.2).isSome)
    oneTable_registered [.load 0 1 (.address "DATA" [1, 2])] (by decide +kernel)
  simp only [Bool.and_eq_true, beq_iff_eq] at hcheck
  obtain ⟨⟨hloaded, hget⟩, hrun⟩ := hcheck
  obtain ⟨s2, hs2⟩ := Option.isSome_iff_exists.mp hrun
  have heq : getAddress 0 1 s = ((getAddress 0 1 s).1, some 0, (getAddress 0 1 s).2.2) := by
    rw [← hget]
  have hcalls : ∀ call ∈ calls, ¬call.locks 0 := by
    simp [calls, Call.locks]
  exact ⟨s, _, s2, hreach, by rw [← hget], hs2,
    (held_image_unchanged hreach heq hloaded calls hcalls hs2).2⟩

end Nos3.Tbl
