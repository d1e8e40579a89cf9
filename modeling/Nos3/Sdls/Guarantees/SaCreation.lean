import Nos3.Sdls.Guarantees.SaLifecycle

/-!
# What a create procedure leaves in the association

The copy that is filled in and verified is the association itself. What the procedure
does not assign stays from what the slot held before, and what it has assigned stays
there when the verification fails.
-/
namespace Nos3.Sdls
open Nos3.Base
open Nos3.Base.BigEndian (Octet)
open Nos3.Base.FixedArray
open Nos3.Base.Program

/-! ## The PDU taken apart -/

/-- The fields of variable length. -/
structure CreatePdu where
  ecs : List Octet
  iv : List Octet
  acs : List Octet
  abm : List Octet
  arsn : List Octet
  arsnw : List Octet

/-- Every field stands behind its length; the place is eight bits wide. -/
def createPdu (r : SaRequest) : CreatePdu :=
  let ecsLen := r.octet 5
  let ivAt := (6 + ecsLen) % 256
  let ivLen := r.octet ivAt % 64
  let acsAt := ((ivAt + 1) % 256 + ivLen) % 256
  let acsLen := r.octet acsAt
  let abmAt := ((acsAt + 1) % 256 + acsLen) % 256
  let abmLen := r.octet (abmAt + 1)
  let arsnAt := ((abmAt + 2) % 256 + abmLen) % 256
  let arsnLen := r.octet arsnAt
  let arsnwAt := ((arsnAt + 1) % 256 + arsnLen) % 256
  { ecs := r.octets true 6 ecsLen
    iv := r.octets true ((ivAt + 1) % 256) ivLen
    acs := r.octets true ((acsAt + 1) % 256) acsLen
    abm := r.octets true ((abmAt + 2) % 256) abmLen
    arsn := r.octets true ((arsnAt + 1) % 256) arsnLen
    arsnw := r.octets true ((arsnwAt + 1) % 256) (r.octet arsnwAt) }

@[simp] theorem SaRequest.octets_length (r : SaRequest) (wraps : Bool) (count n : Nat) :
    (r.octets wraps count n).length = n := by
  rw [SaRequest.octets, List.length_map, List.length_range]

theorem SaRequest.octet_lt (r : SaRequest) (i : Nat) : r.octet i < 256 :=
  (r.pdu.data.cells.getD i 0).isLt

/-- The arrays hold their fields and no shift is as wide as an `int`. -/
structure CreatePdu.Fits (p : CreatePdu) : Prop where
  iv : p.iv.length ≤ IV_SIZE
  arsn : p.arsn.length ≤ ARSN_SIZE
  arsnw : p.arsnw.length < 32

instance (p : CreatePdu) : Decidable p.Fits :=
  decidable_of_iff (p.iv.length ≤ IV_SIZE ∧ p.arsn.length ≤ ARSN_SIZE ∧ p.arsnw.length < 32)
    ⟨fun h => ⟨h.1, h.2.1, h.2.2⟩, fun h => ⟨h.iv, h.arsn, h.arsnw⟩⟩

theorem createPdu_abm_fits (r : SaRequest) : (createPdu r).abm.length ≤ ABM_SIZE := by
  have hlt := r.octet_lt
  rw [createPdu, SaRequest.octets_length]
  exact Nat.le_trans (Nat.le_of_lt (hlt _)) (by decide)

/-! ## The association it makes -/

/-- The octets at the front of an array they fit into. -/
def fill {n : Nat} (buffer : Buffer Octet n) (octets : List Octet) : Buffer Octet n :=
  if h : octets.length ≤ n then
    ⟨octets ++ buffer.cells.drop octets.length, by
      rw [List.length_append, List.length_drop, buffer.length_cells]
      omega⟩
  else buffer

theorem fill_cells {n : Nat} {buffer : Buffer Octet n} {octets : List Octet}
    (h : octets.length ≤ n) :
    (fill buffer octets).cells = octets ++ buffer.cells.drop octets.length := by
  rw [fill, dif_pos h]

theorem fillField_eq {n : Nat} (field : Buffer Octet n) (octets : List Octet) :
    fillField field octets =
      if octets.length ≤ n then .ok (fill field octets) else .error .undefined := by
  rw [fillField, Buffer.write]
  split
  · rename_i result hwrite
    split at hwrite
    · rename_i hroom
      rw [if_pos (by omega)]
      cases hwrite
      rw [fill, dif_pos (by omega)]
      simp [patch]
    · cases hwrite
  · rename_i hwrite
    split at hwrite
    · cases hwrite
    · rw [if_neg (by omega)]

/-- The association with the configuration of the PDU over what it held. -/
def created (r : SaRequest) (sa : SaEntry) : SaEntry :=
  let p := createPdu r
  { sa with
    est := decide (128 ≤ r.octet 2)
    ast := decide (64 ≤ r.octet 2 % 128)
    shivfLen := Fin.ofNat 64 p.iv.length
    shsnfLen := Fin.ofNat 64 (r.octet 3 / 4)
    shplfLen := Fin.ofNat 4 (r.octet 3)
    stmacfLen := Fin.ofNat 256 (r.octet 4)
    ecsLen := Fin.ofNat 256 p.ecs.length
    ecs := ((lastStored p.ecs).map encCipherSuite).getD sa.ecs
    iv := fill sa.iv p.iv
    acsLen := Fin.ofNat 256 p.acs.length
    acs := ((lastStored p.acs).map authCipherSuite).getD sa.acs
    abmLen := Fin.ofNat (2 ^ 16) p.abm.length
    abm := fill sa.abm p.abm
    arsnLen := Fin.ofNat 256 p.arsn.length
    arsn := fill sa.arsn p.arsn
    arsnwLen := Fin.ofNat 256 p.arsnw.length
    arsnw := Fin.ofNat (2 ^ 16) (arsnWindow sa.arsnw.val p.arsnw.length p.arsnw)
    saState := .unkeyed }

theorem createSa_eq (r : SaRequest) (sa : SaEntry) :
    createSa r sa = if (createPdu r).Fits then .ok (created r sa) else .error .undefined := by
  have habm := createPdu_abm_fits r
  simp only [createPdu, SaRequest.octets_length] at habm
  by_cases hiv : (createPdu r).iv.length ≤ IV_SIZE
  · by_cases harsn : (createPdu r).arsn.length ≤ ARSN_SIZE
    · by_cases harsnw : (createPdu r).arsnw.length < 32
      · rw [if_pos ⟨hiv, harsn, harsnw⟩]
        simp only [createPdu, SaRequest.octets_length] at hiv harsn harsnw
        simp only [createSa, fillField_eq, SaRequest.octets_length, if_pos hiv, if_pos habm,
          if_pos harsn, if_neg (Nat.not_le.mpr harsnw), ok_bind]
        simp only [created, createPdu, SaRequest.octets_length]
        rfl
      · rw [if_neg fun hfits => harsnw hfits.arsnw]
        simp only [createPdu, SaRequest.octets_length] at hiv harsn harsnw
        simp only [createSa, fillField_eq, SaRequest.octets_length, if_pos hiv, if_pos habm,
          if_pos harsn, if_pos (Nat.not_lt.mp harsnw), ok_bind]
    · rw [if_neg fun hfits => harsn hfits.arsn]
      simp only [createPdu, SaRequest.octets_length] at hiv harsn
      simp only [createSa, fillField_eq, SaRequest.octets_length, if_pos hiv, if_pos habm,
        if_neg harsn, ok_bind, error_bind]
  · rw [if_neg fun hfits => hiv hfits.iv]
    simp only [createPdu, SaRequest.octets_length] at hiv
    simp only [createSa, fillField_eq, SaRequest.octets_length, if_neg hiv, error_bind]

/-! ## One run -/

section Run
variable {r : SaRequest} {s : SaStore}

theorem saCreate_refused (h : r.spi = r.controlSpi) :
    saCreate r s = (.error .sdlsEpWrongSpi, s) := by
  rw [saCreate, saProcedure, if_pos ⟨rfl, h⟩]
  rfl

theorem saCreate_absent (hfree : r.spi ≠ r.controlSpi) (h : NUM_SA ≤ r.spi) :
    saCreate r s = (.ok (), s) := by
  rw [saCreate, saProcedure, if_neg fun hboth => hfree hboth.2, dif_neg (Nat.not_lt.mpr h)]
  rfl

/-- The identification is noted first; what is verified is what the slot holds then. -/
theorem saCreate_named (hfree : r.spi ≠ r.controlSpi) (h : r.spi < NUM_SA) :
    saCreate r s =
      if (createPdu r).Fits then
        (saVerifyData (created r { s ⟨r.spi, h⟩ with lpid := r.lpid }),
          Function.update s ⟨r.spi, h⟩ (created r { s ⟨r.spi, h⟩ with lpid := r.lpid }))
      else (.error .undefined, s.noted r ⟨r.spi, h⟩) := by
  rw [saCreate, saProcedure, if_neg fun hboth => hfree hboth.2, dif_pos h, modify_bind, get_bind,
    createSa_eq, Function.update_self]
  split
  · rw [lift_bind rfl, modify_bind, Function.update_idem]
    rfl
  · rw [lift_bind_error rfl]
    rfl

end Run

/-! ## The claim -/

/-- The fields a create procedure sets. -/
structure SaConfiguration where
  est : Bool
  ast : Bool
  shivfLen : Fin 64
  shsnfLen : Fin 64
  shplfLen : Fin 4
  stmacfLen : Fin 256
  ecsLen : Fin 256
  ecs : EncCipherSuite
  iv : Buffer Octet IV_SIZE
  acsLen : Fin 256
  acs : AuthCipherSuite
  abmLen : Fin (2 ^ 16)
  abm : Buffer Octet ABM_SIZE
  arsnLen : Fin 256
  arsn : Buffer Octet ARSN_SIZE
  arsnwLen : Fin 256
  arsnw : Fin (2 ^ 16)

def SaEntry.configuration (sa : SaEntry) : SaConfiguration where
  est := sa.est
  ast := sa.ast
  shivfLen := sa.shivfLen
  shsnfLen := sa.shsnfLen
  shplfLen := sa.shplfLen
  stmacfLen := sa.stmacfLen
  ecsLen := sa.ecsLen
  ecs := sa.ecs
  iv := sa.iv
  acsLen := sa.acsLen
  acs := sa.acs
  abmLen := sa.abmLen
  abm := sa.abm
  arsnLen := sa.arsnLen
  arsn := sa.arsn
  arsnwLen := sa.arsnwLen
  arsnw := sa.arsnw

/-- A slot nothing was stored in. -/
def blankEntry : SaEntry :=
  { blankSa 0 with
    ekRef := .replicate REF_SIZE 0
    akRef := .replicate REF_SIZE 0
    lpid := 0
    ecsLen := 0
    arsnwLen := 0 }

/-- What the PDU alone says. -/
def pduConfiguration (r : SaRequest) : SaConfiguration := (created r blankEntry).configuration

/-- The configuration comes from the PDU alone, a rejected PDU changes nothing, and no
array is written beyond its end. -/
structure CreatesAtomically (r : SaRequest) (s : SaStore) : Prop where
  pure : (saCreate r s).1 = .ok () → ∀ h : r.spi < NUM_SA,
    ((saCreate r s).2 ⟨r.spi, h⟩).configuration = pduConfiguration r
  atomic : ∀ e, (saCreate r s).1 = .error e → (saCreate r s).2 = s
  inside : (saCreate r s).1 ≠ .error .undefined

/-- The lengths `sa_verify_data` rejects that fit into the arrays. -/
def Verifiable (r : SaRequest) : Prop := r.octet 3 / 4 ≤ ARSN_SIZE ∧ r.octet 4 ≤ MAC_SIZE

instance (r : SaRequest) : Decidable (Verifiable r) :=
  inferInstanceAs (Decidable (_ ∧ _))

/-- The bits of the window that the PDU sets. -/
def CreatePdu.window (p : CreatePdu) : Nat := arsnWindow 0 p.arsnw.length p.arsnw

/-- The slot holds nothing the PDU leaves standing. -/
structure NothingStale (p : CreatePdu) (sa : SaEntry) : Prop where
  ecs : p.ecs = [] → sa.ecs = .none
  iv : sa.iv.cells.drop p.iv.length = List.replicate (IV_SIZE - p.iv.length) 0
  acs : p.acs = [] → sa.acs = .none
  abm : sa.abm.cells.drop p.abm.length = List.replicate (ABM_SIZE - p.abm.length) 0
  arsn : sa.arsn.cells.drop p.arsn.length = List.replicate (ARSN_SIZE - p.arsn.length) 0
  arsnw : sa.arsnw ||| p.window = p.window

/-- The slot holds what the PDU says already, as after the same PDU before. -/
structure AlreadyCreated (r : SaRequest) (p : CreatePdu) (sa : SaEntry) : Prop where
  lpid : sa.lpid = r.lpid
  saState : sa.saState = .unkeyed
  est : sa.est = decide (128 ≤ r.octet 2)
  ast : sa.ast = decide (64 ≤ r.octet 2 % 128)
  shivfLen : sa.shivfLen = Fin.ofNat 64 p.iv.length
  shsnfLen : sa.shsnfLen = Fin.ofNat 64 (r.octet 3 / 4)
  shplfLen : sa.shplfLen = Fin.ofNat 4 (r.octet 3)
  stmacfLen : sa.stmacfLen = Fin.ofNat 256 (r.octet 4)
  ecsLen : sa.ecsLen = Fin.ofNat 256 p.ecs.length
  ecs : ∀ octet ∈ lastStored p.ecs, sa.ecs = encCipherSuite octet
  iv : sa.iv.cells.take p.iv.length = p.iv
  acsLen : sa.acsLen = Fin.ofNat 256 p.acs.length
  acs : ∀ octet ∈ lastStored p.acs, sa.acs = authCipherSuite octet
  abmLen : sa.abmLen = Fin.ofNat (2 ^ 16) p.abm.length
  abm : sa.abm.cells.take p.abm.length = p.abm
  arsnLen : sa.arsnLen = Fin.ofNat 256 p.arsn.length
  arsn : sa.arsn.cells.take p.arsn.length = p.arsn
  arsnwLen : sa.arsnwLen = Fin.ofNat 256 p.arsnw.length
  arsnw : sa.arsnw ||| p.window = sa.arsnw

/-- The procedure does not reach a slot, or the fields fit and the slot held nothing that
shows. -/
def CreatesCleanly (r : SaRequest) (s : SaStore) : Prop :=
  r.spi = r.controlSpi ∨ NUM_SA ≤ r.spi ∨ ∃ h : r.spi < NUM_SA, (createPdu r).Fits ∧
    if Verifiable r then NothingStale (createPdu r) (s ⟨r.spi, h⟩)
    else AlreadyCreated r (createPdu r) (s ⟨r.spi, h⟩)

/-! ## Single fields -/

theorem buffer_ext {n : Nat} {a b : Buffer Octet n} : a = b ↔ a.cells = b.cells := by
  constructor
  · rintro rfl
    rfl
  · intro h
    cases a
    cases b
    cases h
    rfl

theorem fill_blank_iff {n : Nat} (buffer : Buffer Octet n) {octets : List Octet}
    (h : octets.length ≤ n) :
    fill buffer octets = fill (.replicate n 0) octets ↔
      buffer.cells.drop octets.length = List.replicate (n - octets.length) 0 := by
  rw [buffer_ext, fill_cells h, fill_cells h, List.append_cancel_left_eq, Buffer.replicate,
    List.drop_replicate]

theorem fill_self_iff {n : Nat} (buffer : Buffer Octet n) {octets : List Octet}
    (h : octets.length ≤ n) :
    fill buffer octets = buffer ↔ buffer.cells.take octets.length = octets := by
  rw [buffer_ext, fill_cells h]
  constructor
  · intro hsame
    rw [← hsame, List.take_left' rfl]
  · intro hfront
    conv_rhs => rw [← List.take_append_drop octets.length buffer.cells, hfront]

theorem stored_blank_iff {α : Type} (octets : List Octet) (suite : Nat → α) (old blank : α) :
    ((lastStored octets).map suite).getD old = ((lastStored octets).map suite).getD blank ↔
      (octets = [] → old = blank) := by
  cases octets with
  | nil => simp [lastStored]
  | cons octet rest => simp [lastStored, List.getLast?_cons]

theorem stored_self_iff {α : Type} (octets : List Octet) (suite : Nat → α) (old : α) :
    ((lastStored octets).map suite).getD old = old ↔
      ∀ octet ∈ lastStored octets, old = suite octet := by
  cases lastStored octets with
  | none => simp
  | some octet => simp [eq_comm]

/-- The octets of the window are added to what the field holds. -/
theorem arsnWindow_or {a : Nat} (ha : a < 2 ^ 16) (length : Nat) (octets : List Octet) :
    arsnWindow a length octets = a ||| arsnWindow 0 length octets := by
  have hfold : ∀ (entries : List (Octet × Nat)) (b : Nat), b < 2 ^ 16 →
      entries.foldl (fun arsnw octet =>
        (arsnw ||| octet.1.toNat <<< (length - octet.2)) % 2 ^ 16) (a ||| b) =
      a ||| entries.foldl (fun arsnw octet =>
        (arsnw ||| octet.1.toNat <<< (length - octet.2)) % 2 ^ 16) b := by
    intro entries
    induction entries with
    | nil => exact fun _ _ => rfl
    | cons entry rest ih =>
      intro b hb
      rw [List.foldl_cons, List.foldl_cons, ← ih _ (Nat.mod_lt _ (by decide))]
      congr 1
      rw [Nat.or_assoc]
      apply Nat.eq_of_testBit_eq
      intro i
      simp only [Nat.testBit_or, Nat.testBit_mod_two_pow]
      by_cases hi : i < 16
      · simp [hi]
      · rw [Nat.testBit_lt_two_pow (x := a) (by
          exact Nat.lt_of_lt_of_le ha (Nat.pow_le_pow_right (by decide) (by omega)))]
        simp [hi]
  rw [arsnWindow, arsnWindow, ← hfold _ 0 (by decide), Nat.or_zero]

theorem saVerifyData_rejects {sa : SaEntry} (h : saVerifyData sa ≠ .ok ()) :
    ∃ e, e ≠ .undefined ∧ saVerifyData sa = .error e := by
  unfold saVerifyData at h ⊢
  split_ifs at h ⊢
  all_goals first
    | exact ⟨_, by decide, rfl⟩
    | exact absurd rfl h

/-! ## The whole slot -/

theorem arsnWindow_lt {a : Nat} (ha : a < 2 ^ 16) (length : Nat) (octets : List Octet) :
    arsnWindow a length octets < 2 ^ 16 := by
  rw [arsnWindow]
  generalize octets.zipIdx = entries
  induction entries generalizing a with
  | nil => exact ha
  | cons entry rest ih => exact ih (Nat.mod_lt _ (by decide))

theorem created_arsnw (r : SaRequest) (sa : SaEntry) :
    ((created r sa).arsnw : Nat) = sa.arsnw ||| (createPdu r).window := by
  have hwindow := arsnWindow_or sa.arsnw.isLt (createPdu r).arsnw.length (createPdu r).arsnw
  rw [CreatePdu.window, ← hwindow]
  exact Nat.mod_eq_of_lt (arsnWindow_lt sa.arsnw.isLt _ _)

section Slot
variable {r : SaRequest} {sa : SaEntry} (hfits : (createPdu r).Fits)
include hfits

theorem configuration_created_iff :
    (created r sa).configuration = pduConfiguration r ↔ NothingStale (createPdu r) sa := by
  have hwindow : (created r sa).arsnw = (created r blankEntry).arsnw ↔
      sa.arsnw ||| (createPdu r).window = (createPdu r).window := by
    rw [Fin.ext_iff, created_arsnw, created_arsnw]
    exact Eq.congr_right (Nat.zero_or _)
  have hecs := stored_blank_iff (createPdu r).ecs encCipherSuite sa.ecs .none
  have hacs := stored_blank_iff (createPdu r).acs authCipherSuite sa.acs .none
  have hiv := fill_blank_iff sa.iv hfits.iv
  have habm := fill_blank_iff sa.abm (createPdu_abm_fits r)
  have harsn := fill_blank_iff sa.arsn hfits.arsn
  constructor
  · intro h
    rw [pduConfiguration] at h
    exact ⟨hecs.mp (congrArg SaConfiguration.ecs h), hiv.mp (congrArg SaConfiguration.iv h),
      hacs.mp (congrArg SaConfiguration.acs h), habm.mp (congrArg SaConfiguration.abm h),
      harsn.mp (congrArg SaConfiguration.arsn h), hwindow.mp (congrArg SaConfiguration.arsnw h)⟩
  · rintro ⟨hecs', hiv', hacs', habm', harsn', hwindow'⟩
    have hlast := hwindow.mpr hwindow'
    simp only [SaEntry.configuration, pduConfiguration, SaConfiguration.mk.injEq]
    exact ⟨rfl, rfl, rfl, rfl, rfl, rfl, rfl, hecs.mpr hecs', hiv.mpr hiv', rfl, hacs.mpr hacs',
      rfl, habm.mpr habm', rfl, harsn.mpr harsn', rfl, hlast⟩

theorem created_self_iff :
    created r { sa with lpid := r.lpid } = sa ↔ AlreadyCreated r (createPdu r) sa := by
  have hwindow : (created r { sa with lpid := r.lpid }).arsnw = sa.arsnw ↔
      sa.arsnw ||| (createPdu r).window = sa.arsnw := by
    rw [Fin.ext_iff, created_arsnw]
  have hecs := stored_self_iff (createPdu r).ecs encCipherSuite sa.ecs
  have hacs := stored_self_iff (createPdu r).acs authCipherSuite sa.acs
  have hiv := fill_self_iff sa.iv hfits.iv
  have habm := fill_self_iff sa.abm (createPdu_abm_fits r)
  have harsn := fill_self_iff sa.arsn hfits.arsn
  constructor
  · intro h
    have hbase := congrArg SaEntry.toSecurityAssociation h
    exact {
      lpid := (congrArg SaEntry.lpid h).symm
      saState := (congrArg SecurityAssociation.saState hbase).symm
      est := (congrArg SecurityAssociation.est hbase).symm
      ast := (congrArg SecurityAssociation.ast hbase).symm
      shivfLen := (congrArg SecurityAssociation.shivfLen hbase).symm
      shsnfLen := (congrArg SecurityAssociation.shsnfLen hbase).symm
      shplfLen := (congrArg SecurityAssociation.shplfLen hbase).symm
      stmacfLen := (congrArg SecurityAssociation.stmacfLen hbase).symm
      ecsLen := (congrArg SaEntry.ecsLen h).symm
      ecs := hecs.mp (congrArg SecurityAssociation.ecs hbase)
      iv := hiv.mp (congrArg SecurityAssociation.iv hbase)
      acsLen := (congrArg SecurityAssociation.acsLen hbase).symm
      acs := hacs.mp (congrArg SecurityAssociation.acs hbase)
      abmLen := (congrArg SecurityAssociation.abmLen hbase).symm
      abm := habm.mp (congrArg SecurityAssociation.abm hbase)
      arsnLen := (congrArg SecurityAssociation.arsnLen hbase).symm
      arsn := harsn.mp (congrArg SecurityAssociation.arsn hbase)
      arsnwLen := (congrArg SaEntry.arsnwLen h).symm
      arsnw := hwindow.mp (congrArg SecurityAssociation.arsnw hbase) }
  · intro h
    have hwindow' := hwindow.mpr h.arsnw
    rcases sa with ⟨⟨⟩, _, _, _, _, _⟩
    rw [created, SaEntry.mk.injEq, SecurityAssociation.mk.injEq]
    exact ⟨⟨rfl, rfl, rfl, h.saState.symm, rfl, h.est.symm, h.ast.symm, h.shivfLen.symm,
      h.shsnfLen.symm, h.shplfLen.symm, h.stmacfLen.symm, hecs.mpr h.ecs, hiv.mpr h.iv, rfl,
      h.acsLen.symm, hacs.mpr h.acs, h.abmLen.symm, habm.mpr h.abm, h.arsnLen.symm,
      harsn.mpr h.arsn, hwindow'⟩, rfl, rfl, h.lpid.symm, h.ecsLen.symm, h.arsnwLen.symm⟩

theorem saVerifyData_created_iff :
    saVerifyData (created r sa) = .ok () ↔ Verifiable r := by
  have hiv := hfits.iv
  have habm := createPdu_abm_fits r
  have hthree := r.octet_lt 3
  have hfour := r.octet_lt 4
  rw [IV_SIZE] at hiv
  rw [ABM_SIZE] at habm
  have hshplf : ¬ PAD_SIZE < (created r sa).shplfLen.val := by
    have hlt := (created r sa).shplfLen.isLt
    rw [PAD_SIZE]
    omega
  have hstmacf : (created r sa).stmacfLen.val = r.octet 4 := Nat.mod_eq_of_lt hfour
  have habmLen : (created r sa).abmLen.val = (createPdu r).abm.length :=
    Nat.mod_eq_of_lt (by omega)
  have hshsnf : (created r sa).shsnfLen.val = r.octet 3 / 4 := Nat.mod_eq_of_lt (by omega)
  have hshivf : (created r sa).shivfLen.val = (createPdu r).iv.length :=
    Nat.mod_eq_of_lt (by omega)
  rw [saVerifyData, if_neg hshplf, hstmacf, habmLen, hshsnf, hshivf, Verifiable]
  split_ifs <;> simp_all [ABM_SIZE, IV_SIZE] <;> omega

end Slot

/-! ## When the claim holds -/

/-- A create procedure decodes its PDU and nothing else exactly in the cases of
`CreatesCleanly`. -/
theorem creates_atomically_iff (r : SaRequest) (s : SaStore) :
    CreatesAtomically r s ↔ CreatesCleanly r s := by
  by_cases hcontrol : r.spi = r.controlSpi
  · have hrun := saCreate_refused (s := s) hcontrol
    refine iff_of_true ⟨?_, ?_, ?_⟩ (.inl hcontrol) <;> rw [hrun]
    · exact fun hok => by cases hok
    · exact fun _ _ => rfl
    · exact fun hundefined => by cases hundefined
  by_cases hbeyond : NUM_SA ≤ r.spi
  · have hrun := saCreate_absent (s := s) hcontrol hbeyond
    refine iff_of_true ⟨?_, ?_, ?_⟩ (.inr (.inl hbeyond)) <;> rw [hrun]
    · exact fun _ h => absurd h (Nat.not_lt.mpr hbeyond)
    · exact fun _ _ => rfl
    · exact fun hundefined => by cases hundefined
  have hspi : r.spi < NUM_SA := Nat.not_le.mp hbeyond
  have hrun := saCreate_named (s := s) hcontrol hspi
  have hclean : CreatesCleanly r s ↔ (createPdu r).Fits ∧
      if Verifiable r then NothingStale (createPdu r) (s ⟨r.spi, hspi⟩)
      else AlreadyCreated r (createPdu r) (s ⟨r.spi, hspi⟩) := by
    simp [CreatesCleanly, hcontrol, hbeyond, hspi]
  rw [hclean]
  by_cases hfits : (createPdu r).Fits
  · rw [if_pos hfits] at hrun
    have hverified := @saVerifyData_created_iff r { s ⟨r.spi, hspi⟩ with lpid := r.lpid } hfits
    by_cases hverifiable : Verifiable r
    · rw [hverified.mpr hverifiable] at hrun
      rw [if_pos hverifiable, ← configuration_created_iff hfits]
      constructor
      · intro h
        have hpure := h.pure (by rw [hrun]) hspi
        rw [hrun] at hpure
        dsimp only at hpure
        rw [Function.update_self] at hpure
        exact ⟨hfits, hpure⟩
      · rintro ⟨-, hpure⟩
        refine ⟨fun _ _ => ?_, ?_, ?_⟩ <;> rw [hrun]
        · dsimp only
          rw [Function.update_self]
          exact hpure
        · exact fun _ h => by cases h
        · exact fun h => by cases h
    · rw [if_neg hverifiable, ← created_self_iff hfits]
      obtain ⟨e, he, hreturned⟩ := saVerifyData_rejects (mt hverified.mp hverifiable)
      rw [hreturned] at hrun
      constructor
      · intro h
        have hatomic := h.atomic e (by rw [hrun])
        rw [hrun] at hatomic
        have hslot := congrFun hatomic ⟨r.spi, hspi⟩
        dsimp only at hslot
        rw [Function.update_self] at hslot
        exact ⟨hfits, hslot⟩
      · rintro ⟨-, hself⟩
        refine ⟨?_, fun _ _ => ?_, ?_⟩ <;> rw [hrun]
        · exact fun h => by cases h
        · rw [hself, Function.update_eq_self]
        · exact fun h => he (by cases h; rfl)
  · rw [if_neg hfits] at hrun
    refine iff_of_false (fun h => h.inside (by rw [hrun])) fun h => hfits h.1

/-! ## A rejected PDU -/

/-- A create procedure for association 1 whose MAC field has seventeen octets. -/
def longMacRequest : SaRequest :=
  { requestFor 1 with
    pdu := ⟨⟨0, 0, 1, 1, 96⟩, ⟨[0, 1, 0x80, 0, 17] ++ List.replicate (TLV_DATA_SIZE - 5) 0, by
      rw [List.length_append, List.length_replicate]
      rfl⟩⟩ }

/-- The association was KEYED; it is UNKEYED and has the rejected length. -/
theorem rejected_create_overwrites :
    (saCreate longMacRequest fun _ => keyedEntry).1 = .error .stmacfLenGreaterThanMaxMacSize ∧
      ((saCreate longMacRequest fun _ => keyedEntry).2 sampleSa).saState = .unkeyed ∧
      ((saCreate longMacRequest fun _ => keyedEntry).2 sampleSa).stmacfLen = 17 ∧
      ¬CreatesAtomically longMacRequest fun _ => keyedEntry := by
  have hrejected : (saCreate longMacRequest fun _ => keyedEntry).1 =
      .error .stmacfLenGreaterThanMaxMacSize := by
    decide +kernel
  have hstate : ((saCreate longMacRequest fun _ => keyedEntry).2 sampleSa).saState = .unkeyed := by
    decide +kernel
  refine ⟨hrejected, hstate, by decide +kernel, fun h => ?_⟩
  rw [h.atomic _ hrejected] at hstate
  cases hstate
end Nos3.Sdls
