import Nos3.Sdls.Source.KeyManagement

/-!
# Key management commands as transactions

Both procedures change the keys of a list one after the other and check each only
when its turn comes: an entry that is refused leaves the changes of those before
it. A command is all or nothing exactly where nothing before the refused entry
changed a key.
-/
namespace Nos3.Sdls
open Nos3.Base.BigEndian (Octet)
open Nos3.Base.FixedArray
open Nos3.Base.Program
open Nos3.Base.CheckedSequence

def KeyProcedure.target : KeyProcedure → BitVec 4
  | .otar => KEY_PREACTIVE
  | .activation => KEY_ACTIVE
  | .deactivation => KEY_DEACTIVATED
  | .destruction => KEY_DESTROYED

/-- What a successful procedure does to a listed key: OTAR gives it a value and makes
it PREACTIVE, an update moves it one step and keeps its value. -/
def KeyProcedure.Moves : KeyProcedure → RingKey → RingKey → Prop
  | .otar, _, after => after.keyState = KEY_PREACTIVE
  | procedure, before, after => before.keyState.toNat + 1 = procedure.target.toNat ∧
      after = before.withState procedure.target

/-- The procedure returns, changes nothing with an error and only the listed keys
without one. -/
structure KeyAtomic (procedure : KeyProcedure) (listed : List Nat) (before : KeyRing)
    (run : Except KeyError Unit × KeyStore) : Prop where
  returns : run.1 ≠ .error .memoryFault
  unchanged : ∀ e, run.1 = .error e → run.2.ring = before
  others : run.1 = .ok () → ∀ keyId, keyId ∉ listed ∨ keyId < MKID_MAX →
    run.2.ring keyId = before keyId
  moved : run.1 = .ok () → ∀ keyId ∈ listed,
    MKID_MAX ≤ keyId ∧ procedure.Moves (before keyId) (run.2.ring keyId)

theorem KeyAtomic.of_error {procedure : KeyProcedure} {listed : List Nat} {before : KeyRing}
    {run : Except KeyError Unit × KeyStore} {e : KeyError} (hrun : run.1 = .error e)
    (hfault : e ≠ .memoryFault) (hring : run.2.ring = before) :
    KeyAtomic procedure listed before run := by
  refine ⟨?_, fun _ _ => hring, fun hok => ?_, fun hok => ?_⟩
  · rw [hrun]
    exact fun h => hfault (Except.error.inj h)
  · rw [hrun] at hok
    cases hok
  · rw [hrun] at hok
    cases hok

/-- With an error other than a fault, all or nothing means nothing. -/
theorem KeyAtomic.error_iff {procedure : KeyProcedure} {listed : List Nat} {before : KeyRing}
    {run : Except KeyError Unit × KeyStore} {e : KeyError} (hrun : run.1 = .error e)
    (hfault : e ≠ .memoryFault) :
    KeyAtomic procedure listed before run ↔ run.2.ring = before :=
  ⟨fun h => h.unchanged e hrun, .of_error hrun hfault⟩

/-! ## Upload keys -/

def KeyRing.install (ring : KeyRing) (blocks : List KeyBlock) : KeyRing :=
  blocks.foldl otarChecked.apply ring

def KeyBlock.Whole (block : KeyBlock) : Prop := block.ek.length = SDLS_KEY_LEN

/-- A later upload of a key replaces an earlier one. -/
theorem installKey_installKey {key : RingKey} {a b : List Octet} (h : a.length = b.length) :
    installKey (installKey key a) b = installKey key b := by
  unfold installKey patch
  simp [h]

theorem install_other {blocks : List KeyBlock} {keyId : Nat} :
    ∀ {ring : KeyRing}, (∀ block ∈ blocks, block.ekid ≠ keyId) →
      ring.install blocks keyId = ring keyId := by
  induction blocks with
  | nil => exact fun _ => rfl
  | cons block rest ih =>
    intro ring h
    have hrest : (otarChecked.apply ring block : KeyRing).install rest keyId =
        otarChecked.apply ring block keyId :=
      ih fun other hother => h other (List.mem_cons_of_mem _ hother)
    exact hrest.trans (if_neg fun heq => h block List.mem_cons_self heq.symm)

theorem installKey_install {blocks : List KeyBlock} {keyId : Nat} {ek : List Octet}
    (hek : ek.length = SDLS_KEY_LEN) : ∀ {ring : KeyRing}, (∀ block ∈ blocks, block.Whole) →
      installKey (ring.install blocks keyId) ek = installKey (ring keyId) ek := by
  induction blocks with
  | nil => exact fun _ => rfl
  | cons block rest ih =>
    intro ring h
    have hrest : installKey ((otarChecked.apply ring block : KeyRing).install rest keyId) ek =
        installKey (otarChecked.apply ring block keyId) ek :=
      ih fun other hother => h other (List.mem_cons_of_mem _ hother)
    refine hrest.trans ?_
    by_cases hid : keyId = block.ekid
    · have hset : otarChecked.apply ring block keyId =
          installKey (ring block.ekid) block.ek := if_pos hid
      rw [hset, installKey_installKey ((h block List.mem_cons_self).trans hek.symm), hid]
    · have hset : otarChecked.apply ring block keyId = ring keyId := if_neg hid
      rw [hset]

/-- The last block for a key decides. -/
theorem install_last {ring : KeyRing} {front back : List KeyBlock} {block : KeyBlock}
    (hwhole : ∀ other ∈ front, other.Whole) (hblock : block.Whole)
    (hlast : ∀ other ∈ back, other.ekid ≠ block.ekid) :
    ring.install (front ++ block :: back) block.ekid = installKey (ring block.ekid) block.ek := by
  have hsplit : ring.install (front ++ block :: back) =
      (otarChecked.apply (ring.install front) block : KeyRing).install back := by
    unfold KeyRing.install
    rw [List.foldl_append, List.foldl_cons]
  rw [hsplit, install_other hlast]
  have hset : otarChecked.apply (ring.install front) block block.ekid =
      installKey (ring.install front block.ekid) block.ek := if_pos rfl
  rw [hset, installKey_install hblock hwhole]

/-- A listed key has a last block. -/
theorem exists_last_block {keyId : Nat} : ∀ {blocks : List KeyBlock},
    (∃ block ∈ blocks, block.ekid = keyId) → ∃ front block back,
      blocks = front ++ block :: back ∧ block.ekid = keyId ∧ ∀ other ∈ back, other.ekid ≠ keyId
  | [], ⟨_, hmem, _⟩ => nomatch hmem
  | first :: rest, ⟨block, hmem, hid⟩ => by
    by_cases hlater : ∃ other ∈ rest, other.ekid = keyId
    · obtain ⟨front, last, back, hsplit, hlast, hback⟩ := exists_last_block hlater
      exact ⟨first :: front, last, back, by rw [hsplit]; rfl, hlast, hback⟩
    · have hnone : ∀ other ∈ rest, other.ekid ≠ keyId :=
        fun other hother heq => hlater ⟨other, hother, heq⟩
      rcases List.mem_cons.mp hmem with heq | hrest
      · exact ⟨[], first, rest, rfl, heq ▸ hid, hnone⟩
      · exact absurd hid (hnone block hrest)

/-- Every block that is the last one for its key has what the ring has already. -/
def NothingNew (ring : KeyRing) (blocks : List KeyBlock) : Prop :=
  ∀ front block back, blocks = front ++ block :: back →
    (∀ other ∈ back, other.ekid ≠ block.ekid) →
      installKey (ring block.ekid) block.ek = ring block.ekid

theorem install_same_iff {ring : KeyRing} {blocks : List KeyBlock}
    (hwhole : ∀ block ∈ blocks, block.Whole) :
    ring.install blocks = ring ↔ NothingNew ring blocks := by
  constructor
  · rintro h front block back rfl hlast
    rw [← install_last (fun other hother => hwhole other (List.mem_append_left _ hother))
      (hwhole block (List.mem_append_right _ List.mem_cons_self)) hlast, h]
  · intro h
    funext keyId
    by_cases hlisted : ∃ block ∈ blocks, block.ekid = keyId
    · obtain ⟨front, block, back, rfl, rfl, hlast⟩ := exists_last_block hlisted
      rw [install_last (fun other hother => hwhole other (List.mem_append_left _ hother))
        (hwhole block (List.mem_append_right _ List.mem_cons_self)) hlast]
      exact h front block back rfl hlast
    · exact install_other fun block hblock heq => hlisted ⟨block, hblock, heq⟩

/-- The blocks are all for session keys of the ring, or those before the first that is
not bring nothing new. -/
def BlocksSafe (ring : KeyRing) (blocks : List KeyBlock) : Prop :=
  (∀ block ∈ blocks, Changeable block.ekid) ∨
    NothingNew ring (blocks.takeWhile fun block => Changeable block.ekid)

/-- What the loop over the blocks has done when it ends. -/
theorem otar_run (ring : KeyRing) (blocks : List KeyBlock) :
    (otarChecked.run ring blocks = (ring.install blocks, none) ∧
        ∀ block ∈ blocks, Changeable block.ekid) ∨
      ∃ block, otarChecked.run ring blocks =
          (ring.install (blocks.takeWhile fun block => Changeable block.ekid), some block) ∧
        block ∈ blocks ∧ ¬ Changeable block.ekid := by
  have hstep : ∀ (done : List KeyBlock) (reached : KeyRing) (block : KeyBlock),
      (reached = ring.install done ∧ ∀ other ∈ done, Changeable other.ekid) →
      otarChecked.check reached block = true →
      otarChecked.apply reached block = ring.install (done ++ [block]) ∧
        ∀ other ∈ done ++ [block], Changeable other.ekid := by
    rintro done reached block ⟨rfl, hdone⟩ hcheck
    refine ⟨?_, fun other hother => ?_⟩
    · unfold KeyRing.install
      rw [List.foldl_append]
      rfl
    · rcases List.mem_append.mp hother with hold | hnew
      · exact hdone other hold
      · rw [List.mem_singleton.mp hnew]
        exact of_decide_eq_true hcheck
  have hrun := Checked.run_invariant hstep blocks [] ring ⟨rfl, nofun⟩
  cases heq : otarChecked.run ring blocks with
  | mk reached refused =>
    rw [heq] at hrun
    cases refused with
    | none =>
      obtain ⟨hreached, hall⟩ := hrun
      exact .inl ⟨by rw [hreached]; rfl, hall⟩
    | some block =>
      obtain ⟨front, back, hsplit, ⟨hreached, hfront⟩, hfalse⟩ := hrun
      rw [List.nil_append] at hreached hfront
      have hnot : ¬ Changeable block.ekid := of_decide_eq_false hfalse
      have hwhile : blocks.takeWhile (fun block => Changeable block.ekid) = front := by
        rw [hsplit, List.takeWhile_append_of_pos (fun other hother => decide_eq_true
          (hfront other hother)), List.takeWhile_cons_of_neg (by simpa using hnot), List.append_nil]
      refine .inr ⟨block, by rw [hwhile, hreached], ?_, hnot⟩
      rw [hsplit]
      exact List.mem_append_right _ List.mem_cons_self

theorem install_state {ring : KeyRing} {blocks : List KeyBlock} {keyId : Nat}
    (hwhole : ∀ block ∈ blocks, block.Whole) (hlisted : ∃ block ∈ blocks, block.ekid = keyId) :
    (ring.install blocks keyId).keyState = KEY_PREACTIVE := by
  obtain ⟨front, block, back, rfl, rfl, hlast⟩ := exists_last_block hlisted
  rw [install_last (fun other hother => hwhole other (List.mem_append_left _ hother))
    (hwhole block (List.mem_append_right _ List.mem_cons_self)) hlast]
  rfl

theorem otarRefused_error (order : ByteOrder) (s : KeyStore) (block : KeyBlock) :
    ∃ e, (otarRefused order s block).1 = .error e ∧ e ≠ .memoryFault ∧
      (otarRefused order s block).2.ring = s.ring := by
  unfold otarRefused
  split
  · exact ⟨.error, rfl, nofun, rfl⟩
  · exact ⟨.keyIdError, rfl, nofun, rfl⟩

/-- The loop is all or nothing exactly on safe blocks. -/
theorem otarKeys_atomic_iff (order : ByteOrder) (s : KeyStore) {blocks : List KeyBlock}
    (hwhole : ∀ block ∈ blocks, block.Whole) :
    KeyAtomic .otar (blocks.map KeyBlock.ekid) s.ring (otarKeys order blocks s) ↔
      BlocksSafe s.ring blocks := by
  rw [otarKeys_run]
  rcases otar_run s.ring blocks with ⟨hrun, hall⟩ | ⟨block, hrun, hmem, hnot⟩
  · rw [hrun]
    refine iff_of_true ⟨nofun, nofun, fun _ keyId hkey => ?_, fun _ keyId hkey => ?_⟩ (.inl hall)
    · refine install_other fun block hblock heq => ?_
      rcases hkey with hlisted | hmaster
      · exact hlisted (heq ▸ List.mem_map_of_mem hblock)
      · exact absurd (hall block hblock).1 (by omega)
    · obtain ⟨block, hblock, rfl⟩ := List.mem_map.mp hkey
      exact ⟨(hall block hblock).1, install_state hwhole ⟨block, hblock, rfl⟩⟩
  · rw [hrun]
    obtain ⟨e, herror, hfault, hring⟩ := otarRefused_error order
      { s with ring := s.ring.install (blocks.takeWhile fun block => Changeable block.ekid) } block
    refine (KeyAtomic.error_iff herror hfault).trans ?_
    rw [hring]
    refine (install_same_iff fun other hother => hwhole other
      ((List.takeWhile_prefix _).subset hother)).trans ?_
    exact ⟨.inr, fun h => h.resolve_left fun hall => hnot (hall block hmem)⟩

/-! ## Key updates -/

theorem promote_same_iff {ring : KeyRing} {state : BitVec 4} {done : List Nat}
    (heligible : ∀ keyId ∈ done, Eligible ring state keyId) :
    ring.promote state done = ring ↔ done = [] := by
  constructor
  · intro h
    cases done with
    | nil => rfl
    | cons keyId rest =>
      exfalso
      have hkey := congrFun h keyId
      unfold KeyRing.promote at hkey
      rw [if_pos List.mem_cons_self] at hkey
      have hstate := (heligible keyId List.mem_cons_self).2
      rw [← hkey] at hstate
      exact absurd hstate (Nat.succ_ne_self _)
  · rintro rfl
    exact (Promoted.nil ring state).reached_eq.symm

/-- The first key of the list is refused, or all can be moved and are different. -/
def IdsSafe (ring : KeyRing) (state : BitVec 4) (ids : List Nat) : Prop :=
  (∀ keyId ∈ ids.head?, ¬ Eligible ring state keyId) ∨
    ids.Nodup ∧ ∀ keyId ∈ ids, Eligible ring state keyId

theorem update_run (ring : KeyRing) (state : BitVec 4) (ids : List Nat) :
    ((updateChecked state).run ring ids = (ring.promote state ids, none) ∧
        Promoted ring state ids (ring.promote state ids)) ∨
      ∃ front keyId back, ids = front ++ keyId :: back ∧
        (updateChecked state).run ring ids = (ring.promote state front, some keyId) ∧
        Promoted ring state front (ring.promote state front) ∧
        ¬ Eligible (ring.promote state front) state keyId := by
  have hrun := Checked.run_invariant
    (fun done reached keyId (h : Promoted ring state done reached) hcheck => h.step hcheck)
    ids [] ring (Promoted.nil ring state)
  cases heq : (updateChecked state).run ring ids with
  | mk reached refused =>
    rw [heq] at hrun
    cases refused with
    | none =>
      have hreached := hrun.reached_eq
      exact .inl ⟨by rw [hreached]; rfl, hreached ▸ hrun⟩
    | some keyId =>
      obtain ⟨front, back, hsplit, hfront, hfalse⟩ := hrun
      have hreached := hfront.reached_eq
      refine .inr ⟨front, keyId, back, hsplit, by rw [hreached]; rfl, hreached ▸ hfront, ?_⟩
      have hnot : ¬ Eligible reached state keyId := of_decide_eq_false hfalse
      exact hreached ▸ hnot

theorem updateRefused_error (order : ByteOrder) (s : KeyStore) (keyId : Nat) :
    ∃ e, (updateRefused order s keyId).1 = .error e ∧ e ≠ .memoryFault ∧
      (updateRefused order s keyId).2.ring = s.ring := by
  unfold updateRefused
  split
  · exact ⟨.keyIdError, rfl, nofun, rfl⟩
  · split
    · exact ⟨.keyStateTransitionError, rfl, nofun, rfl⟩
    · exact ⟨.keyIdError, rfl, nofun, rfl⟩

/-- A refused key behind others shows that not all were eligible and different. -/
theorem refused_not_all {ring : KeyRing} {state : BitVec 4} {front back : List Nat} {keyId : Nat}
    (hnot : ¬ Eligible (ring.promote state front) state keyId)
    (hnodup : (front ++ keyId :: back).Nodup) : ¬ Eligible ring state keyId := by
  have hnew : keyId ∉ front := fun hmem =>
    (List.nodup_append.mp hnodup).2.2 keyId hmem keyId List.mem_cons_self rfl
  have hsame : ring.promote state front keyId = ring keyId := if_neg hnew
  intro heligible
  exact hnot ⟨heligible.1, by rw [hsame]; exact heligible.2⟩

/-- The loop is all or nothing exactly on safe lists. -/
theorem updateKeys_atomic_iff (order : ByteOrder) (s : KeyStore) (ids : List Nat)
    {procedure : KeyProcedure} (hupdate : procedure ≠ .otar) :
    KeyAtomic procedure ids s.ring (updateKeys order procedure.target ids s) ↔
      IdsSafe s.ring procedure.target ids := by
  rw [updateKeys_run]
  rcases update_run s.ring procedure.target ids with
    ⟨hrun, hall⟩ | ⟨front, keyId, back, hsplit, hrun, hfront, hnot⟩
  · rw [hrun]
    refine iff_of_true ⟨nofun, nofun, fun _ keyId hkey => if_neg fun hmem => ?_,
      fun _ keyId hkey => ?_⟩ (.inr ⟨hall.different, hall.eligible⟩)
    · rcases hkey with hlisted | hmaster
      · exact hlisted hmem
      · exact absurd (hall.eligible keyId hmem).1.1 (by omega)
    · have heligible := hall.eligible keyId hkey
      have hafter : s.ring.promote procedure.target ids keyId =
          (s.ring keyId).withState procedure.target := if_pos hkey
      refine ⟨heligible.1.1, ?_⟩
      cases procedure with
      | otar => exact absurd rfl hupdate
      | activation => exact ⟨heligible.2, hafter⟩
      | deactivation => exact ⟨heligible.2, hafter⟩
      | destruction => exact ⟨heligible.2, hafter⟩
  · rw [hrun]
    obtain ⟨e, herror, hfault, hring⟩ := updateRefused_error order
      { s with ring := s.ring.promote procedure.target front } keyId
    refine (KeyAtomic.error_iff herror hfault).trans ?_
    rw [hring]
    refine (promote_same_iff hfront.eligible).trans ?_
    constructor
    · rintro rfl
      left
      intro other hother
      rw [hsplit] at hother
      obtain rfl : keyId = other := Option.some.inj hother
      rwa [(promote_same_iff hfront.eligible).mpr rfl] at hnot
    · rintro (hhead | ⟨hnodup, hall⟩)
      · cases front with
        | nil => rfl
        | cons first rest =>
          exfalso
          refine hhead first ?_ (hfront.eligible first List.mem_cons_self)
          rw [hsplit]
          rfl
      · exfalso
        rw [hsplit] at hnodup
        refine refused_not_all hnot hnodup (hall keyId ?_)
        rw [hsplit]
        exact List.mem_append_right _ List.mem_cons_self

/-! ## The procedures -/

/-- The keys that a PDU lists for a procedure; OTAR lists them in the encrypted part. -/
def listedKeys (decrypt : OtarDecrypt) (pdu : TlvPdu) (s : KeyStore) : KeyProcedure → List Nat
  | .otar =>
    match otarCiphertext decrypt pdu (s.ring (otarMkid pdu)) with
    | .ok plaintext => (keyBlocks pdu plaintext).map KeyBlock.ekid
    | .error _ => []
  | _ => updateIds pdu

/-- OTAR: the PDU is too short or names no master key, or it fits into the TLV data
and what an active master key decrypts are safe blocks. -/
def OtarSafe (decrypt : OtarDecrypt) (pdu : TlvPdu) (s : KeyStore) : Prop :=
  pduOctets pdu < 30 ∨ MKID_MAX ≤ otarMkid pdu ∨
    pduOctets pdu ≤ TLV_DATA_SIZE ∧ ((s.ring (otarMkid pdu)).keyState = KEY_ACTIVE →
      ∀ plaintext, otarCiphertext decrypt pdu (s.ring (otarMkid pdu)) = .ok plaintext →
        BlocksSafe s.ring (keyBlocks pdu plaintext))

/-- An update: the PDU is longer than the code accepts, or its list is safe. -/
def UpdateSafe (pktLength : Nat) (pdu : TlvPdu) (s : KeyStore) (state : BitVec 4) : Prop :=
  ((state = KEY_DEACTIVATED ∨ state = KEY_ACTIVE) ∧
      (SDLS_MAX_KEY_UPDATE_LEN < pduOctets pdu ∨ pktLength < pduOctets pdu)) ∨
    SDLS_MAX_KEY_UPDATES < pduOctets pdu / 2 ∨ IdsSafe s.ring state (updateIds pdu)

def KeySafe (decrypt : OtarDecrypt) (pktLength : Nat) (pdu : TlvPdu) (s : KeyStore) :
    KeyProcedure → Prop
  | .otar => OtarSafe decrypt pdu s
  | procedure => UpdateSafe pktLength pdu s procedure.target

/-- The length that the PDU is checked for rounds down to its own number of keys. -/
theorem otarTooShort_iff (pdu : TlvPdu) :
    pduOctets pdu < SDLS_KEYID_LEN + SDLS_IV_LEN +
      (SDLS_KEYID_LEN + SDLS_KEY_LEN) * otarPduKeys pdu + MAC_SIZE ↔ pduOctets pdu < 30 := by
  unfold otarPduKeys SDLS_KEYID_LEN SDLS_IV_LEN SDLS_KEY_LEN MAC_SIZE
  omega

/-- A PDU that fits has its blocks inside the TLV data. -/
theorem keyBlocks_whole {pdu : TlvPdu} (hlow : ¬ pduOctets pdu < 30)
    (hfits : pduOctets pdu ≤ TLV_DATA_SIZE) (plaintext : List Octet) :
    ∀ block ∈ keyBlocks pdu plaintext, block.Whole := by
  intro block hblock
  obtain ⟨x, hx, rfl⟩ := List.mem_map.mp hblock
  have hcount : x < otarPduKeys pdu := List.mem_range.mp hx
  have hcells := pdu.data.length_cells
  have hinside : 14 + (plaintext.take (otarPduKeys pdu * (SDLS_KEYID_LEN + SDLS_KEY_LEN))).length ≤
      pdu.data.cells.length := by
    rw [List.length_take, hcells]
    unfold otarPduKeys SDLS_KEYID_LEN SDLS_IV_LEN SDLS_KEY_LEN MAC_SIZE
    unfold TLV_DATA_SIZE at hfits ⊢
    omega
  unfold KeyBlock.Whole keyBlockAt
  dsimp only
  rw [Base.FileImage.window_length, patch_length hinside, hcells]
  unfold otarPduKeys SDLS_KEYID_LEN SDLS_IV_LEN SDLS_KEY_LEN MAC_SIZE at hcount
  unfold TLV_DATA_SIZE at hfits ⊢
  unfold SDLS_KEYID_LEN SDLS_KEY_LEN
  omega

theorem keyOtar_atomic_iff (order : ByteOrder) (decrypt : OtarDecrypt) (pdu : TlvPdu)
    (s : KeyStore) :
    KeyAtomic .otar (listedKeys decrypt pdu s .otar) s.ring (keyOtar order decrypt pdu s) ↔
      OtarSafe decrypt pdu s := by
  unfold keyOtar
  by_cases hshort : pduOctets pdu < 30
  · rw [if_pos ((otarTooShort_iff pdu).mpr hshort)]
    exact iff_of_true (.of_error rfl nofun rfl) (.inl hshort)
  rw [if_neg (mt (otarTooShort_iff pdu).mp hshort)]
  by_cases hmaster : MKID_MAX ≤ otarMkid pdu
  · rw [if_pos hmaster]
    exact iff_of_true (.of_error rfl nofun rfl) (.inr (.inl hmaster))
  rw [if_neg hmaster]
  by_cases hlong : TLV_DATA_SIZE < pduOctets pdu
  · rw [if_pos hlong]
    refine iff_of_false (fun h => h.returns rfl) ?_
    rintro (hlow | hhigh | ⟨hfits, -⟩)
    · exact hshort hlow
    · exact hmaster hhigh
    · exact absurd hfits (Nat.not_le.mpr hlong)
  rw [if_neg hlong]
  have hfits : pduOctets pdu ≤ TLV_DATA_SIZE := Nat.le_of_not_lt hlong
  have hkey : getKey s (otarMkid pdu) = .ok (s.ring (otarMkid pdu)) :=
    if_pos (Nat.lt_trans (Nat.lt_of_not_le hmaster) (by decide))
  rw [get_bind, lift_bind hkey]
  by_cases hactive : (s.ring (otarMkid pdu)).keyState = KEY_ACTIVE
  · rw [if_neg (not_not.mpr hactive)]
    cases hplain : otarCiphertext decrypt pdu (s.ring (otarMkid pdu)) with
    | error code =>
      have herror : decryptError (.error code : Except Nat (List Octet)) =
          .error (.cryptography code) := rfl
      rw [lift_bind_error herror]
      refine iff_of_true (.of_error rfl nofun rfl) (.inr (.inr ⟨hfits, fun _ plaintext hok => ?_⟩))
      rw [hplain] at hok
      cases hok
    | ok plaintext =>
      have hlisted : listedKeys decrypt pdu s .otar =
          (keyBlocks pdu plaintext).map KeyBlock.ekid := by
        unfold listedKeys
        rw [hplain]
      have hdecrypted : decryptError (.ok plaintext) = .ok plaintext := rfl
      rw [lift_bind hdecrypted, hlisted]
      refine (otarKeys_atomic_iff order s (keyBlocks_whole hshort hfits plaintext)).trans ?_
      constructor
      · refine fun hsafe => .inr (.inr ⟨hfits, fun _ other hok => ?_⟩)
        obtain rfl : plaintext = other := Except.ok.inj (hplain.symm.trans hok)
        exact hsafe
      · rintro (hlow | hhigh | ⟨-, hsafe⟩)
        · exact absurd hlow hshort
        · exact absurd hhigh hmaster
        · exact hsafe hactive plaintext hplain
  · rw [if_pos hactive]
    exact iff_of_true (.of_error rfl nofun rfl)
      (.inr (.inr ⟨hfits, fun hstate => absurd hstate hactive⟩))

theorem keyUpdate_atomic_iff (order : ByteOrder) (pktLength : Nat) (pdu : TlvPdu) (s : KeyStore)
    {procedure : KeyProcedure} (hupdate : procedure ≠ .otar) :
    KeyAtomic procedure (updateIds pdu) s.ring (keyUpdate order pktLength pdu procedure.target s) ↔
      UpdateSafe pktLength pdu s procedure.target := by
  unfold keyUpdate UpdateSafe
  by_cases hlong : (procedure.target = KEY_DEACTIVATED ∨ procedure.target = KEY_ACTIVE) ∧
      (SDLS_MAX_KEY_UPDATE_LEN < pduOctets pdu ∨ pktLength < pduOctets pdu)
  · rw [if_pos hlong]
    exact iff_of_true (.of_error rfl nofun rfl) (.inl hlong)
  rw [if_neg hlong]
  by_cases hmany : SDLS_MAX_KEY_UPDATES < pduOctets pdu / 2
  · rw [if_pos hmany]
    exact iff_of_true (.of_error rfl nofun rfl) (.inr (.inl hmany))
  rw [if_neg hmany]
  refine (updateKeys_atomic_iff order s (updateIds pdu) hupdate).trans ?_
  exact ⟨fun hsafe => .inr (.inr hsafe),
    fun h => (h.resolve_left hlong).resolve_left hmany⟩

/-- A key management command is all or nothing exactly on the PDUs that are safe in the
state of the ring. -/
theorem key_management_atomic_iff (order : ByteOrder) (decrypt : OtarDecrypt) (pktLength : Nat)
    (pdu : TlvPdu) (s : KeyStore) (procedure : KeyProcedure) :
    KeyAtomic procedure (listedKeys decrypt pdu s procedure) s.ring
        (sgKeyMgmt order decrypt pktLength pdu procedure s) ↔
      KeySafe decrypt pktLength pdu s procedure := by
  cases procedure with
  | otar => exact keyOtar_atomic_iff order decrypt pdu s
  | activation => exact keyUpdate_atomic_iff order pktLength pdu s nofun
  | deactivation => exact keyUpdate_atomic_iff order pktLength pdu s nofun
  | destruction => exact keyUpdate_atomic_iff order pktLength pdu s nofun

/-! ## A master key behind a session key -/

/-- A ring of PREACTIVE keys after initialisation. -/
def preactiveStore : KeyStore where
  ring _ := ⟨List.replicate KEY_SIZE 0, 32, KEY_PREACTIVE⟩
  log := localConfig ⟨0, 0, 0, List.replicate LOG_SIZE ⟨0, 0, [0, 0, 0, 0]⟩⟩
  af := false

/-- The data of a PDU, `count` octets of it. -/
def dataPdu (count : Nat) (data : List Octet) : TlvPdu where
  hdr := ⟨0, 0, 0, 2, BitVec.ofNat 16 (8 * count)⟩
  data := ⟨data.take TLV_DATA_SIZE ++ List.replicate (TLV_DATA_SIZE - data.length) 0, by
    rw [List.length_append, List.length_take, List.length_replicate]
    omega⟩

/-- Activating keys 132 and 5. -/
def activationMidway : Except KeyError Unit × KeyStore :=
  sgKeyMgmt .little (fun _ _ _ _ => .error 0) 20 (dataPdu 4 [0, 132, 0, 5]) .activation
    preactiveStore

/-- The command fails at the master key, and key 132 is active. -/
theorem activation_stops_midway :
    activationMidway.1 = .error .keyIdError ∧
      (preactiveStore.ring 132).keyState = KEY_PREACTIVE ∧
      (activationMidway.2.ring 132).keyState = KEY_ACTIVE ∧
      ¬ KeyAtomic .activation [132, 5] preactiveStore.ring activationMidway := by
  have herror : activationMidway.1 = .error .keyIdError := by decide +kernel
  have hmoved : (activationMidway.2.ring 132).keyState = KEY_ACTIVE := by decide +kernel
  refine ⟨herror, rfl, hmoved, fun h => ?_⟩
  rw [h.unchanged _ herror] at hmoved
  exact absurd hmoved (by decide)

end Nos3.Sdls
