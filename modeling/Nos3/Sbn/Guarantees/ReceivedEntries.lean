import Nos3.Sbn.Guarantees.SubscriptionMessages
import Mathlib.Algebra.BigOperators.Group.List.Basic
import Mathlib.Data.List.GetD
import Mathlib.Algebra.GroupWithZero.Nat

/-!
# Subscriptions on the wire

The handlers of subscription messages work off the list of entries that they read. Entries
that were received completely are read as they are, whatever else the receiver's buffer and
stack hold. The list of a whole table survives as long as it fits the buffer it is packed in,
which is made for the header of a message but not for the version identifier.
-/
namespace Nos3.Sbn
open Base.BigEndian (Octet beOctets ofBe ofBe_beOctets_word beOctets_length)
open Base.ByteMemory

/-! ## The entries that are read -/

/-- The entries that a loop of so many passes reads. -/
def readEntries : Nat → Unpack → List (MsgId × Qos)
  | 0, _ => []
  | n + 1, p => (p.msgId.1, p.msgId.2.qos.1) :: readEntries n p.msgId.2.qos.2

def addEntries (remapMid : MsgId → Option MsgId) (subscribed : MsgId → Bool) :
    List (MsgId × Qos) → Table → Status × Table
  | [], t => (.success, t)
  | (msgId, qos) :: entries, t =>
    match processSubFromPeer remapMid subscribed msgId qos t with
    | (.success, t) => addEntries remapMid subscribed entries t
    | (.error, t) => (.error, t)

def removeEntries (remapMid : MsgId → Option MsgId) (entries : List (MsgId × Qos)) (t : Table) :
    Table :=
  entries.foldl (fun t entry => processFilteredUnsub remapMid entry.1 t) t

variable {remapMid : MsgId → Option MsgId} {subscribed : MsgId → Bool}

theorem processFilteredSubs_eq (n : Nat) (p : Unpack) (t : Table) :
    processFilteredSubs remapMid subscribed n p t =
      addEntries remapMid subscribed (readEntries n p) t := by
  induction n generalizing p t with
  | zero => rfl
  | succ n ih =>
    rw [processFilteredSubs, readEntries, addEntries]
    dsimp only
    obtain ⟨status, t'⟩ := processSubFromPeer remapMid subscribed p.msgId.1 p.msgId.2.qos.1 t
    cases status with
    | success => exact ih _ _
    | error => rfl

theorem processFilteredUnsubs_eq (n : Nat) (p : Unpack) (t : Table) :
    processFilteredUnsubs remapMid n p t = removeEntries remapMid (readEntries n p) t := by
  induction n generalizing p t with
  | zero => rfl
  | succ n ih => exact ih _ _

/-- The entries of a message from a peer of the same version. -/
def decodedSubs (ident : Ident) (p : Unpack) : Option (List (MsgId × Qos)) :=
  if strncmpEqual (p.data SBN_IDENT_LEN).1 ident.octets then
    some (readEntries (p.data SBN_IDENT_LEN).2.uint16.1.toNat (p.data SBN_IDENT_LEN).2.uint16.2)
  else none

theorem processFilteredSubsFromPeer_eq (ident : Ident) (p : Unpack) (t : Table) :
    processFilteredSubsFromPeer ident remapMid subscribed p t =
      match decodedSubs ident p with
      | none => (.error, t)
      | some entries => addEntries remapMid subscribed entries t := by
  rw [processFilteredSubsFromPeer, decodedSubs]
  dsimp only
  split
  · exact processFilteredSubs_eq _ _ _
  · rfl

/-! ## Entries received completely -/

/-- The first entries in an octet string. -/
def entriesIn : Nat → List Octet → List (MsgId × Qos)
  | 0, _ => []
  | n + 1, octets =>
    (ofBe (octets.take 4), ⟨octets.getD 4 0, octets.getD 5 0⟩) :: entriesIn n (octets.drop 6)

@[simp] theorem entriesIn_length (n : Nat) (octets : List Octet) :
    (entriesIn n octets).length = n := by
  induction n generalizing octets with
  | zero => rfl
  | succ n ih => rw [entriesIn, List.length_cons, ih]

variable {payload : List Octet} {older : Memory}

theorem copyOut_received_complete (older : Memory) {used n : Nat}
    (h : used + n ≤ payload.length) :
    copyOut (received payload older) used n = (payload.drop used).take n := by
  have hfield : (payload.take used ++ (payload.drop used).take n) <+: payload := by
    rw [← List.take_add]
    exact List.take_prefix _ _
  have hread := copyOut_received _ _ older hfield
  rwa [List.length_take_of_le (by omega), List.length_take_of_le (by
    rw [List.length_drop]; omega)] at hread

theorem inbox_msgId {used : Nat} (stack : Memory)
    (h : used + 4 ≤ CFE_MISSION_SB_MAX_SB_MSG_SIZE) :
    (inbox payload older stack used).msgId =
      (ofBe (copyOut (received payload older) used 4), inbox payload older stack (used + 4)) := by
  rw [Unpack.msgId, inbox_data stack h]

theorem inbox_qos {used : Nat} (stack : Memory)
    (h : used + 2 ≤ CFE_MISSION_SB_MAX_SB_MSG_SIZE) :
    (inbox payload older stack used).qos =
      (⟨(copyOut (received payload older) used 2).getD 0 0,
        (copyOut (received payload older) used 2).getD 1 0⟩,
        inbox payload older stack (used + 2)) := by
  rw [Unpack.qos, inbox_data stack h]

/-- What was received completely is read as it is. -/
theorem readEntries_complete (older stack : Memory) {n used : Nat}
    (hlimit : payload.length ≤ CFE_MISSION_SB_MAX_SB_MSG_SIZE)
    (h : used + 6 * n ≤ payload.length) :
    readEntries n (inbox payload older stack used) = entriesIn n (payload.drop used) := by
  induction n generalizing used with
  | zero => rfl
  | succ n ih =>
    have hnext : used + 4 + 2 + 6 * n ≤ payload.length := by omega
    rw [readEntries, inbox_msgId stack (by omega), inbox_qos stack (by omega), ih hnext,
      entriesIn, copyOut_received_complete older (by omega),
      copyOut_received_complete older (by omega), List.drop_drop]
    simp [List.getD_eq_getElem?_getD, Nat.add_assoc]

/-! ## The list of a whole table -/

def Table.entries (t : Table) : List (MsgId × Qos) :=
  (List.range t.subCnt).map fun i => ((t.subs i).msgId, (t.subs i).qos)

/-- What `Pack_Data` returns. -/
def Pack.fits (dataBuf : List Octet) (p : Pack) : Bool :=
  !decide (p.buf.length + dataBuf.length > p.bufSz)

def packAll (fields : List (List Octet)) (p : Pack) : Pack :=
  fields.foldl (fun (p : Pack) field => p.data field) p

/-- None of the calls of `Pack_Data` fails. -/
def allPacked : List (List Octet) → Pack → Bool
  | [], _ => true
  | field :: fields, p => p.fits field && allPacked fields (p.data field)

/-- The calls that build the message of `SBN_SendLocalSubsToPeer`. -/
def localSubsFields (ident : Ident) (t : Table) : List (List Octet) :=
  ident.octets :: beOctets 2 (BitVec.ofNat 16 t.subCnt) ::
    t.entries.flatMap fun entry => [beOctets 4 entry.1, entry.2.octets]

theorem allPacked_iff (fields : List (List Octet)) {p : Pack} (h : p.buf.length ≤ p.bufSz) :
    allPacked fields p = true ↔ p.buf.length + (fields.map List.length).sum ≤ p.bufSz := by
  induction fields generalizing p with
  | nil => simpa [allPacked] using h
  | cons field fields ih =>
    rw [allPacked, Bool.and_eq_true, Pack.fits, Bool.not_eq_true', decide_eq_false_iff_not,
      List.map_cons, List.sum_cons]
    by_cases hfits : p.buf.length + field.length ≤ p.bufSz
    · rw [pack_data_fits hfits, ih (by simpa using hfits)]
      simp only [List.length_append]
      omega
    · omega

theorem localSubsFields_length (ident : Ident) (t : Table) :
    ((localSubsFields ident t).map List.length).sum = headerSize + 6 * t.subCnt := by
  have hentries (entries : List (MsgId × Qos)) :
      ((entries.flatMap fun entry => [beOctets 4 entry.1, entry.2.octets]).map List.length).sum =
        6 * entries.length := by
    induction entries with
    | nil => rfl
    | cons entry entries ih =>
      simp only [List.flatMap_cons, List.map_append, List.sum_append, ih, List.length_cons]
      simp [Qos.octets]
      omega
  rw [localSubsFields, List.map_cons, List.map_cons, List.sum_cons, List.sum_cons, hentries,
    Table.entries, List.length_map, List.length_range, ident.length, beOctets_length, headerSize]
  omega

/-- The buffer is complete up to 249 entries. -/
theorem allPacked_localSubs (ident : Ident) (t : Table) :
    allPacked (localSubsFields ident t) { bufSz := SBN_PACKED_SUB_SZ } = true ↔
      t.subCnt ≤ 249 := by
  rw [allPacked_iff _ (Nat.zero_le _), localSubsFields_length]
  simp only [List.length_nil, headerSize, SBN_IDENT_LEN, SBN_PACKED_SUB_SZ, SBN_PACKED_HDR_SZ,
    SBN_MAX_SUBS_PER_PEER]
  omega

theorem entriesIn_octets (sub : Sub) (n : Nat) (rest : List Octet) :
    entriesIn (n + 1) (sub.octets ++ rest) = (sub.msgId, sub.qos) :: entriesIn n rest := by
  have htake : (sub.octets ++ rest).take 4 = beOctets 4 sub.msgId := by
    rw [Sub.octets, List.append_assoc, List.take_left' (beOctets_length _ _)]
  have hpriority : (sub.octets ++ rest).getD 4 0 = sub.qos.priority := by
    rw [Sub.octets, List.append_assoc, List.getD_append_right _ _ _ _ (by simp)]
    simp [Qos.octets]
  have hreliability : (sub.octets ++ rest).getD 5 0 = sub.qos.reliability := by
    rw [Sub.octets, List.append_assoc, List.getD_append_right _ _ _ _ (by simp)]
    simp [Qos.octets]
  rw [entriesIn, htake, hpriority, hreliability, List.drop_left' (sub_octets_length sub),
    ofBe_beOctets_word (by decide)]

theorem entriesIn_flatMap (subs : List Sub) :
    entriesIn subs.length (subs.flatMap Sub.octets) = subs.map fun sub => (sub.msgId, sub.qos) := by
  induction subs with
  | nil => rfl
  | cons sub subs ih =>
    rw [List.flatMap_cons, List.length_cons, entriesIn_octets, ih, List.map_cons]

theorem packSubs_complete (ident : Ident) (cnt : BitVec 16) {subs : List Sub}
    (h : subs.length ≤ 249) :
    packSubs ident cnt subs = headerOctets ident cnt ++ subs.flatMap Sub.octets := by
  rw [packSubs, pack_header, packEntries_fits]
  simp only [headerOctets_length, headerSize, SBN_IDENT_LEN, SBN_PACKED_SUB_SZ,
    SBN_PACKED_HDR_SZ, SBN_MAX_SUBS_PER_PEER]
  omega

/-- A list that fits the buffer is read as it was sent. -/
theorem decodedSubs_localSubs (ident : Ident) {t : Table} (h : t.subCnt ≤ 249)
    (older stack : Memory) :
    decodedSubs ident (inbox (localSubsToPeer ident t).payload older stack 0) =
      some t.entries := by
  let subs := (List.range t.subCnt).map t.subs
  have hlength : subs.length = t.subCnt := by simp [subs]
  have hpayload : (localSubsToPeer ident t).payload =
      headerOctets ident (BitVec.ofNat 16 t.subCnt) ++ subs.flatMap Sub.octets :=
    packSubs_complete ident _ (by rw [hlength]; exact h)
  have hentries : t.entries = subs.map fun sub => (sub.msgId, sub.qos) := by
    simp [subs, Table.entries]
  have hcount : (BitVec.ofNat 16 t.subCnt).toNat = subs.length := by
    rw [BitVec.toNat_ofNat, hlength]
    omega
  have hheader : headerOctets ident (BitVec.ofNat 16 t.subCnt) <+:
      (localSubsToPeer ident t).payload := hpayload ▸ List.prefix_append _ _
  have hsize : (localSubsToPeer ident t).payload.length = headerSize + 6 * subs.length := by
    rw [hpayload, List.length_append, headerOctets_length, flatMap_octets_length]
  have hlimit : headerSize + 6 * subs.length ≤ CFE_MISSION_SB_MAX_SB_MSG_SIZE := by
    simp only [headerSize, SBN_IDENT_LEN, CFE_MISSION_SB_MAX_SB_MSG_SIZE]
    omega
  rw [decodedSubs, inbox_ident stack hheader, strncmpEqual_self, if_pos rfl,
    inbox_count stack hheader, hcount,
    readEntries_complete older stack (hsize ▸ hlimit) (Nat.le_of_eq hsize.symm), hpayload,
    List.drop_left' (headerOctets_length ident _), entriesIn_flatMap, hentries]

/-- The message with the local subscriptions is packed completely, and whatever else the
receiver's memory holds, exactly its entries are read from it and worked off in their order. -/
def Survives (ident : Ident) (t : Table) : Prop :=
  allPacked (localSubsFields ident t) { bufSz := SBN_PACKED_SUB_SZ } = true ∧
    ∀ older stack, decodedSubs ident (inbox (localSubsToPeer ident t).payload older stack 0) =
        some t.entries ∧
      ∀ remapMid subscribed peer, processFilteredSubsFromPeer ident remapMid subscribed
        (inbox (localSubsToPeer ident t).payload older stack 0) peer =
          addEntries remapMid subscribed t.entries peer

/-- The version identifier takes the room of the last entries: up to 249 of the 256
subscriptions survive. -/
theorem survives_iff (ident : Ident) (t : Table) : Survives ident t ↔ t.subCnt ≤ 249 := by
  refine ⟨fun h => (allPacked_localSubs ident t).mp h.1,
    fun h => ⟨(allPacked_localSubs ident t).mpr h, fun older stack => ?_⟩⟩
  have hdecoded := decodedSubs_localSubs ident h older stack
  refine ⟨hdecoded, fun remapMid subscribed peer => ?_⟩
  rw [processFilteredSubsFromPeer_eq, hdecoded]

/-- A table with 250 different MsgIDs, while 256 are allowed. -/
theorem survives_not_250 : ¬ ∀ (ident : Ident) (t : Table),
    t.subCnt ≤ SBN_MAX_SUBS_PER_PEER → Survives ident t := by
  intro h
  have hsurvives := h ⟨[0x24, 0x49, 0x64, 0x24, 0x00] ++ List.replicate 43 0, by decide, by decide⟩
    { subs := fun i => { msgId := BitVec.ofNat 32 (0x0800 + i) }, subCnt := 250 } (by decide)
  exact absurd ((allPacked_localSubs _ _).mp hsurvives.1) (by decide)

end Nos3.Sbn

/-!
## What a message with subscriptions may change

A handler should work off the entries that were received completely behind the version
identifier of its own version, and no others. The loops trust the announced number, and
read on in what the buffer and the stack held before.
-/
namespace Nos3.Sbn
open Base.BigEndian (Octet beOctets ofBe beOctets_ofBe ofBe_beOctets_word beOctets_length
  toNat_ofBe_lt toNat_ofBe_concat)
open Base.ByteMemory
open Function (update)

/-! ## What was received -/

/-- No octet that was received differs from the version identifier. -/
def sameVersion (ident : Ident) (payload : List Octet) : Bool :=
  strncmpEqual (payload.take SBN_IDENT_LEN) ident.octets

/-- The number of entries that a message announces. -/
def announced (payload : List Octet) : Nat :=
  (ofBe ((payload.drop SBN_IDENT_LEN).take 2) : BitVec 16).toNat

/-- The number of entries that were received completely. -/
def received6 (payload : List Octet) : Nat := (payload.length - headerSize) / 6

def completeEntries (ident : Ident) (payload : List Octet) : List (MsgId × Qos) :=
  if headerSize ≤ payload.length ∧ sameVersion ident payload then
    entriesIn (min (announced payload) (received6 payload)) (payload.drop headerSize)
  else []

/-- The octets behind the last entry that was received completely. -/
def trailing (payload : List Octet) : List Octet :=
  payload.drop (headerSize + 6 * received6 payload)

/-- The MsgIDs of all entries that were received completely. -/
def receivedIds (payload : List Octet) : List MsgId :=
  (entriesIn (received6 payload) (payload.drop headerSize)).map Prod.fst

/-- Not more entries are announced than were received; or one more, whose MsgID begins with the
trailing octets and in any case is one of those received. -/
def CountFits (payload : List Octet) : Prop :=
  announced payload ≤ received6 payload ∨
    announced payload = received6 payload + 1 ∧
      ∀ msgId : MsgId, (trailing payload).take 4 <+: beOctets 4 msgId → msgId ∈ receivedIds payload

/-- What the message adds is what was received. -/
def AddsReceived (ident : Ident) (payload : List Octet) : Prop :=
  ∀ (remapMid : MsgId → Option MsgId) (subscribed : MsgId → Bool) (older stack : Memory)
    (t : Table), t.Wf →
    (processFilteredSubsFromPeer ident remapMid subscribed (inbox payload older stack 0) t).2 =
      (addEntries remapMid subscribed (completeEntries ident payload) t).2

/-- What the message removes is what was received. -/
def RemovesReceived (ident : Ident) (payload : List Octet) : Prop :=
  ∀ (remapMid : MsgId → Option MsgId) (older stack : Memory) (t : Table), t.Wf →
    processFilteredUnsubsFromPeer remapMid (inbox payload older stack 0) t =
      removeEntries remapMid (completeEntries ident payload) t

/-! ## Reading on -/

section Reading
variable {payload : List Octet} {older stack : Memory}

theorem readEntries_append {n m used : Nat}
    (h : used + 6 * n ≤ CFE_MISSION_SB_MAX_SB_MSG_SIZE) :
    readEntries (n + m) (inbox payload older stack used) =
      readEntries n (inbox payload older stack used) ++
        readEntries m (inbox payload older stack (used + 6 * n)) := by
  induction n generalizing used with
  | zero => simp [readEntries]
  | succ n ih =>
    have hnext : used + 4 + 2 + 6 * n ≤ CFE_MISSION_SB_MAX_SB_MSG_SIZE := by omega
    have hused : used + 4 + 2 + 6 * n = used + 6 * (n + 1) := by omega
    rw [Nat.add_right_comm, readEntries, readEntries,
      inbox_msgId stack (by omega), inbox_qos stack (by omega), ih hnext, hused, List.cons_append]

/-- What was received of a field is at the front of what is read. -/
theorem copyOut_received_prefix (payload : List Octet) (older : Memory) (used n : Nat) :
    (payload.drop used).take n <+: copyOut (received payload older) used n := by
  rw [List.prefix_iff_getElem]
  have hlength : (copyOut (received payload older) used n).length = n := by simp [copyOut]
  refine ⟨by rw [hlength]; exact List.length_take_le _ _, fun i hi => ?_⟩
  have hinside : used + i < payload.length := by
    simp only [List.length_take, List.length_drop] at hi
    omega
  simp [copyOut, received, List.getElem_take, List.getElem_drop, List.getElem?_eq_getElem hinside]

theorem prefix_of_inbox_msgId (payload : List Octet) (older stack : Memory) {used : Nat}
    (hused : used < payload.length → used + 4 ≤ CFE_MISSION_SB_MAX_SB_MSG_SIZE) :
    (payload.drop used).take 4 <+: beOctets 4 (inbox payload older stack used).msgId.1 := by
  by_cases hend : payload.length ≤ used
  · rw [List.drop_eq_nil_of_le hend]
    exact List.nil_prefix
  · rw [inbox_msgId stack (hused (by omega))]
    have hlength : (copyOut (received payload older) used 4).length = 4 := by simp [copyOut]
    have hwritten := beOctets_ofBe (w := 32) (copyOut (received payload older) used 4)
      (by rw [hlength])
    rw [hlength] at hwritten
    rw [hwritten]
    exact copyOut_received_prefix payload older used 4

/-- Octets behind `used` that make up a MsgID. -/
def stray (msgId : MsgId) (used : Nat) : Memory := fun i => (beOctets 4 msgId).getD (i - used) 0

theorem inbox_msgId_stray {used : Nat} {msgId : MsgId}
    (h : (payload.drop used).take 4 <+: beOctets 4 msgId) :
    (inbox payload (stray msgId used) (stray msgId used) used).msgId.1 = msgId := by
  have hwritten := ofBe_beOctets_word (w := 32) (n := 4) (by decide) msgId
  have hstack : copyOut (stray msgId used) used 4 = beOctets 4 msgId := by
    refine List.ext_getElem (by simp [copyOut]) fun k _ hk => ?_
    simp [copyOut, stray, List.getElem?_eq_getElem hk]
  have hbuffer : copyOut (received payload (stray msgId used)) used 4 = beOctets 4 msgId := by
    refine List.ext_getElem (by simp [copyOut]) fun k hk hk' => ?_
    by_cases hinside : used + k < payload.length
    · have hk4 : k < 4 := by simpa using hk'
      have hat : k < ((payload.drop used).take 4).length := by
        rw [List.length_take, List.length_drop]
        omega
      have heq := (List.prefix_iff_getElem.mp h).2 k hat
      rw [← heq]
      simp [copyOut, received, List.getElem_take, List.getElem_drop,
        List.getElem?_eq_getElem hinside]
    · simp [copyOut, received, stray, List.getD_eq_getElem?_getD,
        List.getElem?_eq_none (Nat.not_lt.mp hinside), List.getElem?_eq_getElem hk']
  rw [Unpack.msgId, Unpack.data]
  split
  · exact (congrArg ofBe hstack).trans hwritten
  · exact (congrArg ofBe hbuffer).trans hwritten

theorem addEntries_append (remapMid : MsgId → Option MsgId) (subscribed : MsgId → Bool)
    (first second : List (MsgId × Qos)) (t : Table) :
    addEntries remapMid subscribed (first ++ second) t =
      match addEntries remapMid subscribed first t with
      | (.success, t) => addEntries remapMid subscribed second t
      | (.error, t) => (.error, t) := by
  induction first generalizing t with
  | nil => rfl
  | cons entry first ih =>
    obtain ⟨msgId, qos⟩ := entry
    rw [List.cons_append, addEntries, addEntries]
    split
    · exact ih _
    · rfl

theorem removeEntries_append (remapMid : MsgId → Option MsgId)
    (first second : List (MsgId × Qos)) (t : Table) :
    removeEntries remapMid (first ++ second) t =
      removeEntries remapMid second (removeEntries remapMid first t) :=
  List.foldl_append

end Reading

/-! ## Working off entries -/

section Entries
variable {remapMid : MsgId → Option MsgId} {subscribed : MsgId → Bool} {t t' : Table}

theorem addSub_success {msgId : MsgId} {qos : Qos}
    (h : addSub subscribed msgId qos t = (.success, t')) :
    msgId ∈ t'.idSet ∧ t.idSet ⊆ t'.idSet := by
  unfold addSub at h
  split at h
  · next hfind =>
    obtain ⟨-, rfl⟩ := Prod.mk.inj h
    exact ⟨find_mem hfind, Finset.Subset.refl _⟩
  · split_ifs at h
    · cases h
    · obtain ⟨-, rfl⟩ := Prod.mk.inj h
      rw [append_idSet]
      exact ⟨Finset.mem_insert_self _ _, Finset.subset_insert _ _⟩
    · cases h

theorem processSubFromPeer_success {msgId : MsgId} {qos : Qos}
    (h : processSubFromPeer remapMid subscribed msgId qos t = (.success, t')) :
    ∃ m, remapMid msgId = some m ∧ m ∈ t'.idSet ∧ t.idSet ⊆ t'.idSet := by
  unfold processSubFromPeer at h
  split at h
  · cases h
  · next m hm => exact ⟨m, hm, addSub_success h⟩

/-- After the loop has not stopped every MsgID is known. -/
theorem addEntries_success {entries : List (MsgId × Qos)}
    (h : addEntries remapMid subscribed entries t = (.success, t')) :
    t.idSet ⊆ t'.idSet ∧ ∀ msgId ∈ entries.map Prod.fst,
      ∃ m, remapMid msgId = some m ∧ m ∈ t'.idSet := by
  induction entries generalizing t with
  | nil =>
    obtain ⟨-, rfl⟩ := Prod.mk.inj h
    exact ⟨Finset.Subset.refl _, by simp⟩
  | cons entry entries ih =>
    obtain ⟨first, qos⟩ := entry
    rw [addEntries] at h
    split at h
    · next t₁ hfirst =>
      obtain ⟨m, hm, hmem, hsub⟩ := processSubFromPeer_success hfirst
      obtain ⟨hsub', hknown⟩ := ih h
      refine ⟨hsub.trans hsub', fun msgId hin => ?_⟩
      rw [List.map_cons, List.mem_cons] at hin
      rcases hin with rfl | hin
      · exact ⟨m, hm, hsub' hmem⟩
      · exact hknown msgId hin
    · cases h

/-- A MsgID that was among the entries adds nothing. -/
theorem addEntries_again {entries : List (MsgId × Qos)} {msgId : MsgId} (qos : Qos)
    (h : msgId ∈ entries.map Prod.fst) (t : Table) :
    (addEntries remapMid subscribed (entries ++ [(msgId, qos)]) t).2 =
      (addEntries remapMid subscribed entries t).2 := by
  rw [addEntries_append]
  cases hrun : addEntries remapMid subscribed entries t with
  | mk status t₁ =>
    cases status with
    | error => rfl
    | success =>
      obtain ⟨m, hm, hmem⟩ := (addEntries_success hrun).2 msgId h
      have hfind : ∃ i, t₁.find m = some i := by
        rw [← Option.ne_none_iff_exists']
        exact fun hnone => find_eq_none.mp hnone hmem
      obtain ⟨i, hi⟩ := hfind
      simp only [addEntries, processSubFromPeer, hm, addSub, hi]

theorem processFilteredUnsub_wf (remapMid : MsgId → Option MsgId) (msgId : MsgId) (ht : t.Wf) :
    (processFilteredUnsub remapMid msgId t).Wf := by
  unfold processFilteredUnsub
  split
  · exact ht
  · exact (processUnsubFromPeer_idSet ht _).1

theorem mem_processFilteredUnsub (msgId m : MsgId) (ht : t.Wf) :
    m ∈ (processFilteredUnsub remapMid msgId t).idSet ↔
      m ∈ t.idSet ∧ remapMid msgId ≠ some m := by
  unfold processFilteredUnsub
  split
  · next hm => simp [hm]
  · next gone hm =>
    rw [(processUnsubFromPeer_idSet ht gone).2, hm, Finset.mem_erase, ne_eq, ne_eq,
      Option.some_inj, and_comm, eq_comm]

/-- What is left are the MsgIDs that no entry names. -/
theorem mem_removeEntries {entries : List (MsgId × Qos)} (ht : t.Wf) (m : MsgId) :
    m ∈ (removeEntries remapMid entries t).idSet ↔
      m ∈ t.idSet ∧ ∀ msgId ∈ entries.map Prod.fst, remapMid msgId ≠ some m := by
  induction entries generalizing t with
  | nil => simp [removeEntries]
  | cons entry entries ih =>
    have hstep := ih (processFilteredUnsub_wf remapMid entry.1 ht)
    rw [mem_processFilteredUnsub entry.1 m ht] at hstep
    refine hstep.trans ?_
    simp only [List.map_cons, List.mem_cons, forall_eq_or_imp, ne_eq]
    tauto

/-- A MsgID that was among the entries removes nothing. -/
theorem removeEntries_again {entries : List (MsgId × Qos)} {msgId : MsgId} (qos : Qos)
    (h : msgId ∈ entries.map Prod.fst) (ht : t.Wf) :
    removeEntries remapMid (entries ++ [(msgId, qos)]) t = removeEntries remapMid entries t := by
  rw [removeEntries_append]
  show processFilteredUnsub remapMid msgId _ = _
  unfold processFilteredUnsub
  cases hm : remapMid msgId with
  | none => rfl
  | some m =>
    have hgone : m ∉ (removeEntries remapMid entries t).idSet := fun hmem =>
      ((mem_removeEntries ht m).mp hmem).2 msgId h hm
    simp only [processUnsubFromPeer, find_eq_none.mpr hgone]

end Entries

/-! ## The handlers -/

section Handlers
variable {ident : Ident} {payload : List Octet} {older stack : Memory}
  {remapMid : MsgId → Option MsgId} {subscribed : MsgId → Bool} {t : Table}

/-- The number of passes of the loops. -/
def passes (payload : List Octet) (older : Memory) : Nat :=
  (ofBe (copyOut (received payload older) SBN_IDENT_LEN 2) : BitVec 16).toNat

/-- All the entries that the loops read. -/
def entriesRead (payload : List Octet) (older stack : Memory) : List (MsgId × Qos) :=
  readEntries (passes payload older) (inbox payload older stack headerSize)

theorem inbox_header (payload : List Octet) (older stack : Memory) :
    (inbox payload older stack 0).data SBN_IDENT_LEN =
      (copyOut (received payload older) 0 SBN_IDENT_LEN,
        inbox payload older stack SBN_IDENT_LEN) ∧
    ((inbox payload older stack SBN_IDENT_LEN).uint16.1).toNat = passes payload older ∧
    (inbox payload older stack SBN_IDENT_LEN).uint16.2 = inbox payload older stack headerSize := by
  refine ⟨?_, ?_, ?_⟩
  · rw [inbox_data stack (by decide), Nat.zero_add]
  · rw [Unpack.uint16, inbox_data stack (by decide), passes]
  · rw [Unpack.uint16, inbox_data stack (by decide), headerSize]

theorem processFilteredSubsFromPeer_inbox :
    processFilteredSubsFromPeer ident remapMid subscribed (inbox payload older stack 0) t =
      if strncmpEqual (copyOut (received payload older) 0 SBN_IDENT_LEN) ident.octets then
        addEntries remapMid subscribed (entriesRead payload older stack) t
      else (.error, t) := by
  obtain ⟨hversion, hcount, hrest⟩ := inbox_header payload older stack
  rw [processFilteredSubsFromPeer]
  simp only [hversion, hcount, hrest, processFilteredSubs_eq, entriesRead]

theorem processFilteredUnsubsFromPeer_inbox :
    processFilteredUnsubsFromPeer remapMid (inbox payload older stack 0) t =
      removeEntries remapMid (entriesRead payload older stack) t := by
  obtain ⟨hversion, hcount, hrest⟩ := inbox_header payload older stack
  rw [processFilteredUnsubsFromPeer]
  simp only [hversion, hcount, hrest, processFilteredUnsubs_eq, entriesRead]

theorem strncmpEqual_of_prefix {a b : List Octet} (h : a <+: b) (c : List Octet)
    (hequal : strncmpEqual b c = true) : strncmpEqual a c = true := by
  induction a generalizing b c with
  | nil => rfl
  | cons x a ih =>
    obtain ⟨rest, rfl⟩ := h
    cases c with
    | nil => rfl
    | cons y c =>
      rw [List.cons_append] at hequal
      simp only [strncmpEqual, Bool.and_eq_true, Bool.or_eq_true] at hequal ⊢
      exact ⟨hequal.1, hequal.2.imp_right (ih (List.prefix_append _ _) c)⟩

theorem strncmpEqual_completed {a c : List Octet} (h : strncmpEqual a c = true) :
    strncmpEqual (a ++ c.drop a.length) c = true := by
  induction a generalizing c with
  | nil => exact strncmpEqual_self c
  | cons x a ih =>
    cases c with
    | nil => cases a <;> rfl
    | cons y c =>
      simp only [strncmpEqual, Bool.and_eq_true, Bool.or_eq_true] at h
      simp only [List.cons_append, List.length_cons, List.drop_succ_cons, strncmpEqual,
        Bool.and_eq_true, Bool.or_eq_true]
      exact ⟨h.1, h.2.imp_right ih⟩

/-- A difference that was received is seen. -/
theorem versionRead_of_different (h : sameVersion ident payload = false) :
    strncmpEqual (copyOut (received payload older) 0 SBN_IDENT_LEN) ident.octets = false := by
  rw [Bool.eq_false_iff] at h ⊢
  intro hequal
  apply h
  have hprefix := copyOut_received_prefix payload older 0 SBN_IDENT_LEN
  rw [List.drop_zero] at hprefix
  exact strncmpEqual_of_prefix hprefix _ hequal

theorem versionRead (h : headerSize ≤ payload.length) :
    strncmpEqual (copyOut (received payload older) 0 SBN_IDENT_LEN) ident.octets =
      sameVersion ident payload := by
  rw [headerSize] at h
  rw [copyOut_received_complete older (by omega), List.drop_zero, sameVersion]

theorem passes_eq (h : headerSize ≤ payload.length) : passes payload older = announced payload := by
  rw [passes, announced, copyOut_received_complete older h]

/-! ## Where the count fits -/

theorem received6_fits (h : headerSize ≤ payload.length) :
    headerSize + 6 * received6 payload ≤ payload.length := by
  rw [received6]
  omega

/-- A field of an entry that begins in the received octets ends in the buffer. -/
theorem entry_inside (hlimit : payload.length ≤ CFE_MISSION_SB_MAX_SB_MSG_SIZE) {n : Nat}
    (h : headerSize + 6 * n < payload.length) :
    headerSize + 6 * n + 6 ≤ CFE_MISSION_SB_MAX_SB_MSG_SIZE := by
  simp only [headerSize, SBN_IDENT_LEN, CFE_MISSION_SB_MAX_SB_MSG_SIZE] at *
  omega

theorem entriesRead_fits (hlimit : payload.length ≤ CFE_MISSION_SB_MAX_SB_MSG_SIZE)
    (hheader : headerSize ≤ payload.length) (h : announced payload ≤ received6 payload) :
    entriesRead payload older stack = entriesIn (announced payload) (payload.drop headerSize) := by
  have hfits := received6_fits hheader
  rw [entriesRead, passes_eq hheader, readEntries_complete older stack hlimit (by omega)]

/-- Behind the entries that were received there is one that begins with the trailing octets. -/
theorem entriesRead_more (hlimit : payload.length ≤ CFE_MISSION_SB_MAX_SB_MSG_SIZE)
    (hheader : headerSize ≤ payload.length) {more : Nat}
    (h : announced payload = received6 payload + more) :
    entriesRead payload older stack =
      entriesIn (received6 payload) (payload.drop headerSize) ++
        readEntries more (inbox payload older stack (headerSize + 6 * received6 payload)) := by
  have hfits := received6_fits hheader
  rw [entriesRead, passes_eq hheader, h, readEntries_append (Nat.le_trans hfits hlimit),
    readEntries_complete older stack hlimit hfits]

theorem entriesRead_one_more (older stack : Memory)
    (hlimit : payload.length ≤ CFE_MISSION_SB_MAX_SB_MSG_SIZE)
    (hheader : headerSize ≤ payload.length) (h : announced payload = received6 payload + 1)
    (hknown : ∀ msgId : MsgId, (trailing payload).take 4 <+: beOctets 4 msgId →
      msgId ∈ receivedIds payload) :
    ∃ msgId qos, msgId ∈ receivedIds payload ∧ entriesRead payload older stack =
      entriesIn (received6 payload) (payload.drop headerSize) ++ [(msgId, qos)] := by
  refine ⟨_, _, hknown _ (prefix_of_inbox_msgId payload older stack fun hin => ?_),
    entriesRead_more hlimit hheader h⟩
  have hinside := entry_inside hlimit hin
  omega

theorem completeEntries_eq (hheader : headerSize ≤ payload.length)
    (hversion : sameVersion ident payload = true) :
    completeEntries ident payload =
      entriesIn (min (announced payload) (received6 payload)) (payload.drop headerSize) :=
  if_pos ⟨hheader, hversion⟩

theorem addsReceived_of_fits (hlimit : payload.length ≤ CFE_MISSION_SB_MAX_SB_MSG_SIZE)
    (hheader : headerSize ≤ payload.length) (hversion : sameVersion ident payload = true)
    (h : CountFits payload) : AddsReceived ident payload := by
  intro remapMid subscribed older stack t _
  rw [processFilteredSubsFromPeer_inbox, versionRead hheader, hversion, if_pos rfl,
    completeEntries_eq hheader hversion]
  rcases h with hfits | ⟨hone, hknown⟩
  · rw [entriesRead_fits hlimit hheader hfits, Nat.min_eq_left hfits]
  · obtain ⟨msgId, qos, hmem, hread⟩ := entriesRead_one_more older stack
      hlimit hheader hone hknown
    rw [hread, Nat.min_eq_right (by omega)]
    exact addEntries_again qos hmem t

theorem removesReceived_of_fits (hlimit : payload.length ≤ CFE_MISSION_SB_MAX_SB_MSG_SIZE)
    (hheader : headerSize ≤ payload.length) (hversion : sameVersion ident payload = true)
    (h : CountFits payload) : RemovesReceived ident payload := by
  intro remapMid older stack t ht
  rw [processFilteredUnsubsFromPeer_inbox, completeEntries_eq hheader hversion]
  rcases h with hfits | ⟨hone, hknown⟩
  · rw [entriesRead_fits hlimit hheader hfits, Nat.min_eq_left hfits]
  · obtain ⟨msgId, qos, hmem, hread⟩ := entriesRead_one_more older stack
      hlimit hheader hone hknown
    rw [hread, Nat.min_eq_right (by omega)]
    exact removeEntries_again qos hmem ht

end Handlers

/-! ## Where it does not fit -/

section Strays
variable {ident : Ident} {payload : List Octet}

/-- An entry can be read that was not received. -/
def Strays (ident : Ident) (payload : List Octet) (older stack : Memory) (msgId : MsgId) : Prop :=
  msgId ∈ (entriesRead payload older stack).map Prod.fst ∧
    msgId ∉ (completeEntries ident payload).map Prod.fst

/-- Some MsgID is in no list of less than 2^32. -/
theorem exists_fresh (ids : List MsgId) (h : ids.length < 2 ^ 32) : ∃ msgId, msgId ∉ ids := by
  by_contra hall
  have hsub : Finset.range (2 ^ 32) ⊆ (ids.map BitVec.toNat).toFinset := by
    intro n hn
    have hlt := Finset.mem_range.mp hn
    have hin : BitVec.ofNat 32 n ∈ ids := by
      by_contra hnot
      exact hall ⟨_, hnot⟩
    rw [List.mem_toFinset, List.mem_map]
    exact ⟨_, hin, by rw [BitVec.toNat_ofNat, Nat.mod_eq_of_lt hlt]⟩
  have hcard := Finset.card_le_card hsub
  rw [Finset.card_range] at hcard
  have hle := List.toFinset_card_le (ids.map BitVec.toNat)
  rw [List.length_map] at hle
  omega

theorem map_fst_cons_mem (n : Nat) (p : Unpack) :
    p.msgId.1 ∈ (readEntries (n + 1) p).map Prod.fst := by
  rw [readEntries, List.map_cons]
  exact List.mem_cons_self

/-- A count that does not fit lets the loops read an entry from the older octets. -/
theorem strays_of_count (hlimit : payload.length ≤ CFE_MISSION_SB_MAX_SB_MSG_SIZE)
    (hheader : headerSize ≤ payload.length) (hversion : sameVersion ident payload = true)
    (h : ¬ CountFits payload) : ∃ older stack msgId, Strays ident payload older stack msgId := by
  have hmore : received6 payload < announced payload := by
    by_contra hle
    exact h (Or.inl (Nat.not_lt.mp hle))
  have hcomplete : (completeEntries ident payload).map Prod.fst = receivedIds payload := by
    rw [completeEntries_eq hheader hversion, Nat.min_eq_right (by omega), receivedIds]
  by_cases hknown : ∀ msgId : MsgId, (trailing payload).take 4 <+: beOctets 4 msgId →
      msgId ∈ receivedIds payload
  · -- one more entry changes nothing, so the second one behind those received counts
    have htwo : received6 payload + 2 ≤ announced payload := by
      by_contra hlt
      exact h (Or.inr ⟨by omega, hknown⟩)
    have hlength : (receivedIds payload).length < 2 ^ 32 := by
      rw [receivedIds, List.length_map, entriesIn_length, received6]
      simp only [CFE_MISSION_SB_MAX_SB_MSG_SIZE] at hlimit
      omega
    obtain ⟨msgId, hfresh⟩ := exists_fresh _ hlength
    have hin : headerSize + 6 * received6 payload < payload.length := by
      by_contra hend
      apply hfresh
      apply hknown
      rw [trailing, List.drop_eq_nil_of_le (Nat.not_lt.mp hend)]
      exact List.nil_prefix
    have hinside := entry_inside hlimit hin
    let used := headerSize + 6 * (received6 payload + 1)
    have hbehind : payload.length ≤ used := by
      simp only [used, received6]
      omega
    obtain ⟨more, hcount⟩ : ∃ more, announced payload = received6 payload + 1 + (more + 1) :=
      ⟨announced payload - received6 payload - 2, by omega⟩
    refine ⟨stray msgId used, stray msgId used, msgId, ?_, by rwa [hcomplete]⟩
    have hread : (inbox payload (stray msgId used) (stray msgId used) used).msgId.1 = msgId := by
      apply inbox_msgId_stray
      rw [List.drop_eq_nil_of_le hbehind]
      exact List.nil_prefix
    rw [entriesRead, passes_eq hheader, hcount, readEntries_append (by omega), List.map_append,
      List.mem_append]
    right
    have hmem := map_fst_cons_mem more (inbox payload (stray msgId used) (stray msgId used) used)
    rwa [hread] at hmem
  · simp only [not_forall] at hknown
    obtain ⟨msgId, hprefix, hfresh⟩ := hknown
    let used := headerSize + 6 * received6 payload
    obtain ⟨more, hcount⟩ : ∃ more, announced payload = received6 payload + (more + 1) :=
      ⟨announced payload - received6 payload - 1, by omega⟩
    refine ⟨stray msgId used, stray msgId used, msgId, ?_, by rwa [hcomplete]⟩
    have hread : (inbox payload (stray msgId used) (stray msgId used) used).msgId.1 = msgId :=
      inbox_msgId_stray hprefix
    rw [entriesRead_more hlimit hheader hcount, List.map_append, List.mem_append]
    right
    have hmem := map_fst_cons_mem more (inbox payload (stray msgId used) (stray msgId used) used)
    rwa [hread] at hmem

/-- Older octets that continue a short message to one with a version identifier and a count. -/
def continued (ident : Ident) : Memory := fun i =>
  if i < SBN_IDENT_LEN then ident.octets.getD i 0 else if i = SBN_IDENT_LEN + 1 then 1 else 0

theorem versionRead_continued (h : sameVersion ident payload = true) :
    strncmpEqual (copyOut (received payload (continued ident)) 0 SBN_IDENT_LEN) ident.octets =
      true := by
  have hread : copyOut (received payload (continued ident)) 0 SBN_IDENT_LEN =
      payload.take SBN_IDENT_LEN ++ ident.octets.drop (payload.take SBN_IDENT_LEN).length := by
    have hlength := ident.length
    have htake := List.length_take (i := SBN_IDENT_LEN) (l := payload)
    refine List.ext_getElem ?_ fun k hk _ => ?_
    · simp only [List.length_append, List.length_drop, hlength, htake, copyOut, List.length_map,
        List.length_range]
      omega
    · have hk48 : k < SBN_IDENT_LEN := by simpa [copyOut] using hk
      by_cases hin : k < payload.length
      · rw [List.getElem_append_left (by rw [htake]; omega)]
        simp [copyOut, received, List.getElem?_eq_getElem hin]
      · have htaken : (payload.take SBN_IDENT_LEN).length = payload.length := by omega
        rw [List.getElem_append_right (by omega), List.getElem_drop]
        simp only [copyOut, received, List.getElem_map, List.getElem_range, Nat.zero_add,
          List.getD_eq_default _ _ (Nat.not_lt.mp hin), continued, if_pos hk48, htaken,
          Nat.add_sub_cancel' (Nat.not_lt.mp hin)]
        exact List.getD_eq_getElem _ _ (by omega)
  rw [hread]
  exact strncmpEqual_completed h

theorem passes_continued (h : payload.length < headerSize) :
    0 < passes payload (continued ident) := by
  have hread : copyOut (received payload (continued ident)) SBN_IDENT_LEN 2 =
      [received payload (continued ident) SBN_IDENT_LEN] ++ [1] := by
    have hlast : payload.length ≤ SBN_IDENT_LEN + 1 := Nat.le_of_lt_succ h
    have hone : received payload (continued ident) (SBN_IDENT_LEN + 1) = 1 := by
      rw [received, List.getD_eq_default _ _ hlast, continued, if_neg (by omega), if_pos rfl]
    simp [copyOut, List.range_succ, hone]
  have hlt := toNat_ofBe_lt (w := 16) [received payload (continued ident) SBN_IDENT_LEN] (by simp)
  rw [List.length_singleton] at hlt
  rw [passes, hread, toNat_ofBe_concat (w := 16) _ 1 (by omega)]
  exact Nat.succ_pos _

theorem completeEntries_short (h : payload.length < headerSize) :
    completeEntries ident payload = [] :=
  if_neg fun hboth => Nat.not_le.mpr h hboth.1

theorem strays_of_short (ident : Ident) (h : payload.length < headerSize) (stack : Memory) :
    ∃ msgId, Strays ident payload (continued ident) stack msgId := by
  obtain ⟨n, hn⟩ : ∃ n, passes payload (continued ident) = n + 1 :=
    ⟨_, (Nat.succ_pred_eq_of_pos (passes_continued h)).symm⟩
  refine ⟨(inbox payload (continued ident) stack headerSize).msgId.1, ?_, ?_⟩
  · rw [entriesRead, hn]
    exact map_fst_cons_mem n _
  · rw [completeEntries_short h]
    exact List.not_mem_nil

/-! ## What a stray entry does -/

/-- A filter that gives one MsgID a name of its own. -/
def markMid (marked : MsgId) (msgId : MsgId) : Option MsgId :=
  if msgId = marked then some 1 else some 0

theorem addEntries_mark (marked : MsgId) (entries : List (MsgId × Qos)) {t : Table} (ht : t.Wf)
    (hsub : t.idSet ⊆ {0, 1}) :
    1 ∈ (addEntries (markMid marked) (fun _ => true) entries t).2.idSet ↔
      1 ∈ t.idSet ∨ marked ∈ entries.map Prod.fst := by
  induction entries generalizing t with
  | nil => simp [addEntries]
  | cons entry entries ih =>
    obtain ⟨msgId, qos⟩ := entry
    obtain ⟨m, hm, hmem, hone⟩ : ∃ m, markMid marked msgId = some m ∧ m ∈ ({0, 1} : Finset MsgId) ∧
        (m = 1 ↔ msgId = marked) := by
      by_cases hmarked : msgId = marked
      · exact ⟨1, if_pos hmarked, by decide, by simp [hmarked]⟩
      · exact ⟨0, if_neg hmarked, by decide, by simp [hmarked]⟩
    have hinsert : insert m t.idSet ⊆ {0, 1} := Finset.insert_subset hmem hsub
    obtain ⟨t', hadd, ht', hset⟩ := @addSub_taken (fun _ => true) t m qos (fun _ => rfl) ht (Nat.le_trans (Finset.card_le_card hinsert) (by decide))
    have hstep := ih ht' (hset ▸ hinsert)
    rw [addEntries]
    simp only [processSubFromPeer, hm, hadd]
    rw [hstep, hset, Finset.mem_insert, List.map_cons, List.mem_cons, eq_comm, hone,
      @eq_comm _ msgId]
    tauto

theorem not_addsReceived_of_strays {older stack : Memory} {msgId : MsgId}
    (hversion : strncmpEqual (copyOut (received payload older) 0 SBN_IDENT_LEN) ident.octets = true)
    (h : Strays ident payload older stack msgId) : ¬ AddsReceived ident payload := by
  intro hadds
  have hsame := hadds (markMid msgId) (fun _ => true) older stack {} empty_wf
  rw [processFilteredSubsFromPeer_inbox, hversion, if_pos rfl] at hsame
  have hread := (addEntries_mark msgId (entriesRead payload older stack) empty_wf
    (Finset.empty_subset _)).mpr (Or.inr h.1)
  rw [hsame] at hread
  rcases (addEntries_mark msgId _ empty_wf (Finset.empty_subset _)).mp hread with hempty | hin
  · exact absurd hempty (Finset.notMem_empty _)
  · exact h.2 hin

/-- A table with one MsgID. -/
def oneSub (msgId : MsgId) : Table := Table.append { msgId := msgId } {}

theorem oneSub_wf (msgId : MsgId) : (oneSub msgId).Wf :=
  empty_wf.append (Finset.notMem_empty _) (by decide)

theorem mem_oneSub (msgId : MsgId) : msgId ∈ (oneSub msgId).idSet := by
  rw [oneSub, append_idSet]
  exact Finset.mem_insert_self _ _

theorem not_removesReceived_of_strays {older stack : Memory} {msgId : MsgId}
    (h : Strays ident payload older stack msgId) : ¬ RemovesReceived ident payload := by
  intro hremoves
  have hsame := hremoves some older stack (oneSub msgId) (oneSub_wf msgId)
  rw [processFilteredUnsubsFromPeer_inbox] at hsame
  have hleft : msgId ∈ (removeEntries some (completeEntries ident payload)
      (oneSub msgId)).idSet := by
    rw [mem_removeEntries (oneSub_wf msgId)]
    refine ⟨mem_oneSub msgId, fun other hother hequal => ?_⟩
    rw [Option.some.inj hequal] at hother
    exact h.2 hother
  rw [← hsame, mem_removeEntries (oneSub_wf msgId)] at hleft
  exact hleft.2 msgId h.1 rfl

end Strays

/-! ## The array of a peer -/

/-- Both tables are the same as far as the array reaches, its extra element included. -/
def SameSubs (t t' : Table) : Prop :=
  t.subCnt = t'.subCnt ∧ ∀ j ≤ SBN_MAX_SUBS_PER_PEER, t.subs j = t'.subs j

/-- A change of a table that neither reads nor writes behind its array. -/
structure InArray (change : Table → Table) : Prop where
  room : ∀ t, t.subCnt ≤ SBN_MAX_SUBS_PER_PEER → (change t).subCnt ≤ SBN_MAX_SUBS_PER_PEER
  writes : ∀ t, t.subCnt ≤ SBN_MAX_SUBS_PER_PEER → ∀ j, SBN_MAX_SUBS_PER_PEER < j →
    (change t).subs j = t.subs j
  reads : ∀ t t', t.subCnt ≤ SBN_MAX_SUBS_PER_PEER → SameSubs t t' →
    SameSubs (change t) (change t')

theorem InArray.id : InArray fun t => t := ⟨fun _ h => h, fun _ _ _ _ => rfl, fun _ _ _ h => h⟩

theorem InArray.comp {f g : Table → Table} (hf : InArray f) (hg : InArray g) :
    InArray fun t => g (f t) where
  room t h := hg.room _ (hf.room t h)
  writes t h j hj := (hg.writes _ (hf.room t h) j hj).trans (hf.writes t h j hj)
  reads t t' h hsame := hg.reads _ _ (hf.room t h) (hf.reads t t' h hsame)

theorem find?_congr_on {α : Type} {l : List α} {p q : α → Bool} (h : ∀ a ∈ l, p a = q a) :
    l.find? p = l.find? q := by
  induction l with
  | nil => rfl
  | cons a l ih =>
    rw [List.find?_cons, List.find?_cons, h a List.mem_cons_self,
      ih fun b hb => h b (List.mem_cons_of_mem _ hb)]

theorem SameSubs.find {t t' : Table} (h : SameSubs t t') (hroom : t.subCnt ≤ SBN_MAX_SUBS_PER_PEER)
    (msgId : MsgId) : t.find msgId = t'.find msgId := by
  have hsame : ∀ i ∈ List.range t.subCnt, decide ((t.subs i).msgId = msgId) =
      decide ((t'.subs i).msgId = msgId) := by
    intro i hi
    rw [h.2 i (Nat.le_trans (Nat.le_of_lt (List.mem_range.mp hi)) hroom)]
  rw [Table.find, Table.find, ← h.1]
  exact find?_congr_on hsame

section Arrays
variable (remapMid : MsgId → Option MsgId) (subscribed : MsgId → Bool)

theorem inArray_processUnsubFromPeer (msgId : MsgId) : InArray (processUnsubFromPeer msgId) where
  room t h := by
    unfold processUnsubFromPeer
    split
    · exact h
    · exact Nat.le_trans (Nat.sub_le _ _) h
  writes t h j hj := by
    unfold processUnsubFromPeer
    split
    · rfl
    · rw [remove_subs, if_neg (by omega)]
  reads t t' h hsame := by
    unfold processUnsubFromPeer
    rw [← hsame.find h]
    split
    · exact hsame
    · refine ⟨congrArg (· - 1) hsame.1, fun j hj => ?_⟩
      rw [remove_subs, remove_subs, ← hsame.1]
      split_ifs
      · exact hsame.2 _ (by omega)
      · exact hsame.2 _ hj

theorem inArray_processFilteredUnsub (msgId : MsgId) :
    InArray (processFilteredUnsub remapMid msgId) := by
  unfold processFilteredUnsub
  cases remapMid msgId with
  | none => exact InArray.id
  | some m => exact inArray_processUnsubFromPeer m

theorem inArray_removeEntries (entries : List (MsgId × Qos)) :
    InArray (removeEntries remapMid entries) := by
  induction entries with
  | nil => exact InArray.id
  | cons entry entries ih => exact (inArray_processFilteredUnsub remapMid entry.1).comp ih

/-- `AddSub` reads and writes at most the element behind the last one. -/
theorem inArray_addSub (msgId : MsgId) (qos : Qos) :
    InArray (fun t => (addSub subscribed msgId qos t).2) ∧
      ∀ t t', t.subCnt ≤ SBN_MAX_SUBS_PER_PEER → SameSubs t t' →
        (addSub subscribed msgId qos t).1 = (addSub subscribed msgId qos t').1 := by
  refine ⟨⟨fun t h => ?_, fun t h j hj => ?_, fun t t' h hsame => ?_⟩, fun t t' h hsame => ?_⟩
  · unfold addSub
    split
    · exact h
    · split_ifs
      · exact h
      · simp only [Table.append]
        omega
      · exact h
  · unfold addSub
    split
    · rfl
    · split_ifs
      · rfl
      · exact Function.update_of_ne (by omega) _ _
      · rfl
  · unfold addSub
    rw [← hsame.find h, ← hsame.1]
    split
    · exact hsame
    · split_ifs
      · exact hsame
      · refine ⟨congrArg (· + 1) hsame.1, fun j hj => ?_⟩
        rw [← hsame.2 _ h]
        simp only [Table.append, ← hsame.1]
        by_cases hlast : j = t.subCnt
        · rw [hlast, Function.update_self, Function.update_self]
        · rw [Function.update_of_ne hlast, Function.update_of_ne hlast]
          exact hsame.2 j hj
      · exact hsame
  · unfold addSub
    rw [← hsame.find h, ← hsame.1]
    split
    · rfl
    · split_ifs <;> rfl

theorem inArray_processSubFromPeer (msgId : MsgId) (qos : Qos) :
    InArray (fun t => (processSubFromPeer remapMid subscribed msgId qos t).2) ∧
      ∀ t t', t.subCnt ≤ SBN_MAX_SUBS_PER_PEER → SameSubs t t' →
        (processSubFromPeer remapMid subscribed msgId qos t).1 =
          (processSubFromPeer remapMid subscribed msgId qos t').1 := by
  unfold processSubFromPeer
  cases remapMid msgId with
  | none => exact ⟨InArray.id, fun _ _ _ _ => rfl⟩
  | some m => exact inArray_addSub subscribed m qos

theorem inArray_addEntries (entries : List (MsgId × Qos)) :
    InArray fun t => (addEntries remapMid subscribed entries t).2 := by
  induction entries with
  | nil => exact InArray.id
  | cons entry entries ih =>
    obtain ⟨msgId, qos⟩ := entry
    obtain ⟨hfirst, hstatus⟩ := inArray_processSubFromPeer remapMid subscribed msgId qos
    have hboth := hfirst.comp ih
    have hstep (t : Table) : (addEntries remapMid subscribed ((msgId, qos) :: entries) t).2 =
        if (processSubFromPeer remapMid subscribed msgId qos t).1 = .success then
          (addEntries remapMid subscribed entries
            (processSubFromPeer remapMid subscribed msgId qos t).2).2
        else (processSubFromPeer remapMid subscribed msgId qos t).2 := by
      rw [addEntries]
      rcases processSubFromPeer remapMid subscribed msgId qos t with ⟨_ | _, t₁⟩ <;> rfl
    refine ⟨fun t h => ?_, fun t h j hj => ?_, fun t t' h hsame => ?_⟩
    · rw [hstep]
      split_ifs
      · exact hboth.room t h
      · exact hfirst.room t h
    · rw [hstep]
      split_ifs
      · exact hboth.writes t h j hj
      · exact hfirst.writes t h j hj
    · rw [hstep, hstep, ← hstatus t t' h hsame]
      split_ifs
      · exact hboth.reads t t' h hsame
      · exact hfirst.reads t t' h hsame

end Arrays

/-- Both handlers stay inside the array of the peer, whatever they receive. -/
theorem inArray_handlers (ident : Ident) (remapMid : MsgId → Option MsgId)
    (subscribed : MsgId → Bool) (payload : List Octet) (older stack : Memory) :
    InArray (fun t => (processFilteredSubsFromPeer ident remapMid subscribed
      (inbox payload older stack 0) t).2) ∧
    InArray (processFilteredUnsubsFromPeer remapMid (inbox payload older stack 0)) := by
  constructor
  · simp only [processFilteredSubsFromPeer_inbox]
    split_ifs
    · exact inArray_addEntries remapMid subscribed _
    · exact InArray.id
  · have heq : processFilteredUnsubsFromPeer remapMid (inbox payload older stack 0) =
        removeEntries remapMid (entriesRead payload older stack) :=
      funext fun _ => processFilteredUnsubsFromPeer_inbox
    rw [heq]
    exact inArray_removeEntries remapMid _

/-! ## Exactly when only what was received has an effect -/

theorem completeEntries_of_different {ident : Ident} {payload : List Octet}
    (h : sameVersion ident payload = false) : completeEntries ident payload = [] :=
  if_neg fun hboth => by simp [h] at hboth

theorem addsReceived_of_different {ident : Ident} {payload : List Octet}
    (h : sameVersion ident payload = false) : AddsReceived ident payload := by
  intro remapMid subscribed older stack t _
  rw [processFilteredSubsFromPeer_inbox, versionRead_of_different h,
    completeEntries_of_different h]
  rfl

/-- A message with subscriptions: a different version is seen in what was received, or that has
a whole header with a count that fits. -/
theorem addsReceived_iff {ident : Ident} {payload : List Octet}
    (hlimit : payload.length ≤ CFE_MISSION_SB_MAX_SB_MSG_SIZE) :
    AddsReceived ident payload ↔
      sameVersion ident payload = false ∨ headerSize ≤ payload.length ∧ CountFits payload := by
  cases hversion : sameVersion ident payload with
  | false => exact ⟨fun _ => Or.inl rfl, fun _ => addsReceived_of_different hversion⟩
  | true =>
    refine ⟨fun h => Or.inr ?_, fun h => ?_⟩
    · by_contra hnot
      by_cases hheader : headerSize ≤ payload.length
      · obtain ⟨older, stack, msgId, hstray⟩ :=
          strays_of_count hlimit hheader hversion fun hcount => hnot ⟨hheader, hcount⟩
        exact not_addsReceived_of_strays ((versionRead hheader).trans hversion) hstray h
      · obtain ⟨msgId, hstray⟩ := strays_of_short ident (Nat.not_le.mp hheader)
          fun _ => 0
        exact not_addsReceived_of_strays (versionRead_continued hversion) hstray h
    · rcases h with hfalse | ⟨hheader, hcount⟩
      · cases hfalse
      · exact addsReceived_of_fits hlimit hheader hversion hcount

/-- An unsubscription: a whole header, and it announces nothing or is of the same version with
a count that fits. -/
theorem removesReceived_iff {ident : Ident} {payload : List Octet}
    (hlimit : payload.length ≤ CFE_MISSION_SB_MAX_SB_MSG_SIZE) :
    RemovesReceived ident payload ↔ headerSize ≤ payload.length ∧
      (announced payload = 0 ∨ sameVersion ident payload = true ∧ CountFits payload) := by
  constructor
  · intro h
    by_contra hnot
    by_cases hheader : headerSize ≤ payload.length
    · by_cases hversion : sameVersion ident payload = true
      · obtain ⟨older, stack, msgId, hstray⟩ :=
          strays_of_count hlimit hheader hversion
            fun hcount => hnot ⟨hheader, Or.inr ⟨hversion, hcount⟩⟩
        exact not_removesReceived_of_strays hstray h
      · -- an entry of a message of a different version
        obtain ⟨n, hn⟩ : ∃ n, announced payload = n + 1 :=
          Nat.exists_eq_succ_of_ne_zero fun hzero => hnot ⟨hheader, Or.inl hzero⟩
        have hstray : Strays ident payload (fun _ => 0) (fun _ => 0)
            (inbox payload (fun _ => 0) (fun _ => 0) headerSize).msgId.1 := by
          constructor
          · rw [entriesRead, passes_eq hheader, hn]
            exact map_fst_cons_mem n _
          · rw [completeEntries_of_different (Bool.eq_false_iff.mpr hversion)]
            exact List.not_mem_nil
        exact not_removesReceived_of_strays hstray h
    · obtain ⟨msgId, hstray⟩ := strays_of_short ident (Nat.not_le.mp hheader)
        fun _ => 0
      exact not_removesReceived_of_strays hstray h
  · rintro ⟨hheader, hzero | ⟨hversion, hcount⟩⟩
    · intro remapMid older stack t _
      have hnone : completeEntries ident payload = [] := by
        rw [completeEntries, hzero, Nat.zero_min, entriesIn, ite_self]
      rw [processFilteredUnsubsFromPeer_inbox, entriesRead, passes_eq hheader, hzero, hnone]
      rfl
    · exact removesReceived_of_fits hlimit hheader hversion hcount

/-- Malformed messages: what they change is only what was received exactly if the count fits;
the array of the peer is never left. -/
theorem malformed_messages_iff {ident : Ident} {payload : List Octet}
    (hlimit : payload.length ≤ CFE_MISSION_SB_MAX_SB_MSG_SIZE) :
    (AddsReceived ident payload ↔
      sameVersion ident payload = false ∨ headerSize ≤ payload.length ∧ CountFits payload) ∧
    (RemovesReceived ident payload ↔ headerSize ≤ payload.length ∧
      (announced payload = 0 ∨ sameVersion ident payload = true ∧ CountFits payload)) ∧
    ∀ remapMid subscribed older stack,
      InArray (fun t => (processFilteredSubsFromPeer ident remapMid subscribed
        (inbox payload older stack 0) t).2) ∧
      InArray (processFilteredUnsubsFromPeer remapMid (inbox payload older stack 0)) :=
  ⟨addsReceived_iff hlimit, removesReceived_iff hlimit,
    fun remapMid subscribed older stack =>
      inArray_handlers ident remapMid subscribed payload older stack⟩

/-- A version identifier whose text is followed by nothing. -/
def plainIdent : Ident :=
  ⟨[0x24, 0x49, 0x64, 0x24, 0x00] ++ List.replicate 43 0, by decide, by decide⟩

/-- A header alone that announces an entry: its MsgID is made of older octets. -/
theorem malformed_messages_header_only :
    ¬ AddsReceived plainIdent (plainIdent.octets ++ [0, 1]) ∧
      ¬ RemovesReceived plainIdent (plainIdent.octets ++ [0, 1]) := by
  constructor
  · intro h
    have hrun := congrArg Table.subCnt (h some (fun _ => true) (fun _ => 8) (fun _ => 0) {} empty_wf)
    revert hrun
    decide
  · intro h
    have hrun := congrArg Table.subCnt (h some (fun _ => 8) (fun _ => 0)
      (oneSub 0x08080808) (oneSub_wf _))
    revert hrun
    decide

theorem malformed_messages_iff_header_only :
    (AddsReceived plainIdent (plainIdent.octets ++ [0, 0]) ↔
      sameVersion plainIdent (plainIdent.octets ++ [0, 0]) = false ∨
        headerSize ≤ (plainIdent.octets ++ [0, 0]).length ∧
          CountFits (plainIdent.octets ++ [0, 0])) ∧
    (RemovesReceived plainIdent (plainIdent.octets ++ [0, 0]) ↔
      headerSize ≤ (plainIdent.octets ++ [0, 0]).length ∧
        (announced (plainIdent.octets ++ [0, 0]) = 0 ∨
          sameVersion plainIdent (plainIdent.octets ++ [0, 0]) = true ∧
            CountFits (plainIdent.octets ++ [0, 0]))) ∧
    ∀ remapMid subscribed older stack,
      InArray (fun t => (processFilteredSubsFromPeer plainIdent remapMid subscribed
        (inbox (plainIdent.octets ++ [0, 0]) older stack 0) t).2) ∧
      InArray (processFilteredUnsubsFromPeer remapMid
        (inbox (plainIdent.octets ++ [0, 0]) older stack 0)) :=
  malformed_messages_iff (by decide)

end Nos3.Sbn
