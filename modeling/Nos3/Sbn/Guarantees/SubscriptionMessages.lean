import Nos3.Sbn.Source.Network
import Mathlib.Data.Finset.Card
import Mathlib.Data.List.Nodup

/-!
# What a subscription table lists

The MsgIDs of a table, as a list and as a set, under the operations on tables: an entry is added
at the end, a removal closes its gap, and a well-formed table lists no MsgID twice.
-/
namespace Nos3.Sbn
open Function (update update_self update_of_ne)

def Table.ids (t : Table) : List MsgId := (List.range t.subCnt).map fun i => (t.subs i).msgId

def Table.idSet (t : Table) : Finset MsgId := t.ids.toFinset

structure Table.Wf (t : Table) : Prop where
  nodup : t.ids.Nodup
  room : t.subCnt ≤ SBN_MAX_SUBS_PER_PEER

variable {t : Table} {msgId : MsgId} {i : Nat}

@[simp] theorem ids_length (t : Table) : t.ids.length = t.subCnt := by simp [Table.ids]

theorem ids_getElem (hi : i < t.ids.length) : t.ids[i] = (t.subs i).msgId := by simp [Table.ids]

theorem empty_idSet : (Table.idSet {}) = ∅ := rfl

theorem empty_wf : Table.Wf {} := ⟨List.nodup_nil, by decide⟩

theorem mem_idSet : msgId ∈ t.idSet ↔ msgId ∈ t.ids := List.mem_toFinset

theorem Table.Wf.card (h : t.Wf) : t.idSet.card = t.subCnt := by
  rw [Table.idSet, List.toFinset_card_of_nodup h.nodup, ids_length]

theorem find_eq_none : t.find msgId = none ↔ msgId ∉ t.idSet := by
  simp [Table.find, mem_idSet, Table.ids]

theorem find_eq_some (h : t.find msgId = some i) :
    i < t.subCnt ∧ (t.subs i).msgId = msgId := by
  obtain ⟨hmsg, hi, _⟩ := List.find?_range_eq_some.mp h
  exact ⟨List.mem_range.mp hi, of_decide_eq_true hmsg⟩

theorem find_mem (h : t.find msgId = some i) : msgId ∈ t.idSet := by
  obtain ⟨hi, rfl⟩ := find_eq_some h
  exact mem_idSet.mpr (List.mem_map.mpr ⟨i, List.mem_range.mpr hi, rfl⟩)

/-- A MsgID is at one index only. -/
theorem Table.Wf.index_unique (h : t.Wf) {j : Nat} (hi : i < t.subCnt) (hj : j < t.subCnt)
    (hsame : (t.subs i).msgId = (t.subs j).msgId) : i = j := by
  have hi' : i < t.ids.length := by simpa
  have hj' : j < t.ids.length := by simpa
  have heq : t.ids[i] = t.ids[j] := by rw [ids_getElem, ids_getElem, hsame]
  exact h.nodup.getElem_inj_iff.mp heq

theorem Table.Wf.find_of_index (h : t.Wf) (hi : i < t.subCnt) :
    t.find (t.subs i).msgId = some i := by
  cases hfind : t.find (t.subs i).msgId with
  | none =>
    refine absurd (find_eq_none.mp hfind) (not_not.mpr (mem_idSet.mpr ?_))
    exact List.mem_map.mpr ⟨i, List.mem_range.mpr hi, rfl⟩
  | some j =>
    obtain ⟨hj, hmsg⟩ := find_eq_some hfind
    rw [h.index_unique hj hi hmsg]

/-! ## Appending -/

theorem append_ids (sub : Sub) : (t.append sub).ids = t.ids ++ [sub.msgId] := by
  simp only [Table.ids, Table.append, List.range_succ, List.map_append, List.map_singleton,
    update_self]
  congr 1
  refine List.map_congr_left fun i hi => ?_
  rw [update_of_ne (Nat.ne_of_lt (List.mem_range.mp hi))]

theorem append_idSet (sub : Sub) : (t.append sub).idSet = insert sub.msgId t.idSet := by
  ext m
  simp [mem_idSet, append_ids, or_comm]

theorem Table.Wf.append (h : t.Wf) {sub : Sub} (hnew : sub.msgId ∉ t.idSet)
    (hroom : t.subCnt < SBN_MAX_SUBS_PER_PEER) : (t.append sub).Wf := by
  refine ⟨?_, hroom⟩
  rw [append_ids]
  refine List.Nodup.append h.nodup (List.nodup_singleton _) ?_
  simpa [mem_idSet] using hnew

theorem append_forall {P : Sub → Prop} {sub : Sub} (hold : ∀ j < t.subCnt, P (t.subs j))
    (hnew : P sub) : ∀ j < (t.append sub).subCnt, P ((t.append sub).subs j) := by
  intro j hj
  have hj' : j < t.subCnt + 1 := hj
  show P (update t.subs t.subCnt sub j)
  by_cases hlast : j = t.subCnt
  · rwa [hlast, update_self]
  · rw [update_of_ne hlast]
    exact hold j (by omega)

theorem append_blank {sub : Sub} (h : ∀ j, t.subCnt ≤ j → (t.subs j).msgId = 0) :
    ∀ j, (t.append sub).subCnt ≤ j → ((t.append sub).subs j).msgId = 0 := by
  intro j hj
  have hj' : t.subCnt + 1 ≤ j := hj
  show (update t.subs t.subCnt sub j).msgId = 0
  rw [update_of_ne (by omega)]
  exact h j (by omega)

/-! ## The use counter -/

theorem setInUseCtr_subs (i j : Nat) (ctr : BitVec 32) :
    ((t.setInUseCtr i ctr).subs j).msgId = (t.subs j).msgId := by
  by_cases hj : j = i
  · simp [Table.setInUseCtr, hj]
  · simp [Table.setInUseCtr, hj]

theorem setInUseCtr_ids (i : Nat) (ctr : BitVec 32) : (t.setInUseCtr i ctr).ids = t.ids :=
  List.map_congr_left fun j _ => setInUseCtr_subs i j ctr

theorem setInUseCtr_idSet (i : Nat) (ctr : BitVec 32) : (t.setInUseCtr i ctr).idSet = t.idSet := by
  rw [Table.idSet, Table.idSet, setInUseCtr_ids]

theorem setInUseCtr_find (i : Nat) (ctr : BitVec 32) :
    (t.setInUseCtr i ctr).find msgId = t.find msgId := by
  simp only [Table.find, setInUseCtr_subs]
  rfl

theorem Table.Wf.setInUseCtr (h : t.Wf) (i : Nat) (ctr : BitVec 32) : (t.setInUseCtr i ctr).Wf :=
  ⟨by rw [setInUseCtr_ids]; exact h.nodup, h.room⟩

/-! ## Closing a gap -/

theorem closeGap_apply (subs : Nat → Sub) (subIdx n j : Nat) :
    closeGap subs subIdx n j =
      if subIdx ≤ j ∧ j < subIdx + n then subs (j + 1) else subs j := by
  induction n generalizing j with
  | zero => rw [closeGap, if_neg (by omega)]
  | succ n ih =>
    rw [closeGap]
    by_cases hj : j = subIdx + n
    · subst hj
      rw [update_self, ih, if_neg (by omega), if_pos (by omega)]
    · rw [update_of_ne hj, ih]
      by_cases hin : subIdx ≤ j ∧ j < subIdx + n
      · rw [if_pos hin, if_pos (by omega)]
      · rw [if_neg hin, if_neg (by omega)]

theorem remove_subs (j : Nat) :
    (t.remove i).subs j = if i ≤ j ∧ j < t.subCnt then t.subs (j + 1) else t.subs j := by
  show closeGap t.subs i (t.subCnt - i) j = _
  rw [closeGap_apply]
  by_cases hj : i ≤ j ∧ j < t.subCnt
  · rw [if_pos (by omega), if_pos hj]
  · rw [if_neg (by omega), if_neg hj]

theorem remove_ids (hi : i < t.subCnt) : (t.remove i).ids = t.ids.eraseIdx i := by
  refine List.ext_getElem ?_ fun j hj _ => ?_
  · simp [List.length_eraseIdx, hi, Table.remove]
  · have hcnt : j < t.subCnt - 1 := by simpa [Table.remove] using hj
    rw [ids_getElem, remove_subs, List.getElem_eraseIdx]
    by_cases hij : i ≤ j
    · rw [if_pos (by omega), dif_neg (by omega), ids_getElem]
    · rw [if_neg (by omega), dif_pos (by omega), ids_getElem]

theorem remove_forall {P : Sub → Prop} (hi : i < t.subCnt)
    (h : ∀ j < t.subCnt, j ≠ i → P (t.subs j)) :
    ∀ j < (t.remove i).subCnt, P ((t.remove i).subs j) := by
  intro j hj
  have hj' : j < t.subCnt - 1 := hj
  rw [remove_subs]
  by_cases hij : i ≤ j
  · rw [if_pos (by omega)]
    exact h (j + 1) (by omega) (by omega)
  · rw [if_neg (by omega)]
    exact h j (by omega) (by omega)

/-- Behind the last entry that is left there is what was behind the last entry. -/
theorem remove_blank (hi : i < t.subCnt) (h : ∀ j, t.subCnt ≤ j → (t.subs j).msgId = 0) :
    ∀ j, (t.remove i).subCnt ≤ j → ((t.remove i).subs j).msgId = 0 := by
  intro j hj
  have hj' : t.subCnt - 1 ≤ j := hj
  rw [remove_subs]
  by_cases hij : j < t.subCnt
  · rw [if_pos (by omega)]
    exact h (j + 1) (by omega)
  · rw [if_neg (by omega)]
    exact h j (by omega)

theorem Table.Wf.remove (h : t.Wf) (hi : i < t.subCnt) : (t.remove i).Wf := by
  refine ⟨?_, Nat.le_trans (Nat.sub_le _ _) h.room⟩
  rw [remove_ids hi]
  exact h.nodup.sublist (List.eraseIdx_sublist _ _)

theorem Table.Wf.remove_idSet (h : t.Wf) (hfind : t.find msgId = some i) :
    (t.remove i).idSet = t.idSet.erase msgId := by
  obtain ⟨hi, rfl⟩ := find_eq_some hfind
  have herase : t.ids.eraseIdx i = t.ids.erase (t.subs i).msgId := by
    rw [← ids_getElem (by simpa), h.nodup.erase_getElem]
  ext m
  rw [mem_idSet, remove_ids hi, herase, h.nodup.mem_erase_iff, Finset.mem_erase, mem_idSet]

end Nos3.Sbn

/-!
## What a subscription message does to a peer's table

The octets of a message are followed from the packing to the loop that reads them back at the
peer: a message of up to `maxPacked` entries adds or removes exactly the MsgIDs it was packed
from, whatever older octets the receiver's buffer holds.
-/
namespace Nos3.Sbn
open Base.BigEndian
open Base.ByteMemory (Memory copyOut)

/-! ## Packing -/

def Sub.octets (sub : Sub) : List Octet := beOctets 4 sub.msgId ++ sub.qos.octets

@[simp] theorem sub_octets_length (sub : Sub) : sub.octets.length = 6 := by
  simp [Sub.octets, Qos.octets]

def headerSize : Nat := SBN_IDENT_LEN + 2

def headerOctets (ident : Ident) (cnt : BitVec 16) : List Octet := ident.octets ++ beOctets 2 cnt

@[simp] theorem headerOctets_length (ident : Ident) (cnt : BitVec 16) :
    (headerOctets ident cnt).length = headerSize := by
  simp [headerOctets, headerSize, ident.length]

theorem pack_header (ident : Ident) (cnt : BitVec 16) :
    (Pack.data ident.octets { bufSz := SBN_PACKED_SUB_SZ }).uint16 cnt =
      ⟨SBN_PACKED_SUB_SZ, headerOctets ident cnt⟩ := by
  rw [Pack.uint16, pack_data_fits, pack_data_fits]
  · rfl
  · simp [ident.length, SBN_IDENT_LEN, SBN_PACKED_SUB_SZ, SBN_PACKED_HDR_SZ,
      SBN_MAX_SUBS_PER_PEER]
  · rw [pack_data_fits]
    · simp [ident.length, SBN_IDENT_LEN, SBN_PACKED_SUB_SZ, SBN_PACKED_HDR_SZ,
        SBN_MAX_SUBS_PER_PEER]
    · simp [ident.length, SBN_IDENT_LEN, SBN_PACKED_SUB_SZ, SBN_PACKED_HDR_SZ,
        SBN_MAX_SUBS_PER_PEER]

theorem packEntry_extends (p : Pack) (sub : Sub) : p.buf <+: (packEntry p sub).buf :=
  (pack_data_extends _ _).trans (pack_data_extends _ _)

theorem packEntry_fits {p : Pack} {sub : Sub} (h : p.buf.length + 6 ≤ p.bufSz) :
    packEntry p sub = { p with buf := p.buf ++ sub.octets } := by
  have hmsg : p.msgId sub.msgId = { p with buf := p.buf ++ beOctets 4 sub.msgId } :=
    pack_data_fits (by simpa using by omega)
  rw [packEntry, hmsg, pack_data_fits (by simpa [Qos.octets] using h)]
  simp [Sub.octets]

theorem packEntries_extend (entries : List Sub) (p : Pack) :
    p.buf <+: (entries.foldl packEntry p).buf := by
  induction entries generalizing p with
  | nil => exact List.prefix_refl _
  | cons sub entries ih => exact (packEntry_extends p sub).trans (ih _)

theorem packEntries_fits (entries : List Sub) {p : Pack}
    (h : p.buf.length + 6 * entries.length ≤ p.bufSz) :
    entries.foldl packEntry p = { p with buf := p.buf ++ entries.flatMap Sub.octets } := by
  induction entries generalizing p with
  | nil => simp
  | cons sub entries ih =>
    rw [List.length_cons] at h
    rw [List.foldl_cons, packEntry_fits (by omega), ih (by simpa using by omega)]
    simp

theorem flatMap_octets_length (entries : List Sub) :
    (entries.flatMap Sub.octets).length = 6 * entries.length := by
  induction entries with
  | nil => rfl
  | cons sub entries ih =>
    rw [List.flatMap_cons, List.length_append, ih, sub_octets_length, List.length_cons]
    omega

/-- As many entries have their MsgID packed. The quality of service of the last one is left out:
the buffer has no room for the ident. -/
def maxPacked : Nat := 250

theorem packSubs_header (ident : Ident) (cnt : BitVec 16) (entries : List Sub) :
    headerOctets ident cnt <+: packSubs ident cnt entries := by
  rw [packSubs, pack_header]
  exact packEntries_extend entries ⟨SBN_PACKED_SUB_SZ, headerOctets ident cnt⟩

theorem packSubs_entry (ident : Ident) (cnt : BitVec 16) {entries : List Sub} {k : Nat}
    (hk : k < entries.length) (hmax : entries.length ≤ maxPacked) :
    (headerOctets ident cnt ++ (entries.take k).flatMap Sub.octets) ++ beOctets 4 entries[k].msgId
      <+: packSubs ident cnt entries := by
  have hsplit : entries = entries.take k ++ entries[k] :: entries.drop (k + 1) := by
    rw [List.getElem_cons_drop, List.take_append_drop]
  have htake : (entries.take k).length = k := List.length_take_of_le (Nat.le_of_lt hk)
  unfold maxPacked at hmax
  have hbound : headerSize + 6 * k + 4 ≤ SBN_PACKED_SUB_SZ := by
    simp only [headerSize, SBN_IDENT_LEN, SBN_PACKED_SUB_SZ, SBN_PACKED_HDR_SZ,
      SBN_MAX_SUBS_PER_PEER]
    omega
  conv_rhs => rw [packSubs, pack_header, hsplit, List.foldl_append, List.foldl_cons]
  rw [packEntries_fits (entries.take k) (by simpa [htake] using by omega)]
  refine List.IsPrefix.trans ?_ (packEntries_extend _ _)
  refine List.IsPrefix.trans ?_ (pack_data_extends _ _)
  rw [Pack.msgId, pack_data_fits]
  simp only [List.length_append, headerOctets_length, flatMap_octets_length, htake,
    beOctets_length]
  omega

/-! ## Reading back -/

variable {payload : List Octet} {older : Memory} {ident : Ident} {cnt : BitVec 16}
  {entries : List Sub}

theorem read_ident (h : headerOctets ident cnt <+: payload) :
    copyOut (received payload older) 0 SBN_IDENT_LEN = ident.octets := by
  rw [← ident.length]
  exact copyOut_received [] ident.octets older ((List.prefix_append _ _).trans h)

theorem read_count (h : headerOctets ident cnt <+: payload) :
    copyOut (received payload older) SBN_IDENT_LEN 2 = beOctets 2 cnt := by
  have hread := copyOut_received ident.octets (beOctets 2 cnt) older h
  rwa [ident.length, beOctets_length] at hread

theorem read_msgId (ident : Ident) (cnt : BitVec 16) (older : Memory) {k : Nat} (hk : k < entries.length) (hmax : entries.length ≤ maxPacked) :
    copyOut (received (packSubs ident cnt entries) older) (headerSize + 6 * k) 4 =
      beOctets 4 entries[k].msgId := by
  have hread := copyOut_received _ _ older (packSubs_entry ident cnt hk hmax)
  rwa [List.length_append, headerOctets_length, flatMap_octets_length,
    List.length_take_of_le (Nat.le_of_lt hk), beOctets_length] at hread

def inbox (payload : List Octet) (older stack : Memory) (used : Nat) : Unpack :=
  ⟨CFE_MISSION_SB_MAX_SB_MSG_SIZE, received payload older, stack, used⟩

theorem inbox_data {used sz : Nat} (stack : Memory)
    (h : used + sz ≤ CFE_MISSION_SB_MAX_SB_MSG_SIZE) :
    (inbox payload older stack used).data sz =
      (copyOut (received payload older) used sz, inbox payload older stack (used + sz)) :=
  unpack_data_fits h

theorem inbox_ident (stack : Memory) (h : headerOctets ident cnt <+: payload) :
    (inbox payload older stack 0).data SBN_IDENT_LEN =
      (ident.octets, inbox payload older stack SBN_IDENT_LEN) := by
  rw [inbox_data stack (by decide), read_ident h, Nat.zero_add]

theorem inbox_count (stack : Memory) (h : headerOctets ident cnt <+: payload) :
    (inbox payload older stack SBN_IDENT_LEN).uint16 =
      (cnt, inbox payload older stack headerSize) := by
  rw [Unpack.uint16, inbox_data stack (by decide), read_count h,
    ofBe_beOctets_word (by decide), headerSize]

theorem strncmpEqual_self (octets : List Octet) : strncmpEqual octets octets = true := by
  induction octets with
  | nil => rfl
  | cons a as ih => simp [strncmpEqual, ih]

theorem addSub_taken {subscribed : MsgId → Bool} {t : Table} {msgId : MsgId} (qos : Qos)
    (hsub : ∀ m, subscribed m = true) (ht : t.Wf)
    (hcard : (insert msgId t.idSet).card ≤ SBN_MAX_SUBS_PER_PEER) :
    ∃ t', addSub subscribed msgId qos t = (.success, t') ∧ t'.Wf ∧
      t'.idSet = insert msgId t.idSet := by
  unfold addSub
  cases hfind : t.find msgId with
  | some i => exact ⟨t, rfl, ht, (Finset.insert_eq_of_mem (find_mem hfind)).symm⟩
  | none =>
    have hnew := find_eq_none.mp hfind
    rw [Finset.card_insert_of_notMem hnew, ht.card] at hcard
    have hroom : ¬t.subCnt ≥ SBN_MAX_SUBS_PER_PEER := by omega
    simp only [if_neg hroom, hsub, if_true]
    exact ⟨_, rfl, ht.append hnew (by omega), append_idSet _⟩

/-- The loop adds the MsgIDs that are read at every sixth octet. -/
theorem processSubs_idSet {subscribed : MsgId → Bool} (hsub : ∀ m, subscribed m = true)
    (ids : List MsgId) {p : Unpack} {t : Table} (ht : t.Wf)
    (hroom : p.bufUsed + 6 * ids.length ≤ p.bufSz)
    (hread : ∀ k (hk : k < ids.length),
      copyOut p.buf (p.bufUsed + 6 * k) 4 = beOctets 4 ids[k])
    (hcard : (t.idSet ∪ ids.toFinset).card ≤ SBN_MAX_SUBS_PER_PEER) :
    (processSubs subscribed ids.length p t).2.Wf ∧
      (processSubs subscribed ids.length p t).2.idSet = t.idSet ∪ ids.toFinset := by
  induction ids generalizing p t with
  | nil => exact ⟨ht, by simp [processSubs]⟩
  | cons msgId ids ih =>
    rw [List.length_cons] at hroom
    have hunion : t.idSet ∪ (msgId :: ids).toFinset = insert msgId t.idSet ∪ ids.toFinset := by
      simp [Finset.insert_union]
    rw [hunion] at hcard ⊢
    have hmsg : p.msgId = (msgId, { p with bufUsed := p.bufUsed + 4 }) := by
      rw [Unpack.msgId, unpack_data_fits (by omega)]
      refine Prod.ext ?_ rfl
      show ofBe (copyOut p.buf p.bufUsed 4) = msgId
      rw [show copyOut p.buf p.bufUsed 4 = beOctets 4 msgId from hread 0 (Nat.succ_pos _)]
      exact ofBe_beOctets_word (by decide) msgId
    have hqos : ({ p with bufUsed := p.bufUsed + 4 } : Unpack).qos.2 =
        { p with bufUsed := p.bufUsed + 4 + 2 } := by
      rw [Unpack.qos, unpack_data_fits (by simp only; omega)]
    obtain ⟨t', hadd, ht', hset⟩ := addSub_taken
      ({ p with bufUsed := p.bufUsed + 4 } : Unpack).qos.1 hsub ht
      (Nat.le_trans (Finset.card_le_card Finset.subset_union_left) hcard)
    have hstep : processSubs subscribed (msgId :: ids).length p t =
        processSubs subscribed ids.length { p with bufUsed := p.bufUsed + 4 + 2 } t' := by
      rw [List.length_cons, processSubs, hmsg]
      simp only [hadd, hqos]
    rw [hstep, ← hset]
    refine ih ht' (by simp only; omega) (fun k hk => ?_) (by rw [hset]; exact hcard)
    have hnext := hread (k + 1) (Nat.succ_lt_succ hk)
    rw [List.getElem_cons_succ] at hnext
    rw [← hnext]
    congr 1
    simp only
    omega

theorem processUnsubFromPeer_idSet {t : Table} (ht : t.Wf) (msgId : MsgId) :
    (processUnsubFromPeer msgId t).Wf ∧
      (processUnsubFromPeer msgId t).idSet = t.idSet.erase msgId := by
  unfold processUnsubFromPeer
  cases hfind : t.find msgId with
  | none => exact ⟨ht, (Finset.erase_eq_of_notMem (find_eq_none.mp hfind)).symm⟩
  | some i => exact ⟨ht.remove (find_eq_some hfind).1, ht.remove_idSet hfind⟩

/-! ## Delivery -/

/-- What a message says about the MsgIDs of its sender. -/
inductive Content
  | subs (ids : List MsgId)
  | unsub (msgId : MsgId)
  | other

def Content.apply (known : Finset MsgId) : Content → Finset MsgId
  | .subs ids => known ∪ ids.toFinset
  | .unsub msgId => known.erase msgId
  | .other => known

/-- A peer whose Software Bus takes every subscription makes of the message what it says. -/
def Delivers (ident : Ident) (msg : NetMsg) (content : Content) : Prop :=
  ∀ (subscribed : MsgId → Bool) (older stack : Memory) (t : Table),
    (∀ m, subscribed m = true) → t.Wf →
    (content.apply t.idSet).card ≤ SBN_MAX_SUBS_PER_PEER →
    (processNetMsg ident subscribed older stack msg t).Wf ∧
      (processNetMsg ident subscribed older stack msg t).idSet = content.apply t.idSet

theorem delivers_other (ident : Ident) (payload : List Octet) :
    Delivers ident ⟨.protoMsg, payload⟩ .other := fun _ _ _ _ _ ht _ => ⟨ht, rfl⟩

theorem delivers_subs (ident : Ident) (entries : List Sub) (hmax : entries.length ≤ maxPacked) :
    Delivers ident ⟨.subMsg, packSubs ident (BitVec.ofNat 16 entries.length) entries⟩
      (.subs (entries.map Sub.msgId)) := by
  intro subscribed older stack t hsub ht hcard
  have hheader := packSubs_header ident (BitVec.ofNat 16 entries.length) entries
  have hcount : (BitVec.ofNat 16 entries.length).toNat = entries.length := by
    rw [BitVec.toNat_ofNat]
    exact Nat.mod_eq_of_lt (Nat.lt_of_le_of_lt hmax (by decide))
  show (processSubsFromPeer ident subscribed (inbox _ older stack 0) t).2.Wf ∧
    (processSubsFromPeer ident subscribed (inbox _ older stack 0) t).2.idSet = _
  simp only [processSubsFromPeer, inbox_ident stack hheader, strncmpEqual_self, if_true,
    inbox_count stack hheader, hcount]
  have hlen : entries.length = (entries.map Sub.msgId).length := (List.length_map _).symm
  rw [hlen]
  refine processSubs_idSet hsub _ ht ?_ (fun k hk => ?_) hcard
  · rw [← hlen]
    simp only [inbox, CFE_MISSION_SB_MAX_SB_MSG_SIZE, headerSize, SBN_IDENT_LEN]
    unfold maxPacked at hmax
    omega
  · rw [List.getElem_map]
    exact read_msgId _ _ _ (by simpa using hk) hmax

theorem delivers_unsub (ident : Ident) (sub : Sub) :
    Delivers ident ⟨.unsubMsg, packSubs ident 1 [sub]⟩ (.unsub sub.msgId) := by
  intro subscribed older stack t _ ht _
  have hheader := packSubs_header ident 1 [sub]
  have hread := read_msgId ident 1 older
    (show 0 < [sub].length from Nat.zero_lt_one) (show 1 ≤ maxPacked by decide)
  have hmsg : (inbox (packSubs ident 1 [sub]) older stack headerSize).msgId =
      (sub.msgId, inbox (packSubs ident 1 [sub]) older stack (headerSize + 4)) := by
    rw [Unpack.msgId, inbox_data stack (by decide)]
    refine Prod.ext ?_ rfl
    show ofBe (copyOut _ (headerSize + 6 * 0) 4) = sub.msgId
    rw [hread]
    exact ofBe_beOctets_word (by decide) sub.msgId
  show (processUnsubsFromPeer (inbox _ older stack 0) t).Wf ∧
    (processUnsubsFromPeer (inbox _ older stack 0) t).idSet = _
  simp only [processUnsubsFromPeer, inbox_ident stack hheader, inbox_count stack hheader]
  show (processUnsubs 1 _ t).Wf ∧ (processUnsubs 1 _ t).idSet = _
  simp only [processUnsubs, hmsg]
  exact processUnsubFromPeer_idSet ht sub.msgId

end Nos3.Sbn
