import Nos3.Sbn.Source.Network
import Mathlib.Data.List.GetD

/-!
# Framing

A message that is framed and read back is the same, whatever lies behind it in the receiver's
buffer; and whatever that buffer holds, no more octets are copied than a message may have.
-/
namespace Nos3.Sbn
open Base.BigEndian (Octet beOctets ofBe ofBe_beOctets_word beOctets_length)
open Base.ByteMemory

theorem toInt_of_nonneg {msgSz : BitVec 16} (h : 0 ≤ msgSz.toInt) :
    msgSz.toInt = msgSz.toNat := by
  have hlt := msgSz.isLt
  rw [BitVec.toInt_eq_toNat_cond] at h ⊢
  split_ifs at h ⊢ <;> omega

/-- The size of a message that is not negative is no other number as a `size_t`. -/
theorem toNat_sizeT {msgSz : BitVec 16} (h : 0 ≤ msgSz.toInt) :
    (sizeT msgSz).toNat = msgSz.toNat := by
  have hsame : (sizeT msgSz).toInt = msgSz.toInt :=
    BitVec.toInt_signExtend_of_le (by decide)
  rw [toInt_of_nonneg h, BitVec.toInt_eq_toNat_cond] at hsame
  split_ifs at hsame <;> omega

/-! ## Reading -/

section Reading
variable {sbnBuf stack msg : Memory}

/-- The fields of the header at the front of a buffer. -/
def headerOf (sbnBuf : Memory) (ok : Bool) (msg : Memory) : Unpacked :=
  ⟨ok, ofBe (copyOut sbnBuf 0 2), ofBe (copyOut sbnBuf 2 1), ofBe (copyOut sbnBuf 3 4),
    ofBe (copyOut sbnBuf 7 4), msg⟩

/-- The number of octets that are copied behind a header of this size. -/
def copiedSize (maxMsgSz : Nat) (msgSz : BitVec 16) : Nat :=
  if msgSz.toInt < 0 ∨ msgSz.toInt > maxMsgSz then 0 else msgSz.toInt.toNat

theorem copiedSize_le (maxMsgSz : Nat) (msgSz : BitVec 16) :
    copiedSize maxMsgSz msgSz ≤ maxMsgSz := by
  unfold copiedSize
  split <;> omega

theorem copyIn_zero (m : Memory) (a : Nat) (data : Nat → Octet) : copyIn m a 0 data = m :=
  funext fun _ => copyIn_outside (by omega)

theorem copyIn_congr {m : Memory} {a n : Nat} {data data' : Nat → Octet}
    (h : ∀ k < n, data k = data' k) : copyIn m a n data = copyIn m a n data' := by
  funext i
  by_cases hin : a ≤ i ∧ i < a + n
  · rw [copyIn, copyIn, if_pos hin, if_pos hin, h _ (by omega)]
  · rw [copyIn, copyIn, if_neg hin, if_neg hin]

variable (sbnBuf stack) in
/-- The receiver's buffer, read up to `used`. -/
def packedMsg (maxMsgSz used : Nat) : Unpack := ⟨SBN_PACKED_HDR_SZ + maxMsgSz, sbnBuf, stack, used⟩

theorem packedMsg_data {maxMsgSz used sz : Nat} (h : used + sz ≤ SBN_PACKED_HDR_SZ) :
    (packedMsg sbnBuf stack maxMsgSz used).data sz =
      (copyOut sbnBuf used sz, packedMsg sbnBuf stack maxMsgSz (used + sz)) :=
  unpack_data_fits (Nat.le_trans h (Nat.le_add_right _ _))

theorem packedMsg_into {maxMsgSz sz : Nat} (h : sz ≤ maxMsgSz) :
    ((packedMsg sbnBuf stack maxMsgSz SBN_PACKED_HDR_SZ).into sz msg).1 =
      copyIn msg 0 sz fun k => sbnBuf (SBN_PACKED_HDR_SZ + k) := by
  have hfits : ¬ (packedMsg sbnBuf stack maxMsgSz SBN_PACKED_HDR_SZ).bufUsed + sz >
      (packedMsg sbnBuf stack maxMsgSz SBN_PACKED_HDR_SZ).bufSz := by
    simp only [packedMsg]
    omega
  rw [Unpack.into, if_neg hfits]
  rfl

/-- The size at the front alone decides what is returned and how much is copied. -/
theorem unpackMsg_eq (maxMsgSz : Nat) (sbnBuf stack msg : Memory) :
    unpackMsg maxMsgSz sbnBuf stack msg =
      headerOf sbnBuf
        (!decide ((ofBe (copyOut sbnBuf 0 2) : BitVec 16).toInt < 0 ∨
          (ofBe (copyOut sbnBuf 0 2) : BitVec 16).toInt > maxMsgSz))
        (copyIn msg 0 (copiedSize maxMsgSz (ofBe (copyOut sbnBuf 0 2)))
          fun k => sbnBuf (SBN_PACKED_HDR_SZ + k)) := by
  have hread : unpackMsg maxMsgSz sbnBuf stack msg =
      let msgSz : BitVec 16 := ofBe (copyOut sbnBuf 0 2)
      if msgSz = 0 then headerOf sbnBuf true msg
      else if msgSz.toInt < 0 ∨ msgSz.toInt > maxMsgSz then headerOf sbnBuf false msg
      else headerOf sbnBuf true
        ((packedMsg sbnBuf stack maxMsgSz SBN_PACKED_HDR_SZ).into (sizeT msgSz).toNat msg).1 := by
    have hbegin : (⟨SBN_PACKED_HDR_SZ + maxMsgSz, sbnBuf, stack, 0⟩ : Unpack) =
      packedMsg sbnBuf stack maxMsgSz 0 := rfl
    simp only [unpackMsg, hbegin, Unpack.uint16, Unpack.uint8, Unpack.uint32,
      packedMsg_data (show 0 + 2 ≤ SBN_PACKED_HDR_SZ by decide),
      packedMsg_data (show 0 + 2 + 1 ≤ SBN_PACKED_HDR_SZ by decide),
      packedMsg_data (show 0 + 2 + 1 + 4 ≤ SBN_PACKED_HDR_SZ by decide),
      packedMsg_data (show 0 + 2 + 1 + 4 + 4 ≤ SBN_PACKED_HDR_SZ by decide)]
    rfl
  rw [hread]
  generalize (ofBe (copyOut sbnBuf 0 2) : BitVec 16) = msgSz
  dsimp only
  by_cases hzero : msgSz = 0
  · subst hzero
    have hnone : copiedSize maxMsgSz 0 = 0 := by
      simp [copiedSize]
    have hgood : ¬ ((0 : BitVec 16).toInt < 0 ∨ (0 : BitVec 16).toInt > maxMsgSz) := by
      have hint : (0 : BitVec 16).toInt = 0 := rfl
      rw [hint]
      omega
    rw [if_pos rfl, hnone, copyIn_zero, decide_eq_false hgood]
    rfl
  · rw [if_neg hzero, copiedSize]
    by_cases hbad : msgSz.toInt < 0 ∨ msgSz.toInt > maxMsgSz
    · rw [if_pos hbad, if_pos hbad, copyIn_zero, decide_eq_true hbad]
      rfl
    · have hpos : 0 ≤ msgSz.toInt := by omega
      have hsame : (sizeT msgSz).toNat = msgSz.toInt.toNat := by
        rw [toNat_sizeT hpos, toInt_of_nonneg hpos, Int.toNat_natCast]
      rw [if_neg hbad, if_neg hbad, hsame, packedMsg_into (by omega), decide_eq_false hbad]
      rfl

end Reading

/-! ## Writing -/

section Writing
variable (msgType : Octet) (processorId spacecraftId : BitVec 32)

def headerFields (msgSz : BitVec 16) (msgType : Octet) (processorId spacecraftId : BitVec 32) :
    List Octet :=
  beOctets 2 msgSz ++ beOctets 1 msgType ++ beOctets 4 processorId ++ beOctets 4 spacecraftId

theorem headerFields_length (msgSz : BitVec 16) :
    (headerFields msgSz msgType processorId spacecraftId).length = SBN_PACKED_HDR_SZ := by
  simp [headerFields, SBN_PACKED_HDR_SZ]

/-- The octets of a payload; the null pointer stands for none. -/
def payloadOf (msg : Option Memory) (n : Nat) : List Octet :=
  match msg with
  | none => []
  | some msg => copyOut msg 0 n

/-- The buffer that is made for a message has room for all of it. -/
theorem packMsg_eq {msgSz : BitVec 16} (h : 0 ≤ msgSz.toInt) (msg : Option Memory) :
    packMsg msgSz msgType processorId spacecraftId msg =
      headerFields msgSz msgType processorId spacecraftId ++ payloadOf msg msgSz.toNat := by
  have hlt := msgSz.isLt
  have hsize := toNat_sizeT h
  have hroom : (sizeT msgSz + BitVec.ofNat 64 SBN_PACKED_HDR_SZ).toNat = msgSz.toNat + 11 := by
    rw [BitVec.toNat_add, hsize]
    simp only [SBN_PACKED_HDR_SZ, BitVec.toNat_ofNat]
    omega
  have hheader : (((({ bufSz := msgSz.toNat + 11 } : Pack).uint16 msgSz).uint8 msgType).uint32
      processorId).uint32 spacecraftId =
      ⟨msgSz.toNat + 11, headerFields msgSz msgType processorId spacecraftId⟩ := by
    have hpack (b d : List Octet) (hfits : b.length + d.length ≤ SBN_PACKED_HDR_SZ) :
        (⟨msgSz.toNat + 11, b⟩ : Pack).data d = ⟨msgSz.toNat + 11, b ++ d⟩ :=
      pack_data_fits (Nat.le_trans hfits (Nat.le_add_left _ _))
    rw [Pack.uint16, hpack _ _ (by simp [SBN_PACKED_HDR_SZ]), Pack.uint8,
      hpack _ _ (by simp [SBN_PACKED_HDR_SZ]), Pack.uint32, Pack.uint32,
      hpack _ _ (by simp [SBN_PACKED_HDR_SZ]), hpack _ _ (by simp [SBN_PACKED_HDR_SZ]),
      headerFields, List.nil_append]
  simp only [packMsg, hroom, hheader]
  cases msg with
  | none => simp [payloadOf]
  | some msg =>
    by_cases hzero : msgSz = 0
    · subst hzero
      simp [payloadOf, copyOut]
    · have hlength : (copyOut msg 0 msgSz.toNat).length = msgSz.toNat := by simp [copyOut]
      simp only [if_neg hzero, payloadOf, hsize]
      rw [pack_data_fits]
      simp only [headerFields_length, hlength, SBN_PACKED_HDR_SZ]
      omega

/-- The header is read back from the front of whatever it was received into. -/
theorem headerOf_received (msgSz : BitVec 16) (rest : List Octet) (older : Memory) (ok : Bool)
    (msg : Memory) :
    headerOf (received (headerFields msgSz msgType processorId spacecraftId ++ rest) older) ok msg =
      ⟨ok, msgSz, msgType, processorId, spacecraftId, msg⟩ := by
  have hread (before field : List Octet)
      (h : before ++ field <+: headerFields msgSz msgType processorId spacecraftId ++ rest) :=
    copyOut_received before field older h
  have hsize := hread [] (beOctets 2 msgSz) (by simp [headerFields])
  have htype := hread (beOctets 2 msgSz) (beOctets 1 msgType) (by simp [headerFields])
  have hproc := hread (beOctets 2 msgSz ++ beOctets 1 msgType) (beOctets 4 processorId)
    (by simp [headerFields])
  have hcraft := hread (beOctets 2 msgSz ++ beOctets 1 msgType ++ beOctets 4 processorId)
    (beOctets 4 spacecraftId) (by simp [headerFields])
  simp only [List.length_append, beOctets_length, List.length_nil, Nat.reduceAdd]
    at hsize htype hproc hcraft
  rw [headerOf, hsize, htype, hproc, hcraft, ofBe_beOctets_word (by decide),
    ofBe_beOctets_word (by decide), ofBe_beOctets_word (by decide), ofBe_beOctets_word (by decide)]

end Writing

/-! ## Framing -/

/-- What is framed is read back: the sizes from 0 to the limit of the wire and of the
receiver. -/
theorem unpackMsg_packMsg {maxMsgSz : Nat} {payload : List Octet} {data : Option Memory}
    (hlimit : payload.length ≤ min 32767 maxMsgSz) (hdata : payloadOf data payload.length = payload)
    (msgType : Octet) (processorId spacecraftId : BitVec 32) (older stack msg : Memory) :
    unpackMsg maxMsgSz (received
      (packMsg (BitVec.ofNat 16 payload.length) msgType processorId spacecraftId data) older)
      stack msg = ⟨true, BitVec.ofNat 16 payload.length, msgType, processorId, spacecraftId,
        copyIn msg 0 payload.length fun k => payload.getD k 0⟩ := by
  have hnat : (BitVec.ofNat 16 payload.length).toNat = payload.length := by
    rw [BitVec.toNat_ofNat]
    omega
  have hint : (BitVec.ofNat 16 payload.length).toInt = payload.length := by
    rw [BitVec.toInt_eq_toNat_cond, hnat]
    split_ifs <;> omega
  have hgood : ¬ ((BitVec.ofNat 16 payload.length).toInt < 0 ∨
      (BitVec.ofNat 16 payload.length).toInt > maxMsgSz) := by
    rw [hint]
    omega
  have hcopied : copiedSize maxMsgSz (BitVec.ofNat 16 payload.length) = payload.length := by
    rw [copiedSize, if_neg hgood, hint, Int.toNat_natCast]
  have hheader (ok : Bool) (dst : Memory) := headerOf_received msgType processorId spacecraftId
    (BitVec.ofNat 16 payload.length) payload older ok dst
  have hfront : (ofBe (copyOut (received (headerFields (BitVec.ofNat 16 payload.length) msgType
      processorId spacecraftId ++ payload) older) 0 2) : BitVec 16) =
      BitVec.ofNat 16 payload.length :=
    congrArg Unpacked.msgSz (hheader true msg)
  rw [packMsg_eq msgType processorId spacecraftId (by rw [hint]; omega), hnat, hdata,
    unpackMsg_eq, hfront, hheader, hcopied, decide_eq_false hgood]
  congr 1
  refine copyIn_congr fun k hk => ?_
  have hlength := headerFields_length msgType processorId spacecraftId
    (BitVec.ofNat 16 payload.length)
  rw [received, List.getD_append_right _ _ _ _ (by omega), hlength, Nat.add_sub_cancel_left,
    List.getD_eq_getElem _ _ hk, List.getD_eq_getElem _ _ hk]

/-- The message that `SBN_UnpackMsg` leaves is copied from the buffer, and not more than its
limit; a size outside the limits copies nothing. -/
theorem unpackMsg_bounds (maxMsgSz : Nat) (sbnBuf stack msg : Memory) :
    ∃ n ≤ maxMsgSz, (unpackMsg maxMsgSz sbnBuf stack msg).msg =
        copyIn msg 0 n (fun k => sbnBuf (SBN_PACKED_HDR_SZ + k)) ∧
      ((unpackMsg maxMsgSz sbnBuf stack msg).msgSz.toInt < 0 ∨
        (unpackMsg maxMsgSz sbnBuf stack msg).msgSz.toInt > maxMsgSz →
        (unpackMsg maxMsgSz sbnBuf stack msg).ok = false ∧ n = 0) := by
  refine ⟨copiedSize maxMsgSz (ofBe (copyOut sbnBuf 0 2)), copiedSize_le _ _, ?_, ?_⟩
  · rw [unpackMsg_eq]
    rfl
  · rw [unpackMsg_eq]
    intro hbad
    have hbad' : (ofBe (copyOut sbnBuf 0 2) : BitVec 16).toInt < 0 ∨
      (ofBe (copyOut sbnBuf 0 2) : BitVec 16).toInt > maxMsgSz := hbad
    exact ⟨by rw [decide_eq_true hbad']; rfl, if_pos hbad'⟩

/-- Nothing behind the largest packed message is read. -/
theorem unpackMsg_congr (maxMsgSz : Nat) {sbnBuf sbnBuf' : Memory} (stack msg : Memory)
    (h : SameOn sbnBuf sbnBuf' 0 (SBN_PACKED_HDR_SZ + maxMsgSz)) :
    unpackMsg maxMsgSz sbnBuf stack msg = unpackMsg maxMsgSz sbnBuf' stack msg := by
  have hfields (a n : Nat) (ha : a + n ≤ SBN_PACKED_HDR_SZ) :
      copyOut sbnBuf a n = copyOut sbnBuf' a n :=
    copyOut_congr (h.mono (Nat.zero_le _) (by omega))
  rw [unpackMsg_eq, unpackMsg_eq, headerOf, headerOf, hfields 0 2 (by decide),
    hfields 2 1 (by decide), hfields 3 4 (by decide), hfields 7 4 (by decide)]
  congr 1
  refine copyIn_congr fun k hk => h _ (Nat.zero_le _) ?_
  have hle := copiedSize_le maxMsgSz (ofBe (copyOut sbnBuf' 0 2))
  omega

/-- Framing round-trips, and the payload is bounded for every content of the buffer. -/
theorem message_framing (maxMsgSz : Nat) :
    (∀ (payload : List Octet) (data : Option Memory), payload.length ≤ min 32767 maxMsgSz →
      payloadOf data payload.length = payload →
      ∀ (msgType : Octet) (processorId spacecraftId : BitVec 32) (older stack msg : Memory),
        unpackMsg maxMsgSz (received
          (packMsg (BitVec.ofNat 16 payload.length) msgType processorId spacecraftId data) older)
          stack msg = ⟨true, BitVec.ofNat 16 payload.length, msgType, processorId, spacecraftId,
            copyIn msg 0 payload.length fun k => payload.getD k 0⟩) ∧
    (∀ sbnBuf stack msg : Memory,
      ∃ n ≤ maxMsgSz, (unpackMsg maxMsgSz sbnBuf stack msg).msg =
          copyIn msg 0 n (fun k => sbnBuf (SBN_PACKED_HDR_SZ + k)) ∧
        ((unpackMsg maxMsgSz sbnBuf stack msg).msgSz.toInt < 0 ∨
          (unpackMsg maxMsgSz sbnBuf stack msg).msgSz.toInt > maxMsgSz →
          (unpackMsg maxMsgSz sbnBuf stack msg).ok = false ∧ n = 0)) ∧
    (∀ sbnBuf sbnBuf' stack msg : Memory, SameOn sbnBuf sbnBuf' 0 (SBN_PACKED_HDR_SZ + maxMsgSz) →
      unpackMsg maxMsgSz sbnBuf stack msg = unpackMsg maxMsgSz sbnBuf' stack msg) :=
  ⟨fun _ _ hlimit hdata => unpackMsg_packMsg hlimit hdata,
    fun sbnBuf stack msg => unpackMsg_bounds maxMsgSz sbnBuf stack msg,
    fun _ _ stack msg h => unpackMsg_congr maxMsgSz stack msg h⟩

/-- Three octets from node 1 of spacecraft 66, with other octets behind them. -/
theorem message_framing_three :
    unpackMsg 32768 (received (packMsg 3 0x03 1 66 (some fun i => BitVec.ofNat 8 i))
      (fun _ => 0xFF)) (fun _ => 0) (fun _ => 0) =
      ⟨true, 3, 0x03, 1, 66, copyIn (fun _ => 0) 0 3 fun k => [0, 1, 2].getD k 0⟩ :=
  (message_framing 32768).1 [0, 1, 2] (some fun i => BitVec.ofNat 8 i) (by decide) (by decide)
    0x03 1 66 (fun _ => 0xFF) (fun _ => 0) (fun _ => 0)

end Nos3.Sbn
