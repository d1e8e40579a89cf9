import Nos3.Sdls.Source.TcState
import Nos3.Sdls.Source.KeyManagement

/-!
# What a list reply carries

The reply goes out as long as its packet header says. That counts a PUS header
whether there is one or not, and it goes on beyond 256 octets, where the place the
entries are written to starts over at the header.
-/
namespace Nos3.Sdls
open Nos3.Base
open Nos3.Base.BigEndian (Octet)
open Nos3.Base.FixedArray
open Nos3.Base.Program

/-! ## Complete replies -/

/-- The headers in front of the data. -/
def replyHeaderSize (config : Config) : Nat :=
  CCSDS_HDR_SIZE + (if config.hasPusHdr then ECSS_PUS_SIZE else 0) + SDLS_TLV_HDR_SIZE

def inventoryEntries (ring : KeyRing) (ids : List Nat) : List Octet :=
  ids.flatMap fun x => wordOctets (BitVec.ofNat 16 x) ++ [(ring x).keyState.setWidth 8]

/-- The ids a key inventory asks for. -/
def inventoryIds (frame : SdlsFrame) : List Nat :=
  List.range' frame.kidFirst (frame.kidLast + 1 - frame.kidFirst)

/-- The data of the reply: the number of keys and the keys, or the log entries. -/
def replyPdu (store : KeyStore) (frame : SdlsFrame) : ReplyProcedure → List Octet
  | .keyInventory => wordOctets (BitVec.ofNat 16 (inventoryIds frame).length) ++
      inventoryEntries store.ring (inventoryIds frame)
  | .mcDump => dumpReply store.log

/-- Every entry stands in the reply, once and in order, the packet length is that of
all octets written, and all of them can be fetched. -/
structure ReplyDelivered (config : Config) (pdu : List Octet) (s : EpState) : Prop where
  entries : FileImage.window s.reply.cells (replyHeaderSize config) pdu.length = pdu
  packetLength : s.frame.hdr.pktLength.toNat + 1 = replyHeaderSize config + pdu.length
  lengthFields : FileImage.window s.reply.cells 4 2 = wordOctets s.frame.hdr.pktLength ∧
    FileImage.window s.reply.cells (replyHeaderSize config - 2) 2 =
      wordOctets s.frame.tlvPdu.hdr.pduLen
  returned : getSdlsEpReply s =
    .ok (s.reply.cells.take (replyHeaderSize config + pdu.length))

/-- And the TLV length is that of the data. -/
structure ReplyComplete (config : Config) (pdu : List Octet) (s : EpState) : Prop
    extends ReplyDelivered config pdu s where
  tlvLength : s.frame.tlvPdu.hdr.pduLen.toNat = 8 * pdu.length

/-- The array `mc_log` with its count. -/
structure LogWhole (log : MonitorLog) : Prop where
  size : log.blk.length = LOG_SIZE
  values : ∀ blk ∈ log.blk, blk.emv.length = EMV_SIZE
  count : log.logCount.toNat ≤ LOG_SIZE

/-- A range of keys that are there, or a log. -/
def Listed (store : KeyStore) (frame : SdlsFrame) : ReplyProcedure → Prop
  | .keyInventory => frame.kidFirst ≤ frame.kidLast ∧ frame.kidLast < NUM_KEYS
  | .mcDump => LogWhole store.log

/-! ## The octets written -/

variable {config : Config} {store : KeyStore} {frame : SdlsFrame}

theorem EpState.write_append (s : EpState) (count : BitVec 8) (front back : List Octet) :
    s.write count (front ++ back) = (s.write count front).1.write (s.write count front).2 back := by
  simp only [EpState.write, Buffer.putAll_append]

@[simp] theorem replyHeader_length (config : Config) (frame : SdlsFrame) :
    (replyHeader config frame).length = replyHeaderSize config := by
  cases hpus : config.hasPusHdr <;> simp [replyHeader, replyHeaderSize, hpus, sppOctets, pusOctets,
    tlvOctets, wordOctets, CCSDS_HDR_SIZE, ECSS_PUS_SIZE, SDLS_TLV_HDR_SIZE]

theorem inventoryEntries_cons (ring : KeyRing) (x : Nat) (rest : List Nat) :
    inventoryEntries ring (x :: rest) = wordOctets (BitVec.ofNat 16 x) ++
      [(ring x).keyState.setWidth 8] ++ inventoryEntries ring rest :=
  List.flatMap_cons

/-- The loop writes the entries of all keys. -/
theorem inventoryKeys_run {ids : List Nat} (hids : ∀ x ∈ ids, x < NUM_KEYS) (count : BitVec 8)
    (s : EpState) :
    inventoryKeys store count ids s =
      (.ok (), (s.write count (inventoryEntries store.ring ids)).1) := by
  induction ids generalizing count s with
  | nil => rfl
  | cons x rest ih =>
    have hkey : getKey store x = .ok (store.ring x) := if_pos (hids x (by simp))
    rw [inventoryKeys, get_bind]
    dsimp only
    rw [modify_bind, lift_bind hkey, modify_bind, ih fun y hy => hids y (by simp [hy])]
    rw [inventoryEntries_cons, s.write_append, s.write_append]

/-- The lengths a reply is sent with. -/
def replyLengths (frame : SdlsFrame) (store : KeyStore) : ReplyProcedure → BitVec 16 × BitVec 16
  | .keyInventory =>
    let range := BitVec.ofNat 16 frame.kidLast - BitVec.ofNat 16 frame.kidFirst + 1
    let pduLen := BitVec.ofNat 16 (SDLS_KEY_INVENTORY_RPLY_SIZE * range.toNat * 8)
    (pduLen, BitVec.ofNat 16 (REPLY_HDR_SIZE + pduLen.toNat / 8 - 1 + 2))
  | .mcDump =>
    let pduLen := BitVec.ofNat 16 (SDLS_MC_DUMP_RPLY_SIZE * store.log.logCount.toNat * 8)
    (pduLen, BitVec.ofNat 16 (REPLY_HDR_SIZE + pduLen.toNat / 8 - 1))

/-- `sdls_frame` with the header of the reply. -/
def replyFrame (frame : SdlsFrame) (store : KeyStore) (procedure : ReplyProcedure) : SdlsFrame :=
  (frame.setLengths (replyLengths frame store procedure).1
    (replyLengths frame store procedure).2).prepared CRYPTOLIB_APPID

theorem kidRange_eq (h : frame.kidFirst ≤ frame.kidLast ∧ frame.kidLast < NUM_KEYS) :
    BitVec.ofNat 16 frame.kidLast - BitVec.ofNat 16 frame.kidFirst + 1 =
      BitVec.ofNat 16 (inventoryIds frame).length := by
  obtain ⟨hle, hlast⟩ := h
  rw [NUM_KEYS] at hlast
  rw [inventoryIds, List.length_range']
  bv_omega

/-- The header and the data, one after the other. -/
theorem replyTo_run {procedure : ReplyProcedure} (h : Listed store frame procedure)
    (reply : Buffer Octet TC_MAX_FRAME_SIZE) :
    replyTo config store procedure ⟨frame, reply⟩ =
      (.ok (), ⟨(replyFrame frame store procedure).setTlvType 0,
        (reply.putAll (0 : BitVec 8)
          (replyHeader config (replyFrame frame store procedure) ++
            replyPdu store frame procedure)).1⟩) := by
  cases procedure with
  | keyInventory =>
    have hids : ∀ x ∈ inventoryIds frame, x < NUM_KEYS := by
      intro x hx
      obtain ⟨hle, hlast⟩ := h
      rw [inventoryIds, List.mem_range'_1] at hx
      omega
    rw [replyTo, keyInventory, get_bind]
    dsimp only
    rw [modify_bind, ← inventoryIds, inventoryKeys_run hids, kidRange_eq h, replyPdu,
      ← EpState.write_append, Buffer.putAll_append]
    simp only [replyFrame, replyLengths, kidRange_eq h]
    rfl
  | mcDump =>
    rw [Buffer.putAll_append]
    rfl

/-! ## The lengths -/

theorem inventoryEntries_length (ring : KeyRing) (ids : List Nat) :
    (inventoryEntries ring ids).length = SDLS_KEY_INVENTORY_RPLY_SIZE * ids.length := by
  induction ids with
  | nil => rfl
  | cons x rest ih =>
    rw [inventoryEntries_cons, List.length_append, ih, List.length_cons]
    simp only [List.length_append, wordOctets, List.length_cons, List.length_nil,
      SDLS_KEY_INVENTORY_RPLY_SIZE]
    omega

theorem dumpReply_length {log : MonitorLog} (h : LogWhole log) :
    (dumpReply log).length = SDLS_MC_DUMP_RPLY_SIZE * log.logCount.toNat := by
  have hcount := h.count
  have hblocks : ∀ blk ∈ log.blk.take log.logCount.toNat,
      ([blk.emt, (blk.emLen >>> 8).setWidth 8, blk.emLen.setWidth 8] ++ blk.emv).length =
        SDLS_MC_DUMP_RPLY_SIZE := by
    intro blk hblk
    rw [List.length_append, h.values blk (List.mem_of_mem_take hblk)]
    rfl
  rw [dumpReply, List.length_flatMap, List.map_congr_left hblocks, List.map_const',
    List.sum_replicate_nat, List.length_take, h.size, Nat.min_eq_left hcount, Nat.mul_comm]

/-- The octets in the data that the TLV length does not count. -/
def ReplyProcedure.uncounted : ReplyProcedure → Nat
  | .keyInventory => 2
  | .mcDump => 0

/-- The packet length counts a PUS header and the data, the TLV length leaves out the
number of keys. -/
theorem replyLengths_eq {procedure : ReplyProcedure} (h : Listed store frame procedure) :
    (replyLengths frame store procedure).2.toNat + 1 =
        REPLY_HDR_SIZE + (replyPdu store frame procedure).length ∧
      (replyLengths frame store procedure).1.toNat + 8 * procedure.uncounted =
        8 * (replyPdu store frame procedure).length := by
  have hheader : REPLY_HDR_SIZE = 13 := rfl
  cases procedure with
  | keyInventory =>
    have hmany : (inventoryIds frame).length ≤ 256 := by
      obtain ⟨hle, hlast⟩ := h
      rw [NUM_KEYS] at hlast
      rw [inventoryIds, List.length_range']
      omega
    simp only [replyLengths, kidRange_eq h, replyPdu, List.length_append, inventoryEntries_length,
      SDLS_KEY_INVENTORY_RPLY_SIZE, ReplyProcedure.uncounted, wordOctets, List.length_cons,
      List.length_nil, BitVec.toNat_ofNat]
    rw [Nat.mod_eq_of_lt (show (inventoryIds frame).length < 2 ^ 16 by omega),
      Nat.mod_eq_of_lt (show 3 * (inventoryIds frame).length * 8 < 2 ^ 16 by omega),
      Nat.mod_eq_of_lt (by omega)]
    omega
  | mcDump =>
    have hmany := h.count
    rw [LOG_SIZE] at hmany
    simp only [replyLengths, replyPdu, dumpReply_length h, SDLS_MC_DUMP_RPLY_SIZE,
      ReplyProcedure.uncounted, BitVec.toNat_ofNat]
    rw [Nat.mod_eq_of_lt (show 7 * store.log.logCount.toNat * 8 < 2 ^ 16 by omega),
      Nat.mod_eq_of_lt (by omega)]
    omega

/-! ## What is delivered -/

/-- The state a reply leaves. -/
def replied (config : Config) (store : KeyStore) (frame : SdlsFrame) (procedure : ReplyProcedure)
    (reply : Buffer Octet TC_MAX_FRAME_SIZE) : EpState :=
  ⟨(replyFrame frame store procedure).setTlvType 0,
    (reply.putAll (0 : BitVec 8) (replyHeader config (replyFrame frame store procedure) ++
      replyPdu store frame procedure)).1⟩

/-- The lengths stand in the header as they stand in `sdls_frame`. -/
theorem replyHeader_lengths (config : Config) (frame : SdlsFrame) (back : List Octet) :
    FileImage.window (replyHeader config frame ++ back) 4 2 = wordOctets frame.hdr.pktLength ∧
      FileImage.window (replyHeader config frame ++ back) (replyHeaderSize config - 2) 2 =
        wordOctets frame.tlvPdu.hdr.pduLen := by
  cases hpus : config.hasPusHdr <;>
    simp [FileImage.window, replyHeader, replyHeaderSize, hpus, sppOctets, pusOctets, tlvOctets,
      wordOctets, CCSDS_HDR_SIZE, ECSS_PUS_SIZE, SDLS_TLV_HDR_SIZE]

section Replied
variable {procedure : ReplyProcedure} (h : Listed store frame procedure)
include h

theorem delivered_of_fits (hpus : config.hasPusHdr = true)
    (hfits : REPLY_HDR_SIZE + (replyPdu store frame procedure).length ≤ 2 ^ 8)
    (reply : Buffer Octet TC_MAX_FRAME_SIZE) :
    ReplyDelivered config (replyPdu store frame procedure)
      (replied config store frame procedure reply) := by
  have hpacket := (replyLengths_eq h).1
  have hsize : replyHeaderSize config = REPLY_HDR_SIZE := by rw [replyHeaderSize, hpus]; rfl
  have hroom : REPLY_HDR_SIZE + (replyPdu store frame procedure).length ≤ TC_MAX_FRAME_SIZE :=
    Nat.le_trans hfits (by decide)
  have hcells : (replied config store frame procedure reply).reply.cells =
      replyHeader config (replyFrame frame store procedure) ++
        (replyPdu store frame procedure ++
          reply.cells.drop (REPLY_HDR_SIZE + (replyPdu store frame procedure).length)) := by
    rw [replied, Buffer.putAll_fits _ _ (by simpa [hsize] using hfits)
      (by simpa [hsize] using hroom)]
    simp [patch, hsize]
  have hlength : (replied config store frame procedure reply).frame.hdr.pktLength.toNat + 1 =
      REPLY_HDR_SIZE + (replyPdu store frame procedure).length :=
    hpacket
  refine ⟨?_, by rw [hsize, hlength], ?_, ?_⟩
  · rw [hcells, FileImage.window, List.drop_left' (replyHeader_length _ _), List.take_left' rfl]
  · rw [hcells]
    exact replyHeader_lengths _ _ _
  · have hnext : ((replied config store frame procedure reply).frame.hdr.pktLength + 1).toNat =
        REPLY_HDR_SIZE + (replyPdu store frame procedure).length := by
      have hone : (1 : BitVec 16).toNat = 1 := rfl
      rw [BitVec.toNat_add, hone, hlength]
      exact Nat.mod_eq_of_lt (Nat.lt_of_le_of_lt hfits (by decide))
    rw [getSdlsEpReply, hnext, if_neg (Nat.not_lt.mpr hroom), hsize]

omit h in
/-- An entry beyond the 256th octet of the packet stays what the buffer held. -/
theorem replied_beyond (reply : Buffer Octet TC_MAX_FRAME_SIZE) {i : Nat}
    (hplace : 2 ^ 8 ≤ replyHeaderSize config + i)
    (hi : i < (replyPdu store frame procedure).length) :
    (FileImage.window (replied config store frame procedure reply).reply.cells
      (replyHeaderSize config) (replyPdu store frame procedure).length)[i]? =
      reply.cells[replyHeaderSize config + i]? := by
  rw [FileImage.window, List.getElem?_take, if_pos hi, List.getElem?_drop, replied,
    Buffer.putAll_beyond _ _ _ hplace]

theorem fits_of_delivered (hdelivered : ∀ reply, ReplyDelivered config
    (replyPdu store frame procedure) (replied config store frame procedure reply)) :
    config.hasPusHdr = true ∧ REPLY_HDR_SIZE + (replyPdu store frame procedure).length ≤ 2 ^ 8 := by
  have hsize : replyHeaderSize config = REPLY_HDR_SIZE := by
    have hlength := (hdelivered (.replicate _ 0)).packetLength
    have hpacket := (replyLengths_eq h).1
    change (replyLengths frame store procedure).2.toNat + 1 = _ at hlength
    omega
  have hpus : config.hasPusHdr = true := by
    by_contra hnone
    rw [replyHeaderSize, if_neg hnone] at hsize
    revert hsize
    decide
  refine ⟨hpus, ?_⟩
  by_contra hlong
  have hplace : replyHeaderSize config + (2 ^ 8 - REPLY_HDR_SIZE) = 2 ^ 8 := by rw [hsize]; rfl
  have hbeyond : 2 ^ 8 - REPLY_HDR_SIZE < (replyPdu store frame procedure).length := by omega
  obtain ⟨octet, hoctet⟩ :
      ∃ octet, (replyPdu store frame procedure)[2 ^ 8 - REPLY_HDR_SIZE]? = some octet :=
    ⟨_, List.getElem?_eq_getElem hbeyond⟩
  have hcell := congrArg (·[2 ^ 8 - REPLY_HDR_SIZE]?)
    (hdelivered (.replicate _ (octet + 1))).entries
  rw [replied_beyond _ (Nat.le_of_eq hplace.symm) hbeyond, hplace, hoctet, Buffer.replicate,
    List.getElem?_replicate_of_lt (by decide)] at hcell
  have hsame := Option.some.inj hcell
  bv_omega

end Replied

/-- An inventory or a dump is delivered exactly when headers and data fit into 256 octets. -/
theorem replies_delivered_iff {procedure : ReplyProcedure} (h : Listed store frame procedure) :
    (∀ reply, ReplyDelivered config (replyPdu store frame procedure)
        (replied config store frame procedure reply)) ↔
      config.hasPusHdr = true ∧
        REPLY_HDR_SIZE + (replyPdu store frame procedure).length ≤ 2 ^ 8 :=
  ⟨fits_of_delivered h, fun hfits => delivered_of_fits h hfits.1 hfits.2⟩

/-- Whatever the reply buffer held, the reply of a procedure is complete with its
lengths if and only if it is a dump of at most 34 entries with a PUS header. -/
theorem replies_complete_iff {procedure : ReplyProcedure} (h : Listed store frame procedure) :
    (∀ reply, ∃ s', replyTo config store procedure ⟨frame, reply⟩ = (.ok (), s') ∧
        ReplyComplete config (replyPdu store frame procedure) s') ↔
      config.hasPusHdr = true ∧ procedure = .mcDump ∧ store.log.logCount.toNat ≤ 34 := by
  have hrun : ∀ reply, (∃ s', replyTo config store procedure ⟨frame, reply⟩ = (.ok (), s') ∧
      ReplyComplete config (replyPdu store frame procedure) s') ↔
      ReplyComplete config (replyPdu store frame procedure)
        (replied config store frame procedure reply) := by
    intro reply
    rw [replyTo_run h]
    exact ⟨fun ⟨_, hsame, hcomplete⟩ => by cases hsame; exact hcomplete, fun hcomplete =>
      ⟨_, rfl, hcomplete⟩⟩
  have htlv := (replyLengths_eq h).2
  have hcount : ∀ reply, (replied config store frame procedure reply).frame.tlvPdu.hdr.pduLen =
      (replyLengths frame store procedure).1 := fun _ => rfl
  simp only [hrun]
  constructor
  · intro hcomplete
    obtain ⟨hpus, hfits⟩ := (replies_delivered_iff h).mp fun reply =>
      (hcomplete reply).toReplyDelivered
    have hlength := (hcomplete (.replicate _ 0)).tlvLength
    rw [hcount] at hlength
    cases procedure with
    | keyInventory =>
      rw [ReplyProcedure.uncounted] at htlv
      omega
    | mcDump =>
      refine ⟨hpus, rfl, ?_⟩
      have hthirteen : REPLY_HDR_SIZE = 13 := rfl
      rw [replyPdu, dumpReply_length h, SDLS_MC_DUMP_RPLY_SIZE, hthirteen] at hfits
      omega
  · rintro ⟨hpus, rfl, hfew⟩ reply
    refine ⟨(replies_delivered_iff h).mpr ⟨hpus, ?_⟩ reply, ?_⟩
    · rw [replyPdu, dumpReply_length h, SDLS_MC_DUMP_RPLY_SIZE, REPLY_HDR_SIZE, CCSDS_HDR_SIZE,
        ECSS_PUS_SIZE, SDLS_TLV_HDR_SIZE]
      omega
    · rw [hcount]
      exact htlv

/-! ## Logs of errors -/

/-- A log with the given number of error entries. -/
def errorLog (logCount : Fin 51) : MonitorLog where
  numSe := BitVec.ofNat 16 logCount
  rs := BitVec.ofNat 16 (LOG_SIZE - logCount)
  logCount := BitVec.ofNat 8 logCount
  blk := List.replicate LOG_SIZE (eventBlock MKID_STATE_ERR_EID)

theorem errorLog_whole (logCount : Fin 51) : LogWhole (errorLog logCount) := by
  refine ⟨rfl, ?_, ?_⟩
  · intro blk hblk
    rw [List.eq_of_mem_replicate hblk]
    rfl
  · have hcount := logCount.isLt
    simp only [errorLog, BitVec.toNat_ofNat, LOG_SIZE]
    omega

def errorStore (logCount : Fin 51) : KeyStore := ⟨fun _ => ⟨[], 0, 0⟩, errorLog logCount, false⟩

/-- A command for the log. -/
def dumpCommand : SdlsFrame where
  hdr := ⟨0, 1, 1, 0x180, 3, 0, 12⟩
  pus := ⟨0, 1, 0, 0x80, 0, 0, 0⟩
  tlvPdu := ⟨⟨0, 0, 3, 3, 0⟩, .replicate TLV_DATA_SIZE 0⟩

theorem errorLog_listed (logCount : Fin 51) : Listed (errorStore logCount) dumpCommand .mcDump :=
  errorLog_whole logCount

theorem two_entries_dumped :
    ∃ s', replyTo { scConfig with hasPusHdr := true } (errorStore 2) .mcDump
        ⟨dumpCommand, .replicate _ 0⟩ = (.ok (), s') ∧
      ReplyComplete { scConfig with hasPusHdr := true }
        (replyPdu (errorStore 2) dumpCommand .mcDump) s' :=
  (replies_complete_iff (errorLog_listed 2)).mpr ⟨rfl, rfl, by decide⟩ (.replicate _ 0)

/-- The last two octets of 35 entries stand at the start of the packet header, and the
octets sent in their place were never written. -/
theorem thirty_five_entries_overrun :
    ∃ s', replyTo { scConfig with hasPusHdr := true } (errorStore 35) .mcDump
        ⟨dumpCommand, .replicate _ 0⟩ = (.ok (), s') ∧
      (∃ packet, getSdlsEpReply s' = .ok packet ∧ packet.length = 258 ∧
        packet.take 2 = [0x53, 0x41] ∧ packet.drop 256 = [0x00, 0x00]) ∧
      ¬ReplyComplete { scConfig with hasPusHdr := true }
        (replyPdu (errorStore 35) dumpCommand .mcDump) s' := by
  refine ⟨_, replyTo_run (errorLog_listed 35) _, ⟨_, rfl, ?_⟩, fun hcomplete => ?_⟩
  · decide +kernel
  · have hlength : (replyPdu (errorStore 35) dumpCommand .mcDump).length = 245 := by decide +kernel
    have hentries : FileImage.window (replied { scConfig with hasPusHdr := true } (errorStore 35)
        dumpCommand .mcDump (.replicate _ 0)).reply.cells _ _ = _ :=
      hcomplete.entries
    have hcell := congrArg (·[243]?) hentries
    rw [replied_beyond _ (by decide) (by omega)] at hcell
    revert hcell
    decide +kernel

end Nos3.Sdls
