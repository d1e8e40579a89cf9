import Nos3.Base.Transition
import Nos3.Sdls.Guarantees.AntiReplay
import Nos3.Sdls.Source.ApplyRules
import Nos3.Sdls.Source.TcProcess

/-!
# Sender and receiver keep their counters together

Two associations and the frames between them, some lost. The sender puts the low
octets of its counters into a frame and counts on; the receiver fills in the rest
from what it stored and checks the result. The invariant is that the sender's
counter lies the lost frames and one more ahead of the receiver's.
-/
namespace Nos3.Sdls
open Nos3.Base
open Nos3.Base.BigEndian (Octet)
open Nos3.Base.Counter
open Nos3.Base.FixedArray
open Nos3.Base.Program
open Nos3.Base.Transition

/-! ## The link -/

/-- The fields of the security header that carry the counters, and the association
with its counters counted on. -/
def sendCounters (config : Config) (sa : SecurityAssociation) :
    Except Error (ReceivedCounters × SecurityAssociation) := do
  let iv ← octetsAt sa.iv.cells (sa.ivLen - sa.shivfLen) sa.shivfLen
  let sn ← octetsAt sa.arsn.cells (sa.arsnLen - sa.shsnfLen) sa.shsnfLen
  let sa ← incrementIvArsn config sa
  return (⟨sn, iv⟩, sa)

/-- The counters of a processed frame: the received octets, then the rest of each. The
fields of the caller's frame may hold anything before. -/
def fillCounters (config : Config) (sa : SecurityAssociation) (iv : Buffer Octet IV_SIZE)
    (sn : Buffer Octet SN_SIZE) (octets : ReceivedCounters) :
    Except Error (Buffer Octet SN_SIZE × Buffer Octet IV_SIZE) := do
  let iv ← copyInto iv (sa.ivLen - sa.shivfLen) octets.iv
  let iv ← nontransmittedIvIncrement config sa iv
  let sn ← copyInto sn (sa.arsnLen - sa.shsnfLen) octets.arsn
  let sn ← nontransmittedSnIncrement config sa sn
  return (sn, iv)

/-- Both counters in full, when the frame is accepted. -/
def receiveCounters (config : Config) (sa : SecurityAssociation) (iv : Buffer Octet IV_SIZE)
    (sn : Buffer Octet SN_SIZE) (octets : ReceivedCounters) :
    Except Error ReceivedCounters × SecurityAssociation :=
  match fillCounters config sa iv sn octets with
  | .error code => (.error code, sa)
  | .ok (sn, iv) =>
    match checkAntiReplay config sa sn.cells iv.cells with
    | (.error code, sa) => (.error code, sa)
    | (.ok (), sa) => (.ok ⟨sn.cells.take sa.arsnLen, iv.cells.take sa.ivLen⟩, sa)

/-- The counters as the association stores them. -/
def SecurityAssociation.counters (sa : SecurityAssociation) : ReceivedCounters :=
  ⟨CounterField.arsn.stored sa, CounterField.iv.stored sa⟩

structure Delivery where
  used : ReceivedCounters
  outcome : Except Error ReceivedCounters
  deriving DecidableEq

structure Link where
  sender : SecurityAssociation
  receiver : SecurityAssociation
  /-- frames lost since the last one that was delivered -/
  lost : Nat
  delivered : List Delivery

inductive Passage where
  | deliver (iv : Buffer Octet IV_SIZE) (sn : Buffer Octet SN_SIZE)
  | lose

structure SameLengths (sender receiver : SecurityAssociation) : Prop where
  ivLen : sender.ivLen = receiver.ivLen
  shivfLen : sender.shivfLen = receiver.shivfLen
  arsnLen : sender.arsnLen = receiver.arsnLen
  shsnfLen : sender.shsnfLen = receiver.shsnfLen

def CounterField.transmitted (sa : SecurityAssociation) : CounterField → Nat
  | .iv => sa.shivfLen
  | .arsn => sa.shsnfLen

/-- One behind, or both zero. -/
def CounterField.StartsTogether (sender receiver : SecurityAssociation) (field : CounterField) :
    Prop :=
  increment (field.stored receiver) = field.stored sender ∨
    (AllZero (field.stored sender) ∧ AllZero (field.stored receiver))

instance (sender receiver : SecurityAssociation) (field : CounterField) :
    Decidable (field.StartsTogether sender receiver) :=
  inferInstanceAs (Decidable (_ ∨ _ ∧ _))

/-- What the two ends agree on: lengths that the validation of an association accepts,
and a window that the transmitted part of each counter can tell apart. -/
structure Linked (sender receiver : SecurityAssociation) : Prop where
  lengths : SameLengths sender receiver
  valid : ∀ field : CounterField, field.transmitted receiver ≤ field.length receiver
  window : 0 < (receiver.arsnw : Nat)
  distinguished : ∀ field : CounterField, 0 < field.length receiver →
    (receiver.arsnw : Nat) ≤ 256 ^ field.transmitted receiver

/-- Fewer frames than the window are lost in a row. -/
def linkMachine (config : Config) : Machine Link Passage where
  start s := config.ignoreAntiReplay = false ∧ Linked s.sender s.receiver ∧
    (∀ field : CounterField, field.StartsTogether s.sender s.receiver) ∧
    s.lost = 0 ∧ s.delivered = []
  next s passage :=
    match sendCounters config s.sender, passage with
    | .error _, _ => none
    | .ok (_, sender), .lose =>
      if s.lost + 1 < s.receiver.arsnw then some { s with sender := sender, lost := s.lost + 1 }
      else none
    | .ok (octets, sender), .deliver iv sn =>
      let (outcome, receiver) := receiveCounters config s.receiver iv sn octets
      some ⟨sender, receiver, 0, s.delivered ++ [⟨s.sender.counters, outcome⟩]⟩

/-- Every delivered frame was accepted with the counters the sender used. -/
def CountersAgree (s : Link) : Prop :=
  ∀ delivery ∈ s.delivered, delivery.outcome = .ok delivery.used

/-! ## The link and the two functions -/

/-- The fields are those of the frame that is built. -/
theorem sendCounters_octets {config : Config} {sa sa' : SecurityAssociation}
    {octets : ReceivedCounters} (htype : config.ivType = .internal)
    (h : sendCounters config sa = .ok (octets, sa')) :
    octets = ⟨transmittedSn sa, transmittedIv config sa⟩ ∧ incrementIvArsn config sa = .ok sa' := by
  obtain ⟨iv, hiv, h⟩ := bind_eq_ok.mp h
  obtain ⟨sn, hsn, h⟩ := bind_eq_ok.mp h
  obtain ⟨_, hcounts, h⟩ := bind_eq_ok.mp h
  cases h
  obtain ⟨-, rfl⟩ := octetsAt_window hiv
  obtain ⟨-, rfl⟩ := octetsAt_window hsn
  refine ⟨?_, hcounts⟩
  rw [transmittedIv, htype]
  rfl

/-- Parsing the security header fills the counters of the frame. -/
theorem parseSecurityHeader_fills {config : Config} {sa : SecurityAssociation}
    {current : ManagedParameters} {ingest : List Octet} {s s' : TcState}
    (h : parseSecurityHeader config sa current ingest s = (.ok (), s')) :
    ∃ octets : ReceivedCounters,
      frameAt ingest (TC_FRAME_HEADER_SIZE + current.segmentHdrLen + SPI_LEN) sa.shivfLen =
        .ok octets.iv ∧
      frameAt ingest (TC_FRAME_HEADER_SIZE + current.segmentHdrLen + SPI_LEN + sa.shivfLen)
        sa.shsnfLen = .ok octets.arsn ∧
      fillCounters config sa s.frame.iv s.frame.sn octets = .ok (s'.frame.sn, s'.frame.iv) := by
  unfold parseSecurityHeader at h
  rw [get_bind] at h
  obtain ⟨iv, hiv, h⟩ := lift_bind_ok.mp h
  obtain ⟨placedIv, hplacedIv, h⟩ := lift_bind_ok.mp h
  rw [modify_bind] at h
  obtain ⟨filledIv, hfilledIv, h⟩ := lift_bind_ok.mp h
  rw [modify_bind] at h
  obtain ⟨sn, hsn, h⟩ := lift_bind_ok.mp h
  obtain ⟨placedSn, hplacedSn, h⟩ := lift_bind_ok.mp h
  rw [modify_bind] at h
  obtain ⟨filledSn, hfilledSn, h⟩ := lift_bind_ok.mp h
  rw [modify_bind] at h
  obtain ⟨octets, -, h⟩ := lift_bind_ok.mp h
  obtain ⟨pad, -, h⟩ := lift_bind_ok.mp h
  cases h
  refine ⟨⟨sn, iv⟩, hiv, hsn, ?_⟩
  simp only [fillCounters, hplacedIv, hfilledIv, hplacedSn, hfilledSn, bind, Except.bind, pure,
    Except.pure]
  rfl

/-! ## When they keep together -/

/-- The receiver checks and stores what it compares, or needs nothing stored. -/
def CounterField.Followed (config : Config) (sa : SecurityAssociation) : CounterField → Prop
  | .iv => (sa.ivLen : Nat) ≤ IV_SIZE ∧
      if sa.ecs = .aes256Gcm then
        0 < (sa.ivLen : Nat) → 0 < (sa.shivfLen : Nat) ∧
          (config.incrementNontransmittedIv = true ∨ sa.shivfLen = (sa.ivLen : Nat)) ∧
          ((sa.arsnLen : Nat) = 0 ∨ 0 < (sa.shsnfLen : Nat))
      else sa.shivfLen = (sa.ivLen : Nat)
  | .arsn => (sa.arsnLen : Nat) ≤ SN_SIZE ∧
      (0 < (sa.shsnfLen : Nat) → sa.ecs.isGcm = true → sa.ecs = .aes256Gcm ∧ 0 < (sa.ivLen : Nat))

instance (config : Config) (sa : SecurityAssociation) :
    (field : CounterField) → Decidable (field.Followed config sa)
  | .iv => inferInstanceAs (Decidable (_ ∧ ite _ _ _))
  | .arsn => inferInstanceAs (Decidable (_ ∧ (_ → _ → _)))

/-- Both counters are zero and the receiver has to fill in a part: the search begins
behind the stored value. -/
def CounterField.ZeroUnfilled (s : Link) (field : CounterField) : Prop :=
  field.transmitted s.receiver < field.length s.receiver ∧
    AllZero (field.stored s.sender) ∧ AllZero (field.stored s.receiver)

instance (s : Link) (field : CounterField) : Decidable (field.ZeroUnfilled s) :=
  inferInstanceAs (Decidable (_ ∧ _ ∧ _))

def KeepsTogether (config : Config) (s : Link) (passage : Passage) : Prop :=
  s.sender.serviceType ≠ .plaintext ∧
    CounterField.iv.Followed config s.receiver ∧ CounterField.arsn.Followed config s.receiver ∧
    match passage with
    | .lose => True
    | .deliver .. => ¬CounterField.iv.ZeroUnfilled s ∧ ¬CounterField.arsn.ZeroUnfilled s

instance (config : Config) (s : Link) : (passage : Passage) →
    Decidable (KeepsTogether config s passage)
  | .lose => inferInstanceAs (Decidable (_ ∧ _ ∧ _ ∧ True))
  | .deliver _ _ => inferInstanceAs (Decidable (_ ∧ _ ∧ _ ∧ ¬_ ∧ ¬_))

/-! ## The sender -/

variable {config : Config} {field : CounterField} {sa sa' : SecurityAssociation}

def CounterField.octets (counters : ReceivedCounters) : CounterField → List Octet
  | .iv => counters.iv
  | .arsn => counters.arsn

/-- The whole counter is counted on, not only its transmitted part. -/
def CounterField.CountsWhole (config : Config) (sa : SecurityAssociation) : CounterField → Prop
  | .iv => config.incrementNontransmittedIv = true ∨ sa.shivfLen = (sa.ivLen : Nat)
  | .arsn => True

structure Sent (config : Config) (sa : SecurityAssociation) (octets : ReceivedCounters)
    (sa' : SecurityAssociation) : Prop where
  same : SameConfiguration sa sa'
  octets : ∀ field : CounterField, field.transmitted sa ≤ field.length sa →
    field.octets octets = (field.stored sa).drop (field.length sa - field.transmitted sa) ∧
      (field.octets octets).length = field.transmitted sa
  counted : ∀ field : CounterField, field.CountsWhole config sa → 0 < field.transmitted sa →
    field.transmitted sa ≤ field.length sa →
    field.stored sa' = increment (field.stored sa)
  kept : ∀ field : CounterField, field.transmitted sa = 0 → field.stored sa' = field.stored sa

theorem low_window {cells : List Octet} {len low : Nat} (h : low ≤ len) :
    FileImage.window cells (len - low) low = (cells.take len).drop (len - low) := by
  rw [FileImage.window, List.drop_take, Nat.sub_sub_self h]

theorem incrementAt_take {n count : Nat} {buffer next : Buffer Octet n}
    (h : incrementAt buffer 0 count = .ok next) :
    next.cells.take count = increment (buffer.cells.take count) :=
  (incrementAt_window h).2

theorem nextIv_whole {iv : Buffer Octet IV_SIZE} (hwhole : CounterField.iv.CountsWhole config sa)
    (hpos : 0 < (sa.shivfLen : Nat)) (hle : (sa.shivfLen : Nat) ≤ sa.ivLen)
    (h : nextIv config sa = .ok iv) :
    iv.cells.take sa.ivLen = increment (sa.iv.cells.take sa.ivLen) := by
  rw [nextIv, if_pos (by simp; omega)] at h
  split at h
  · exact incrementAt_take h
  · rename_i hmode
    have hlen : (sa.shivfLen : Nat) = sa.ivLen := hwhole.resolve_left hmode
    rw [hlen, Nat.sub_self] at h
    exact incrementAt_take h

theorem sendCounters_sent {octets : ReceivedCounters}
    (hservice : sa.serviceType ≠ .plaintext) (h : sendCounters config sa = .ok (octets, sa')) :
    Sent config sa octets sa' := by
  obtain ⟨iv, hiv, h⟩ := bind_eq_ok.mp h
  obtain ⟨sn, hsn, h⟩ := bind_eq_ok.mp h
  obtain ⟨_, hcounts, h⟩ := bind_eq_ok.mp h
  cases h
  obtain ⟨hivLength, rfl⟩ := octetsAt_window hiv
  obtain ⟨hsnLength, rfl⟩ := octetsAt_window hsn
  obtain ⟨hplain, -⟩ | ⟨-, iv, arsn, hnextIv, hnextArsn, rfl⟩ := incrementIvArsn_cases hcounts
  · exact absurd hplain hservice
  · constructor
    · exact ⟨iv, arsn, rfl⟩
    · intro field hle
      cases field with
      | iv => exact ⟨low_window hle, hivLength⟩
      | arsn => exact ⟨low_window hle, hsnLength⟩
    · intro field hwhole hpos hle
      cases field with
      | iv => exact nextIv_whole hwhole hpos hle hnextIv
      | arsn =>
        have hsome : (sa.shsnfLen : Nat) > 0 := hpos
        rw [nextArsn, if_pos hsome] at hnextArsn
        exact incrementAt_take hnextArsn
    · intro field hzero
      cases field with
      | iv =>
        have hnone : (sa.shivfLen : Nat) = 0 := hzero
        rw [nextIv, if_neg (by simp [hnone])] at hnextIv
        cases hnextIv
        rfl
      | arsn =>
        have hnone : (sa.shsnfLen : Nat) = 0 := hzero
        rw [nextArsn, if_neg (by omega)] at hnextArsn
        cases hnextArsn
        rfl

/-! ## The receiver -/

/-- The received counter is one of the next values, or both are zero and nothing has
to be filled in. -/
def CounterField.Expected (sa : SecurityAssociation) (used : List Octet) (field : CounterField) :
    Prop :=
  (field.transmitted sa = field.length sa ∧ AllZero used ∧ AllZero (field.stored sa)) ∨
    ∃ gap : Nat, 0 < gap ∧ gap ≤ (sa.arsnw : Nat) ∧ used = increment^[gap] (field.stored sa)

/-- The received octets at the end of the field. -/
theorem place_octets {n len low : Nat} (buffer : Buffer Octet n) {octets : List Octet}
    (hlen : len ≤ n) (hlow : low ≤ len) (hoctets : octets.length = low) :
    ∃ placed, copyInto buffer (len - low) octets = .ok placed ∧
      FileImage.window placed.cells (len - low) low = octets := by
  have hroom : len - low + octets.length ≤ n := by omega
  obtain ⟨placed, hwrite, hcells⟩ := buffer.exists_write hroom
  refine ⟨placed, by rw [copyInto, hwrite], ?_⟩
  have hback := window_patch_same (hroom.trans_eq buffer.length_cells.symm)
  rwa [← hcells, hoctets] at hback

/-- A counter that is transmitted as a whole is not touched any more. -/
theorem copy_nothing {n : Nat} (len : Nat) (buffer : Buffer Octet n) (source : List Octet) :
    ∃ filled : Buffer Octet n,
      (octetsAt source 0 (len - len) >>= fun octets => copyInto buffer 0 octets) = .ok filled ∧
      filled.cells = buffer.cells := by
  have hroom : 0 + ([] : List Octet).length ≤ n := Nat.zero_le n
  obtain ⟨filled, hwrite, hcells⟩ := buffer.exists_write hroom
  refine ⟨filled, ?_, hcells⟩
  rw [Nat.sub_self, octetsAt_start (Nat.zero_le _)]
  show copyInto buffer 0 [] = _
  rw [copyInto, hwrite]

/-- Either way of filling a field gives the counter the sender used. -/
theorem fill_counter {n len low window : Nat} (buffer : Buffer Octet n)
    {source used : List Octet} (hmax : len ≤ MAX_IV_LEN) (hn : len ≤ n)
    (hsource : len ≤ source.length) (hlow : low ≤ len)
    (hwindow : low < len → window ≤ 256 ^ low) (hused : used.length = len)
    (hexpected : low < len → ∃ gap, 0 < gap ∧ gap ≤ window ∧
      used = increment^[gap] (source.take len)) :
    ∃ placed filled, copyInto buffer (len - low) (used.drop (len - low)) = .ok placed ∧
      (if low < len then handleIncrementingNontransmittedCounter placed source len low window
        else octetsAt source 0 (len - low) >>= fun octets => copyInto placed 0 octets) =
          .ok filled ∧
      filled.cells.take len = used := by
  have hoctets : (used.drop (len - low)).length = low := by
    rw [List.length_drop, hused]
    omega
  obtain ⟨placed, hplaced, hcells⟩ := place_octets buffer hn hlow hoctets
  by_cases hpart : low < len
  · obtain ⟨gap, hpos, hgap, rfl⟩ := hexpected hpart
    obtain ⟨filled, hrun, hfilled⟩ :=
      handle_reconstructs hmax hn hsource hlow hpos hgap (hwindow hpart) hcells
    exact ⟨placed, filled, hplaced, by rwa [if_pos hpart], hfilled⟩
  · obtain rfl : low = len := by omega
    obtain ⟨filled, hrun, hfilled⟩ := copy_nothing low placed source
    refine ⟨placed, filled, hplaced, by rwa [if_neg hpart], ?_⟩
    rw [hfilled]
    simpa [FileImage.window] using hcells

theorem nontransmittedIv_eq (hreplay : config.ignoreAntiReplay = false)
    (hmode : (sa.shivfLen : Nat) < sa.ivLen → config.incrementNontransmittedIv = true)
    (iv : Buffer Octet IV_SIZE) :
    nontransmittedIvIncrement config sa iv =
      if (sa.shivfLen : Nat) < sa.ivLen then
        handleIncrementingNontransmittedCounter iv sa.iv.cells sa.ivLen sa.shivfLen sa.arsnw
      else octetsAt sa.iv.cells 0 (sa.ivLen - sa.shivfLen) >>= fun octets =>
        copyInto iv 0 octets := by
  unfold nontransmittedIvIncrement
  by_cases hpart : (sa.shivfLen : Nat) < sa.ivLen
  · rw [if_pos hpart, hreplay, hmode hpart]
    exact if_pos (by simpa using hpart)
  · rw [if_neg hpart]
    exact if_neg (by simp [hpart])

theorem nontransmittedSn_eq (hreplay : config.ignoreAntiReplay = false)
    (sn : Buffer Octet SN_SIZE) :
    nontransmittedSnIncrement config sa sn =
      if (sa.shsnfLen : Nat) < sa.arsnLen then
        handleIncrementingNontransmittedCounter sn sa.arsn.cells sa.arsnLen sa.shsnfLen sa.arsnw
      else octetsAt sa.arsn.cells 0 (sa.arsnLen - sa.shsnfLen) >>= fun octets =>
        copyInto sn 0 octets := by
  unfold nontransmittedSnIncrement
  by_cases hpart : (sa.shsnfLen : Nat) < sa.arsnLen
  · rw [if_pos hpart, hreplay]
    exact if_pos (by simpa using hpart)
  · rw [if_neg hpart]
    exact if_neg (by simp [hpart])

/-- Everything the receiver relies on for one field. -/
structure Receivable (config : Config) (sa : SecurityAssociation) (used : ReceivedCounters) :
    Prop where
  replay : config.ignoreAntiReplay = false
  followed : ∀ field : CounterField, field.Followed config sa
  valid : ∀ field : CounterField, field.transmitted sa ≤ field.length sa
  distinguished : ∀ field : CounterField, 0 < field.length sa →
    (sa.arsnw : Nat) ≤ 256 ^ field.transmitted sa
  full : ∀ field : CounterField, (field.octets used).length = field.length sa
  iv : sa.ecs = .aes256Gcm → CounterField.iv.Expected sa used.iv
  arsn : CounterField.arsn.Expected sa used.arsn

theorem CounterField.Expected.ahead {used : List Octet} (h : field.Expected sa used)
    (hpart : field.transmitted sa < field.length sa) :
    ∃ gap : Nat, 0 < gap ∧ gap ≤ (sa.arsnw : Nat) ∧ used = increment^[gap] (field.stored sa) := by
  obtain ⟨hwhole, -⟩ | hgap := h
  · omega
  · exact hgap

/-- Only GCM fills in a part of the IV, and in the mode that counts on all of it. -/
theorem CounterField.Followed.part (h : CounterField.iv.Followed config sa)
    (hpart : (sa.shivfLen : Nat) < sa.ivLen) :
    sa.ecs = .aes256Gcm ∧ config.incrementNontransmittedIv = true := by
  obtain ⟨-, hkind⟩ := h
  split at hkind
  · rename_i hgcm
    obtain ⟨-, hmode, -⟩ := hkind (by omega)
    exact ⟨hgcm, hmode.resolve_right (by omega)⟩
  · omega

theorem iv_filled {used : ReceivedCounters} (h : Receivable config sa used)
    (iv : Buffer Octet IV_SIZE) :
    ∃ placed filled,
      copyInto iv (sa.ivLen - sa.shivfLen) (used.iv.drop (sa.ivLen - sa.shivfLen)) = .ok placed ∧
      nontransmittedIvIncrement config sa placed = .ok filled ∧
      filled.cells.take sa.ivLen = used.iv := by
  have hfits : (sa.ivLen : Nat) ≤ 16 := (h.followed .iv).1
  have hvalid : (sa.shivfLen : Nat) ≤ sa.ivLen := h.valid .iv
  have hpart := (h.followed .iv).part
  obtain ⟨placed, filled, hplaced, hrun, hfilled⟩ := fill_counter iv
    (hfits.trans (by decide)) hfits (hfits.trans_eq sa.iv.length_cells.symm) hvalid
    (fun hless => h.distinguished .iv (Nat.zero_lt_of_lt hless)) (h.full .iv)
    fun hless => (h.iv (hpart hless).1).ahead hless
  rw [← nontransmittedIv_eq h.replay fun hless => (hpart hless).2] at hrun
  exact ⟨placed, filled, hplaced, hrun, hfilled⟩

theorem sn_filled {used : ReceivedCounters} (h : Receivable config sa used)
    (sn : Buffer Octet SN_SIZE) :
    ∃ placed filled,
      copyInto sn (sa.arsnLen - sa.shsnfLen) (used.arsn.drop (sa.arsnLen - sa.shsnfLen)) =
        .ok placed ∧
      nontransmittedSnIncrement config sa placed = .ok filled ∧
      filled.cells.take sa.arsnLen = used.arsn := by
  have hfits : (sa.arsnLen : Nat) ≤ 16 := (h.followed .arsn).1
  have hvalid : (sa.shsnfLen : Nat) ≤ sa.arsnLen := h.valid .arsn
  obtain ⟨placed, filled, hplaced, hrun, hfilled⟩ := fill_counter sn
    (hfits.trans (by decide)) hfits
    (hfits.trans ((by decide : 16 ≤ ARSN_SIZE).trans_eq sa.arsn.length_cells.symm)) hvalid
    (fun hless => h.distinguished .arsn (Nat.zero_lt_of_lt hless)) (h.full .arsn)
    fun hless => h.arsn.ahead hless
  rw [← nontransmittedSn_eq h.replay] at hrun
  exact ⟨placed, filled, hplaced, hrun, hfilled⟩

theorem fillCounters_fills {used octets : ReceivedCounters} (h : Receivable config sa used)
    (hoctets : ∀ field : CounterField, field.octets octets =
      (field.octets used).drop (field.length sa - field.transmitted sa))
    (iv : Buffer Octet IV_SIZE) (sn : Buffer Octet SN_SIZE) :
    ∃ filledSn filledIv, fillCounters config sa iv sn octets = .ok (filledSn, filledIv) ∧
      filledSn.cells.take sa.arsnLen = used.arsn ∧ filledIv.cells.take sa.ivLen = used.iv := by
  have hiv : octets.iv = used.iv.drop (sa.ivLen - sa.shivfLen) := hoctets .iv
  have hsn : octets.arsn = used.arsn.drop (sa.arsnLen - sa.shsnfLen) := hoctets .arsn
  obtain ⟨placedIv, filledIv, hplacedIv, hrunIv, hfilledIv⟩ := iv_filled h iv
  obtain ⟨placedSn, filledSn, hplacedSn, hrunSn, hfilledSn⟩ := sn_filled h sn
  refine ⟨filledSn, filledIv, ?_, hfilledSn, hfilledIv⟩
  simp only [fillCounters, hiv, hsn, hplacedIv, hrunIv, hplacedSn, hrunSn, bind, Except.bind, pure,
    Except.pure]

/-! ## The check -/

theorem arsn_passes {used : ReceivedCounters} (h : Receivable config sa used) {arsn : List Octet}
    (hlen : (sa.arsnLen : Nat) ≤ arsn.length) (harsn : arsn.take sa.arsnLen = used.arsn) :
    checkAntiReplayArsnw sa arsn = (.ok (), decide (0 < (sa.shsnfLen : Nat))) := by
  unfold checkAntiReplayArsnw
  by_cases hpos : 0 < (sa.shsnfLen : Nat)
  · have hfits : (sa.arsnLen : Nat) ≤ 16 := (h.followed .arsn).1
    have hstored : (sa.arsnLen : Nat) ≤ sa.arsn.cells.length :=
      hfits.trans ((by decide : 16 ≤ ARSN_SIZE).trans_eq sa.arsn.length_cells.symm)
    have hinside : window arsn sa.arsn.cells sa.arsnLen sa.arsnw = .ok true := by
      apply window_hit hlen hstored
      rw [harsn]
      obtain ⟨-, hzero⟩ | ⟨gap, hgap, hle, hahead⟩ := h.arsn
      · exact .inl hzero
      · exact .inr ⟨gap - 1, by omega, by rwa [Nat.sub_add_cancel hgap]⟩
    rw [if_pos hpos, hinside, decide_eq_true hpos]
  · rw [if_neg hpos, decide_eq_false hpos]

theorem iv_passes {used : ReceivedCounters} (h : Receivable config sa used) {iv : List Octet}
    (hlen : (sa.ivLen : Nat) ≤ iv.length) (hiv : iv.take sa.ivLen = used.iv) :
    checkAntiReplayGcm config sa iv =
      (.ok (), decide (0 < (sa.ivLen : Nat) ∧ sa.ecs = .aes256Gcm)) := by
  unfold checkAntiReplayGcm
  by_cases hgcm : 0 < (sa.ivLen : Nat) ∧ sa.ecs = .aes256Gcm
  · obtain ⟨hfits, hkind⟩ := h.followed .iv
    rw [if_pos hgcm.2] at hkind
    obtain ⟨-, hwhole, -⟩ := hkind hgcm.1
    have hinside : window iv sa.iv.cells sa.ivLen sa.arsnw = .ok true := by
      apply window_hit hlen (hfits.trans_eq sa.iv.length_cells.symm)
      rw [hiv]
      obtain ⟨-, hzero⟩ | ⟨gap, hgap, hle, hahead⟩ := h.iv hgcm.2
      · exact .inl hzero
      · exact .inr ⟨gap - 1, by omega, by rwa [Nat.sub_add_cancel hgap]⟩
    have hcompared : ivWindow config sa iv = .ok true := (ivWindow_whole hwhole rfl).symm.trans hinside
    rw [if_pos hgcm, if_neg (Nat.not_lt.mpr hfits), decide_eq_true hgcm]
    unfold ivWindow at hcompared
    rw [hcompared]
  · rw [if_neg hgcm, decide_eq_false hgcm]

/-- What the receiver has after an accepted frame. -/
structure Received (sa : SecurityAssociation) (used : ReceivedCounters)
    (sa' : SecurityAssociation) : Prop where
  same : SameConfiguration sa sa'
  iv : sa.ecs = .aes256Gcm → CounterField.iv.stored sa' = used.iv
  arsn : 0 < (sa.shsnfLen : Nat) → CounterField.arsn.stored sa' = used.arsn
  kept : (sa.shsnfLen : Nat) = 0 → CounterField.arsn.stored sa' = CounterField.arsn.stored sa

theorem check_passes {used : ReceivedCounters} (h : Receivable config sa used)
    {arsn iv : List Octet} (harsnLen : (sa.arsnLen : Nat) ≤ arsn.length)
    (hivLen : (sa.ivLen : Nat) ≤ iv.length) (harsn : arsn.take sa.arsnLen = used.arsn)
    (hiv : iv.take sa.ivLen = used.iv) :
    ∃ sa', checkAntiReplay config sa arsn iv = (.ok (), sa') ∧ Received sa used sa' := by
  have hsnFits : (sa.arsnLen : Nat) ≤ 16 := (h.followed .arsn).1
  obtain ⟨hivFits, hkind⟩ := h.followed .iv
  obtain ⟨sa', hstore⟩ := storeCounters_succeeds hivFits hivLen (hsnFits.trans (by decide)) harsnLen
    (decide (0 < (sa.shsnfLen : Nat))) (decide (0 < (sa.ivLen : Nat) ∧ sa.ecs = .aes256Gcm))
  have hsame := storeCounters_same hstore
  refine ⟨sa', ?_, hsame, ?_, ?_, ?_⟩
  · simp only [checkAntiReplay, arsn_passes h harsnLen harsn, iv_passes h hivLen hiv, hstore]
  · intro hgcm
    rw [if_pos hgcm] at hkind
    obtain ⟨storedIv, _, rfl⟩ := hsame
    by_cases hpos : 0 < (sa.ivLen : Nat)
    · rw [decide_eq_true (show 0 < (sa.ivLen : Nat) ∧ sa.ecs = .aes256Gcm from ⟨hpos, hgcm⟩)] at hstore
      obtain ⟨-, -, hused⟩ := hkind hpos
      have hkept := storeCounters_iv (by simp [EncCipherSuite.isGcm, hgcm])
        (hused.imp_right fun hsome => decide_eq_true hsome) hstore
      exact hkept.trans hiv
    · have hzero : (sa.ivLen : Nat) = 0 := Nat.eq_zero_of_not_pos hpos
      have hempty : used.iv = [] := List.eq_nil_of_length_eq_zero ((h.full .iv).trans hzero)
      show storedIv.cells.take sa.ivLen = used.iv
      rw [hzero, hempty, List.take_zero]
  · intro hpos
    have hvalid : (sa.shsnfLen : Nat) ≤ sa.arsnLen := h.valid .arsn
    rw [decide_eq_true hpos] at hstore
    have hkept := storeCounters_arsn (by omega)
      (fun hisGcm => by simpa [and_comm] using (h.followed .arsn).2 hpos hisGcm) hstore
    obtain ⟨_, _, rfl⟩ := hsame
    exact hkept.trans harsn
  · intro hzero
    rw [hzero] at hstore
    have hkept := storeCounters_arsn_kept hstore
    obtain ⟨_, _, rfl⟩ := hsame
    rw [CounterField.stored, CounterField.stored, hkept]

/-- A frame with an expected counter is accepted, and the counter is the sender's. -/
theorem receiveCounters_accepts {used octets : ReceivedCounters} (h : Receivable config sa used)
    (hoctets : ∀ field : CounterField, field.octets octets =
      (field.octets used).drop (field.length sa - field.transmitted sa))
    (iv : Buffer Octet IV_SIZE) (sn : Buffer Octet SN_SIZE) :
    ∃ sa', receiveCounters config sa iv sn octets = (.ok used, sa') ∧ Received sa used sa' := by
  obtain ⟨filledSn, filledIv, hfill, hsn, hiv⟩ := fillCounters_fills h hoctets iv sn
  have hsnLen : (sa.arsnLen : Nat) ≤ filledSn.cells.length :=
    ((h.followed .arsn).1).trans_eq filledSn.length_cells.symm
  have hivLen : (sa.ivLen : Nat) ≤ filledIv.cells.length :=
    ((h.followed .iv).1).trans_eq filledIv.length_cells.symm
  obtain ⟨sa', hcheck, hreceived⟩ := check_passes h hsnLen hivLen hsn hiv
  refine ⟨sa', ?_, hreceived⟩
  obtain ⟨_, _, rfl⟩ := hreceived.same
  simp only [receiveCounters, hfill, hcheck, hsn, hiv]

/-! ## A whole run -/

/-- The sender's counter is at most `limit` values ahead of the receiver's, and not
ahead at all only at the common start at zero. -/
def CounterField.Ahead (s : Link) (limit : Nat) (field : CounterField) : Prop :=
  ∃ gap ≤ limit, (gap = 0 → AllZero (field.stored s.receiver)) ∧
    field.stored s.sender = increment^[gap] (field.stored s.receiver)

/-- The IV matters to the receiver where it checks it. -/
structure LinkInv (config : Config) (s : Link) : Prop where
  replay : config.ignoreAntiReplay = false
  linked : Linked s.sender s.receiver
  bounded : s.lost < (s.receiver.arsnw : Nat)
  iv : s.receiver.ecs = .aes256Gcm → CounterField.iv.Ahead s (s.lost + 1)
  arsn : CounterField.arsn.Ahead s (s.lost + 1)
  agree : CountersAgree s

theorem SameLengths.of_field {sender receiver : SecurityAssociation} (h : SameLengths sender receiver)
    (field : CounterField) : field.length sender = field.length receiver ∧
      field.transmitted sender = field.transmitted receiver := by
  cases field with
  | iv => exact ⟨congrArg Fin.val h.ivLen, congrArg Fin.val h.shivfLen⟩
  | arsn => exact ⟨congrArg Fin.val h.arsnLen, congrArg Fin.val h.shsnfLen⟩

theorem SameLengths.stored {sender receiver : SecurityAssociation} (h : SameLengths sender receiver)
    (field : CounterField) : (field.stored sender).length = (field.stored receiver).length := by
  obtain ⟨hlength, -⟩ := h.of_field field
  cases field with
  | iv =>
    show (sender.iv.cells.take sender.ivLen).length = (receiver.iv.cells.take receiver.ivLen).length
    rw [List.length_take, List.length_take, sender.iv.length_cells, receiver.iv.length_cells,
      show (sender.ivLen : Nat) = receiver.ivLen from hlength]
  | arsn =>
    show (sender.arsn.cells.take sender.arsnLen).length =
      (receiver.arsn.cells.take receiver.arsnLen).length
    rw [List.length_take, List.length_take, sender.arsn.length_cells, receiver.arsn.length_cells,
      show (sender.arsnLen : Nat) = receiver.arsnLen from hlength]

theorem AllZero.unique {xs ys : List Octet} (hx : AllZero xs) (hy : AllZero ys)
    (hlen : xs.length = ys.length) : xs = ys := by
  rw [List.eq_replicate_of_mem hx, List.eq_replicate_of_mem hy, hlen]

theorem Linked.counted {sender sender' receiver receiver' : SecurityAssociation}
    (h : Linked sender receiver) (hsender : SameConfiguration sender sender')
    (hreceiver : SameConfiguration receiver receiver') : Linked sender' receiver' := by
  obtain ⟨_, _, rfl⟩ := hsender
  obtain ⟨_, _, rfl⟩ := hreceiver
  obtain ⟨⟨hivLen, hshivfLen, harsnLen, hshsnfLen⟩, hvalid, hwindow, hdistinguished⟩ := h
  refine ⟨⟨hivLen, hshivfLen, harsnLen, hshsnfLen⟩, ?_, hwindow, ?_⟩
  · intro field
    have := hvalid field
    cases field <;> exact this
  · intro field
    have := hdistinguished field
    cases field <;> exact this

theorem linkInv_start {s : Link} (h : (linkMachine config).start s) : LinkInv config s := by
  obtain ⟨hreplay, hlinked, htogether, hlost, hnone⟩ := h
  have hahead : ∀ field : CounterField, field.Ahead s (s.lost + 1) := by
    intro field
    rcases htogether field with hbehind | ⟨hsender, hreceiver⟩
    · exact ⟨1, by omega, nofun, hbehind.symm⟩
    · exact ⟨0, by omega, fun _ => hreceiver,
        hsender.unique hreceiver (hlinked.lengths.stored field)⟩
  refine ⟨hreplay, hlinked, ?_, fun _ => hahead .iv, hahead .arsn, ?_⟩
  · rw [hlost]
    exact hlinked.window
  · rw [CountersAgree, hnone]
    simp

theorem CounterField.stored_nil (h : field.length sa = 0) : field.stored sa = [] := by
  cases field with
  | iv => exact (congrArg (List.take · sa.iv.cells) h).trans List.take_zero
  | arsn => exact (congrArg (List.take · sa.arsn.cells) h).trans List.take_zero

/-- A counter of no octets is always the next one. -/
theorem CounterField.ahead_nil {s : Link} (hlengths : SameLengths s.sender s.receiver)
    (h : field.length s.receiver = 0) (limit : Nat) : field.Ahead s (limit + 1) := by
  have hsender : field.length s.sender = 0 := (hlengths.of_field field).1.trans h
  refine ⟨1, by omega, nofun, ?_⟩
  rw [CounterField.stored_nil h, CounterField.stored_nil hsender]
  rfl

theorem SameConfiguration.countsWhole (h : SameConfiguration sa sa') :
    field.CountsWhole config sa' ↔ field.CountsWhole config sa := by
  obtain ⟨_, _, rfl⟩ := h
  cases field <;> exact Iff.rfl

/-- The mode counts on the whole IV where the receiver checks it. -/
theorem CounterField.Followed.countsWhole {sender receiver : SecurityAssociation}
    (h : field.Followed config receiver) (hlengths : SameLengths sender receiver)
    (hgcm : field = .iv → receiver.ecs = .aes256Gcm) (hpos : 0 < field.length receiver) :
    field.CountsWhole config sender := by
  cases field with
  | iv =>
    obtain ⟨-, hkind⟩ := h
    rw [if_pos (hgcm rfl)] at hkind
    obtain ⟨-, hmode, -⟩ := hkind hpos
    refine hmode.imp_right fun hwhole => ?_
    rw [hlengths.shivfLen, hlengths.ivLen]
    exact hwhole
  | arsn => exact trivial

/-- The transmitted part may be empty only where no frame can be lost. -/
theorem Linked.transmits {sender receiver : SecurityAssociation} (h : Linked sender receiver)
    (hpos : 0 < field.length receiver) (hwindow : 1 < (receiver.arsnw : Nat)) :
    0 < field.transmitted sender := by
  have hdistinguished := h.distinguished field hpos
  rw [(h.lengths.of_field field).2]
  apply Nat.pos_of_ne_zero
  intro hkept
  rw [hkept] at hdistinguished
  omega

theorem Sent.moves {sender sender' receiver : SecurityAssociation} {octets : ReceivedCounters}
    (hsent : Sent config sender octets sender') (hlinked : Linked sender receiver)
    (hwhole : field.CountsWhole config sender) (hpos : 0 < field.transmitted sender) :
    field.stored sender' = increment (field.stored sender) := by
  obtain ⟨hlength, htransmitted⟩ := hlinked.lengths.of_field field
  apply hsent.counted field hwhole hpos
  rw [htransmitted, hlength]
  exact hlinked.valid field

/-- A lost frame: the sender's counter gains one. -/
theorem CounterField.Ahead.lose {s : Link} {octets : ReceivedCounters}
    {sender : SecurityAssociation} {limit : Nat} (h : field.Ahead s limit)
    (hlinked : Linked s.sender s.receiver) (hsent : Sent config s.sender octets sender)
    (hwhole : 0 < field.length s.receiver → field.CountsWhole config s.sender)
    (hwindow : 1 < (s.receiver.arsnw : Nat)) :
    field.Ahead { s with sender := sender, lost := s.lost + 1 } (limit + 1) := by
  obtain ⟨gap, hgap, -, hahead⟩ := h
  by_cases hpos : 0 < field.length s.receiver
  · have hmoves := hsent.moves hlinked (hwhole hpos) (hlinked.transmits hpos hwindow)
    refine ⟨gap + 1, by omega, nofun, ?_⟩
    show field.stored sender = _
    rw [hmoves, hahead, Function.iterate_succ_apply']
  · have hlengths : SameLengths sender s.receiver :=
      (hlinked.counted hsent.same ⟨_, _, rfl⟩).lengths
    exact CounterField.ahead_nil (s := { s with sender := sender, lost := s.lost + 1 }) hlengths
      (Nat.eq_zero_of_not_pos hpos) limit

theorem linkInv_lose {s : Link} {octets : ReceivedCounters} {sender : SecurityAssociation}
    (h : LinkInv config s) (hok : KeepsTogether config s .lose)
    (hsend : sendCounters config s.sender = .ok (octets, sender))
    (hfew : s.lost + 1 < (s.receiver.arsnw : Nat)) :
    LinkInv config { s with sender := sender, lost := s.lost + 1 } := by
  obtain ⟨hservice, hiv, harsn, -⟩ := hok
  have hsent := sendCounters_sent hservice hsend
  have hlengths := h.linked.lengths
  refine ⟨h.replay, h.linked.counted hsent.same ⟨_, _, rfl⟩, hfew, ?_, ?_, h.agree⟩
  · intro hgcm
    exact (h.iv hgcm).lose h.linked hsent (hiv.countsWhole hlengths fun _ => hgcm) (by omega)
  · exact h.arsn.lose h.linked hsent (harsn.countsWhole hlengths nofun) (by omega)

/-! ## A delivered frame -/

theorem CounterField.Ahead.expected {s : Link} (h : field.Ahead s (s.lost + 1))
    (hbounded : s.lost < (s.receiver.arsnw : Nat)) (hvalid : field.transmitted s.receiver ≤
      field.length s.receiver) (hfilled : ¬field.ZeroUnfilled s) :
    field.Expected s.receiver (field.stored s.sender) := by
  obtain ⟨gap, hgap, hzero, hahead⟩ := h
  by_cases hstart : gap = 0
  · subst hstart
    have hreceiver := hzero rfl
    have hsender : AllZero (field.stored s.sender) := hahead ▸ hreceiver
    refine .inl ⟨?_, hsender, hreceiver⟩
    have hwhole : ¬field.transmitted s.receiver < field.length s.receiver :=
      fun hpart => hfilled ⟨hpart, hsender, hreceiver⟩
    omega
  · exact .inr ⟨gap, by omega, by omega, hahead⟩

theorem octets_counters (sa : SecurityAssociation) (field : CounterField) :
    field.octets sa.counters = field.stored sa := by
  cases field <;> rfl

theorem CounterField.Followed.full {sender receiver : SecurityAssociation}
    (h : field.Followed config receiver) (hlengths : SameLengths sender receiver) :
    (field.stored sender).length = field.length receiver := by
  rw [hlengths.stored field]
  cases field with
  | iv => exact List.length_take_of_le (h.1.trans_eq receiver.iv.length_cells.symm)
  | arsn =>
    exact List.length_take_of_le
      (h.1.trans ((by decide : SN_SIZE ≤ ARSN_SIZE).trans_eq receiver.arsn.length_cells.symm))

theorem LinkInv.receivable {s : Link} {iv : Buffer Octet IV_SIZE} {sn : Buffer Octet SN_SIZE}
    (h : LinkInv config s) (hok : KeepsTogether config s (.deliver iv sn)) :
    Receivable config s.receiver s.sender.counters := by
  obtain ⟨-, hiv, harsn, hivFilled, harsnFilled⟩ := hok
  have hfollowed : ∀ field : CounterField, field.Followed config s.receiver := by
    intro field
    cases field with
    | iv => exact hiv
    | arsn => exact harsn
  refine ⟨h.replay, hfollowed, h.linked.valid, h.linked.distinguished, ?_, ?_, ?_⟩
  · intro field
    rw [octets_counters]
    exact (hfollowed field).full h.linked.lengths
  · intro hgcm
    exact (h.iv hgcm).expected h.bounded (h.linked.valid .iv) hivFilled
  · exact h.arsn.expected h.bounded (h.linked.valid .arsn) harsnFilled

/-- After a delivered frame the sender is one ahead again. -/
theorem ahead_delivered {s : Link} {octets : ReceivedCounters} {sender : SecurityAssociation}
    (hlinked : Linked s.sender s.receiver) (hsent : Sent config s.sender octets sender)
    (hwhole : field.CountsWhole config s.sender) (hpos : 0 < field.transmitted s.sender)
    {receiver : SecurityAssociation} (hstored : field.stored receiver = field.stored s.sender)
    (delivered : List Delivery) : field.Ahead ⟨sender, receiver, 0, delivered⟩ 1 := by
  refine ⟨1, Nat.le_refl 1, nofun, ?_⟩
  show field.stored sender = increment (field.stored receiver)
  rw [hsent.moves hlinked hwhole hpos, hstored]

theorem iv_delivered {s : Link} {octets : ReceivedCounters} {sender receiver : SecurityAssociation}
    (hlinked : Linked s.sender s.receiver) (hsent : Sent config s.sender octets sender)
    (hreceived : Received s.receiver s.sender.counters receiver)
    (hiv : CounterField.iv.Followed config s.receiver) (hgcm : s.receiver.ecs = .aes256Gcm)
    (delivered : List Delivery) : CounterField.iv.Ahead ⟨sender, receiver, 0, delivered⟩ 1 := by
  have hlengths := hlinked.lengths
  by_cases hpos : 0 < (s.receiver.ivLen : Nat)
  · have hwhole := hiv.countsWhole hlengths (fun _ => hgcm) hpos
    obtain ⟨-, hkind⟩ := hiv
    rw [if_pos hgcm] at hkind
    obtain ⟨hsome, -⟩ := hkind hpos
    rw [← hlengths.shivfLen] at hsome
    exact ahead_delivered hlinked hsent hwhole hsome (hreceived.iv hgcm) delivered
  · have hnew := (hlinked.counted hsent.same hreceived.same).lengths
    apply CounterField.ahead_nil (s := ⟨sender, receiver, 0, delivered⟩) hnew
    obtain ⟨_, _, rfl⟩ := hreceived.same
    exact Nat.eq_zero_of_not_pos hpos

theorem arsn_delivered {s : Link} {octets : ReceivedCounters}
    {sender receiver : SecurityAssociation} (h : CounterField.arsn.Ahead s (s.lost + 1))
    (hbounded : s.lost < (s.receiver.arsnw : Nat))
    (hlinked : Linked s.sender s.receiver) (hsent : Sent config s.sender octets sender)
    (hreceived : Received s.receiver s.sender.counters receiver) (delivered : List Delivery) :
    CounterField.arsn.Ahead ⟨sender, receiver, 0, delivered⟩ 1 := by
  have hlengths := hlinked.lengths
  by_cases hpos : 0 < (s.receiver.shsnfLen : Nat)
  · have hsome : 0 < (s.sender.shsnfLen : Nat) := by rwa [hlengths.shsnfLen]
    have hwhole : CounterField.arsn.CountsWhole config s.sender := trivial
    exact ahead_delivered hlinked hsent hwhole hsome (hreceived.arsn hpos) delivered
  · have hnone : (s.receiver.shsnfLen : Nat) = 0 := Nat.eq_zero_of_not_pos hpos
    by_cases hlen : 0 < (s.receiver.arsnLen : Nat)
    -- nothing is transmitted: no frame may be lost, and both counters stand still
    · have hwindow : (s.receiver.arsnw : Nat) ≤ 256 ^ (s.receiver.shsnfLen : Nat) :=
        hlinked.distinguished .arsn hlen
      rw [hnone, Nat.pow_zero] at hwindow
      have hzero : (s.sender.shsnfLen : Nat) = 0 := by rw [hlengths.shsnfLen, hnone]
      obtain ⟨gap, hgap, hstart, hahead⟩ := h
      refine ⟨gap, by omega, ?_, ?_⟩
      · rwa [hreceived.kept hnone]
      · show CounterField.arsn.stored sender = _
        rw [hsent.kept .arsn hzero, hreceived.kept hnone, hahead]
    · have hnew := (hlinked.counted hsent.same hreceived.same).lengths
      apply CounterField.ahead_nil (s := ⟨sender, receiver, 0, delivered⟩) hnew
      obtain ⟨_, _, rfl⟩ := hreceived.same
      exact Nat.eq_zero_of_not_pos hlen

theorem linkInv_deliver {s s' : Link} {iv : Buffer Octet IV_SIZE} {sn : Buffer Octet SN_SIZE}
    {octets : ReceivedCounters} {sender : SecurityAssociation} (h : LinkInv config s)
    (hok : KeepsTogether config s (.deliver iv sn))
    (hsend : sendCounters config s.sender = .ok (octets, sender))
    (hnext : (linkMachine config).next s (.deliver iv sn) = some s') : LinkInv config s' := by
  have hsent := sendCounters_sent hok.1 hsend
  have hlengths := h.linked.lengths
  have hoctets : ∀ field : CounterField, field.octets octets =
      (field.octets s.sender.counters).drop
        (field.length s.receiver - field.transmitted s.receiver) := by
    intro field
    obtain ⟨hlength, htransmitted⟩ := hlengths.of_field field
    rw [octets_counters, ← hlength, ← htransmitted]
    refine (hsent.octets field ?_).1
    rw [hlength, htransmitted]
    exact h.linked.valid field
  obtain ⟨receiver, hreceive, hreceived⟩ :=
    receiveCounters_accepts (h.receivable hok) hoctets iv sn
  obtain ⟨-, hiv, -⟩ := hok
  simp only [linkMachine, hsend, hreceive, Option.some.injEq] at hnext
  subst hnext
  have hlinked := h.linked.counted hsent.same hreceived.same
  refine ⟨h.replay, hlinked, hlinked.window, ?_, ?_, ?_⟩
  · intro hgcm
    have hsame : receiver.ecs = s.receiver.ecs := by
      obtain ⟨_, _, rfl⟩ := hreceived.same
      rfl
    exact iv_delivered h.linked hsent hreceived hiv (hsame.symm.trans hgcm) _
  · exact arsn_delivered h.arsn h.bounded h.linked hsent hreceived _
  · intro delivery hmem
    rcases List.mem_append.mp hmem with hold | hnew
    · exact h.agree delivery hold
    · rw [List.mem_singleton.mp hnew]

theorem linkInv_step {s s' : Link} {passage : Passage} (h : LinkInv config s)
    (hok : KeepsTogether config s passage)
    (hnext : (linkMachine config).next s passage = some s') : LinkInv config s' := by
  cases hsend : sendCounters config s.sender with
  | error code => simp [linkMachine, hsend] at hnext
  | ok sent =>
    cases passage with
    | deliver iv sn => exact linkInv_deliver h hok hsend hnext
    | lose =>
      simp only [linkMachine, hsend] at hnext
      split at hnext
      · rename_i hfew
        cases hnext
        exact linkInv_lose h hok hsend hfew
      · cases hnext

/-- In every run whose frames all meet `KeepsTogether`. -/
theorem counters_agree {s : Link}
    (h : (linkMachine config).Reaches (KeepsTogether config) s) : CountersAgree s :=
  (h.invariant (fun _ => linkInv_start) fun _ _ _ => linkInv_step).agree

/-! ## Two links -/

/-- Ends that differ in the last two octets of a twelve-octet IV, of which the low
`shivfLen` are transmitted. -/
def linkOf (shivfLen : Fin 64) (sent stored : Octet × Octet) : Link :=
  let sa := { encryptionSa .aes256Gcm 12 12 with shivfLen := shivfLen }
  let iv (last : Octet × Octet) : Buffer Octet IV_SIZE :=
    ⟨List.replicate 10 0 ++ [last.1, last.2] ++ List.replicate 4 0, rfl⟩
  ⟨{ sa with iv := iv sent }, { sa with iv := iv stored }, 0, []⟩

def deliverBlank : Passage := .deliver (.replicate IV_SIZE 0) (.replicate SN_SIZE 0)

theorem linked_linkOf {shivfLen : Fin 64} (hle : (shivfLen : Nat) ≤ 12)
    (hpos : 0 < (shivfLen : Nat)) (sent stored : Octet × Octet) :
    Linked (linkOf shivfLen sent stored).sender (linkOf shivfLen sent stored).receiver := by
  refine ⟨⟨rfl, rfl, rfl, rfl⟩, ?_, (by decide : 0 < 5), ?_⟩
  · intro field
    cases field with
    | iv => exact hle
    | arsn => exact Nat.le_refl 0
  · intro field hlength
    cases field with
    | iv =>
      calc 5 ≤ 256 ^ 1 := by decide
        _ ≤ 256 ^ (shivfLen : Nat) := Nat.pow_le_pow_right (by decide) hpos
    | arsn => exact absurd hlength (Nat.lt_irrefl 0)

/-- From the common start at zero the first frame is refused when a part of the IV has
to be filled in: the search begins behind the stored value. -/
theorem zero_start_refused : ∃ s : Link,
    (linkMachine scConfig).Reachable s ∧ ¬CountersAgree s := by
  have hstart : (linkMachine scConfig).start (linkOf 6 (0, 0) (0, 0)) := by
    refine ⟨rfl, linked_linkOf (by decide) (by decide) _ _, ?_, rfl, rfl⟩
    intro field
    cases field <;> decide +kernel
  obtain ⟨s, hreach, hcheck⟩ := Machine.exists_reaches (fun _ _ => True)
    (fun s : Link => s.delivered =
      [⟨⟨[], List.replicate 12 0⟩, .error .frameCounterDoesntMatchSa⟩]) hstart [deliverBlank]
    (by decide +kernel)
  refine ⟨s, hreach, fun hagree => ?_⟩
  rw [CountersAgree, of_decide_eq_true hcheck] at hagree
  exact absurd (hagree _ List.mem_cons_self) (by simp)

/-- One octet is transmitted; a frame is lost just before it rolls over. -/
theorem counters_agree_rollover : ∃ s : Link, CountersAgree s ∧ s.delivered.length = 2 := by
  have hstart : (linkMachine scConfig).start (linkOf 1 (0, 0xFE) (0, 0xFD)) := by
    refine ⟨rfl, linked_linkOf (by decide) (by decide) _ _, ?_, rfl, rfl⟩
    intro field
    cases field <;> decide +kernel
  obtain ⟨s, hreach, hcheck⟩ := Machine.exists_reaches (KeepsTogether scConfig)
    (fun s : Link => s.delivered.length = 2) hstart [deliverBlank, .lose, deliverBlank]
    (by decide +kernel)
  exact ⟨s, counters_agree hreach, of_decide_eq_true hcheck⟩

end Nos3.Sdls
