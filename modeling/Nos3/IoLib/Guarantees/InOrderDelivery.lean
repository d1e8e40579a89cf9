import Nos3.IoLib.Source.Cop1
import Nos3.Base.Transition
import Mathlib.Data.BitVec
import Mathlib.Tactic.Abel

/-!
# FARM-1 delivers accept frames once and in order

A sender numbers its accept frames consecutively modulo 256 and keeps at most
half a sliding window of them unacknowledged; the link is a queue that loses and
repeats frames. The invariant ties the three together: the receiver's count lies
in the sender's window, and no copy on the link is more than half a window older
than what the copies before it can still make the receiver expect.
-/
namespace Nos3.IoLib
open Base.BigEndian (Octet)
open Base.Transition

/-- The sender's limit, `COP1_SLIDING_WINDOW_WIDTH / 2`. -/
def halfWindow : Nat := slidingWindowWidth / 2

/-! ## The window comparisons -/

theorem inWrappedRange_of_offsets {lower value upper : Octet} {d u : Nat} (hd : d ≤ u)
    (hu : u < 256) (hvalue : value = lower + BitVec.ofNat 8 d)
    (hupper : upper = lower + BitVec.ofNat 8 u) : isInWrappedRange lower value upper = true := by
  have hl := lower.isLt
  rw [hvalue, hupper]
  unfold isInWrappedRange
  split
  · rename_i hwrap
    rw [decide_eq_true_eq]
    simp only [BitVec.lt_def, BitVec.le_def, BitVec.toNat_add, BitVec.toNat_ofNat] at hwrap ⊢
    omega
  · rename_i hwrap
    rw [decide_eq_true_eq]
    simp only [BitVec.lt_def, BitVec.le_def, BitVec.toNat_add, BitVec.toNat_ofNat] at hwrap ⊢
    omega

/-- The number of the `i`-th accept frame. -/
def numberOf (initial : Octet) (i : Nat) : Octet := initial + BitVec.ofNat 8 i

theorem numberOf_add (initial : Octet) (i d : Nat) :
    numberOf initial (i + d) = numberOf initial i + BitVec.ofNat 8 d := by
  unfold numberOf
  rw [BitVec.ofNat_add, BitVec.add_assoc]

theorem numberOf_injective {initial : Octet} {i j : Nat} (hij : i < j + 256) (hji : j < i + 256)
    (h : numberOf initial i = numberOf initial j) : i = j := by
  have hnat := congrArg BitVec.toNat (add_left_cancel h)
  simp only [BitVec.toNat_ofNat] at hnat
  omega

/-- An older number, counted from the lower edge of the window. -/
theorem numberOf_back (initial : Octet) {i d : Nat} (hd : d ≤ 62) :
    numberOf initial i =
      numberOf initial (i + d + 1) - halfSlidingWindowWidth + BitVec.ofNat 8 (62 - d) := by
  have hsum : BitVec.ofNat 8 (d + 1) + BitVec.ofNat 8 (62 - d) = halfSlidingWindowWidth := by
    rw [← BitVec.ofNat_add, show d + 1 + (62 - d) = 63 by omega]
    rfl
  rw [Nat.add_assoc, numberOf_add, ← hsum]
  abel

theorem upper_edge (expSeqNum : Octet) :
    expSeqNum + halfSlidingWindowWidth - 1 = expSeqNum + BitVec.ofNat 8 62 := by
  rw [add_sub_assoc]
  rfl

theorem lower_edge (expSeqNum : Octet) :
    expSeqNum = expSeqNum - halfSlidingWindowWidth + BitVec.ofNat 8 63 :=
  (sub_add_cancel expSeqNum halfSlidingWindowWidth).symm

/-- Within half a window of what is expected, a frame passes exactly if it is the
expected one and never locks the receiver out. -/
theorem checkTfSequence_near (initial : Octet) {i expected : Nat}
    (hold : expected ≤ i + halfWindow) (hnew : i < expected + halfWindow) :
    checkTfSequence (numberOf initial i) (numberOf initial expected) ≠ .lockout ∧
      (checkTfSequence (numberOf initial i) (numberOf initial expected) = .pass ↔
        i = expected) := by
  have hhalf : halfWindow = 63 := rfl
  unfold checkTfSequence
  dsimp only
  split
  · rename_i heq
    have hsame := numberOf_injective (by omega) (by omega) heq
    exact ⟨nofun, fun _ => hsame, fun _ => rfl⟩
  · rename_i hne
    have hdiff : i ≠ expected := fun h => hne (congrArg _ h)
    rcases Nat.lt_or_gt_of_ne hdiff with hlt | hgt
    · -- an older frame lies in the negative half of the window
      obtain ⟨d, rfl⟩ := Nat.exists_eq_add_of_lt hlt
      have hrange := inWrappedRange_of_offsets (by omega) (by decide)
        (numberOf_back initial (by omega)) (lower_edge (numberOf initial (i + d + 1)))
      rw [hrange]
      split
      · exact ⟨nofun, nofun, fun h => absurd h hdiff⟩
      · exact ⟨nofun, nofun, fun h => absurd h hdiff⟩
    · -- a newer frame lies in the positive half
      obtain ⟨d, rfl⟩ := Nat.exists_eq_add_of_lt hgt
      have hrange := inWrappedRange_of_offsets (by omega) (by decide)
        (numberOf_add initial expected (d + 1)) (upper_edge (numberOf initial expected))
      rw [Nat.add_assoc, hrange]
      exact ⟨nofun, nofun, fun h => absurd h hdiff⟩

/-! ## Accept frames at the receiver -/

section Receiver
variable {channelService : ChannelService} {initial : Octet} {tf : TransferFrame}
  {payload : List Octet}

/-- A type-A frame of the channel: valid, with the number, and with the payload
between the fields its declared length makes room for. -/
def IsAcceptFrame (channelService : ChannelService) (number : Octet) (payload : List Octet)
    (tf : TransferFrame) : Prop :=
  isValidTf tf channelService = true ∧ getBypassFlag tf = 0 ∧ sequence tf = number ∧
    (getLength tf).toNat = fieldsLength channelService + payload.length ∧
    MemCpy.octets ⟨(getPayloadOffset channelService).toNat, payload.length⟩ tf = payload

instance (channelService : ChannelService) (number : Octet) (payload : List Octet)
    (tf : TransferFrame) : Decidable (IsAcceptFrame channelService number payload tf) :=
  inferInstanceAs (Decidable (_ ∧ _ ∧ _ ∧ _ ∧ _))

/-- What is copied out of an accept frame is its payload. -/
theorem IsAcceptFrame.copied {number : Octet} (h : IsAcceptFrame channelService number payload tf) :
    ∃ copy, (copyData true tf channelService).2 = some copy ∧ copy.octets tf = payload := by
  obtain ⟨-, -, -, hlength, hoctets⟩ := h
  have hexact := getPayloadLength_exact (Nat.le.intro hlength.symm)
  have hpayload : (getPayloadLength tf channelService).toNat = payload.length := by omega
  refine ⟨_, rfl, ?_⟩
  rw [hpayload]
  exact hoctets

/-- What the receiver does with an accept frame: it delivers the payload and
counts, or it delivers nothing and keeps its count. -/
inductive Received (initial : Octet) (expected index : Nat) (payload : List Octet)
    (tf : TransferFrame) : FrameResult → Prop
  | delivered {retVal : Int} {clcw : Clcw} {copy : MemCpy} (hindex : index = expected)
      (hcopy : copy.octets tf = payload) (hreport : clcw.report = numberOf initial (expected + 1))
      (hopen : rdLockoutFlg clcw = 0) :
      Received initial expected index payload tf ⟨retVal, clcw, some copy⟩
  | refused {retVal : Int} {clcw : Clcw} (hreport : clcw.report = numberOf initial expected)
      (hopen : rdLockoutFlg clcw = 0) :
      Received initial expected index payload tf ⟨retVal, clcw, none⟩

theorem acceptTf_received {index expected : Nat} {clcw : Clcw} (toBuffer : Bool)
    (hframe : IsAcceptFrame channelService (numberOf initial index) payload tf)
    (hreport : clcw.report = numberOf initial expected) (hopen : rdLockoutFlg clcw = 0)
    (hold : expected ≤ index + halfWindow) (hnew : index < expected + halfWindow) :
    Received initial expected index payload tf (acceptTf tf clcw toBuffer channelService) := by
  obtain ⟨hlocked, hpass⟩ := checkTfSequence_near initial hold hnew
  rw [← hframe.2.2.1, ← hreport] at hlocked hpass
  unfold acceptTf
  rw [if_pos hopen]
  split
  · rename_i hsequence
    split
    · rename_i hbuffer
      obtain ⟨copy, hcopy, hoctets⟩ := hframe.copied
      dsimp only
      rw [hbuffer, hcopy]
      refine .delivered (hpass.mp hsequence) hoctets ?_ (by simpa using hopen)
      show clcw.report + 1 = numberOf initial (expected + 1)
      rw [hreport, numberOf_add]
      rfl
    · exact .refused (by simpa using hreport) (by simpa using hopen)
  · exact .refused (by simpa using hreport) (by simpa using hopen)
  · exact .refused hreport hopen
  · rename_i hsequence
    exact absurd hsequence hlocked
  · exact .refused hreport hopen

theorem processFrame_received {index expected : Nat} {clcw : Clcw} (toBuffer : Bool)
    (hframe : IsAcceptFrame channelService (numberOf initial index) payload tf)
    (hreport : clcw.report = numberOf initial expected) (hopen : rdLockoutFlg clcw = 0)
    (hold : expected ≤ index + halfWindow) (hnew : index < expected + halfWindow) :
    Received initial expected index payload tf (processFrame toBuffer clcw tf channelService) := by
  unfold processFrame
  rw [if_pos hframe.1, if_neg (not_not_intro hframe.2.1)]
  exact acceptTf_received toBuffer hframe hreport hopen hold hnew

/-- Frames that are not type-A frames of the channel: invalid ones, bypass data
and control commands. The command that sets V(R) is not among them. -/
def IsOtherFrame (channelService : ChannelService) (tf : TransferFrame) : Prop :=
  isValidTf tf channelService = true →
    getBypassFlag tf ≠ 0 ∧ ¬(controlFrame = getCtlCmdFlag tf ∧ getTfCommand tf = .setVr)

instance (channelService : ChannelService) (tf : TransferFrame) :
    Decidable (IsOtherFrame channelService tf) := inferInstanceAs (Decidable (_ → _))

theorem processFrame_other {clcw : Clcw} (toBuffer : Bool) (hframe : IsOtherFrame channelService tf)
    (hopen : rdLockoutFlg clcw = 0) :
    (processFrame toBuffer clcw tf channelService).clcw.report = clcw.report ∧
      rdLockoutFlg (processFrame toBuffer clcw tf channelService).clcw = 0 := by
  unfold processFrame
  split
  · rename_i hvalid
    obtain ⟨hbypass, hcommand⟩ := hframe hvalid
    rw [if_pos hbypass]
    unfold bypassTf
    split
    · rename_i hcontrol
      split
      · refine ⟨rfl, ?_⟩
        rw [rdLockoutFlg_incrFarmbCtr]
        exact rdLockoutFlg_wrLockoutFlg_zero _
      · rename_i hsetVr
        exact absurd ⟨hcontrol, hsetVr⟩ hcommand
      · exact ⟨rfl, hopen⟩
    · simpa using hopen
  · exact ⟨rfl, hopen⟩

end Receiver

/-! ## Sender, link and receiver -/

/-- A copy of an accept frame on the link; `index` counts the accept frames from
the first one on. -/
structure Flight where
  index : Nat
  frame : TransferFrame

/-- `sent` are the payloads of the accept frames in the order of their numbers,
of which the sender takes the first `acknowledged` for delivered; `inFlight` is
the link, oldest copy first; `delivered` is what `COP1_AcceptTf` copied out. -/
structure Link where
  sent : List (List Octet)
  acknowledged : Nat
  inFlight : List Flight
  clcw : Clcw
  delivered : List (List Octet)

inductive LinkEvent
  /-- The sender's next accept frame. -/
  | issue (payload : List Octet) (frame : TransferFrame)
  | retransmit (index : Nat) (frame : TransferFrame)
  /-- A report comes back, perhaps an old one. -/
  | acknowledge (upTo : Nat)
  | lose (position : Nat)
  | duplicate (position : Nat)
  /-- The oldest copy arrives; there is or is not a destination buffer. -/
  | receive (toBuffer : Bool)
  | other (toBuffer : Bool) (frame : TransferFrame)

variable (channelService : ChannelService) (initial : Octet)

def LinkEvent.Enabled (s : Link) : LinkEvent → Prop
  | .issue payload frame => s.sent.length < s.acknowledged + halfWindow ∧
      IsAcceptFrame channelService (numberOf initial s.sent.length) payload frame
  | .retransmit index frame => s.acknowledged ≤ index ∧ ∃ payload ∈ s.sent[index]?,
      IsAcceptFrame channelService (numberOf initial index) payload frame
  | .acknowledge upTo => s.acknowledged ≤ upTo ∧ upTo ≤ s.delivered.length
  | .other _ frame => IsOtherFrame channelService frame
  | _ => True

instance (s : Link) (event : LinkEvent) :
    Decidable (event.Enabled channelService initial s) := by
  cases event <;> unfold LinkEvent.Enabled <;> infer_instance

def Link.arrive (s : Link) (flight : Flight) (rest : List Flight) (toBuffer : Bool) : Link :=
  let result := processFrame toBuffer s.clcw flight.frame channelService
  { s with
    inFlight := rest
    clcw := result.clcw
    delivered := match result.copied with
      | some copy => s.delivered ++ [copy.octets flight.frame]
      | none => s.delivered }

def linkStep (s : Link) : LinkEvent → Link
  | .issue payload frame =>
    { s with sent := s.sent ++ [payload], inFlight := s.inFlight ++ [⟨s.sent.length, frame⟩] }
  | .retransmit index frame => { s with inFlight := s.inFlight ++ [⟨index, frame⟩] }
  | .acknowledge upTo => { s with acknowledged := upTo }
  | .lose position => { s with inFlight := s.inFlight.eraseIdx position }
  | .duplicate position =>
    { s with inFlight := s.inFlight.take (position + 1) ++ s.inFlight.drop position }
  | .receive toBuffer =>
    match s.inFlight with
    | [] => s
    | flight :: rest => s.arrive channelService flight rest toBuffer
  | .other toBuffer frame =>
    { s with clcw := (processFrame toBuffer s.clcw frame channelService).clcw }

/-- The link from a CLCW that is not locked out and reports the sender's first
number. -/
def farmLink : Machine Link LinkEvent where
  start s := s.sent = [] ∧ s.acknowledged = 0 ∧ s.inFlight = [] ∧ s.delivered = [] ∧
    s.clcw.report = initial ∧ rdLockoutFlg s.clcw = 0
  next s event :=
    if event.Enabled channelService initial s then some (linkStep channelService s event) else none

/-! ## The invariant -/

/-- A copy on the link carries a sent frame, and is at most half a window older
than what is expected. -/
structure FlightInv (s : Link) (flight : Flight) : Prop where
  sent : ∃ payload, s.sent[flight.index]? = some payload ∧
    IsAcceptFrame channelService (numberOf initial flight.index) payload flight.frame
  recent : s.delivered.length ≤ flight.index + halfWindow

structure LinkInv (s : Link) : Prop where
  report : s.clcw.report = numberOf initial s.delivered.length
  unlocked : rdLockoutFlg s.clcw = 0
  in_order : s.delivered <+: s.sent
  acknowledged : s.acknowledged ≤ s.delivered.length
  window : s.sent.length ≤ s.acknowledged + halfWindow
  flights : ∀ flight ∈ s.inFlight, FlightInv channelService initial s flight
  ordered : s.inFlight.Pairwise fun older newer => older.index < newer.index + halfWindow

variable {channelService initial} {s : Link}

theorem FlightInv.index_lt {flight : Flight} (h : FlightInv channelService initial s flight) :
    flight.index < s.sent.length := by
  obtain ⟨payload, hpayload, -⟩ := h.sent
  exact (List.getElem?_eq_some_iff.mp hpayload).1

/-- A copy put on the link's end, of a frame the sender has not seen acknowledged. -/
theorem LinkInv.launch (h : LinkInv channelService initial s) {flight : Flight}
    (hwindow : s.acknowledged ≤ flight.index)
    (hflight : FlightInv channelService initial s flight) :
    LinkInv channelService initial { s with inFlight := s.inFlight ++ [flight] } := by
  refine ⟨h.report, h.unlocked, h.in_order, h.acknowledged, h.window, ?_, ?_⟩
  · intro other hother
    rcases List.mem_append.mp hother with hold | hnew
    · obtain ⟨hsent, hrecent⟩ := h.flights other hold
      exact ⟨hsent, hrecent⟩
    · rw [List.mem_singleton.mp hnew]
      exact ⟨hflight.sent, hflight.recent⟩
  · apply List.pairwise_append.mpr
    refine ⟨h.ordered, List.pairwise_singleton _ _, fun older holder newer hnewer => ?_⟩
    have hlt := (h.flights older holder).index_lt
    have hwin := h.window
    rw [List.mem_singleton.mp hnewer]
    omega

theorem LinkInv.issue (h : LinkInv channelService initial s) {payload : List Octet}
    {frame : TransferFrame} (hroom : s.sent.length < s.acknowledged + halfWindow)
    (hframe : IsAcceptFrame channelService (numberOf initial s.sent.length) payload frame) :
    LinkInv channelService initial (linkStep channelService s (.issue payload frame)) := by
  have hlater : LinkInv channelService initial { s with sent := s.sent ++ [payload] } := by
    refine ⟨h.report, h.unlocked, h.in_order.trans (List.prefix_append _ _), h.acknowledged, ?_, ?_,
      h.ordered⟩
    · rw [List.length_append]
      exact hroom
    · intro flight hflight
      obtain ⟨⟨old, hold, haccept⟩, hrecent⟩ := h.flights flight hflight
      have hlt := (h.flights flight hflight).index_lt
      exact ⟨⟨old, (List.getElem?_append_left hlt).trans hold, haccept⟩, hrecent⟩
  have hdelivered := h.in_order.length_le
  have hacknowledged := h.acknowledged
  apply hlater.launch (Nat.le_trans hacknowledged hdelivered)
  exact ⟨⟨payload, List.getElem?_concat_length, hframe⟩, Nat.le_add_right_of_le hdelivered⟩

theorem LinkInv.retransmit (h : LinkInv channelService initial s) {index : Nat}
    {payload : List Octet} {frame : TransferFrame} (hwindow : s.acknowledged ≤ index)
    (hpayload : s.sent[index]? = some payload)
    (hframe : IsAcceptFrame channelService (numberOf initial index) payload frame) :
    LinkInv channelService initial (linkStep channelService s (.retransmit index frame)) := by
  apply h.launch hwindow
  refine ⟨⟨payload, hpayload, hframe⟩, ?_⟩
  have hdelivered := h.in_order.length_le
  have hwin := h.window
  dsimp only
  omega

/-- Copies may go missing anywhere on the link. -/
theorem LinkInv.sublist (h : LinkInv channelService initial s) (rest : List Flight)
    (hrest : rest.Sublist s.inFlight) :
    LinkInv channelService initial { s with inFlight := rest } := by
  refine ⟨h.report, h.unlocked, h.in_order, h.acknowledged, h.window, ?_, h.ordered.sublist hrest⟩
  intro flight hflight
  obtain ⟨hsent, hrecent⟩ := h.flights flight (hrest.subset hflight)
  exact ⟨hsent, hrecent⟩

theorem LinkInv.duplicate (h : LinkInv channelService initial s) (position : Nat) :
    LinkInv channelService initial (linkStep channelService s (.duplicate position)) := by
  refine ⟨h.report, h.unlocked, h.in_order, h.acknowledged, h.window, ?_, ?_⟩
  · intro flight hflight
    have hmem : flight ∈ s.inFlight := by
      rcases List.mem_append.mp hflight with hfront | hback
      · exact List.mem_of_mem_take hfront
      · exact List.mem_of_mem_drop hback
    obtain ⟨hsent, hrecent⟩ := h.flights flight hmem
    exact ⟨hsent, hrecent⟩
  · apply List.pairwise_append.mpr
    refine ⟨h.ordered.sublist (List.take_sublist _ _), h.ordered.sublist (List.drop_sublist _ _), ?_⟩
    intro older holder newer hnewer
    -- the copy at the position is in both parts; all other pairs keep their order
    obtain ⟨i, hi, rfl⟩ := List.mem_take_iff_getElem.mp holder
    obtain ⟨j, hj, rfl⟩ := List.mem_drop_iff_getElem.mp hnewer
    rcases Nat.lt_or_ge i (position + j) with hlt | hge
    · exact List.pairwise_iff_getElem.mp h.ordered i (position + j) (by omega)
        (by omega) hlt
    · have hsame : i = position + j := by omega
      subst hsame
      have hpos : 0 < halfWindow := by decide
      omega

theorem LinkInv.arrive (h : LinkInv channelService initial s) {flight : Flight}
    {rest : List Flight} (hflights : s.inFlight = flight :: rest) (toBuffer : Bool) :
    LinkInv channelService initial (s.arrive channelService flight rest toBuffer) := by
  have hflight := h.flights flight (hflights ▸ List.mem_cons_self)
  have hlt := hflight.index_lt
  obtain ⟨payload, hpayload, hframe⟩ := hflight.sent
  have hwindow := h.window
  have hacknowledged := h.acknowledged
  have hreceived := processFrame_received toBuffer hframe h.report h.unlocked hflight.recent
    (by omega)
  have hrest := h.sublist rest (hflights ▸ List.sublist_cons_self _ _)
  unfold Link.arrive
  generalize processFrame toBuffer s.clcw flight.frame channelService = result at hreceived ⊢
  cases hreceived with
  | refused hreport hopen =>
    exact ⟨hreport, hopen, h.in_order, hacknowledged, hwindow,
      fun other hother => ⟨(hrest.flights other hother).sent, (hrest.flights other hother).recent⟩,
      hrest.ordered⟩
  | delivered hindex hcopy hreport hopen =>
    rw [hindex] at hpayload
    have hlength : (s.delivered ++ [payload]).length = s.delivered.length + 1 := by simp
    refine ⟨?_, hopen, ?_, ?_, hwindow, fun other hother => ⟨?_, ?_⟩, hrest.ordered⟩
    · dsimp only
      rw [hcopy, hlength, hreport]
    · dsimp only
      rw [hcopy]
      obtain ⟨tail, htail⟩ := h.in_order
      rw [← htail, List.getElem?_append_right (Nat.le_refl _), Nat.sub_self] at hpayload
      cases tail with
      | nil => cases hpayload
      | cons next tail =>
        obtain rfl := Option.some.inj hpayload
        exact ⟨tail, by rw [← htail, List.append_assoc, List.singleton_append]⟩
    · dsimp only
      rw [hcopy, hlength]
      omega
    · exact (hrest.flights other hother).sent
    · dsimp only
      rw [hcopy, hlength]
      have hordered := h.ordered
      rw [hflights] at hordered
      have hpair := List.rel_of_pairwise_cons hordered hother
      omega

theorem link_step {s' : Link} {event : LinkEvent} (h : LinkInv channelService initial s)
    (hnext : (farmLink channelService initial).next s event = some s') :
    LinkInv channelService initial s' := by
  obtain ⟨henabled, hstep⟩ := Option.ite_none_right_eq_some.mp hnext
  obtain rfl := Option.some.inj hstep
  cases event with
  | issue payload frame => exact h.issue henabled.1 henabled.2
  | retransmit index frame =>
    obtain ⟨hwindow, payload, hpayload, hframe⟩ := henabled
    exact h.retransmit hwindow hpayload hframe
  | acknowledge upTo =>
    obtain ⟨hlater, hdelivered⟩ := henabled
    have hwindow := h.window
    refine ⟨h.report, h.unlocked, h.in_order, hdelivered, ?_, fun flight hflight => ?_, h.ordered⟩
    · dsimp only [linkStep]
      omega
    · obtain ⟨hsent, hrecent⟩ := h.flights flight hflight
      exact ⟨hsent, hrecent⟩
  | lose position => exact h.sublist _ (List.eraseIdx_sublist _ _)
  | duplicate position => exact h.duplicate position
  | receive toBuffer =>
    dsimp only [linkStep]
    split
    · exact h
    · exact h.arrive ‹_› toBuffer
  | other toBuffer frame =>
    obtain ⟨hreport, hopen⟩ := processFrame_other toBuffer henabled h.unlocked
    refine ⟨hreport.trans h.report, hopen, h.in_order, h.acknowledged, h.window,
      fun flight hflight => ?_, h.ordered⟩
    obtain ⟨hsent, hrecent⟩ := h.flights flight hflight
    exact ⟨hsent, hrecent⟩

theorem link_start (h : (farmLink channelService initial).start s) :
    LinkInv channelService initial s := by
  obtain ⟨hsent, hacknowledged, hflights, hdelivered, hreport, hopen⟩ := h
  refine ⟨?_, hopen, ?_, ?_, ?_, ?_, ?_⟩
  · rw [hreport, hdelivered]
    exact (BitVec.add_zero initial).symm
  · rw [hdelivered]
    exact List.nil_prefix
  · rw [hacknowledged]
    exact Nat.zero_le _
  · rw [hsent]
    exact Nat.zero_le _
  · rw [hflights]
    exact nofun
  · rw [hflights]
    exact List.Pairwise.nil

/-- In every run, what was delivered is a prefix of what was sent, the report
counts it, and the receiver is not locked out. -/
theorem farm_delivers_in_order (channelService : ChannelService) (initial : Octet) {s : Link}
    (h : (farmLink channelService initial).Reachable s) :
    s.delivered <+: s.sent ∧ s.clcw.report = numberOf initial s.delivered.length ∧
      rdLockoutFlg s.clcw = 0 := by
  have hinv : LinkInv channelService initial s :=
    h.invariant (fun _ => link_start) (fun _ _ _ hinv hnext => link_step hinv hnext)
  exact ⟨hinv.in_order, hinv.report, hinv.unlocked⟩

/-! ## A run across the wrap -/

/-- A VCP service without segment header. -/
def plainService : ChannelService := ⟨serviceVcp, 0, 0x42, 0, 0, false, false⟩

/-- One octet of payload, `octet`, in the frame with the given number. -/
def oneOctetFrame (number octet : Octet) : TransferFrame
  | 1 => 0x42
  | 3 => 5
  | 4 => number
  | 5 => octet
  | _ => 0

/-- Numbers 255 and 0: the first frame is lost and sent again, and that copy
arrives twice. -/
def wrapRun : List LinkEvent :=
  [.issue [0xA1] (oneOctetFrame 255 0xA1), .issue [0xA2] (oneOctetFrame 0 0xA2), .lose 0,
    .receive true, .retransmit 0 (oneOctetFrame 255 0xA1), .retransmit 1 (oneOctetFrame 0 0xA2),
    .duplicate 0, .receive true, .receive true, .receive true]

theorem farm_delivers_in_order_wrap : ∃ s, (farmLink plainService 255).Reachable s ∧
    s.delivered = [[0xA1], [0xA2]] ∧ s.delivered <+: s.sent ∧
      s.clcw.report = numberOf 255 s.delivered.length := by
  have hstart : (farmLink plainService 255).start ⟨[], 0, [], ⟨0, 0, 0, 255⟩, []⟩ :=
    ⟨rfl, rfl, rfl, rfl, rfl, by decide⟩
  obtain ⟨s, hreach, hdelivered⟩ := Machine.exists_reaches (fun _ _ => True)
    (fun s : Link => decide (s.delivered = [[0xA1], [0xA2]])) hstart wrapRun (by decide +kernel)
  have hall := farm_delivers_in_order plainService 255 hreach
  exact ⟨s, hreach, of_decide_eq_true hdelivered, hall.1, hall.2.1⟩

end Nos3.IoLib
