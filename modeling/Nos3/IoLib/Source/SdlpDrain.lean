import Nos3.IoLib.Source.SdlpRules
import Nos3.IoLib.Source.TmSdlp

/-!
# The rounds of the drain loop

What the rounds of `TM_SDLP_StartFrame` do, whatever the overflow buffer holds: a
round copies as much as the frame has room for of what the buffer claims to begin
with. Once the frame has less room than the loop still means to copy, no number of
rounds ends it.
-/
namespace Nos3.IoLib
open Base.BigEndian (Octet)
open Base.FileImage (window)
open Base.RingBuffer

variable {f : FrameInfo} {o : OverflowInfo}

/-! ## What the buffer begins with -/

/-- The length field is in the first six octets. -/
theorem msgSize_take (packet : List Octet) : msgSize (packet.take 6) = msgSize packet := by
  unfold msgSize
  simp [List.getD_eq_getElem?_getD, List.getElem?_take_of_lt]

/-- The header that the next packet's size is read from. -/
theorem headLength_whole (hlength : o.buffer.length = o.buffSize) (hcut : o.partialOctets = 0) :
    headLength o = msgSize (readWrapped o.buffer o.dataStart 6) := by
  unfold headLength readWrapped
  rw [if_neg (by omega), hlength]
  by_cases hend : o.buffSize - o.dataStart = 6
  · rw [hend, if_neg (by decide), if_neg (by decide)]
    simp [window]
  · by_cases hwrap : o.buffSize - o.dataStart < 6
    · rw [if_pos hwrap, if_neg (by omega)]
    · rw [if_neg hwrap, if_pos (by omega)]

/-- A round on a frame with room copies something. -/
theorem headLength_pos (o : OverflowInfo) : 0 < headLength o := by
  unfold headLength msgSize
  dsimp only
  split
  · assumption
  · split <;> omega

/-! ## One round -/

/-- A frame into which `k` octets were copied. -/
structure Advanced (f f' : FrameInfo) (k : Nat) : Prop where
  free : f'.freeOctets = f.freeOctets - k
  ready : f'.isReady = f.isReady
  initialized : f'.isInitialized = f.isInitialized
  field : f'.dataFieldLength = f.dataFieldLength
  overflow : f'.overflowInfo = f.overflowInfo

theorem Advanced.trans {f f' f'' : FrameInfo} {j k : Nat} (h : Advanced f f' j)
    (h' : Advanced f' f'' k) : Advanced f f'' (j + k) := by
  refine ⟨?_, h'.ready.trans h.ready, h'.initialized.trans h.initialized,
    h'.field.trans h.field, h'.overflow.trans h.overflow⟩
  rw [h'.free, h.free, Nat.sub_sub]

theorem copyToFrame_advanced (f : FrameInfo) (pData : List Octet) (k : Nat) (isPacket : Bool) :
    (copyToFrame f pData k isPacket).1 = ((copyToFrame f pData k isPacket).2.freeOctets : Int) ∧
      Advanced f (copyToFrame f pData k isPacket).2 k := by
  unfold copyToFrame
  dsimp only
  split
  · exact ⟨rfl, rfl, rfl, rfl, rfl, rfl⟩
  · exact ⟨rfl, rfl, rfl, rfl, rfl, rfl⟩

/-- Data for which the frame has room. -/
theorem addData_advanced (hready : f.isReady = true) (pData : List Octet) {k : Nat}
    (isPacket : Bool) (hroom : k ≤ f.freeOctets) :
    (addData f pData k isPacket).1 = ((addData f pData k isPacket).2.freeOctets : Int) ∧
      Advanced f (addData f pData k isPacket).2 k := by
  rw [addData_fits isPacket hready hroom]
  exact copyToFrame_advanced f pData k isPacket

/-- The place behind a block that was copied out of the buffer. -/
def behind (o : OverflowInfo) (k : Nat) : Nat :=
  if k < o.buffSize - o.dataStart then o.dataStart + k else k - (o.buffSize - o.dataStart)

theorem copyWrapped_advanced (hready : f.isReady = true) (setHeader : Bool) {k : Nat}
    (hroom : k ≤ f.freeOctets) (hsmall : f.freeOctets < 2 ^ 16) :
    ∃ f', Advanced f f' k ∧ copyWrapped f k setHeader = ((f'.freeOctets : Int),
      { f' with overflowInfo.dataStart := behind f.overflowInfo k }) := by
  unfold copyWrapped behind
  dsimp only
  by_cases hwrap : k < f.overflowInfo.buffSize - f.overflowInfo.dataStart
  · rw [if_pos hwrap, if_pos hwrap, Nat.mod_eq_of_lt (by omega : k < 2 ^ 16)]
    obtain ⟨hfree, hadvanced⟩ := addData_advanced hready
      (f.overflowInfo.buffer.drop f.overflowInfo.dataStart) setHeader hroom
    refine ⟨_, hadvanced, ?_⟩
    rw [hfree, hadvanced.overflow]
  · rw [if_neg hwrap, if_neg hwrap]
    generalize f.overflowInfo.buffSize - f.overflowInfo.dataStart = lengthToEnd at *
    rw [Nat.mod_eq_of_lt (by omega : lengthToEnd < 2 ^ 16),
      Nat.mod_eq_of_lt (by omega : k - lengthToEnd < 2 ^ 16)]
    obtain ⟨-, hfirst⟩ := addData_advanced hready
      (f.overflowInfo.buffer.drop f.overflowInfo.dataStart) setHeader
      (by omega : lengthToEnd ≤ f.freeOctets)
    obtain ⟨hfree, hsecond⟩ := addData_advanced (hfirst.ready.trans hready) f.overflowInfo.buffer
      setHeader (by rw [hfirst.free]; omega : k - lengthToEnd ≤ _)
    have hwhole := hfirst.trans hsecond
    rw [Nat.add_sub_cancel' (by omega)] at hwhole
    refine ⟨_, hwhole, ?_⟩
    rw [hfree]

/-- How many octets a round copies. -/
def roundLength (f : FrameInfo) : Nat := min f.freeOctets (headLength f.overflowInfo)

/-- The new count of partial octets. -/
def leftover (f : FrameInfo) : Nat :=
  if f.freeOctets < headLength f.overflowInfo then
    if (!decide (0 < f.overflowInfo.partialOctets)) = true then
      (headLength f.overflowInfo - f.freeOctets) % 2 ^ 16
    else sub16 f.overflowInfo.partialOctets f.freeOctets
  else if (!decide (0 < f.overflowInfo.partialOctets)) = true then f.overflowInfo.partialOctets
  else 0

/-- What a round leaves of the packet it was at. -/
theorem leftover_eq (hsmall : headLength f.overflowInfo < 2 ^ 16) :
    leftover f = headLength f.overflowInfo - roundLength f := by
  unfold leftover roundLength
  by_cases hcut : 0 < f.overflowInfo.partialOctets
  · have hhead : headLength f.overflowInfo = f.overflowInfo.partialOctets := by
      unfold headLength
      exact if_pos hcut
    simp only [hcut, decide_true, Bool.not_true, Bool.false_eq_true, if_false]
    split
    · rw [sub16_of_le (by omega) (by omega)]
      omega
    · omega
  · simp only [hcut, decide_false, Bool.not_false, if_true]
    split
    · rw [Nat.mod_eq_of_lt (by omega)]
      omega
    · omega

theorem copyFromOverflow_advanced (hready : f.isReady = true) (hsmall : f.freeOctets < 2 ^ 16) :
    ∃ f', Advanced f f' (roundLength f) ∧ copyFromOverflow f = (roundLength f, { f' with
      overflowInfo := { f.overflowInfo with
        partialOctets := leftover f
        dataStart := behind f.overflowInfo (roundLength f)
        freeOctets := add16 f.overflowInfo.freeOctets (roundLength f) } }) := by
  have hcount : (if f.freeOctets < headLength f.overflowInfo then f.freeOctets
      else headLength f.overflowInfo) = roundLength f := by
    unfold roundLength
    split <;> omega
  have hle : roundLength f ≤ f.freeOctets := Nat.min_le_left _ _
  obtain ⟨f', hadvanced, hcopy⟩ := copyWrapped_advanced
    (f := { f with overflowInfo.partialOctets := leftover f }) hready
    (!decide (0 < f.overflowInfo.partialOctets)) hle hsmall
  refine ⟨{ f' with overflowInfo := f.overflowInfo },
    ⟨hadvanced.free, hadvanced.ready, hadvanced.initialized, hadvanced.field, rfl⟩, ?_⟩
  have hback : ((f'.freeOctets : Int) % 2 ^ 16).toNat = f'.freeOctets := by
    have hfree : f'.freeOctets = f.freeOctets - roundLength f := hadvanced.free
    omega
  obtain ⟨added, hadded⟩ : ∃ added, added = copyWrapped
      { f with overflowInfo.partialOctets := leftover f } (roundLength f)
      (!decide (0 < f.overflowInfo.partialOctets)) := ⟨_, rfl⟩
  have hround : copyFromOverflow f = (roundLength f, { added.2 with
      overflowInfo.freeOctets := add16 added.2.overflowInfo.freeOctets (roundLength f)
      freeOctets := (added.1 % 2 ^ 16).toNat }) := by
    unfold copyFromOverflow
    dsimp only
    rw [hcount, hadded]
    rfl
  rw [hround, hadded, hcopy, hadvanced.overflow]
  dsimp only
  rw [hback]
  rfl

/-! ## The loop -/

/-- A loop that means to copy more than the frame has room for does not end. -/
theorem drainOverflow_runaway : ∀ (rounds lengthToCopy : Nat) (f : FrameInfo), f.isReady = true →
    f.freeOctets < lengthToCopy → lengthToCopy < 2 ^ 16 →
    drainOverflow rounds lengthToCopy f = none := by
  intro rounds
  induction rounds with
  | zero =>
    intro lengthToCopy f _ hmore _
    obtain ⟨rest, rfl⟩ := Nat.exists_eq_succ_of_ne_zero (Nat.ne_of_gt (Nat.zero_lt_of_lt hmore))
    rw [drainOverflow]
  | succ rounds ih =>
    intro lengthToCopy f hready hmore hsmall
    obtain ⟨rest, rfl⟩ := Nat.exists_eq_succ_of_ne_zero (Nat.ne_of_gt (Nat.zero_lt_of_lt hmore))
    obtain ⟨f', hadvanced, hround⟩ := copyFromOverflow_advanced hready (by omega)
    have hcount : roundLength f ≤ f.freeOctets := Nat.min_le_left _ _
    have hfree := hadvanced.free
    rw [drainOverflow, hround, sub16_of_le (by dsimp only; omega) hsmall]
    exact ih _ _ (hadvanced.ready.trans hready) (by dsimp only; omega) (by dsimp only; omega)

end Nos3.IoLib

/-!
## Draining the overflow buffer

A frame starts with what waits in the overflow buffer, one packet a round, as far
as it has room. The size of a packet is read from its header in the buffer, also
where the header goes past the buffer's end.
-/
namespace Nos3.IoLib
open Base.BigEndian (Octet)
open Base.FileImage (window)
open Base.RingBuffer
open Base.PacketStream

variable {o : OverflowInfo} {queue : List (Item Octet)} {f : FrameInfo} {s : Stream Octet}

theorem Overflow.start_lt (h : Overflow o queue) (hne : queue ≠ []) : o.dataStart < o.buffSize := by
  have hused := h.used
  have hstart := h.start
  have hpos := List.length_pos_of_ne_nil hne
  omega

/-- Reading from the start of the overflow buffer gives the oldest cells. -/
theorem Overflow.read (h : Overflow o queue) {k : Nat} (hk : k ≤ queue.length) :
    readWrapped o.buffer o.dataStart k = cells (queue.take k) := by
  have hused := h.used
  rw [h.ring.read (by omega), h.waiting_eq, cells_take]

/-- What the overflow buffer begins with. -/
theorem Overflow.head (h : Overflow o queue) (hne : queue ≠ []) :
    0 < headLength o ∧ headLength o ≤ queue.length ∧
      ∀ k, 0 < k → k ≤ headLength o → Queued Sendable (headLength o - k) (queue.drop k) ∧
        firstStart (queue.take k) = if 0 < o.partialOctets then none else some 0 := by
  by_cases hcut : 0 < o.partialOctets
  · have hhead : headLength o = o.partialOctets := by
      unfold headLength
      exact if_pos hcut
    rw [hhead]
    refine ⟨hcut, h.packets.cut_le, fun k _ hk => ?_⟩
    obtain ⟨hrest, hnone⟩ := h.packets.drain_rest hk
    rw [if_pos hcut]
    exact ⟨hrest, firstStart_eq_none hnone⟩
  · have hzero : o.partialOctets = 0 := by omega
    have hpackets := h.packets
    rw [hzero] at hpackets
    obtain ⟨packet, later, hgood, hqueue, hlater⟩ := hpackets.next hne
    have hseven := hgood.seven_le
    have hlength : queue.length = packet.length + later.length := by
      rw [hqueue, List.length_append, packetItems_length]
    have hhead : headLength o = packet.length := by
      rw [headLength_whole h.length hzero, h.read (by omega), hqueue,
        List.take_append_of_le_length (by rw [packetItems_length]; omega), cells_take,
        cells_packetItems, msgSize_take, hgood.1]
    rw [hhead]
    refine ⟨by omega, by omega, fun k hpos hk => ?_⟩
    rw [if_neg hcut, hqueue, List.take_append_of_le_length (by rw [packetItems_length]; exact hk)]
    exact ⟨hlater.drain_packet hpos hk,
      firstStart_packet (List.ne_nil_of_length_pos (by omega)) hpos⟩

/-! ## One round -/

/-- The copies bring a block from the overflow buffer to the frame. -/
theorem copyWrapped_copied {data block : List (Item Octet)} (h : Framed f data)
    (hready : f.isReady = true) (setHeader : Bool) (hroom : block.length ≤ f.freeOctets)
    (hlength : f.overflowInfo.buffer.length = f.overflowInfo.buffSize)
    (hstart : f.overflowInfo.dataStart < f.overflowInfo.buffSize)
    (hfits : block.length ≤ f.overflowInfo.buffSize) (hsmall : f.overflowInfo.buffSize < 2 ^ 16)
    (hread : readWrapped f.overflowInfo.buffer f.overflowInfo.dataStart block.length =
      cells block) :
    ∃ f', Copied f f' data block setHeader ∧
      copyWrapped f block.length setHeader = ((f'.freeOctets : Int), { f' with
        overflowInfo.dataStart :=
          wrapIndex f.overflowInfo.buffSize f.overflowInfo.dataStart block.length }) := by
  unfold readWrapped at hread
  rw [hlength] at hread
  unfold copyWrapped
  dsimp only
  rw [Nat.mod_eq_of_lt (by omega : block.length < 2 ^ 16)]
  by_cases hwrap : block.length < f.overflowInfo.buffSize - f.overflowInfo.dataStart
  · rw [if_pos hwrap] at hread ⊢
    obtain ⟨hfree, hcopied⟩ := copyToFrame_copied h block
      (f.overflowInfo.buffer.drop f.overflowInfo.dataStart) setHeader hread hroom
    refine ⟨_, hcopied, ?_⟩
    rw [addData_fits setHeader hready hroom, hfree, hcopied.overflow]
    unfold wrapIndex
    rw [if_pos (by omega)]
  · rw [if_neg hwrap] at hread ⊢
    generalize hend : f.overflowInfo.buffSize - f.overflowInfo.dataStart = lengthToEnd at *
    have hfront : (block.take lengthToEnd).length = lengthToEnd := by
      rw [List.length_take]
      omega
    have hback : (block.drop lengthToEnd).length = block.length - lengthToEnd := List.length_drop
    have hwindow : (window f.overflowInfo.buffer f.overflowInfo.dataStart lengthToEnd).length =
        lengthToEnd := by
      rw [Base.FileImage.window_length]
      omega
    have hfirst : window f.overflowInfo.buffer f.overflowInfo.dataStart lengthToEnd =
        cells (block.take lengthToEnd) := by
      rw [cells_take, ← hread, List.take_left' hwindow]
    have hsecond : f.overflowInfo.buffer.take (block.length - lengthToEnd) =
        cells (block.drop lengthToEnd) := by
      rw [cells_drop, ← hread, List.drop_left' hwindow]
      rfl
    obtain ⟨-, hcopied⟩ := copyToFrame_copied h (block.take lengthToEnd)
      (f.overflowInfo.buffer.drop f.overflowInfo.dataStart) setHeader (by rw [hfront]; exact hfirst)
      (by rw [hfront]; omega)
    rw [hfront] at hcopied
    have hroom' : block.length - lengthToEnd ≤
        (copyToFrame f (f.overflowInfo.buffer.drop f.overflowInfo.dataStart) lengthToEnd
          setHeader).2.freeOctets := by
      have hfree := hcopied.free
      omega
    obtain ⟨hfree, hrest⟩ := copyToFrame_copied hcopied.framed (block.drop lengthToEnd)
      f.overflowInfo.buffer setHeader (by rw [hback]; exact hsecond) (by rw [hback]; exact hroom')
    rw [hback] at hfree hrest
    have hwhole := hcopied.trans hrest
    rw [List.take_append_drop] at hwhole
    refine ⟨_, hwhole, ?_⟩
    rw [Nat.mod_eq_of_lt (by omega : lengthToEnd < 2 ^ 16),
      Nat.mod_eq_of_lt (by omega : block.length - lengthToEnd < 2 ^ 16),
      addData_fits setHeader hready (by omega),
      addData_fits setHeader (hcopied.ready.trans hready) hroom', hfree]
    unfold wrapIndex
    rw [if_neg (by omega)]
    congr 3
    omega

/-- A round moves at least one cell while the frame has room and something waits. -/
theorem copyFromOverflow_drain (h : Holds f s) (hready : f.isReady = true)
    (hfree : 0 < f.freeOctets) (hqueue : s.queue ≠ []) :
    ∃ k, 0 < k ∧ k ≤ f.freeOctets ∧ k ≤ s.queue.length ∧ (copyFromOverflow f).1 = k ∧
      Holds (copyFromOverflow f).2 (s.drain k) ∧ (copyFromOverflow f).2.isReady = true ∧
      (copyFromOverflow f).2.freeOctets = f.freeOctets - k ∧
      (Points f s.data → Points (copyFromOverflow f).2 (s.drain k).data) := by
  obtain ⟨hpos, hle, hhead⟩ := h.overflow.head hqueue
  have hused := h.overflow.used
  have hsmall := h.overflow.small
  have hroom := h.room
  have hocf := h.layout.ocf
  have herr := h.layout.errCtrl
  have hinside := h.layout.inside
  have hframe := h.layout.small
  obtain ⟨k, hk⟩ : ∃ k, k = min f.freeOctets (headLength f.overflowInfo) := ⟨_, rfl⟩
  obtain ⟨hrest, hfirst⟩ := hhead k (by omega) (by omega)
  have hblock : (s.queue.take k).length = k := by
    rw [List.length_take]
    omega
  have hcut := leftover_eq (f := f) (by omega)
  unfold leftover roundLength at hcut
  have hcount : (if f.freeOctets < headLength f.overflowInfo then f.freeOctets
      else headLength f.overflowInfo) = k := by
    rw [hk]
    split <;> omega
  rw [← hk] at hcut
  let f₁ : FrameInfo :=
    { f with overflowInfo.partialOctets := headLength f.overflowInfo - k }
  have hframed : Framed f₁ s.data :=
    ⟨h.layout.of_frame rfl rfl rfl rfl rfl rfl rfl rfl, h.room, h.current, h.octets⟩
  have hblockRoom : (s.queue.take k).length ≤ f₁.freeOctets := by
    rw [hblock]
    exact hk ▸ Nat.min_le_left _ _
  obtain ⟨f', hcopied, hcopy⟩ := copyWrapped_copied hframed hready
    (!decide (0 < f.overflowInfo.partialOctets)) hblockRoom
    h.overflow.length (h.overflow.start_lt hqueue) (by rw [hblock]; dsimp only [f₁]; omega) hsmall
    (by rw [hblock]; exact h.overflow.read (by omega))
  rw [hblock] at hcopy
  have hfree' := hcopied.free
  rw [hblock] at hfree'
  have hback : ((f'.freeOctets : Int) % 2 ^ 16).toNat = f'.freeOctets := by
    have : f'.freeOctets < 2 ^ 16 := by
      rw [hfree']
      dsimp only [f₁]
      omega
    omega
  have heq : copyFromOverflow f = (k, { f' with
      overflowInfo := { f.overflowInfo with
        partialOctets := headLength f.overflowInfo - k
        dataStart := wrapIndex f.overflowInfo.buffSize f.overflowInfo.dataStart k
        freeOctets := f.overflowInfo.freeOctets + k } }) := by
    obtain ⟨added, hadded⟩ :
        ∃ added, added = copyWrapped f₁ k (!decide (0 < f.overflowInfo.partialOctets)) := ⟨_, rfl⟩
    have hround : copyFromOverflow f = (k, { added.2 with
        overflowInfo.freeOctets := add16 added.2.overflowInfo.freeOctets k
        freeOctets := (added.1 % 2 ^ 16).toNat }) := by
      unfold copyFromOverflow
      dsimp only
      rw [hcount, hcut, hadded]
    rw [hround, hadded, hcopy, hcopied.overflow]
    dsimp only [f₁]
    rw [hback, add16_of_lt (by omega)]
  rw [heq]
  refine ⟨k, by omega, hk ▸ Nat.min_le_left _ _, by omega, rfl, ⟨?_, ?_⟩,
    hcopied.ready.trans hready, hfree', fun hpoints => ?_⟩
  · exact ⟨hcopied.framed.layout.of_frame rfl rfl rfl rfl rfl rfl rfl rfl, hcopied.framed.room,
      hcopied.framed.current, hcopied.framed.octets⟩
  · exact h.overflow.pop (by omega) (by omega) hrest
  · refine Points.withOverflow (Points.copied (hpoints.withOverflow _) hcopied ?_ ?_) _
    · intro hwhole
      right
      rw [hfirst, if_neg (by simpa using hwhole)]
    · intro hpartial
      rw [hfirst, if_pos (by simpa using hpartial)]

/-! ## All rounds -/

/-- The loop ends after moving what it set out to move. -/
theorem drainOverflow_drain : ∀ (fuel lengthToCopy : Nat) (f : FrameInfo) (s : Stream Octet),
    Holds f s → f.isReady = true → lengthToCopy = min f.freeOctets s.queue.length →
    lengthToCopy ≤ fuel →
    ∃ f', drainOverflow fuel lengthToCopy f = some f' ∧ Holds f' (s.drain lengthToCopy) ∧
      f'.isReady = true ∧ f'.freeOctets = f.freeOctets - lengthToCopy ∧
      (Points f s.data → Points f' (s.drain lengthToCopy).data) := by
  intro fuel
  induction fuel with
  | zero =>
    intro lengthToCopy f s h hready _ hfuel
    obtain rfl : lengthToCopy = 0 := by omega
    refine ⟨f, by rw [drainOverflow], ?_, hready, rfl, ?_⟩
    · simpa [Stream.drain] using h
    · simp [Stream.drain]
  | succ fuel ih =>
    intro lengthToCopy f s h hready hmin hfuel
    cases lengthToCopy with
    | zero =>
      refine ⟨f, by rw [drainOverflow], ?_, hready, rfl, ?_⟩
      · simpa [Stream.drain] using h
      · simp [Stream.drain]
    | succ rest =>
      have hqueue : s.queue ≠ [] := List.ne_nil_of_length_pos (by omega)
      obtain ⟨k, hpos, hfree, hle, hcount, hholds, hready', hfree', hpoints⟩ :=
        copyFromOverflow_drain h hready (by omega) hqueue
      have hused := h.overflow.used
      have hsmall := h.overflow.small
      have hsub : sub16 (rest + 1) k = rest + 1 - k := sub16_of_le (by omega) (by omega)
      have hlength : (s.drain k).queue.length = s.queue.length - k := List.length_drop
      obtain ⟨f', hrun, hholds', hready'', hfree'', hpoints'⟩ :=
        ih (rest + 1 - k) _ _ hholds hready' (by rw [hfree', hlength]; omega) (by omega)
      rw [Stream.drain_drain, Nat.add_sub_cancel' (by omega)] at hholds' hpoints'
      refine ⟨f', ?_, hholds', hready'', by omega, fun hp => hpoints' (hpoints hp)⟩
      rw [drainOverflow, hcount, hsub, hrun]

/-! ## Starting a frame -/

/-- What a started and a completed frame satisfy. -/
structure Idle (f : FrameInfo) (s : Stream Octet) : Prop where
  ready : f.isReady = true → Settled f s
  empty : f.isReady = false → s.data = []

/-- The number of octets `TM_SDLP_StartFrame` sets out to move. -/
theorem startFrame_eq (h : Holds f s) : startFrame f =
    drainOverflow (min f.dataFieldLength s.queue.length) (min f.dataFieldLength s.queue.length)
      { f with isReady := true } := by
  have hcount : (waiting f.overflowInfo).length = s.queue.length := by
    rw [h.overflow.waiting_eq, cells_length]
  unfold startFrame
  rw [if_neg (by simp [h.layout.initialized])]
  dsimp only
  rw [h.overflow.ring.taken_eq, hcount]

theorem Holds.setReady (h : Holds f s) : Holds { f with isReady := true } s :=
  ⟨⟨h.layout.of_frame rfl rfl rfl rfl rfl rfl rfl rfl, h.room, h.current, h.octets⟩, h.overflow⟩

/-- A frame that was not started takes what waits, as far as it has room. -/
theorem startFrame_drain (h : Holds f s) (hidle : Idle f s) (hready : f.isReady = false) :
    ∃ f', startFrame f = some f' ∧
      Holds f' (s.drain (min f.dataFieldLength s.queue.length)) ∧ f'.isReady = true ∧
      Settled f' (s.drain (min f.dataFieldLength s.queue.length)) ∧
      (Points f s.data → Points f' (s.drain (min f.dataFieldLength s.queue.length)).data) := by
  have hroom := h.room
  rw [hidle.empty hready, List.length_nil] at hroom
  obtain ⟨f', hrun, hholds, hready', hfree, hpoints⟩ :=
    drainOverflow_drain (min f.dataFieldLength s.queue.length) _ _ s h.setReady rfl
      (by dsimp only; omega) (Nat.le_refl _)
  refine ⟨f', (startFrame_eq h).trans hrun, hholds, hready', ?_,
    fun hp => hpoints ⟨hp.unset, hp.set⟩⟩
  dsimp only at hfree
  by_cases hall : f.dataFieldLength ≤ s.queue.length
  · left
    omega
  · right
    exact List.drop_eq_nil_of_le (by omega)

/-- Starting a frame once more changes nothing, if it ends. -/
theorem startFrame_again {f' : FrameInfo} (h : Holds f s) (hidle : Idle f s)
    (hready : f.isReady = true) (hrun : startFrame f = some f') : f' = f := by
  have hused := h.overflow.used
  have hsmall := h.overflow.small
  have hsame : { f with isReady := true } = f := by rw [← hready]
  rw [startFrame_eq h, hsame] at hrun
  by_cases hnone : min f.dataFieldLength s.queue.length = 0
  · rw [hnone, drainOverflow] at hrun
    exact (Option.some.inj hrun).symm
  · have hfull : f.freeOctets = 0 := by
      refine (hidle.ready hready).resolve_right fun hqueue => hnone ?_
      rw [hqueue]
      exact Nat.min_zero _
    rw [drainOverflow_runaway _ _ f hready (by omega) (by omega)] at hrun
    cases hrun

end Nos3.IoLib

/-!
## Whole packets in the overflow buffer

The drain loop takes what waits for the rest of a cut packet and whole packets
behind it. For a frame with more room than octets wait, that is exactly when the
loop ends; a frame without gets full either way.
-/
namespace Nos3.IoLib
open Base.BigEndian (Octet)
open Base.RingBuffer

/-- `cut` octets, and packets as long as their headers say behind them. -/
def WholePackets (cut : Nat) (octets : List Octet) : Prop :=
  cut ≤ octets.length ∧ ∃ packets : List (List Octet), octets.drop cut = packets.flatten ∧
    ∀ packet ∈ packets, msgSize packet = packet.length

variable {cut : Nat} {octets : List Octet} {f : FrameInfo} {o : OverflowInfo}

theorem seven_le_msgSize (packet : List Octet) : 7 ≤ msgSize packet := by
  unfold msgSize
  omega

theorem msgSize_append {packet : List Octet} (h : 6 ≤ packet.length) (rest : List Octet) :
    msgSize (packet ++ rest) = msgSize packet := by
  rw [← msgSize_take, List.take_append_of_le_length h, msgSize_take]

theorem wholePackets_nil : WholePackets 0 [] := ⟨Nat.le_refl 0, [], rfl, nofun⟩

theorem wholePackets_rest :
    WholePackets cut octets ↔ cut ≤ octets.length ∧ WholePackets 0 (octets.drop cut) := by
  unfold WholePackets
  simp

/-- The first packet and the ones behind it. -/
theorem wholePackets_next (hne : octets ≠ []) : WholePackets 0 octets ↔
    msgSize octets ≤ octets.length ∧ WholePackets 0 (octets.drop (msgSize octets)) := by
  have hseven := seven_le_msgSize octets
  constructor
  · rintro ⟨-, packets, hflat, hwhole⟩
    cases packets with
    | nil => exact absurd hflat hne
    | cons packet packets =>
      have hsize := hwhole packet List.mem_cons_self
      have hlong := seven_le_msgSize packet
      rw [List.drop_zero, List.flatten_cons] at hflat
      have hfirst : msgSize octets = packet.length := by
        rw [hflat, msgSize_append (by omega), hsize]
      rw [hfirst, hflat, List.drop_left, List.length_append]
      exact ⟨by omega, Nat.zero_le _, packets, rfl,
        fun other hother => hwhole other (List.mem_cons_of_mem _ hother)⟩
  · rintro ⟨hfits, -, packets, hflat, hwhole⟩
    have hlength : (octets.take (msgSize octets)).length = msgSize octets := by
      rw [List.length_take]
      omega
    refine ⟨Nat.zero_le _, octets.take (msgSize octets) :: packets, ?_, ?_⟩
    · rw [List.flatten_cons, ← hflat, List.drop_zero, List.drop_zero, List.take_append_drop]
    · intro packet hpacket
      rcases List.mem_cons.mp hpacket with rfl | hlater
      · rw [hlength, ← msgSize_append (by omega) (octets.drop (msgSize octets)),
          List.take_append_drop]
      · exact hwhole packet hlater

/-- Packets that join behind whole packets. -/
theorem wholePackets_append {more : List Octet} (h : WholePackets cut octets)
    (hmore : WholePackets 0 more) : WholePackets cut (octets ++ more) := by
  obtain ⟨hcut, packets, hflat, hwhole⟩ := h
  obtain ⟨-, others, hflat', hwhole'⟩ := hmore
  refine ⟨by rw [List.length_append]; omega, packets ++ others, ?_, ?_⟩
  · rw [List.drop_append_of_le_length hcut, hflat, List.flatten_append, ← hflat', List.drop_zero]
  · intro packet hpacket
    exact (List.mem_append.mp hpacket).elim (hwhole packet) (hwhole' packet)

/-- The rest of a cut packet, alone. -/
theorem wholePackets_cut (h : octets.length = cut) : WholePackets cut octets :=
  ⟨Nat.le_of_eq h.symm, [], List.drop_eq_nil_of_le (Nat.le_of_eq h), nofun⟩

theorem wholePackets_single {packet : List Octet} (h : msgSize packet = packet.length) :
    WholePackets 0 packet :=
  ⟨Nat.zero_le _, [packet], by simp, fun _ hpacket => List.mem_singleton.mp hpacket ▸ h⟩

/-- What the loop takes for the first packet is one that waits whole. -/
theorem Ring.whole_iff (h : Ring o) (hne : waiting o ≠ []) :
    WholePackets o.partialOctets (waiting o) ↔ headLength o ≤ (waiting o).length ∧
      WholePackets 0 ((waiting o).drop (headLength o)) := by
  by_cases hcut : 0 < o.partialOctets
  · have hhead : headLength o = o.partialOctets := by
      unfold headLength
      exact if_pos hcut
    rw [hhead]
    exact wholePackets_rest
  · have hzero : o.partialOctets = 0 := by omega
    have hhead := headLength_whole h.length hzero
    rw [hzero]
    by_cases hsix : 6 ≤ (waiting o).length
    · rw [hhead, h.read (by rw [← h.waiting_length]; exact hsix), msgSize_take]
      exact wholePackets_next hne
    · have hshort := seven_le_msgSize (waiting o)
      have hseven := seven_le_msgSize (readWrapped o.buffer o.dataStart 6)
      constructor
      · intro hwhole
        have hfits := ((wholePackets_next hne).mp hwhole).1
        omega
      · rintro ⟨hfits, -⟩
        omega

/-! ## The loop -/

/-- A frame to which the oldest `k` octets were moved. -/
structure Drained (f f' : FrameInfo) (k : Nat) : Prop where
  free : f'.freeOctets = f.freeOctets - k
  ready : f'.isReady = f.isReady
  initialized : f'.isInitialized = f.isInitialized
  field : f'.dataFieldLength = f.dataFieldLength
  ring : Ring f'.overflowInfo
  left : waiting f'.overflowInfo = (waiting f.overflowInfo).drop k

theorem Drained.trans {f f' f'' : FrameInfo} {j k : Nat} (h : Drained f f' j)
    (h' : Drained f' f'' k) : Drained f f'' (j + k) := by
  refine ⟨?_, h'.ready.trans h.ready, h'.initialized.trans h.initialized,
    h'.field.trans h.field, h'.ring, ?_⟩
  · rw [h'.free, h.free, Nat.sub_sub]
  · rw [h'.left, h.left, List.drop_drop]

/-- A round that finds what it copies. -/
theorem copyFromOverflow_drained (h : Ring f.overflowInfo) (hready : f.isReady = true)
    (hsmall : f.freeOctets < 2 ^ 16) (hpos : 0 < roundLength f)
    (hle : roundLength f ≤ (waiting f.overflowInfo).length) :
    ∃ f', copyFromOverflow f = (roundLength f, f') ∧ Drained f f' (roundLength f) ∧
      f'.overflowInfo.partialOctets = leftover f := by
  obtain ⟨f', hadvanced, hround⟩ := copyFromOverflow_advanced hready hsmall
  have hbuffer := h.small
  have hroom := h.room
  rw [h.waiting_length] at hle
  obtain ⟨hring, hleft⟩ := h.pop hle hpos (leftover f)
  have hstart := h.start_lt (by omega)
  have hbehind : behind f.overflowInfo (roundLength f) =
      wrapIndex f.overflowInfo.buffSize f.overflowInfo.dataStart (roundLength f) := by
    unfold behind wrapIndex
    split <;> split <;> omega
  rw [hbehind, add16_of_lt (by omega)] at hround
  exact ⟨_, hround, ⟨hadvanced.free, hadvanced.ready, hadvanced.initialized, hadvanced.field,
    hring, hleft⟩, rfl⟩

/-- A round that copies a part of a packet leaves the rest of it cut. -/
theorem Drained.whole {f' : FrameInfo} (h : Ring f.overflowInfo)
    (hdrained : Drained f f' (roundLength f)) (hcut : f'.overflowInfo.partialOctets = leftover f)
    (hne : waiting f.overflowInfo ≠ [])
    (hwhole : WholePackets f.overflowInfo.partialOctets (waiting f.overflowInfo)) :
    WholePackets f'.overflowInfo.partialOctets (waiting f'.overflowInfo) := by
  obtain ⟨hfits, hrest⟩ := (h.whole_iff hne).mp hwhole
  have hsmall := h.small
  have hlength := h.waiting_length
  have hround : roundLength f ≤ headLength f.overflowInfo := Nat.min_le_right _ _
  rw [hcut, leftover_eq (by omega), hdrained.left, wholePackets_rest, List.length_drop,
    List.drop_drop, Nat.add_sub_cancel' hround]
  exact ⟨by omega, hrest⟩

/-- The loop ends when the frame gets full or whole packets wait. -/
theorem drainOverflow_ends : ∀ (rounds lengthToCopy : Nat) (f : FrameInfo), Ring f.overflowInfo →
    f.isReady = true → f.freeOctets < 2 ^ 16 →
    lengthToCopy = min f.freeOctets (waiting f.overflowInfo).length →
    f.freeOctets ≤ (waiting f.overflowInfo).length ∨
      WholePackets f.overflowInfo.partialOctets (waiting f.overflowInfo) →
    lengthToCopy ≤ rounds →
    ∃ f', drainOverflow rounds lengthToCopy f = some f' ∧ Drained f f' lengthToCopy ∧
      (WholePackets f.overflowInfo.partialOctets (waiting f.overflowInfo) →
        WholePackets f'.overflowInfo.partialOctets (waiting f'.overflowInfo)) := by
  intro rounds
  induction rounds with
  | zero =>
    intro lengthToCopy f h _ _ _ _ hrounds
    obtain rfl : lengthToCopy = 0 := by omega
    exact ⟨f, by rw [drainOverflow], ⟨rfl, rfl, rfl, rfl, h, rfl⟩, id⟩
  | succ rounds ih =>
    intro lengthToCopy f h hready hsmall hmin hends hrounds
    cases lengthToCopy with
    | zero => exact ⟨f, by rw [drainOverflow], ⟨rfl, rfl, rfl, rfl, h, rfl⟩, id⟩
    | succ rest =>
      have hne : waiting f.overflowInfo ≠ [] := List.ne_nil_of_length_pos (by omega)
      have hhead := headLength_pos f.overflowInfo
      have hlength : roundLength f = min f.freeOctets (headLength f.overflowInfo) := rfl
      have hle : roundLength f ≤ (waiting f.overflowInfo).length := by
        rcases hends with hfull | hwhole
        · omega
        · have hfits := ((h.whole_iff hne).mp hwhole).1
          omega
      obtain ⟨f', hround, hdrained, hcut⟩ :=
        copyFromOverflow_drained h hready hsmall (by omega) hle
      have hfree := hdrained.free
      have hleft := congrArg List.length hdrained.left
      rw [List.length_drop] at hleft
      have hkept := hdrained.whole h hcut hne
      have hends' := hends.imp (fun hfull =>
        (by omega : f'.freeOctets ≤ (waiting f'.overflowInfo).length)) hkept
      obtain ⟨f'', hrun, hdrained', hkept'⟩ := ih (rest + 1 - roundLength f) f' hdrained.ring
        (hdrained.ready.trans hready) (by omega) (by omega) hends' (by omega)
      have hall := hdrained.trans hdrained'
      rw [Nat.add_sub_cancel' (by omega)] at hall
      refine ⟨f'', ?_, hall, fun hwhole => hkept' (hkept hwhole)⟩
      rw [drainOverflow, hround, sub16_of_le (by omega) (by omega), hrun]

/-- On a frame with more room than octets wait, the loop goes on for ever unless they
are whole packets. -/
theorem drainOverflow_endless : ∀ (rounds lengthToCopy : Nat) (f : FrameInfo),
    Ring f.overflowInfo → f.isReady = true → f.freeOctets < 2 ^ 16 →
    lengthToCopy = (waiting f.overflowInfo).length → 0 < lengthToCopy →
    lengthToCopy < f.freeOctets →
    ¬ WholePackets f.overflowInfo.partialOctets (waiting f.overflowInfo) →
    drainOverflow rounds lengthToCopy f = none := by
  intro rounds
  induction rounds with
  | zero =>
    intro lengthToCopy f _ _ _ _ hpos _ _
    obtain ⟨rest, rfl⟩ := Nat.exists_eq_succ_of_ne_zero (Nat.ne_of_gt hpos)
    rw [drainOverflow]
  | succ rounds ih =>
    intro lengthToCopy f h hready hsmall hcount hpos hroom hnot
    have hne : waiting f.overflowInfo ≠ [] := List.ne_nil_of_length_pos (by omega)
    have hhead := headLength_pos f.overflowInfo
    have hlength : roundLength f = min f.freeOctets (headLength f.overflowInfo) := rfl
    obtain ⟨rest, rfl⟩ := Nat.exists_eq_succ_of_ne_zero (Nat.ne_of_gt hpos)
    by_cases hfits : headLength f.overflowInfo ≤ (waiting f.overflowInfo).length
    · -- the first packet waits whole, so it is the rest that does not
      have hrest : ¬ WholePackets 0 ((waiting f.overflowInfo).drop (roundLength f)) := by
        rw [(by omega : roundLength f = headLength f.overflowInfo)]
        exact fun hrest => hnot ((h.whole_iff hne).mpr ⟨hfits, hrest⟩)
      obtain ⟨f', hround, hdrained, hcut⟩ :=
        copyFromOverflow_drained h hready hsmall (by omega) (by omega)
      have hfree := hdrained.free
      have hleft := congrArg List.length hdrained.left
      rw [List.length_drop] at hleft
      have hmore : waiting f'.overflowInfo ≠ [] := by
        intro hnil
        rw [hdrained.left] at hnil
        exact hrest (hnil ▸ wholePackets_nil)
      have hlong := List.length_pos_of_ne_nil hmore
      rw [drainOverflow, hround, sub16_of_le (by dsimp only; omega) (by omega)]
      refine ih _ f' hdrained.ring (hdrained.ready.trans hready) (by omega) (by dsimp only; omega)
        (by dsimp only; omega) (by dsimp only; omega) ?_
      rw [hcut, leftover_eq (by omega), hdrained.left,
        (by omega : headLength f.overflowInfo - roundLength f = 0)]
      exact hrest
    · -- more is copied than was meant to be, and the count wraps round
      obtain ⟨f', hadvanced, hround⟩ := copyFromOverflow_advanced hready hsmall
      have hfree := hadvanced.free
      have hwrapped : sub16 (rest + 1) (roundLength f) = rest + 1 + 2 ^ 16 - roundLength f := by
        unfold sub16
        exact Nat.mod_eq_of_lt (by omega)
      rw [drainOverflow, hround, hwrapped]
      exact drainOverflow_runaway _ _ _ (hadvanced.ready.trans hready) (by dsimp only; omega)
        (by omega)

/-- The number of octets `TM_SDLP_StartFrame` sets out to move. -/
theorem startFrameRounds_eq (h : Ring f.overflowInfo) (hinit : f.isInitialized = true)
    (rounds : Nat) : startFrameRounds rounds f =
      drainOverflow rounds (min f.dataFieldLength (waiting f.overflowInfo).length)
        { f with isReady := true } := by
  unfold startFrameRounds
  rw [if_neg (by simp [hinit])]
  dsimp only
  rw [h.taken_eq]

theorem startFrame_eq_rounds (h : Ring f.overflowInfo) (hinit : f.isInitialized = true) :
    startFrame f =
      startFrameRounds (min f.dataFieldLength (waiting f.overflowInfo).length) f := by
  rw [startFrameRounds_eq h hinit]
  unfold startFrame
  rw [if_neg (by simp [hinit])]
  dsimp only
  rw [h.taken_eq]

end Nos3.IoLib
