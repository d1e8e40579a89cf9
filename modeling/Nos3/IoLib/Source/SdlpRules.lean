import Nos3.IoLib.Source.OverflowRing
import Nos3.Base.PacketStream

/-!
# What the data link calls do to the stream of packets

`Holds f s`: the frame's data field and the overflow buffer of `f` contain the
stream `s`. Every call of the protocol is one step of the stream; what it does
to the first header pointer is stated beside it.
-/
namespace Nos3.IoLib
open Base.BigEndian (Octet)
open Base.FileImage (window)
open Base.FixedArray (patch)
open Base.RingBuffer
open Base.PacketStream

/-- A packet as long as its header says and short enough for the `uint16` length
arguments. -/
def Sendable (packet : List Octet) : Prop := msgSize packet = packet.length ∧ packet.length < 2 ^ 16

instance (packet : List Octet) : Decidable (Sendable packet) := inferInstanceAs (Decidable (_ ∧ _))

theorem Sendable.seven_le {packet : List Octet} (h : Sendable packet) : 7 ≤ packet.length := by
  have hsize := h.1
  unfold msgSize at hsize
  omega

/-! ## The overflow buffer -/

/-- The overflow buffer holds the queue. -/
structure Overflow (o : OverflowInfo) (queue : List (Item Octet)) : Prop where
  length : o.buffer.length = o.buffSize
  small : o.buffSize < 2 ^ 16
  used : o.freeOctets + queue.length = o.buffSize
  start : o.dataStart < o.buffSize ∨ o.buffSize = 0 ∧ o.dataStart = 0
  stop : o.dataEnd = wrapIndex o.buffSize o.dataStart queue.length
  octets : contents o.buffer o.dataStart queue.length = cells queue
  packets : Queued Sendable o.partialOctets queue

theorem Overflow.ring {o : OverflowInfo} {queue : List (Item Octet)} (h : Overflow o queue) :
    Ring o := by
  have hused := h.used
  have hcount : o.buffSize - o.freeOctets = queue.length := by omega
  exact ⟨h.length, h.small, by omega, h.start, by rw [hcount]; exact h.stop⟩

theorem Overflow.waiting_eq {o : OverflowInfo} {queue : List (Item Octet)} (h : Overflow o queue) :
    waiting o = cells queue := by
  have hused := h.used
  have hcount : o.buffSize - o.freeOctets = queue.length := by omega
  rw [h.ring.waiting_eq, hcount, h.octets]

theorem Ring.overflow {o : OverflowInfo} {queue : List (Item Octet)} (h : Ring o)
    (hwaiting : waiting o = cells queue) (hpackets : Queued Sendable o.partialOctets queue) :
    Overflow o queue := by
  have hroom := h.room
  have hcount : o.buffSize - o.freeOctets = queue.length := by
    rw [← h.waiting_length, hwaiting, cells_length]
  refine ⟨h.length, h.small, by omega, h.start, ?_, ?_, hpackets⟩
  · rw [← hcount]
    exact h.stop
  · rw [← hcount, ← h.waiting_eq, hwaiting]

/-- A block of cells joins the queue. -/
theorem Overflow.push {o : OverflowInfo} {queue block : List (Item Octet)} {data : List Octet}
    {isPartial : Bool} (h : Overflow o queue) (hne : block ≠ [])
    (hdata : data.take block.length = cells block) (hlen : block.length ≤ data.length)
    (hpackets : Queued Sendable (if isPartial then block.length else o.partialOctets)
      (queue ++ block))
    (hok : 0 ≤ (copyToOverflow o data block.length isPartial).1) :
    Overflow (copyToOverflow o data block.length isPartial).2 (queue ++ block) := by
  obtain ⟨hring, hwaiting, hcut⟩ := h.ring.push (List.length_pos_of_ne_nil hne) hlen hok
  refine hring.overflow ?_ (hcut ▸ hpackets)
  rw [hwaiting, h.waiting_eq, hdata, cells_append]

/-- The oldest cells leave the queue. -/
theorem Overflow.pop {o : OverflowInfo} {queue : List (Item Octet)} {count cut : Nat}
    (h : Overflow o queue) (hcount : count ≤ queue.length) (hpos : 0 < count)
    (hpackets : Queued Sendable cut (queue.drop count)) :
    Overflow { o with
      partialOctets := cut
      dataStart := wrapIndex o.buffSize o.dataStart count
      freeOctets := o.freeOctets + count } (queue.drop count) := by
  have hused := h.used
  obtain ⟨hring, hwaiting⟩ := h.ring.pop (by omega) hpos cut
  refine hring.overflow ?_ hpackets
  rw [hwaiting, h.waiting_eq, cells_drop]

/-! ## The frame -/

/-- Where the parts of a frame lie. -/
structure Layout (f : FrameInfo) : Prop where
  initialized : f.isInitialized = true
  header : tmPriHdrLength ≤ f.dataFieldOffset
  ocf : f.ocfOffset = f.dataFieldOffset + f.dataFieldLength
  errCtrl : f.ocfOffset + (if f.chnlConfig.ocfFlag then tmOcfLength else 0) ≤ f.errCtrlOffset
  inside : f.errCtrlOffset + (if f.globConfig.hasErrCtrl then tmErrCtrlFieldLength else 0) ≤
    f.frame.length
  small : f.frame.length < 2 ^ 16

/-- The frame's data field holds the cells. -/
structure Framed (f : FrameInfo) (data : List (Item Octet)) : Prop where
  layout : Layout f
  room : f.freeOctets + data.length = f.dataFieldLength
  current : f.currentDataOffset = f.dataFieldOffset + data.length
  octets : window f.frame f.dataFieldOffset data.length = cells data

/-- Frame and overflow buffer hold the stream. -/
structure Holds (f : FrameInfo) (s : Stream Octet) : Prop extends Framed f s.data where
  overflow : Overflow f.overflowInfo s.queue

/-- The frame's header agrees with where the first packet starts in it, as far as
eleven bits go. -/
structure Points (f : FrameInfo) (data : List (Item Octet)) : Prop where
  unset : f.isFirstHdrPtrSet = false → firstStart data = none
  set : f.isFirstHdrPtrSet = true →
    ∃ i, firstStart data = some i ∧ firstHdrPtr f.frame = i % 2048

theorem Points.withOverflow {f : FrameInfo} {data : List (Item Octet)} (h : Points f data)
    (o : OverflowInfo) : Points { f with overflowInfo := o } data := ⟨h.unset, h.set⟩

/-- What copying octets to the frame does to its pointer. -/
structure Pointed (f f' : FrameInfo) (isPacket : Bool) (offset : Nat) : Prop where
  flag : f'.isFirstHdrPtrSet = (f.isFirstHdrPtrSet || isPacket)
  fresh : f.isFirstHdrPtrSet = false → isPacket = true → firstHdrPtr f'.frame = offset % 2048
  kept : f.isFirstHdrPtrSet = true ∨ isPacket = false →
    firstHdrPtr f'.frame = firstHdrPtr f.frame

/-- What copying a block behind the data does to a frame. -/
structure Copied (f f' : FrameInfo) (data block : List (Item Octet)) (isPacket : Bool) : Prop where
  framed : Framed f' (data ++ block)
  overflow : f'.overflowInfo = f.overflowInfo
  ready : f'.isReady = f.isReady
  free : f'.freeOctets = f.freeOctets - block.length
  pointed : Pointed f f' isPacket data.length

/-- Two copies that are parts of one. -/
theorem Copied.trans {f f' f'' : FrameInfo} {data a b : List (Item Octet)} {isPacket : Bool}
    (h : Copied f f' data a isPacket) (h' : Copied f' f'' (data ++ a) b isPacket) :
    Copied f f'' data (a ++ b) isPacket := by
  refine ⟨?_, h'.overflow.trans h.overflow, h'.ready.trans h.ready, ?_, ?_, ?_, ?_⟩
  · rw [← List.append_assoc]
    exact h'.framed
  · rw [h'.free, h.free, List.length_append]
    omega
  · rw [h'.pointed.flag, h.pointed.flag, Bool.or_assoc, Bool.or_self]
  · intro hflag hpacket
    have hset : f'.isFirstHdrPtrSet = true := by simp [h.pointed.flag, hpacket]
    exact (h'.pointed.kept (.inl hset)).trans (h.pointed.fresh hflag hpacket)
  · intro hkept
    refine (h'.pointed.kept (hkept.imp (fun hflag => ?_) id)).trans (h.pointed.kept hkept)
    simp [h.pointed.flag, hflag]

/-- A packet that starts in the block sets the pointer of a frame without one. -/
theorem Points.copied {f f' : FrameInfo} {data block : List (Item Octet)} {isPacket : Bool}
    (h : Points f data) (hcopied : Copied f f' data block isPacket)
    (hstart : isPacket = true → f.isFirstHdrPtrSet = true ∨ firstStart block = some 0)
    (hnone : isPacket = false → firstStart block = none) : Points f' (data ++ block) := by
  have hpointed := hcopied.pointed
  cases hflag : f.isFirstHdrPtrSet with
  | true =>
    obtain ⟨i, hi, hptr⟩ := h.set hflag
    refine ⟨fun hunset => ?_, fun _ => ⟨i, firstStart_append_some hi block, ?_⟩⟩
    · rw [hpointed.flag, hflag, Bool.true_or] at hunset
      exact absurd hunset (by decide)
    · rw [hpointed.kept (.inl hflag), hptr]
  | false =>
    have hdata := h.unset hflag
    cases isPacket with
    | false =>
      refine ⟨fun _ => ?_, fun hset => ?_⟩
      · rw [firstStart_append_none hdata, hnone rfl]
        rfl
      · rw [hpointed.flag, hflag] at hset
        exact absurd hset (by decide)
    | true =>
      have hblock := (hstart rfl).resolve_left (by simp [hflag])
      refine ⟨fun hunset => ?_, fun _ => ⟨data.length, ?_, hpointed.fresh hflag rfl⟩⟩
      · rw [hpointed.flag, hflag] at hunset
        exact absurd hunset (by decide)
      · rw [firstStart_append_none hdata, hblock]
        simp

theorem Layout.of_frame {f f' : FrameInfo} (h : Layout f) (hlength : f'.frame.length = f.frame.length)
    (hinit : f'.isInitialized = f.isInitialized) (hoffset : f'.dataFieldOffset = f.dataFieldOffset)
    (hfield : f'.dataFieldLength = f.dataFieldLength) (hocf : f'.ocfOffset = f.ocfOffset)
    (herr : f'.errCtrlOffset = f.errCtrlOffset) (hchnl : f'.chnlConfig = f.chnlConfig)
    (hglob : f'.globConfig = f.globConfig) : Layout f' := by
  refine ⟨hinit.trans h.initialized, hoffset ▸ h.header, ?_, ?_, ?_, ?_⟩
  · rw [hocf, hoffset, hfield, h.ocf]
  · rw [hocf, herr, hchnl]
    exact h.errCtrl
  · rw [herr, hlength, hglob]
    exact h.inside
  · rw [hlength]
    exact h.small

/-- Octets copied behind the data of a frame that has room for them. -/
theorem copyToFrame_copied {f : FrameInfo} {data : List (Item Octet)} (h : Framed f data)
    (block : List (Item Octet)) (pData : List Octet) (isPacket : Bool)
    (hdata : pData.take block.length = cells block) (hroom : block.length ≤ f.freeOctets) :
    (copyToFrame f pData block.length isPacket).1 =
        ((copyToFrame f pData block.length isPacket).2.freeOctets : Int) ∧
      Copied f (copyToFrame f pData block.length isPacket).2 data block isPacket := by
  have hheader := h.layout.header
  have hocf := h.layout.ocf
  have herr := h.layout.errCtrl
  have hinside := h.layout.inside
  have hsmall := h.layout.small
  have hcells : (cells block).length = block.length := cells_length block
  have hfree := h.room
  have hcurrent := h.current
  have hend : f.currentDataOffset + (cells block).length ≤ f.frame.length := by omega
  have hlength : (patch f.frame f.currentDataOffset (cells block)).length = f.frame.length :=
    Base.FixedArray.patch_length hend
  have hpointer : firstHdrPtr (patch f.frame f.currentDataOffset (cells block)) =
      firstHdrPtr f.frame := firstHdrPtr_patch _ (by omega) (by omega)
  have hat : sub16 f.currentDataOffset f.dataFieldOffset = data.length := by
    rw [sub16_of_le (by omega) (by omega)]
    omega
  have hold : window (patch f.frame f.currentDataOffset (cells block)) f.dataFieldOffset
      (data.length + block.length) = cells (data ++ block) := by
    have hfront : window (patch f.frame f.currentDataOffset (cells block)) f.dataFieldOffset
        data.length = cells data := by
      rw [Base.FixedArray.window_patch_before (by omega) hend]
      exact h.octets
    have hback := Base.FixedArray.window_patch_same hend
    rw [hcells, hcurrent] at hback
    rw [cells_append, ← hfront, window, List.take_add]
    congr 1
    rw [List.drop_drop, ← hcurrent, Nat.add_comm] at *
    rw [← window, hcurrent]
    exact hback
  unfold copyToFrame
  rw [hdata]
  by_cases hset : isPacket = true ∧ f.isFirstHdrPtrSet = false
  · dsimp only
    rw [if_pos hset]
    refine ⟨rfl, ⟨h.layout.of_frame ?_ rfl rfl rfl rfl rfl rfl rfl, ?_, ?_, ?_⟩, rfl, rfl, rfl,
      ⟨?_, ?_, ?_⟩⟩
    · exact (setFirstHdrPtr_length _ _).trans hlength
    · dsimp only
      rw [List.length_append]
      omega
    · dsimp only
      rw [add16_of_lt (by omega), List.length_append]
      omega
    · dsimp only
      rw [List.length_append, window_setFirstHdrPtr hheader]
      exact hold
    · simp [hset.1]
    · intro _ _
      dsimp only
      rw [firstHdrPtr_set (by omega), hat]
    · rintro (hflag | hflag)
      · exact absurd hset.2 (by simp [hflag])
      · exact absurd hset.1 (by simp [hflag])
  · dsimp only
    rw [if_neg hset]
    refine ⟨rfl, ⟨h.layout.of_frame hlength rfl rfl rfl rfl rfl rfl rfl, ?_, ?_, ?_⟩, rfl, rfl, rfl,
      ⟨?_, ?_, fun _ => hpointer⟩⟩
    · dsimp only
      rw [List.length_append]
      omega
    · dsimp only
      rw [add16_of_lt (by omega), List.length_append]
      omega
    · dsimp only
      rw [List.length_append]
      exact hold
    · cases isPacket <;> cases hflag : f.isFirstHdrPtrSet <;> simp_all
    · intro hflag hpacket
      exact absurd ⟨hpacket, hflag⟩ hset

/-! ## Adding a packet -/

/-- The frame is full or nothing waits. -/
def Settled (f : FrameInfo) (s : Stream Octet) : Prop := f.freeOctets = 0 ∨ s.queue = []

theorem addData_error {f : FrameInfo} {pData : List Octet} {dataLength : Nat} {isPacket : Bool}
    (h : (addData f pData dataLength isPacket).1 < 0) :
    (addData f pData dataLength isPacket).2 = f := by
  revert h
  unfold addData
  split
  · exact fun _ => rfl
  · split
    · dsimp only
      split
      · intro _
        rw [copyToOverflow_error ‹_›]
      · intro h
        have h : ((copyToFrame _ _ _ _).2.freeOctets : Int) < 0 := h
        omega
    · intro h
      have h : ((copyToFrame _ _ _ _).2.freeOctets : Int) < 0 := h
      omega

theorem addData_fits {f : FrameInfo} {pData : List Octet} {dataLength : Nat} (isPacket : Bool)
    (hready : f.isReady = true) (hfits : dataLength ≤ f.freeOctets) :
    addData f pData dataLength isPacket = copyToFrame f pData dataLength isPacket := by
  unfold addData
  rw [if_neg (by simp [hready]), if_neg (Nat.not_lt.mpr hfits)]

/-- What does not fit goes to the overflow buffer. -/
theorem addData_splits {f : FrameInfo} {pData : List Octet} {dataLength : Nat} {isPacket : Bool}
    (hready : f.isReady = true) (hsplit : f.freeOctets < dataLength)
    (hok : 0 ≤ (addData f pData dataLength isPacket).1) :
    0 ≤ (copyToOverflow f.overflowInfo (pData.drop f.freeOctets) (dataLength - f.freeOctets)
        (decide (0 < f.freeOctets))).1 ∧
      addData f pData dataLength isPacket =
        copyToFrame { f with overflowInfo := (copyToOverflow f.overflowInfo
          (pData.drop f.freeOctets) (dataLength - f.freeOctets) (decide (0 < f.freeOctets))).2 }
          pData f.freeOctets isPacket := by
  revert hok
  unfold addData
  rw [if_neg (by simp [hready]), if_pos hsplit]
  dsimp only
  split
  · intro hok
    exact absurd hok (by omega)
  · exact fun _ => ⟨by omega, rfl⟩

/-- A packet that was added is in the stream. -/
theorem addData_packet {f : FrameInfo} {s : Stream Octet} {pData packet : List Octet}
    (h : Holds f s) (hsettled : Settled f s) (hready : f.isReady = true) (hgood : Sendable packet)
    (hdata : pData.take packet.length = packet)
    (hok : 0 ≤ (addData f pData packet.length true).1) :
    Holds (addData f pData packet.length true).2 (s.add f.freeOctets packet) ∧
      Settled (addData f pData packet.length true).2 (s.add f.freeOctets packet) ∧
      (addData f pData packet.length true).2.isReady = true ∧
      (Points f s.data → f.isFirstHdrPtrSet = true ∨ 0 < f.freeOctets →
        Points (addData f pData packet.length true).2 (s.add f.freeOctets packet).data) := by
  have hseven := hgood.seven_le
  have hne : packet ≠ [] := List.ne_nil_of_length_pos (by omega)
  have hcount : packet.length ≤ pData.length := by
    have := congrArg List.length hdata
    rw [List.length_take] at this
    omega
  by_cases hsplit : f.freeOctets < packet.length
  · obtain ⟨hstored, heq⟩ := addData_splits hready hsplit hok
    have hlength : ((packetItems packet).drop f.freeOctets).length =
        packet.length - f.freeOctets := by rw [List.length_drop, packetItems_length]
    have hfront : ((packetItems packet).take f.freeOctets).length = f.freeOctets := by
      rw [List.length_take, packetItems_length, Nat.min_eq_left (Nat.le_of_lt hsplit)]
    have hback : (pData.drop f.freeOctets).take (packet.length - f.freeOctets) =
        cells ((packetItems packet).drop f.freeOctets) := by
      rw [cells_drop, cells_packetItems, ← List.drop_take, hdata]
    have hstart : pData.take f.freeOctets = cells ((packetItems packet).take f.freeOctets) := by
      rw [cells_take, cells_packetItems]
      conv_rhs => rw [← hdata, List.take_take, Nat.min_eq_left (Nat.le_of_lt hsplit)]
    have hpackets : Queued Sendable
        (if decide (0 < f.freeOctets) = true then packet.length - f.freeOctets
          else f.overflowInfo.partialOctets)
        (s.queue ++ (packetItems packet).drop f.freeOctets) := by
      by_cases hfree : 0 < f.freeOctets
      · have hnone : s.queue = [] := hsettled.resolve_left (by omega)
        rw [if_pos (by simp [hfree]), hnone, List.nil_append]
        exact Queued.of_cut packet hfree
      · have hzero : f.freeOctets = 0 := by omega
        rw [if_neg (by simp [hzero]), hzero, List.drop_zero]
        exact h.overflow.packets.add hgood
    rw [← hlength] at hback hstored heq hpackets
    have hpushed := h.overflow.push (by
      intro hnil
      rw [hnil] at hlength
      simp only [List.length_nil] at hlength
      omega) hback (by rw [hlength, List.length_drop]; omega) hpackets hstored
    have hheld : Holds { f with overflowInfo := (copyToOverflow f.overflowInfo
        (pData.drop f.freeOctets) ((packetItems packet).drop f.freeOctets).length
        (decide (0 < f.freeOctets))).2 }
        ⟨s.data, s.queue ++ (packetItems packet).drop f.freeOctets⟩ :=
      ⟨⟨h.layout.of_frame rfl rfl rfl rfl rfl rfl rfl rfl, h.room, h.current, h.octets⟩, hpushed⟩
    obtain ⟨-, hcopied⟩ := copyToFrame_copied hheld.toFramed _ pData true
      (by rw [hfront]; exact hstart) (Nat.le_of_eq hfront)
    rw [hfront] at hcopied
    rw [heq]
    have hfree := hcopied.free
    rw [hfront] at hfree
    refine ⟨⟨hcopied.framed, hcopied.overflow ▸ hpushed⟩, .inl (hfree.trans (Nat.sub_self _)),
      hcopied.ready.trans hready, fun hpoints hplace => ?_⟩
    exact (hpoints.withOverflow _).copied hcopied
      (fun _ => hplace.imp id (firstStart_packet hne)) (fun hnot => absurd hnot (by decide))
  · have hfits : packet.length ≤ f.freeOctets := Nat.le_of_not_lt hsplit
    have hnone : s.queue = [] := hsettled.resolve_left (by omega)
    have hadd : s.add f.freeOctets packet = ⟨s.data ++ packetItems packet, s.queue⟩ := by
      unfold Stream.add
      rw [List.take_of_length_le (by rw [packetItems_length]; exact hfits),
        List.drop_eq_nil_of_le (by rw [packetItems_length]; exact hfits), List.append_nil]
    obtain ⟨-, hcopied⟩ := copyToFrame_copied h.toFramed (packetItems packet) pData true
      (by rw [packetItems_length, cells_packetItems, hdata])
      (by rw [packetItems_length]; exact hfits)
    rw [packetItems_length] at hcopied
    rw [addData_fits true hready hfits, hadd]
    refine ⟨⟨hcopied.framed, hcopied.overflow ▸ h.overflow⟩, .inr hnone,
      hcopied.ready.trans hready, fun hpoints _ =>
        hpoints.copied hcopied (fun _ => .inr ?_) (fun hnot => absurd hnot (by decide))⟩
    have hstart := firstStart_packet hne (Nat.lt_of_lt_of_le (by decide) hseven)
    rwa [List.take_of_length_le (Nat.le_of_eq (packetItems_length packet))] at hstart

end Nos3.IoLib
