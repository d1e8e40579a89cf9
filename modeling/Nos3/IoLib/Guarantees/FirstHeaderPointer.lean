import Nos3.IoLib.Source.Cop1
import Nos3.IoLib.Guarantees.FrameStream

/-!
# The payload of a telecommand frame

`TCTF_GetPayloadLength` subtracts the sizes of the fields present in `uint16`
arithmetic from the length the header gives, and no check on the way from
`COP1_ProcessFrame` to the copy gives that length a lower bound. A frame whose
header leaves room for its fields is handled exactly; any shorter one has a
payload length near 2^16, and the copy runs that far behind the frame.
-/
namespace Nos3.IoLib
open Base.BigEndian (Octet)

/-- The payload length is what the fields leave over, and a copy out of the frame
stays inside its declared length. -/
structure PayloadBounded (tf : TransferFrame) (channelService : ChannelService) : Prop where
  exact_length : (getPayloadLength tf channelService).toNat + fieldsLength channelService =
    (getLength tf).toNat
  reads_inside : ∀ (toBuffer : Bool) (clcw : Clcw) (copy : MemCpy),
    (processFrame toBuffer clcw tf channelService).copied = some copy →
      copy.offset + copy.length ≤ (getLength tf).toNat

theorem copyData_cases {toBuffer : Bool} {tf : TransferFrame} {channelService : ChannelService}
    {copy : MemCpy} (h : (copyData toBuffer tf channelService).2 = some copy) :
    copy = ⟨(getPayloadOffset channelService).toNat, (getPayloadLength tf channelService).toNat⟩ := by
  unfold copyData at h
  split at h
  · exact (Option.some.inj h).symm
  · cases h

/-- Every copy that a frame causes is the one `TCTF_CopyData` makes. -/
theorem processFrame_copied {toBuffer : Bool} {clcw : Clcw} {tf : TransferFrame}
    {channelService : ChannelService} {copy : MemCpy}
    (h : (processFrame toBuffer clcw tf channelService).copied = some copy) :
    (copyData toBuffer tf channelService).2 = some copy := by
  unfold processFrame at h
  split at h
  · split at h
    · unfold bypassTf at h
      split at h
      · split at h
        · cases h
        · split at h <;> cases h
        · cases h
      · exact h
    · unfold acceptTf at h
      split at h
      · split at h
        · split at h
          · exact h
          · cases h
        all_goals cases h
      · cases h
  · cases h

/-- The code meets the bounds exactly on the frames whose declared length has
room for the header and trailer fields of the service. -/
theorem payload_bounded_iff (tf : TransferFrame) (channelService : ChannelService)
    (_hvalid : isValidTf tf channelService = true) :
    PayloadBounded tf channelService ↔ fieldsLength channelService ≤ (getLength tf).toNat := by
  constructor
  · intro h
    have hexact := h.exact_length
    omega
  · intro hroom
    have hexact := getPayloadLength_exact hroom
    refine ⟨hexact, fun toBuffer clcw copy hcopied => ?_⟩
    have hcopy := copyData_cases (processFrame_copied hcopied)
    have hoffset := getPayloadOffset_toNat channelService
    rw [hcopy]
    dsimp only
    unfold fieldsLength at hexact
    omega

/-- A service with segment header and without error control. -/
def vcpService : ChannelService := ⟨serviceVcp, 0, 0x42, 0, 0, true, false⟩

/-- Bypass data frames of spacecraft 0x42 that declare `length + 1` octets. -/
def bypassFrame (length : Octet) : TransferFrame
  | 0 => 0x20
  | 1 => 0x42
  | 3 => length
  | _ => 0

theorem payload_bounded_seven_octets : PayloadBounded (bypassFrame 6) vcpService :=
  (payload_bounded_iff (bypassFrame 6) vcpService (by decide)).mpr (by decide)

/-- Five octets, all of them primary header: 65535 octets of payload are copied. -/
theorem short_frame_copied_beyond :
    isValidTf (bypassFrame 4) vcpService = true ∧
      (getLength (bypassFrame 4)).toNat = 5 ∧
      (processFrame true (initClcw 0) (bypassFrame 4) vcpService).copied = some ⟨6, 65535⟩ ∧
      ¬PayloadBounded (bypassFrame 4) vcpService := by
  refine ⟨by decide, by decide, by decide, fun h => ?_⟩
  have hexact : (getPayloadLength (bypassFrame 4) vcpService).toNat + 6 = 5 := h.exact_length
  omega

end Nos3.IoLib

/-!
## The first header pointer

A frame's pointer names the first packet that starts in it as long as no packet
is added to a full frame in which none started: there the pointer is set to the
length of the data field, behind its last octet.
-/
namespace Nos3.IoLib
open Base.BigEndian (Octet)
open Base.PacketStream
open Base.Transition

/-- The pointer of a frame that went out is where its first packet starts. -/
def PointerRight (c : Completed) : Prop :=
  firstHdrPtr c.frame = (firstStart c.items).getD noFirstHdrPtr ∧
    (firstHdrPtr c.frame = noFirstHdrPtr ↔ firstStart c.items = none)

instance (c : Completed) : Decidable (PointerRight c) := inferInstanceAs (Decidable (_ ∧ _))

/-- No packet that the overflow buffer has room for comes to a full frame without a
pointer, packets are shorter than the `uint16` lengths, and what starts first in a
frame starts where eleven bits can point. -/
def PointerSafe (s : Session) : Call → Prop
  | .addPacket packet => packet.length < 2 ^ 16 ∧
      ¬ (s.info.isReady = true ∧ s.info.freeOctets = 0 ∧ s.info.isFirstHdrPtrSet = false ∧
        packet.length ≤ s.info.overflowInfo.freeOctets)
  | .complete _ _ => ∀ i ∈ firstStart s.stream.data, i < noFirstHdrPtr
  | _ => True

instance (s : Session) : ∀ call, Decidable (PointerSafe s call)
  | .start => .isTrue trivial
  | .addPacket _ => inferInstanceAs (Decidable (_ ∧ ¬ _))
  | .addIdle _ => .isTrue trivial
  | .complete _ _ => inferInstanceAs (Decidable (∀ i ∈ firstStart s.stream.data, i < noFirstHdrPtr))

theorem PointerSafe.short {s : Session} {call : Call} (h : PointerSafe s call) :
    ShortPackets s call := by
  cases call with
  | start => trivial
  | addPacket packet => exact h.1
  | addIdle idlePacket => trivial
  | complete mcFrameCnt ocf => trivial

/-- Between the calls, and in the frames that went out. -/
structure PointerInv (s : Session) : Prop extends SessionInv s where
  points : Points s.info s.stream.data
  right : ∀ c ∈ s.frames, PointerRight c

variable {crc : List Octet → BitVec 16} {glob : GlobalConfig} {chnl : ChannelConfig}

/-- A packet added to a full frame went to the overflow buffer. -/
theorem add_full_room {f : FrameInfo} {s : Stream Octet} {pData : List Octet} {n : Nat}
    (h : Holds f s) (hfull : f.freeOctets = 0) (hpos : 0 < n) (hlen : n ≤ pData.length)
    (hok : 0 ≤ (addData f pData n true).1) : n ≤ f.overflowInfo.freeOctets := by
  obtain ⟨hstored, -⟩ := addData_splits (addData_ready hok) (by omega) hok
  have hroom := (copyToOverflow_block h.overflow.length (by rw [List.length_drop]; omega) hstored).1
  omega

theorem pointer_step {s s' : Session} {call : Call} (h : PointerInv s)
    (hok : PointerSafe s call) (houtcome : Outcome s call s') : PointerInv s' := by
  have hinv := h.toSessionInv
  have hinv' := session_step hinv houtcome
  cases houtcome with
  | nothing => exact ⟨hinv', h.points, h.right⟩
  | start hrun => exact ⟨hinv', (hinv.start hrun).2 h.points, h.right⟩
  | @add _ pData packet hgood hdata hadd hcall =>
    have hseven := hgood.seven_le
    refine ⟨hinv', (hinv.fill hgood hdata hadd).2 h.points ?_, h.right⟩
    by_cases hroom : 0 < s.info.freeOctets
    · exact .inr hroom
    · left
      by_contra hunset
      have hlen : packet.length ≤ pData.length := by
        have hcount := congrArg List.length hdata
        rw [List.length_take] at hcount
        omega
      have hfull : s.info.freeOctets = 0 := by omega
      obtain rfl := hcall.resolve_right hroom
      exact hok.2 ⟨addData_ready hadd, hfull, by simpa using hunset,
        add_full_room hinv.holds hfull (by omega) hlen hadd⟩
  | @complete _ _ frame hkept =>
    refine ⟨hinv', ⟨fun _ => rfl, fun hset => ?_⟩, fun c hc => ?_⟩
    · have hset : false = true := hset
      exact absurd hset (by decide)
    · rcases List.mem_append.mp hc with hold | hnew
      · exact h.right c hold
      · rw [List.mem_singleton.mp hnew]
        unfold PointerRight
        dsimp only
        rw [(released_frame hinv.holds.layout hkept).2]
        cases hflag : s.info.isFirstHdrPtrSet with
        | false =>
          rw [h.points.unset hflag]
          exact ⟨rfl, iff_of_true rfl rfl⟩
        | true =>
          obtain ⟨i, hi, hptr⟩ := h.points.set hflag
          have hbound : i < noFirstHdrPtr := hok i hi
          unfold noFirstHdrPtr at hbound ⊢
          rw [if_pos rfl, hi, hptr, Nat.mod_eq_of_lt (by omega)]
          exact ⟨rfl, iff_of_false (by omega) (by simp)⟩

/-- In every session that meets the condition, the pointer of every frame that went
out is where its first packet starts, the frame's data field begins with the cells
it was given, and these are the packets handed over, in order. -/
theorem first_header_pointer_right {s : Session} (hframe : glob.frameLength < 2 ^ 16)
    (hoverflow : chnl.overflowSize < 2 ^ 16)
    (h : (sdlpChannel crc glob chnl).Reaches PointerSafe s) :
    (∀ c ∈ s.frames, PointerRight c) ∧
      (∀ c ∈ s.frames, c.dataField.take c.items.length = cells c.items) ∧
      s.frames.flatMap Completed.items ++ s.stream.items = s.carried.flatMap packetItems := by
  have hinv : PointerInv s := by
    refine h.invariant (fun s hstart => ?_) (fun s call s' hinv hok hnext => ?_)
    · obtain ⟨hsession, hunset⟩ := session_start hframe hoverflow hstart
      obtain ⟨-, hstream, hframes, -⟩ := hstart
      refine ⟨hsession, ⟨fun _ => by rw [hstream]; rfl, fun hset => ?_⟩, ?_⟩
      · rw [hunset] at hset
        exact absurd hset (by decide)
      · rw [hframes]
        exact nofun
    · exact pointer_step hinv hok (session_outcome hinv.toSessionInv hok.short hnext)
  exact ⟨hinv.right, hinv.shown, hinv.items⟩

/-- A packet that begins in one frame and ends in the next, where the second packet
starts behind it. -/
theorem first_header_pointer_right_continued : ∃ s,
    (sdlpChannel (fun _ => 0) smallGlobal smallChannel).Reaches PointerSafe s ∧
      s.frames.map (firstHdrPtr ·.frame) = [0, 4] ∧ ∀ c ∈ s.frames, PointerRight c := by
  obtain ⟨s, hreach, hcheck⟩ := Machine.exists_reaches PointerSafe
    (fun s : Session => decide (s.frames.map (firstHdrPtr ·.frame) = [0, 4]))
    (smallSession_start fun _ => 0)
    [.start, .addPacket (samplePacket 5 0xA1), .complete 0 none, .start, .addIdle idleBuffer,
      .complete 1 none] (by decide +kernel)
  exact ⟨s, hreach, of_decide_eq_true hcheck,
    (first_header_pointer_right (by decide) (by decide) hreach).1⟩

/-- The rest of a packet fills the second frame; a packet added then makes its pointer
the length of the data field, where it is to say that no packet starts. -/
theorem pointer_behind_full_frame : ∃ s,
    (sdlpChannel (fun _ => 0) smallGlobal smallChannel).Reachable s ∧
      s.frames.map (firstHdrPtr ·.frame) = [0, 8] ∧
      s.frames.map (firstStart ·.items) = [some 0, none] ∧ ∃ c ∈ s.frames, ¬ PointerRight c := by
  obtain ⟨s, hreach, hcheck⟩ := Machine.exists_reaches (fun _ _ => True)
    (fun s : Session => decide (s.frames.map (firstHdrPtr ·.frame) = [0, 8] ∧
      s.frames.map (firstStart ·.items) = [some 0, none] ∧ ∃ c ∈ s.frames, ¬ PointerRight c))
    (smallSession_start fun _ => 0)
    [.start, .addPacket (samplePacket 9 0xA1), .complete 0 none, .start,
      .addPacket (samplePacket 0 0xA2), .complete 1 none] (by decide +kernel)
  exact ⟨s, hreach, of_decide_eq_true hcheck⟩

end Nos3.IoLib
