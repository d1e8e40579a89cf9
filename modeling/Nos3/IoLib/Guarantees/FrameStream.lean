import Nos3.IoLib.Source.SdlpSession

/-!
# The stream of packets in the frames

Sessions in which every frame is started once and completed when it is full. The
data fields of the frames that went out, the data so far of the current frame and
what waits in the overflow buffer are the packets handed over, in order. An idle
packet for a frame that has no room is reported as a success and goes nowhere.
-/
namespace Nos3.IoLib
open Base.BigEndian (Octet)
open Base.FileImage (window)
open Base.RingBuffer
open Base.PacketStream
open Base.Transition

/-- Every frame is started once and completed when full; packets are shorter than
the `uint16` length arguments allow. -/
def Disciplined (s : Session) : Call → Prop
  | .start => s.info.isReady = false
  | .addPacket packet => packet.length < 2 ^ 16
  | .addIdle _ => True
  | .complete _ _ => s.info.isReady = true ∧ s.info.freeOctets = 0

instance (s : Session) : ∀ call, Decidable (Disciplined s call)
  | .start => inferInstanceAs (Decidable (_ = _))
  | .addPacket _ => inferInstanceAs (Decidable (_ < _))
  | .addIdle _ => .isTrue trivial
  | .complete _ _ => inferInstanceAs (Decidable (_ ∧ _))

/-- The octets of the current frame's data field that were filled. -/
def filled (f : FrameInfo) : List Octet :=
  window f.frame f.dataFieldOffset (f.dataFieldLength - f.freeOctets)

/-- Data fields that went out, the current one and what waits. -/
def Session.octets (s : Session) : List Octet :=
  (s.frames.map Completed.dataField).flatten ++ (filled s.info ++ waiting s.info.overflowInfo)

variable {crc : List Octet → BitVec 16} {glob : GlobalConfig} {chnl : ChannelConfig}

theorem Framed.filled_eq {f : FrameInfo} {data : List (Item Octet)} (h : Framed f data) :
    filled f = cells data := by
  have hroom := h.room
  unfold filled
  rw [← h.octets]
  congr 1
  omega

/-- The frames that went out were full. -/
structure FullFrames (s : Session) : Prop extends SessionInv s where
  full : ∀ c ∈ s.frames, c.dataField = cells c.items

theorem Disciplined.short {s : Session} {call : Call} (h : Disciplined s call) :
    ShortPackets s call := by
  cases call with
  | start => trivial
  | addPacket packet => exact h
  | addIdle idlePacket => trivial
  | complete mcFrameCnt ocf => trivial

theorem fullFrames_step {s s' : Session} {call : Call} (h : FullFrames s)
    (hok : Disciplined s call) (houtcome : Outcome s call s') : FullFrames s' := by
  refine ⟨session_step h.toSessionInv houtcome, ?_⟩
  cases houtcome with
  | nothing => exact h.full
  | start hrun => exact h.full
  | add hgood hdata hadd => exact h.full
  | complete hkept =>
    obtain ⟨-, hnone⟩ := hok
    have hroom := h.holds.room
    intro c hc
    rcases List.mem_append.mp hc with hold | hnew
    · exact h.full c hold
    · have hshown := (h.toSessionInv.complete hkept).shown c hc
      have hlength : c.dataField.length ≤ c.items.length := by
        rw [List.mem_singleton.mp hnew]
        dsimp only
        rw [Base.FileImage.window_length]
        omega
      rwa [List.take_of_length_le hlength] at hshown

theorem flatMap_cells_packetItems (packets : List (List Octet)) :
    cells (packets.flatMap packetItems) = packets.flatten := by
  induction packets with
  | nil => rfl
  | cons packet rest ih =>
    rw [List.flatMap_cons, cells_append, cells_packetItems, ih, List.flatten_cons]

/-- Between the calls of a session the octets are those of the packets. -/
theorem FullFrames.octets_eq {s : Session} (h : FullFrames s) :
    s.octets = s.carried.flatten := by
  have hfields : (s.frames.map Completed.dataField).flatten =
      cells (s.frames.flatMap Completed.items) := by
    rw [List.flatMap, cells, List.map_flatten, List.map_map]
    congr 1
    exact List.map_congr_left h.full
  unfold Session.octets
  rw [hfields, h.holds.toFramed.filled_eq, h.holds.overflow.waiting_eq, ← cells_append,
    ← cells_append, ← flatMap_cells_packetItems, ← h.items]
  rfl

/-- No octet is lost, duplicated or reordered between the packets handed over and the
frames; an add that reports an error changes nothing, and a frame that was not
started can be. -/
theorem frames_carry_packets {s : Session} (hframe : glob.frameLength < 2 ^ 16)
    (hoverflow : chnl.overflowSize < 2 ^ 16)
    (h : (sdlpChannel crc glob chnl).Reaches Disciplined s) :
    s.octets = s.carried.flatten ∧
      (∀ packet, (addPacket s.info packet).1 < 0 → (addPacket s.info packet).2 = s.info) ∧
      (∀ idlePacket, (addIdlePacket s.info idlePacket).1 < 0 →
        (addIdlePacket s.info idlePacket).2 = s.info) ∧
      (s.info.isReady = false → (startFrame s.info).isSome = true) := by
  have hinv : FullFrames s := by
    refine h.invariant (fun s hstart => ?_) (fun s call s' hinv hok hnext => ?_)
    · refine ⟨(session_start hframe hoverflow hstart).1, ?_⟩
      obtain ⟨-, -, hframes, -⟩ := hstart
      rw [hframes]
      exact nofun
    · exact fullFrames_step hinv hok (session_outcome hinv.toSessionInv hok.short hnext)
  refine ⟨hinv.octets_eq, fun packet herr => addPacket_error herr,
    fun idlePacket herr => addIdlePacket_error herr, fun hready => ?_⟩
  obtain ⟨info, hrun, -⟩ := startFrame_drain hinv.holds hinv.idle hready
  rw [hrun]
  rfl

/-! ## Runs on a small channel -/

/-- Frames with a data field of eight octets. -/
def smallGlobal : GlobalConfig := ⟨0x42, 14, false⟩

def smallChannel : ChannelConfig := ⟨0, 0, false, false, 0, 32⟩

theorem smallChannel_isSome : (initChannel smallGlobal smallChannel (some (0, 0))).isSome := by
  decide

/-- The channel before its first call. -/
def smallSession : Session :=
  ⟨(initChannel smallGlobal smallChannel (some (0, 0))).get smallChannel_isSome, Stream.start, [], [], []⟩

theorem smallSession_start (crc : List Octet → BitVec 16) :
    (sdlpChannel crc smallGlobal smallChannel).start smallSession :=
  ⟨⟨some (0, 0), (Option.some_get smallChannel_isSome).symm⟩, rfl, rfl, rfl, rfl⟩

/-- A packet with `n + 1` octets of data. -/
def samplePacket (n : Nat) (octet : Octet) : List Octet :=
  [0x08, 0x01, 0xC0, 0x00, 0x00, BitVec.ofNat 8 n] ++ List.replicate (n + 1) octet

def idleBuffer : List Octet := [0x07, 0xFF, 0xC0, 0x00, 0x00, 0x07] ++ List.replicate 8 0x55

/-- A packet of twelve octets and an idle packet, in two frames; three octets of the
idle packet wait. -/
theorem frames_carry_packets_two_frames : ∃ s,
    (sdlpChannel (fun _ => 0) smallGlobal smallChannel).Reaches Disciplined s ∧
      s.frames.map Completed.dataField =
        [[0x08, 0x01, 0xC0, 0x00, 0x00, 0x05, 0xA1, 0xA1], [0xA1, 0xA1, 0xA1, 0xA1, 0x07, 0xFF,
          0xC0, 0x00]] ∧
      s.octets = s.carried.flatten := by
  obtain ⟨s, hreach, hcheck⟩ := Machine.exists_reaches Disciplined
    (fun s : Session => decide (s.frames.map Completed.dataField =
      [[0x08, 0x01, 0xC0, 0x00, 0x00, 0x05, 0xA1, 0xA1], [0xA1, 0xA1, 0xA1, 0xA1, 0x07, 0xFF,
        0xC0, 0x00]])) (smallSession_start fun _ => 0)
    [.start, .addPacket (samplePacket 5 0xA1), .complete 0 none, .start, .addIdle idleBuffer,
      .complete 1 none] (by decide +kernel)
  exact ⟨s, hreach, of_decide_eq_true hcheck,
    (frames_carry_packets (by decide) (by decide) hreach).1⟩

/-- The idle packet for a full frame is accepted and carried by none. -/
theorem idle_for_full_frame_not_carried : ∃ s,
    (sdlpChannel (fun _ => 0) smallGlobal smallChannel).Reaches Disciplined s ∧
      s.accepted = [samplePacket 1 0xA1, idleBuffer] ∧ s.octets = samplePacket 1 0xA1 ∧
      s.octets ≠ s.accepted.flatten := by
  obtain ⟨s, hreach, hcheck⟩ := Machine.exists_reaches Disciplined
    (fun s : Session => decide (s.accepted = [samplePacket 1 0xA1, idleBuffer] ∧
      s.octets = samplePacket 1 0xA1 ∧ s.octets ≠ s.accepted.flatten))
    (smallSession_start fun _ => 0)
    [.start, .addPacket (samplePacket 1 0xA1), .addIdle idleBuffer, .complete 0 none]
    (by decide +kernel)
  exact ⟨s, hreach, of_decide_eq_true hcheck⟩

end Nos3.IoLib
