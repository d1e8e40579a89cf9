import Nos3.IoLib.Source.SdlpDrain
import Nos3.Base.Transition

/-!
# Sessions of a telemetry channel

The calls a channel receives after its initialisation, in any order. Beside the
channel a session keeps the stream of cells its calls stand for and the packets
handed over: `accepted` are those whose call reported no error, `carried` those
among them that the frame was given.
-/
namespace Nos3.IoLib
open Base.BigEndian (Octet)
open Base.FileImage (window)
open Base.FixedArray (patch)
open Base.RingBuffer
open Base.PacketStream
open Base.Transition

inductive Call where
  | start
  | addPacket (packet : List Octet)
  | addIdle (idlePacket : List Octet)
  | complete (mcFrameCnt : Octet) (ocf : Option (List Octet))

/-- A frame that went out, with its data field and the cells it was given. -/
structure Completed where
  frame : List Octet
  dataField : List Octet
  items : List (Item Octet)

structure Session where
  info : FrameInfo
  stream : Stream Octet
  frames : List Completed
  accepted : List (List Octet)
  carried : List (List Octet)

/-- The packet that `TM_SDLP_AddIdlePacket` makes of an idle buffer. -/
def idleFill (freeOctets : Nat) (idlePacket : List Octet) : List Octet :=
  (setMsgSize idlePacket (idleLength freeOctets)).take (idleLength freeOctets)

def Session.fill (s : Session) (info : FrameInfo) (packet : List Octet) : Session :=
  { s with
    info := info
    stream := s.stream.add s.info.freeOctets packet
    accepted := s.accepted ++ [packet]
    carried := s.carried ++ [packet] }

/-- One call. A packet is as long as its header says, and an idle buffer no shorter
than the frame, as the interface requires. -/
def sessionNext (crc : List Octet → BitVec 16) (s : Session) : Call → Option Session
  | .start => (startFrame s.info).map fun info =>
      { s with
        info := info
        stream := if s.info.isReady then s.stream
          else s.stream.drain (min s.info.dataFieldLength s.stream.queue.length) }
  | .addPacket packet =>
      if msgSize packet ≠ packet.length then none
      else
        let added := addPacket s.info packet
        if added.1 < 0 then some { s with info := added.2 } else some (s.fill added.2 packet)
  | .addIdle idlePacket =>
      if idlePacket.length < s.info.frame.length then none
      else
        let added := addIdlePacket s.info idlePacket
        if added.1 < 0 then some { s with info := added.2 }
        else if s.info.freeOctets = 0 then
          some { s with info := added.2, accepted := s.accepted ++ [idlePacket] }
        else some (s.fill added.2 (idleFill s.info.freeOctets idlePacket))
  | .complete mcFrameCnt ocf =>
      let done := completeFrame crc s.info mcFrameCnt ocf
      let info := done.2.2
      if done.1 < 0 then some { s with info := info }
      else
        some { s with
          info := info
          stream := s.stream.complete
          frames := s.frames ++
            [⟨info.frame, window info.frame info.dataFieldOffset info.dataFieldLength,
              s.stream.data⟩] }

/-- The sessions of the channels with a configuration. -/
def sdlpChannel (crc : List Octet → BitVec 16) (glob : GlobalConfig) (chnl : ChannelConfig) :
    Machine Session Call where
  start s := (∃ security, initChannel glob chnl security = some s.info) ∧
    s.stream = Stream.start ∧ s.frames = [] ∧ s.accepted = [] ∧ s.carried = []
  next := sessionNext crc

/-! ## Initialisation -/

@[simp] theorem setScId_length (frame : List Octet) (val : BitVec 16) :
    (setScId frame val).length = frame.length := by simp [setScId]

@[simp] theorem setVcId_length (frame : List Octet) (val : Octet) :
    (setVcId frame val).length = frame.length := by simp [setVcId]

@[simp] theorem setOcfFlag_length (frame : List Octet) (val : Octet) :
    (setOcfFlag frame val).length = frame.length := by simp [setOcfFlag]

@[simp] theorem setSecHdrFlag_length (frame : List Octet) (val : Octet) :
    (setSecHdrFlag frame val).length = frame.length := by simp [setSecHdrFlag]

@[simp] theorem setSyncFlag_length (frame : List Octet) (val : Octet) :
    (setSyncFlag frame val).length = frame.length := by simp [setSyncFlag]

@[simp] theorem setPacketOrderFlag_length (frame : List Octet) (val : Octet) :
    (setPacketOrderFlag frame val).length = frame.length := by simp [setPacketOrderFlag]

@[simp] theorem setSegLengthId_length (frame : List Octet) (val : Octet) :
    (setSegLengthId frame val).length = frame.length := by simp [setSegLengthId]

@[simp] theorem setSecHdrLength_length (frame : List Octet) (val : Octet) :
    (setSecHdrLength frame val).length = frame.length := by
  unfold setSecHdrLength
  split
  · rfl
  · split <;> simp

theorem initFrame_length (glob : GlobalConfig) (chnl : ChannelConfig) :
    (initFrame glob chnl).length = glob.frameLength := by
  unfold initFrame
  dsimp only
  split <;> split <;> simp

/-- A fresh channel holds nothing and waits to be started. -/
theorem initChannel_holds {glob : GlobalConfig} {chnl : ChannelConfig}
    {security : Option (Octet × Octet)} {f : FrameInfo} (hframe : glob.frameLength < 2 ^ 16)
    (hoverflow : chnl.overflowSize < 2 ^ 16) (h : initChannel glob chnl security = some f) :
    Holds f Stream.start ∧ f.isReady = false ∧ f.isFirstHdrPtrSet = false := by
  unfold initChannel at h
  replace h := (Option.ite_none_left_eq_some.mp h).2
  cases security with
  | none => cases h
  | some lengths =>
    have hroom := (Option.ite_none_left_eq_some.mp h).1
    cases (Option.ite_none_left_eq_some.mp h).2
    clear h
    refine ⟨⟨⟨⟨rfl, ?_, rfl, ?_, ?_, ?_⟩, rfl, rfl, rfl⟩, ?_⟩, rfl, rfl⟩
    · dsimp only
      omega
    · dsimp only
      cases chnl.ocfFlag <;> simp
    · dsimp only
      rw [initFrame_length]
      generalize (if 0 < chnl.secHdrLength then chnl.secHdrLength + 1 else 0) = secHdr at hroom ⊢
      cases hocf : chnl.ocfFlag <;>
        simp only [hocf, if_true, Bool.false_eq_true, if_false] at hroom ⊢ <;> omega
    · dsimp only
      rwa [initFrame_length]
    · refine ⟨List.length_replicate, hoverflow, rfl, ?_, ?_, rfl, Queued.nil⟩
      · dsimp only
        omega
      · change 0 = wrapIndex chnl.overflowSize 0 0
        unfold wrapIndex
        split <;> omega

/-! ## Completing a frame -/

/-- A frame that was written to outside of its data field and pointer. -/
structure Kept (offset n : Nat) (frame frame' : List Octet) : Prop where
  length : frame'.length = frame.length
  field : window frame' offset n = window frame offset n
  pointer : firstHdrPtr frame' = firstHdrPtr frame

theorem Kept.refl (offset n : Nat) (frame : List Octet) : Kept offset n frame frame :=
  ⟨rfl, rfl, rfl⟩

theorem Kept.trans {offset n : Nat} {a b c : List Octet} (h : Kept offset n a b)
    (h' : Kept offset n b c) : Kept offset n a c :=
  ⟨h'.length.trans h.length, h'.field.trans h.field, h'.pointer.trans h.pointer⟩

theorem setMcFrameCount_kept (frame : List Octet) (val : Octet) {offset : Nat}
    (hoffset : tmPriHdrLength ≤ offset) (n : Nat) :
    Kept offset n frame (setMcFrameCount frame val) := by
  unfold tmPriHdrLength at hoffset
  refine ⟨List.length_set, window_set_before (by omega) val, ?_⟩
  unfold firstHdrPtr frameOctet setMcFrameCount
  simp only [List.getD_eq_getElem?_getD]
  rw [List.getElem?_set_ne (by decide), List.getElem?_set_ne (by decide)]

theorem patch_kept {frame new : List Octet} {offset n behind : Nat}
    (hoffset : tmPriHdrLength ≤ offset) (hbehind : offset + n ≤ behind)
    (hnew : behind + new.length ≤ frame.length) :
    Kept offset n frame (patch frame behind new) :=
  ⟨Base.FixedArray.patch_length hnew, Base.FixedArray.window_patch_before hbehind hnew,
    firstHdrPtr_patch new (by omega) (by omega)⟩

theorem setOcf_kept {frame data : List Octet} {offset n behind : Nat}
    (hoffset : tmPriHdrLength ≤ offset) (hbehind : offset + n ≤ behind)
    (hroom : behind + tmOcfLength ≤ frame.length) :
    Kept offset n frame (setOcf frame data behind) := by
  unfold setOcf
  split
  · exact Kept.refl _ _ _
  · refine patch_kept hoffset hbehind ?_
    rw [List.length_take]
    omega

theorem updateErrCtrlField_kept (crc : List Octet → BitVec 16) {frame : List Octet}
    {offset n behind : Nat} (hoffset : tmPriHdrLength ≤ offset) (hbehind : offset + n ≤ behind)
    (hroom : behind + tmErrCtrlFieldLength ≤ frame.length) :
    Kept offset n frame (updateErrCtrlField crc frame behind) := by
  unfold updateErrCtrlField
  split
  · exact Kept.refl _ _ _
  · have hcleared : Kept offset n frame (patch frame behind [0, 0]) :=
      patch_kept hoffset hbehind hroom
    exact hcleared.trans (patch_kept hoffset hbehind (by rw [hcleared.length]; exact hroom))

/-- The channel after its frame went out. -/
def released (f : FrameInfo) (frame : List Octet) : FrameInfo :=
  { f with
    frame := if f.isFirstHdrPtrSet = false then setFirstHdrPtr frame noFirstHdrPtr else frame
    freeOctets := f.dataFieldLength
    currentDataOffset := f.dataFieldOffset
    isFirstHdrPtrSet := false
    isReady := false }

/-- Counter and operational control field are in the frame before its error control
field is. -/
theorem completeFrame_cases {f : FrameInfo} (h : Layout f) (crc : List Octet → BitVec 16)
    (mcFrameCnt : Octet) (ocf : Option (List Octet)) :
    ((completeFrame crc f mcFrameCnt ocf).1 < 0 ∧ (completeFrame crc f mcFrameCnt ocf).2.2 = f) ∨
      (0 ≤ (completeFrame crc f mcFrameCnt ocf).1 ∧
        ∃ frame, Kept f.dataFieldOffset f.dataFieldLength f.frame frame ∧
          (completeFrame crc f mcFrameCnt ocf).2.2 = released f
            (if f.globConfig.hasErrCtrl then updateErrCtrlField crc frame f.errCtrlOffset
            else frame)) := by
  have hheader := h.header
  have hocf := h.ocf
  have herr := h.errCtrl
  have hinside := h.inside
  unfold completeFrame
  rw [if_neg (by simp [h.initialized])]
  split
  · exact .inl ⟨(by decide : sdlpInvalidPointer < 0), rfl⟩
  · right
    refine ⟨(by decide : 0 ≤ sdlpSuccess), _, ?_, rfl⟩
    have hcount := setMcFrameCount_kept f.frame (mcFrameCnt + 1) hheader f.dataFieldLength
    split
    · rename_i hflag
      rw [if_pos hflag] at herr
      refine hcount.trans (setOcf_kept hheader (by omega) ?_)
      rw [hcount.length]
      omega
    · exact hcount

theorem completeFrame_released {f : FrameInfo} (h : Layout f) (crc : List Octet → BitVec 16)
    (mcFrameCnt : Octet) (ocf : Option (List Octet)) :
    ((completeFrame crc f mcFrameCnt ocf).1 < 0 ∧ (completeFrame crc f mcFrameCnt ocf).2.2 = f) ∨
      (0 ≤ (completeFrame crc f mcFrameCnt ocf).1 ∧
        ∃ frame, Kept f.dataFieldOffset f.dataFieldLength f.frame frame ∧
          (completeFrame crc f mcFrameCnt ocf).2.2 = released f frame) := by
  have hocf := h.ocf
  have herr := h.errCtrl
  have hinside := h.inside
  obtain hfailed | ⟨hdone, frame, hkept, hf⟩ := completeFrame_cases h crc mcFrameCnt ocf
  · exact .inl hfailed
  · refine .inr ⟨hdone, _, ?_, hf⟩
    split
    · rename_i hflag
      rw [if_pos hflag] at hinside
      refine hkept.trans (updateErrCtrlField_kept crc h.header (by omega) ?_)
      rw [hkept.length]
      omega
    · exact hkept

/-- The next frame begins empty; what waits goes on waiting. -/
theorem released_holds {f : FrameInfo} {s : Stream Octet} (h : Holds f s) {frame : List Octet}
    (hkept : Kept f.dataFieldOffset f.dataFieldLength f.frame frame) :
    Holds (released f frame) s.complete := by
  refine ⟨⟨h.layout.of_frame ?_ rfl rfl rfl rfl rfl rfl rfl, rfl, rfl, rfl⟩, h.overflow⟩
  unfold released
  dsimp only
  split
  · rw [setFirstHdrPtr_length, hkept.length]
  · exact hkept.length

/-- The frame that went out has the data field and the pointer it was given. -/
theorem released_frame {f : FrameInfo} (h : Layout f) {frame : List Octet}
    (hkept : Kept f.dataFieldOffset f.dataFieldLength f.frame frame) :
    window (released f frame).frame f.dataFieldOffset f.dataFieldLength =
        window f.frame f.dataFieldOffset f.dataFieldLength ∧
      firstHdrPtr (released f frame).frame =
        if f.isFirstHdrPtrSet then firstHdrPtr f.frame else noFirstHdrPtr := by
  have hheader := h.header
  have hocf := h.ocf
  have herr := h.errCtrl
  have hinside := h.inside
  unfold released
  dsimp only
  cases f.isFirstHdrPtrSet with
  | true => exact ⟨hkept.field, hkept.pointer⟩
  | false =>
    simp only [if_true, Bool.false_eq_true, if_false]
    rw [window_setFirstHdrPtr hheader, firstHdrPtr_set (by rw [hkept.length]; omega)]
    exact ⟨hkept.field, rfl⟩

/-! ## Adding packets -/

theorem addData_ready {f : FrameInfo} {pData : List Octet} {dataLength : Nat} {isPacket : Bool}
    (h : 0 ≤ (addData f pData dataLength isPacket).1) : f.isReady = true := by
  unfold addData at h
  split at h
  · exact absurd h (by change ¬ (0 ≤ sdlpFrameNotReady); decide)
  · simpa using ‹¬ f.isReady = false›

theorem addPacket_eq {f : FrameInfo} {packet : List Octet} (hinit : f.isInitialized = true)
    (hgood : Sendable packet) : addPacket f packet = addData f packet packet.length true := by
  unfold addPacket
  rw [if_neg (by simp [hinit]), hgood.1, Nat.mod_eq_of_lt hgood.2]

/-- An error leaves frame and overflow buffer as they were. -/
theorem addPacket_error {f : FrameInfo} {packet : List Octet} (h : (addPacket f packet).1 < 0) :
    (addPacket f packet).2 = f := by
  unfold addPacket at h ⊢
  split
  · rfl
  · rw [if_neg ‹_›] at h
    exact addData_error h

theorem addIdlePacket_error {f : FrameInfo} {idlePacket : List Octet}
    (h : (addIdlePacket f idlePacket).1 < 0) : (addIdlePacket f idlePacket).2 = f := by
  unfold addIdlePacket at h ⊢
  split
  · rfl
  · rw [if_neg ‹_›] at h
    split
    · rfl
    · rw [if_neg ‹_›] at h
      split
      · rfl
      · rw [if_neg ‹_›] at h
        exact addData_error h

theorem addIdlePacket_full {f : FrameInfo} (idlePacket : List Octet) (hfull : f.freeOctets = 0) :
    (addIdlePacket f idlePacket).2 = f := by
  unfold addIdlePacket
  split
  · rfl
  · rfl

/-- On a frame with room, an idle packet is a packet that fills it. -/
theorem addIdlePacket_eq {f : FrameInfo} {idlePacket : List Octet} (hroom : f.freeOctets ≠ 0)
    (h : 0 ≤ (addIdlePacket f idlePacket).1) : addIdlePacket f idlePacket =
      addData f (setMsgSize idlePacket (idleLength f.freeOctets)) (idleLength f.freeOctets) true := by
  unfold addIdlePacket at h ⊢
  split at h
  · exact absurd h (by change ¬ (0 ≤ sdlpFrameNotInit); decide)
  · rw [if_neg ‹_›, if_neg hroom]
    split at h
    · exact absurd h (by change ¬ (0 ≤ sdlpError); decide)
    · rw [if_neg ‹_›]

theorem setMsgSize_length (packet : List Octet) (size : Nat) :
    (setMsgSize packet size).length = packet.length := by
  unfold setMsgSize
  split <;> simp

/-- The size that was set is the size that is read. -/
theorem msgSize_setMsgSize {packet : List Octet} {size : Nat} (hlen : 6 ≤ packet.length)
    (hlow : 7 ≤ size) (hhigh : size < 2 ^ 16) : msgSize (setMsgSize packet size) = size := by
  unfold setMsgSize msgSize
  rw [if_neg (by omega)]
  simp only [List.getD_eq_getElem?_getD]
  rw [List.getElem?_set_ne (by decide), List.getElem?_set_self (by omega),
    List.getElem?_set_self (by rw [List.length_set]; omega)]
  simp only [Option.getD_some, BitVec.toNat_ofNat]
  omega

theorem idleFill_length {freeOctets : Nat} {idlePacket : List Octet}
    (hroom : idleLength freeOctets ≤ idlePacket.length) :
    (idleFill freeOctets idlePacket).length = idleLength freeOctets := by
  unfold idleFill
  rw [List.length_take, setMsgSize_length]
  omega

theorem idleFill_sendable {freeOctets : Nat} {idlePacket : List Octet}
    (hroom : idleLength freeOctets ≤ idlePacket.length) (hsmall : freeOctets < 2 ^ 16) :
    Sendable (idleFill freeOctets idlePacket) := by
  have hlow : 7 ≤ idleLength freeOctets := by
    unfold idleLength
    split <;> omega
  have hhigh : idleLength freeOctets < 2 ^ 16 := by
    unfold idleLength
    split <;> omega
  refine ⟨?_, by rw [idleFill_length hroom]; exact hhigh⟩
  rw [idleFill_length hroom, idleFill, ← msgSize_take, List.take_take, Nat.min_eq_left (by omega),
    msgSize_take, msgSize_setMsgSize (by omega) hlow hhigh]

/-! ## The invariant -/

/-- What holds between the calls of a session. -/
structure SessionInv (s : Session) : Prop where
  holds : Holds s.info s.stream
  idle : Idle s.info s.stream
  items : s.frames.flatMap Completed.items ++ s.stream.items = s.carried.flatMap packetItems
  shown : ∀ c ∈ s.frames, c.dataField.take c.items.length = cells c.items

/-- Packets short enough for the `uint16` length arguments. -/
def ShortPackets (_ : Session) : Call → Prop
  | .addPacket packet => packet.length < 2 ^ 16
  | _ => True

variable {crc : List Octet → BitVec 16} {glob : GlobalConfig} {chnl : ChannelConfig}

theorem session_start {s : Session} (hframe : glob.frameLength < 2 ^ 16)
    (hoverflow : chnl.overflowSize < 2 ^ 16) (h : (sdlpChannel crc glob chnl).start s) :
    SessionInv s ∧ s.info.isFirstHdrPtrSet = false := by
  obtain ⟨⟨security, hinit⟩, hstream, hframes, -, hcarried⟩ := h
  obtain ⟨hholds, hready, hunset⟩ := initChannel_holds hframe hoverflow hinit
  refine ⟨⟨hstream ▸ hholds, ⟨?_, fun _ => by rw [hstream]; rfl⟩, ?_, ?_⟩, hunset⟩
  · intro hset
    rw [hready] at hset
    exact absurd hset (by decide)
  · rw [hframes, hcarried, hstream]
    rfl
  · rw [hframes]
    exact nofun

/-- A packet that was added without error. -/
theorem SessionInv.fill {s : Session} (h : SessionInv s) {pData packet : List Octet}
    (hgood : Sendable packet) (hdata : pData.take packet.length = packet)
    (hok : 0 ≤ (addData s.info pData packet.length true).1) :
    SessionInv (s.fill (addData s.info pData packet.length true).2 packet) ∧
      (Points s.info s.stream.data → s.info.isFirstHdrPtrSet = true ∨ 0 < s.info.freeOctets →
        Points (addData s.info pData packet.length true).2
          (s.stream.add s.info.freeOctets packet).data) := by
  have hready := addData_ready hok
  have hsettled := h.idle.ready hready
  obtain ⟨hholds, hsettled', hready', hpoints⟩ :=
    addData_packet h.holds hsettled hready hgood hdata hok
  refine ⟨⟨hholds, ⟨fun _ => hsettled', ?_⟩, ?_, h.shown⟩, hpoints⟩
  · intro hnot
    have hnot : (addData s.info pData packet.length true).2.isReady = false := hnot
    rw [hready'] at hnot
    exact absurd hnot (by decide)
  · unfold Session.fill
    dsimp only
    rw [Stream.items_add packet hsettled, List.flatMap_append, ← h.items, List.append_assoc]
    simp

/-- The session after a start that ended. -/
def Session.started (s : Session) (info : FrameInfo) : Session :=
  { s with
    info := info
    stream := if s.info.isReady then s.stream
      else s.stream.drain (min s.info.dataFieldLength s.stream.queue.length) }

/-- The session after its frame went out. -/
def Session.sent (s : Session) (frame : List Octet) : Session :=
  { s with
    info := released s.info frame
    stream := s.stream.complete
    frames := s.frames ++
      [⟨(released s.info frame).frame,
        window (released s.info frame).frame s.info.dataFieldOffset s.info.dataFieldLength,
        s.stream.data⟩] }

theorem SessionInv.start {s : Session} (h : SessionInv s) {info : FrameInfo}
    (hrun : startFrame s.info = some info) :
    SessionInv (s.started info) ∧
      (Points s.info s.stream.data → Points info (s.started info).stream.data) := by
  unfold Session.started
  cases hready : s.info.isReady with
  | true =>
    obtain rfl := startFrame_again h.holds h.idle hready hrun
    exact ⟨h, id⟩
  | false =>
    obtain ⟨info', hrun', hholds, hready', hsettled, hpoints⟩ :=
      startFrame_drain h.holds h.idle hready
    obtain rfl := Option.some.inj (hrun'.symm.trans hrun)
    refine ⟨⟨hholds, ⟨fun _ => hsettled, ?_⟩, ?_, h.shown⟩, hpoints⟩
    · intro hnot
      have hnot : info'.isReady = false := hnot
      rw [hready'] at hnot
      exact absurd hnot (by decide)
    · simp only [Bool.false_eq_true, if_false]
      rw [Stream.items_drain, h.items]

theorem SessionInv.complete {s : Session} (h : SessionInv s) {frame : List Octet}
    (hkept : Kept s.info.dataFieldOffset s.info.dataFieldLength s.info.frame frame) :
    SessionInv (s.sent frame) := by
  refine ⟨released_holds h.holds hkept, ⟨?_, fun _ => rfl⟩, ?_, ?_⟩
  · intro hset
    have hset : false = true := hset
    exact absurd hset (by decide)
  · unfold Session.sent
    rw [List.flatMap_append, ← h.items]
    simp [Stream.items, Stream.complete]
  · intro c hc
    rcases List.mem_append.mp hc with hold | hnew
    · exact h.shown c hold
    · rw [List.mem_singleton.mp hnew]
      dsimp only
      have hroom := h.holds.room
      rw [(released_frame h.holds.layout hkept).1, ← h.holds.octets, window, window, List.take_take,
        Nat.min_eq_left (by omega)]

/-! ## Steps -/

/-- What a call can do. -/
inductive Outcome (s : Session) : Call → Session → Prop
  | nothing (call : Call) (accepted : List (List Octet)) : Outcome s call { s with accepted := accepted }
  | start {info : FrameInfo} : startFrame s.info = some info → Outcome s .start (s.started info)
  | add {call : Call} {pData packet : List Octet} : Sendable packet →
      pData.take packet.length = packet → 0 ≤ (addData s.info pData packet.length true).1 →
      call = .addPacket packet ∨ 0 < s.info.freeOctets →
      Outcome s call (s.fill (addData s.info pData packet.length true).2 packet)
  | complete {mcFrameCnt : Octet} {ocf : Option (List Octet)} {frame : List Octet} :
      Kept s.info.dataFieldOffset s.info.dataFieldLength s.info.frame frame →
      Outcome s (.complete mcFrameCnt ocf) (s.sent frame)

theorem session_outcome {s s' : Session} {call : Call} (h : SessionInv s)
    (hshort : ShortPackets s call) (hnext : sessionNext crc s call = some s') :
    Outcome s call s' := by
  have hinit := h.holds.layout.initialized
  have hsame : s = { s with accepted := s.accepted } := rfl
  cases call with
  | start =>
    obtain ⟨info, hrun, rfl⟩ := Option.map_eq_some_iff.mp hnext
    exact .start hrun
  | addPacket packet =>
    obtain ⟨hsize, hnext⟩ := Option.ite_none_left_eq_some.mp hnext
    have hgood : Sendable packet := ⟨not_not.mp hsize, hshort⟩
    by_cases herr : (addPacket s.info packet).1 < 0
    · rw [if_pos herr, addPacket_error herr] at hnext
      obtain rfl := Option.some.inj hnext
      exact .nothing _ s.accepted
    · rw [if_neg herr] at hnext
      obtain rfl := Option.some.inj hnext
      rw [addPacket_eq hinit hgood] at herr ⊢
      exact .add hgood (List.take_of_length_le (Nat.le_refl _)) (by omega) (.inl rfl)
  | addIdle idlePacket =>
    obtain ⟨hlong, hnext⟩ := Option.ite_none_left_eq_some.mp hnext
    by_cases herr : (addIdlePacket s.info idlePacket).1 < 0
    · rw [if_pos herr, addIdlePacket_error herr] at hnext
      obtain rfl := Option.some.inj hnext
      exact .nothing _ s.accepted
    · rw [if_neg herr] at hnext
      by_cases hfull : s.info.freeOctets = 0
      · rw [if_pos hfull, addIdlePacket_full _ hfull] at hnext
        obtain rfl := Option.some.inj hnext
        exact .nothing _ _
      · rw [if_neg hfull] at hnext
        obtain rfl := Option.some.inj hnext
        have hlayout := h.holds.layout
        have hroom := h.holds.room
        have hheader := hlayout.header
        have hocf := hlayout.ocf
        have herrCtrl := hlayout.errCtrl
        have hinside := hlayout.inside
        have hsmall := hlayout.small
        have hbuffer : idleLength s.info.freeOctets ≤ idlePacket.length := by
          unfold tmPriHdrLength at hheader
          unfold idleLength
          split <;> omega
        have hlength := idleFill_length hbuffer
        have hok : 0 ≤ (addIdlePacket s.info idlePacket).1 := by omega
        have heq := addIdlePacket_eq hfull hok
        rw [← hlength] at heq
        rw [heq] at hok ⊢
        refine .add (idleFill_sendable hbuffer (by omega)) ?_ hok (.inr (by omega))
        rw [hlength]
        rfl
  | complete mcFrameCnt ocf =>
    unfold sessionNext at hnext
    dsimp only at hnext
    rcases completeFrame_released h.holds.layout crc mcFrameCnt ocf with
      ⟨herr, hinfo⟩ | ⟨hok, frame, hkept, hinfo⟩
    · rw [if_pos herr, hinfo] at hnext
      obtain rfl := Option.some.inj hnext
      exact .nothing _ s.accepted
    · rw [if_neg (by omega), hinfo] at hnext
      obtain rfl := Option.some.inj hnext
      exact .complete hkept

theorem session_step {s s' : Session} {call : Call} (h : SessionInv s)
    (houtcome : Outcome s call s') : SessionInv s' := by
  cases houtcome with
  | nothing => exact ⟨h.holds, h.idle, h.items, h.shown⟩
  | start hrun => exact (h.start hrun).1
  | add hgood hdata hok => exact (h.fill hgood hdata hok).1
  | complete hkept => exact h.complete hkept

end Nos3.IoLib
