import Nos3.IoLib.Source.SdlpDrain
import Nos3.IoLib.Guarantees.FrameStream

/-!
# Starting a frame

`TM_SDLP_StartFrame` ends on a frame that was not started and gets full, and on one
that gets all that waits, if that is whole packets. On a started frame, which the
code accepts with a warning, its loop copies nothing and goes on for ever as soon as
an octet waits.
-/
namespace Nos3.IoLib
open Base.BigEndian (Octet)
open Base.PacketStream
open Base.Transition

/-- The rest of a cut packet waits, and whole packets behind it. -/
def Whole (f : FrameInfo) : Prop :=
  WholePackets f.overflowInfo.partialOctets (waiting f.overflowInfo)

/-- Nothing is to be moved; or the frame was not started, and gets full or finds
whole packets. -/
def Drainable (f : FrameInfo) : Prop :=
  f.dataFieldLength = 0 ∨ waiting f.overflowInfo = [] ∨
    f.isReady = false ∧ (f.dataFieldLength ≤ (waiting f.overflowInfo).length ∨ Whole f)

/-- What holds of a channel between its calls. -/
structure ChannelInv (f : FrameInfo) : Prop where
  initialized : f.isInitialized = true
  small : f.dataFieldLength < 2 ^ 16
  room : f.freeOctets ≤ f.dataFieldLength
  fresh : f.isReady = false → f.freeOctets = f.dataFieldLength
  settled : f.isReady = true → f.freeOctets = 0 ∨ waiting f.overflowInfo = []
  ring : Ring f.overflowInfo

variable {crc : List Octet → BitVec 16} {glob : GlobalConfig} {chnl : ChannelConfig}
variable {f : FrameInfo}

/-! ## The loop -/

theorem ChannelInv.start_ends (h : ChannelInv f) (hdrainable : Drainable f) {rounds : Nat}
    (hrounds : min f.dataFieldLength (waiting f.overflowInfo).length ≤ rounds) :
    ∃ f', startFrameRounds rounds f = some f' ∧ ChannelInv f' ∧ (Whole f → Whole f') := by
  have hroom := h.room
  rw [startFrameRounds_eq h.ring h.initialized]
  have hready : ∀ f', Drained { f with isReady := true } f'
        (min f.dataFieldLength (waiting f.overflowInfo).length) →
      (f'.freeOctets = 0 ∨ waiting f'.overflowInfo = []) → ChannelInv f' := by
    intro f' hdrained hsettled
    have hfree : f'.freeOctets = f.freeOctets - _ := hdrained.free
    have hset : f'.isReady = true := hdrained.ready
    have hfield : f'.dataFieldLength = f.dataFieldLength := hdrained.field
    refine ⟨hdrained.initialized.trans h.initialized, hfield ▸ h.small, by omega, ?_,
      fun _ => hsettled, hdrained.ring⟩
    rw [hset]
    exact nofun
  by_cases hnone : min f.dataFieldLength (waiting f.overflowInfo).length = 0
  · have hsame : Drained { f with isReady := true } { f with isReady := true } 0 :=
      ⟨rfl, rfl, rfl, rfl, h.ring, rfl⟩
    rw [hnone] at hready ⊢
    refine ⟨_, by rw [drainOverflow], hready _ hsame ?_, id⟩
    rcases Nat.min_eq_zero_iff.mp hnone with hfield | hwaiting
    · left
      dsimp only
      omega
    · exact .inr (List.eq_nil_of_length_eq_zero hwaiting)
  · have hfield : f.dataFieldLength ≠ 0 := by omega
    have hwaiting : waiting f.overflowInfo ≠ [] := by
      intro hnil
      rw [hnil] at hnone
      exact hnone (Nat.min_zero _)
    obtain ⟨hunset, hends⟩ := (hdrainable.resolve_left hfield).resolve_left hwaiting
    have hfree := h.fresh hunset
    obtain ⟨f', hrun, hdrained, hkept⟩ := drainOverflow_ends rounds
      (min f.dataFieldLength (waiting f.overflowInfo).length) { f with isReady := true } h.ring rfl
      (by dsimp only; have := h.small; omega) (by dsimp only; rw [hfree])
      (by dsimp only; rw [hfree]; exact hends) hrounds
    refine ⟨f', hrun, hready f' hdrained ?_, hkept⟩
    have hleft : waiting f'.overflowInfo = (waiting f.overflowInfo).drop _ := hdrained.left
    have hfree' : f'.freeOctets = f.freeOctets - _ := hdrained.free
    by_cases hfull : f.dataFieldLength ≤ (waiting f.overflowInfo).length
    · left
      omega
    · right
      rw [hleft, List.drop_eq_nil_of_le (by omega)]

theorem ChannelInv.start_endless (h : ChannelInv f) (hnot : ¬ Drainable f) (rounds : Nat) :
    startFrameRounds rounds f = none := by
  have hsmall := h.small
  unfold Drainable at hnot
  rw [not_or, not_or] at hnot
  obtain ⟨hfield, hwaiting, hstart⟩ := hnot
  have hlong := List.length_pos_of_ne_nil hwaiting
  rw [startFrameRounds_eq h.ring h.initialized]
  cases hready : f.isReady with
  | true =>
    have hfull := (h.settled hready).resolve_right hwaiting
    exact drainOverflow_runaway _ _ _ rfl (by dsimp only; omega) (by omega)
  | false =>
    have hfree := h.fresh hready
    rw [hready] at hstart
    have hshort : ¬ f.dataFieldLength ≤ (waiting f.overflowInfo).length :=
      fun hfull => hstart ⟨rfl, .inl hfull⟩
    exact drainOverflow_endless _ _ _ h.ring rfl (by dsimp only; omega) (by dsimp only; omega)
      (by omega) (by dsimp only; omega) fun hwhole => hstart ⟨rfl, .inr hwhole⟩

/-! ## The calls -/

theorem initChannel_inv {security : Option (Octet × Octet)} (hframe : glob.frameLength < 2 ^ 16)
    (hoverflow : chnl.overflowSize < 2 ^ 16) (h : initChannel glob chnl security = some f) :
    ChannelInv f ∧ waiting f.overflowInfo = [] ∧ f.overflowInfo.partialOctets = 0 := by
  obtain ⟨hholds, hready, -⟩ := initChannel_holds hframe hoverflow h
  have hroom := hholds.room
  have hocf := hholds.layout.ocf
  have herr := hholds.layout.errCtrl
  have hinside := hholds.layout.inside
  have hlength := hholds.layout.small
  have hwaiting := hholds.overflow.waiting_eq
  have hfree : f.freeOctets = f.dataFieldLength := hroom
  have hcut := hholds.overflow.packets.cut_le
  refine ⟨⟨hholds.layout.initialized, by omega, Nat.le_of_eq hfree, fun _ => hfree, ?_,
    hholds.overflow.ring⟩, hwaiting, Nat.le_zero.mp hcut⟩
  rw [hready]
  exact nofun

/-- What data that is added can do. -/
inductive Added (f : FrameInfo) (pData : List Octet) (dataLength : Nat) : FrameInfo → Prop
  | nothing : Added f pData dataLength f
  | fits {f' : FrameInfo} : f.isReady = true → dataLength ≤ f.freeOctets →
      Advanced f f' dataLength → Added f pData dataLength f'
  | splits {f' : FrameInfo} : f.isReady = true → f.freeOctets < dataLength →
      Advanced { f with overflowInfo := f'.overflowInfo } f' f.freeOctets →
      Ring f'.overflowInfo →
      waiting f'.overflowInfo = waiting f.overflowInfo ++
        (pData.drop f.freeOctets).take (dataLength - f.freeOctets) →
      f'.overflowInfo.partialOctets = (if 0 < f.freeOctets then dataLength - f.freeOctets
        else f.overflowInfo.partialOctets) → Added f pData dataLength f'

theorem addData_added (h : Ring f.overflowInfo) {pData : List Octet} {dataLength : Nat}
    (isPacket : Bool) (hlen : dataLength ≤ pData.length) :
    Added f pData dataLength (addData f pData dataLength isPacket).2 := by
  by_cases herr : (addData f pData dataLength isPacket).1 < 0
  · rw [addData_error herr]
    exact .nothing
  have hready := addData_ready (Int.not_lt.mp herr)
  by_cases hfits : dataLength ≤ f.freeOctets
  · exact .fits hready hfits (addData_advanced hready pData isPacket hfits).2
  · have hsplit := Nat.lt_of_not_le hfits
    obtain ⟨hstored, heq⟩ := addData_splits hready hsplit (Int.not_lt.mp herr)
    obtain ⟨hring, hwaiting, hcut⟩ := h.push (Nat.sub_pos_of_lt hsplit)
      (by rw [List.length_drop]; omega) hstored
    rw [heq]
    obtain ⟨-, hadvanced⟩ := copyToFrame_advanced { f with overflowInfo := (copyToOverflow
      f.overflowInfo (pData.drop f.freeOctets) (dataLength - f.freeOctets)
      (decide (0 < f.freeOctets))).2 } pData f.freeOctets isPacket
    have hsame := hadvanced.overflow
    refine .splits hready hsplit ?_ (hsame ▸ hring) (hsame ▸ hwaiting) ?_
    · rw [hsame]
      exact hadvanced
    · rw [hsame]
      dsimp only
      rw [hcut]
      simp

theorem Added.inv {f' : FrameInfo} {pData : List Octet} {dataLength : Nat} (h : ChannelInv f)
    (hadded : Added f pData dataLength f') : ChannelInv f' := by
  have hroom := h.room
  cases hadded with
  | nothing => exact h
  | fits hready hfits hadvanced =>
    have hfree := hadvanced.free
    have hsettled := h.settled hready
    refine ⟨hadvanced.initialized.trans h.initialized, hadvanced.field ▸ h.small, ?_, ?_, ?_,
      hadvanced.overflow ▸ h.ring⟩
    · rw [hadvanced.field]
      omega
    · rw [hadvanced.ready, hready]
      exact nofun
    · intro _
      rw [hadvanced.overflow]
      exact hsettled.imp (fun hfull => by omega) id
  | splits hready hsplit hadvanced hring hwaiting hcut =>
    have hfree : f'.freeOctets = f.freeOctets - f.freeOctets := hadvanced.free
    have hfield : f'.dataFieldLength = f.dataFieldLength := hadvanced.field
    have hset : f'.isReady = f.isReady := hadvanced.ready
    refine ⟨hadvanced.initialized.trans h.initialized, hfield ▸ h.small, by omega, ?_,
      fun _ => .inl (by omega), hring⟩
    rw [hset, hready]
    exact nofun

/-- Behind a full frame whole packets may join. -/
theorem Added.whole {f' : FrameInfo} {pData : List Octet} {dataLength : Nat} (h : ChannelInv f)
    (hlen : dataLength ≤ pData.length) (hadded : Added f pData dataLength f') (hwhole : Whole f)
    (hplaced : f.isReady = true → f.freeOctets = 0 → WholePackets 0 (pData.take dataLength)) :
    Whole f' := by
  cases hadded with
  | nothing => exact hwhole
  | fits _ _ hadvanced =>
    unfold Whole
    rw [hadvanced.overflow]
    exact hwhole
  | splits hready hsplit hadvanced hring hwaiting hcut =>
    unfold Whole
    by_cases hfull : f.freeOctets = 0
    · rw [hcut, hwaiting, hfull, if_neg (by decide)]
      exact wholePackets_append hwhole (hplaced hready hfull)
    · have hnone := (h.settled hready).resolve_left hfull
      rw [hcut, hwaiting, hnone, if_pos (by omega), List.nil_append]
      exact wholePackets_cut (by rw [List.length_take, List.length_drop]; omega)

theorem ChannelInv.complete (h : ChannelInv f) (crc : List Octet → BitVec 16) (mcFrameCnt : Octet)
    (ocf : Option (List Octet)) :
    ChannelInv (completeFrame crc f mcFrameCnt ocf).2.2 ∧
      (completeFrame crc f mcFrameCnt ocf).2.2.overflowInfo = f.overflowInfo := by
  unfold completeFrame
  rw [if_neg (by simp [h.initialized])]
  split
  · exact ⟨h, rfl⟩
  · exact ⟨⟨h.initialized, h.small, Nat.le_refl _, fun _ => rfl, nofun, h.ring⟩, rfl⟩

/-- What is put behind a full frame is whole packets. -/
def Placed (f : FrameInfo) : ChannelCall → Prop
  | .addPacket packet => packet.length < 2 ^ 16
  | .addVcaData pData dataLength => f.isReady = true → f.freeOctets = 0 →
      WholePackets 0 (pData.take dataLength)
  | _ => True

theorem channel_step {f' : FrameInfo} {call : ChannelCall} (h : ChannelInv f)
    (hnext : channelNext crc f call = some f') :
    ChannelInv f' ∧ (Placed f call → Whole f → Whole f') := by
  have hinit := h.initialized
  cases call with
  | startFrame =>
    have hrun : startFrame f = some f' := hnext
    rw [startFrame_eq_rounds h.ring hinit] at hrun
    by_cases hdrainable : Drainable f
    · obtain ⟨f'', hrun', hinv, hkept⟩ := h.start_ends hdrainable (Nat.le_refl _)
      obtain rfl := Option.some.inj (hrun'.symm.trans hrun)
      exact ⟨hinv, fun _ => hkept⟩
    · rw [h.start_endless hdrainable] at hrun
      exact absurd hrun nofun
  | addPacket packet =>
    obtain ⟨hsize, hnext⟩ := Option.ite_none_left_eq_some.mp hnext
    obtain rfl := Option.some.inj hnext
    have hsize := not_not.mp hsize
    unfold addPacket
    rw [if_neg (by simp [hinit]), hsize]
    have hlen : packet.length % 2 ^ 16 ≤ packet.length := Nat.mod_le _ _
    have hadded := addData_added h.ring true hlen
    refine ⟨hadded.inv h, fun hplaced hwhole => hadded.whole h hlen hwhole fun _ _ => ?_⟩
    rw [Nat.mod_eq_of_lt hplaced, List.take_of_length_le (Nat.le_refl _)]
    exact wholePackets_single hsize
  | addIdlePacket idlePacket =>
    obtain ⟨hlong, hnext⟩ := Option.ite_none_left_eq_some.mp hnext
    obtain rfl := Option.some.inj hnext
    by_cases hfull : f.freeOctets = 0
    · rw [addIdlePacket_full idlePacket hfull]
      exact ⟨h, fun _ => id⟩
    · unfold addIdlePacket
      rw [if_neg (by simp [hinit]), if_neg hfull]
      split
      · exact ⟨h, fun _ => id⟩
      · have hlen : idleLength f.freeOctets ≤
            (setMsgSize idlePacket (idleLength f.freeOctets)).length := by
          rw [setMsgSize_length]
          exact Nat.le_of_not_lt hlong
        have hadded := addData_added h.ring true hlen
        exact ⟨hadded.inv h, fun _ hwhole => hadded.whole h hlen hwhole
          fun _ hnone => absurd hnone hfull⟩
  | addVcaData pData dataLength =>
    obtain ⟨hlong, hnext⟩ := Option.ite_none_left_eq_some.mp hnext
    obtain rfl := Option.some.inj hnext
    unfold addVcaData
    rw [if_neg (by simp [hinit])]
    have hlen : dataLength ≤ pData.length := Nat.le_of_not_lt fun hshort => hlong (.inl hshort)
    have hadded := addData_added h.ring false hlen
    exact ⟨hadded.inv h, fun hplaced hwhole => hadded.whole h hlen hwhole hplaced⟩
  | setOidFrame idlePacket =>
    obtain ⟨hlong, hnext⟩ := Option.ite_none_left_eq_some.mp hnext
    obtain rfl := Option.some.inj hnext
    unfold setOidFrame
    rw [if_neg (by simp [hinit])]
    split
    · exact ⟨h, fun _ => id⟩
    · rename_i hempty
      have hfree := not_not.mp hempty
      have hinv : ChannelInv { f with
          frame := setFirstHdrPtr f.frame oidFirstHdrPtr
          isFirstHdrPtrSet := true } :=
        ⟨h.initialized, h.small, h.room, h.fresh, h.settled, h.ring⟩
      have hlen := Nat.le_of_not_lt hlong
      have hadded := addData_added hinv.ring false hlen
      refine ⟨hadded.inv hinv, fun _ hwhole => hadded.whole hinv hlen hwhole fun _ hnone => ?_⟩
      rw [← hfree, (hnone : f.freeOctets = 0), List.take_zero]
      exact wholePackets_nil
  | completeFrame mcFrameCnt ocf =>
    obtain rfl := Option.some.inj hnext
    obtain ⟨hinv, hsame⟩ := h.complete crc mcFrameCnt ocf
    refine ⟨hinv, fun _ hwhole => ?_⟩
    unfold Whole
    rw [hsame]
    exact hwhole

theorem channel_inv (hframe : glob.frameLength < 2 ^ 16) (hoverflow : chnl.overflowSize < 2 ^ 16)
    (h : (tmChannel crc glob chnl).Reachable f) : ChannelInv f := by
  have hstep : ∀ s call s', ChannelInv s → (tmChannel crc glob chnl).next s call = some s' →
      ChannelInv s' := fun _ _ _ hinv hnext => (channel_step hinv hnext).1
  refine h.invariant (fun s hstart => ?_) hstep
  obtain ⟨security, hinit⟩ := hstart
  exact (initChannel_inv hframe hoverflow hinit).1

/-! ## Starting a frame -/

/-- On any channel, after any calls, `TM_SDLP_StartFrame` ends and leaves the counts
within their bounds exactly if nothing is to be moved, or the frame was not started
and gets full or finds whole packets. -/
theorem start_ends_iff (hframe : glob.frameLength < 2 ^ 16) (hoverflow : chnl.overflowSize < 2 ^ 16)
    (h : (tmChannel crc glob chnl).Reachable f) :
    (∃ rounds f', startFrameRounds rounds f = some f' ∧ f'.freeOctets ≤ f'.dataFieldLength ∧
      f'.overflowInfo.freeOctets ≤ f'.overflowInfo.buffSize) ↔ Drainable f := by
  have hinv := channel_inv hframe hoverflow h
  constructor
  · rintro ⟨rounds, f', hrun, -⟩
    by_contra hnot
    rw [hinv.start_endless hnot] at hrun
    exact absurd hrun nofun
  · intro hdrainable
    obtain ⟨f', hrun, hinv', -⟩ := hinv.start_ends hdrainable (Nat.le_refl _)
    exact ⟨_, f', hrun, hinv'.room, hinv'.ring.room⟩

/-- Where nothing but whole packets is put behind a full frame, every frame that was
not started can be. -/
theorem placed_start_ends (hframe : glob.frameLength < 2 ^ 16)
    (hoverflow : chnl.overflowSize < 2 ^ 16) (h : (tmChannel crc glob chnl).Reaches Placed f)
    (hready : f.isReady = false) : (startFrame f).isSome = true := by
  have hstart : ∀ s, (tmChannel crc glob chnl).start s → ChannelInv s ∧ Whole s := by
    rintro s ⟨security, hinit⟩
    obtain ⟨hinv, hwaiting, hcut⟩ := initChannel_inv hframe hoverflow hinit
    refine ⟨hinv, ?_⟩
    unfold Whole
    rw [hwaiting, hcut]
    exact wholePackets_nil
  have hstep : ∀ s call s', ChannelInv s ∧ Whole s → Placed s call →
      (tmChannel crc glob chnl).next s call = some s' → ChannelInv s' ∧ Whole s' := by
    intro s call s' hinv hok hnext
    obtain ⟨hinv', hwhole⟩ := channel_step hinv.1 hnext
    exact ⟨hinv', hwhole hok hinv.2⟩
  obtain ⟨hinv, hwhole⟩ := h.invariant hstart hstep
  obtain ⟨f', hrun, -⟩ := hinv.start_ends (.inr (.inr ⟨hready, .inr hwhole⟩)) (Nat.le_refl _)
  rw [startFrame_eq_rounds hinv.ring hinv.initialized, hrun]
  rfl

/-! ## Runs on a small channel -/

def smallInfo : FrameInfo :=
  (initChannel smallGlobal smallChannel (some (0, 0))).get smallChannel_isSome

theorem smallInfo_start (crc : List Octet → BitVec 16) :
    (tmChannel crc smallGlobal smallChannel).start smallInfo :=
  ⟨some (0, 0), (Option.some_get smallChannel_isSome).symm⟩

/-- VCA data that is a packet waited behind a full frame, and starts the next one. -/
theorem start_after_vca_packet : ∃ f, (tmChannel (fun _ => 0) smallGlobal smallChannel).Reachable f ∧
    waiting f.overflowInfo = samplePacket 0 0xA2 ∧
    ∃ rounds f', startFrameRounds rounds f = some f' ∧ f'.freeOctets ≤ f'.dataFieldLength ∧
      f'.overflowInfo.freeOctets ≤ f'.overflowInfo.buffSize := by
  obtain ⟨f, hreach, hcheck⟩ := Machine.exists_reaches (fun _ _ => True)
    (fun f : FrameInfo => decide (f.isReady = false ∧ f.overflowInfo.partialOctets = 0 ∧
      waiting f.overflowInfo = samplePacket 0 0xA2)) (smallInfo_start fun _ => 0)
    [.startFrame, .addPacket (samplePacket 1 0xA1), .addVcaData (samplePacket 0 0xA2) 7,
      .completeFrame 0 none] (by decide +kernel)
  obtain ⟨hready, hcut, hwaiting⟩ := of_decide_eq_true hcheck
  refine ⟨f, hreach, hwaiting, (start_ends_iff (by decide) (by decide) hreach).mpr
    (.inr (.inr ⟨hready, .inr ?_⟩))⟩
  unfold Whole
  rw [hcut, hwaiting]
  exact wholePackets_single (by decide)

/-- A packet of twelve octets fills the frame and four wait: the frame cannot be started
once more. Three octets of VCA data that waited are taken for a packet: the next frame
cannot be started. -/
theorem start_goes_on_for_ever :
    (∃ f, (tmChannel (fun _ => 0) smallGlobal smallChannel).Reachable f ∧ f.isReady = true ∧
      ∀ rounds, startFrameRounds rounds f = none) ∧
    ∃ f, (tmChannel (fun _ => 0) smallGlobal smallChannel).Reachable f ∧ f.isReady = false ∧
      ∀ rounds, startFrameRounds rounds f = none := by
  constructor
  · obtain ⟨f, hreach, hcheck⟩ := Machine.exists_reaches (fun _ _ => True)
      (fun f : FrameInfo => decide (f.isReady = true ∧ f.dataFieldLength = 8 ∧
        waiting f.overflowInfo = [0xA1, 0xA1, 0xA1, 0xA1])) (smallInfo_start fun _ => 0)
      [.startFrame, .addPacket (samplePacket 5 0xA1)] (by decide +kernel)
    obtain ⟨hready, hfield, hwaiting⟩ := of_decide_eq_true hcheck
    refine ⟨f, hreach, hready, (channel_inv (by decide) (by decide) hreach).start_endless ?_⟩
    unfold Drainable
    simp [hready, hfield, hwaiting]
  · obtain ⟨f, hreach, hcheck⟩ := Machine.exists_reaches (fun _ _ => True)
      (fun f : FrameInfo => decide (f.isReady = false ∧ f.dataFieldLength = 8 ∧
        f.overflowInfo.partialOctets = 0 ∧ waiting f.overflowInfo = [1, 2, 3]))
      (smallInfo_start fun _ => 0)
      [.startFrame, .addPacket (samplePacket 1 0xA1), .addVcaData [1, 2, 3] 3,
        .completeFrame 0 none] (by decide +kernel)
    obtain ⟨hready, hfield, hcut, hwaiting⟩ := of_decide_eq_true hcheck
    refine ⟨f, hreach, hready, (channel_inv (by decide) (by decide) hreach).start_endless ?_⟩
    have hnot : ¬ WholePackets 0 ([1, 2, 3] : List Octet) := by
      rw [wholePackets_next (by decide)]
      exact fun hfits => absurd hfits.1 (by decide)
    unfold Drainable Whole
    rw [hfield, hcut, hwaiting]
    rintro (hnone | hnil | ⟨-, hfull | hwhole⟩)
    · exact absurd hnone (by decide)
    · exact absurd hnil (by decide)
    · exact absurd hfull (by decide)
    · exact hnot hwhole

end Nos3.IoLib
