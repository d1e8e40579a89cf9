import Nos3.Sdls.Source.ExtendedProcedure
import Nos3.Sdls.Guarantees.ReceiveBounds

/-!
# One TLV PDU on three carriers

What `Crypto_PDU` finds is compared with the PDU the sender put in: behind a
packet header, behind a packet and a PUS header, or bare on the virtual channel
of the extended procedures.
-/
namespace Nos3.Sdls
open Nos3.Base
open Nos3.Base.BigEndian (Octet)
open Nos3.Base.FixedArray
open Nos3.Base.Program

/-! ## PDUs and carriers -/

def TlvHeader.octets (hdr : TlvHeader) : List Octet :=
  [hdr.type ++ hdr.uf ++ hdr.sg ++ hdr.pid, (hdr.pduLen >>> 8).setWidth 8, hdr.pduLen.setWidth 8]

/-- A PDU with its data; the length field counts the data's bits. -/
structure Tlv where
  hdr : TlvHeader
  data : List Octet
  counted : hdr.pduLen.toNat = 8 * data.length
  fits : data.length ≤ TLV_DATA_SIZE

def Tlv.octets (tlv : Tlv) : List Octet := tlv.hdr.octets ++ tlv.data

inductive Carrier where
  | pusPacket (sequence pktLength : BitVec 16) (pus : BitVec 32)
  | packet (sequence pktLength : BitVec 16)
  | vcid
  deriving DecidableEq, Repr

/-- The octets in front of the PDU: the APID of the extended procedures, the sequence
fields and the packet length, then the PUS header. -/
def Carrier.front : Carrier → List Octet
  | .pusPacket sequence pktLength pus =>
    [0x19, 0x80] ++ BigEndian.beOctets 2 sequence ++ BigEndian.beOctets 2 pktLength ++
      BigEndian.beOctets 4 pus
  | .packet sequence pktLength =>
    [0x19, 0x80] ++ BigEndian.beOctets 2 sequence ++ BigEndian.beOctets 2 pktLength
  | .vcid => []

def Carrier.Configured (config : Config) (frame : TcFrame) : Carrier → Prop
  | .pusPacket .. => config.hasPusHdr = true
  | .packet .. => config.hasPusHdr = false
  | .vcid => frame.header.vcid = TC_SDLS_EP_VCID

/-- A processed frame whose data is the PDU on its carrier. The headers take seven
octets at least. -/
structure Carries (config : Config) (carrier : Carrier) (tlv : Tlv) (frame : TcFrame) : Prop where
  configured : carrier.Configured config frame
  sa : validEpSa frame = true
  length : frame.tcPduLen = (carrier.front ++ tlv.octets).length
  data : frame.tcPdu.cells.take frame.tcPduLen = carrier.front ++ tlv.octets
  received : frame.tcPduLen + 6 ≤ frame.header.fl ∧ frame.header.fl < 1024

/-- `Crypto_PDU` finds this PDU, copied from inside the data into the space there is. -/
def SeenAs (config : Config) (tlv : Tlv) (frame : TcFrame) (sdls : SdlsFrame) : Prop :=
  ∃ call sdls', processExtendedProcedurePdu true config frame sdls = (.ok (some call), sdls') ∧
    call.tlvPdu.hdr = tlv.hdr ∧ call.copied = tlv.data ∧
    call.tlvPdu.data.cells.take call.copied.length = call.copied ∧
    call.start + call.copied.length ≤ frame.tcPduLen ∧ call.copied.length ≤ TLV_DATA_SIZE

/-- Nothing outside the data is copied and nothing behind the array is written. -/
def CopiesInside (config : Config) (frame : TcFrame) (sdls : SdlsFrame) : Prop :=
  (∀ sdls', processExtendedProcedurePdu true config frame sdls ≠ (.error .memoryFault, sdls')) ∧
    ∀ call sdls', processExtendedProcedurePdu true config frame sdls = (.ok (some call), sdls') →
      call.start + call.copied.length ≤ frame.tcPduLen

/-- A packet whose length field is that of the TLV data. -/
def Carrier.Faithful (tlv : Tlv) : Carrier → Prop
  | .pusPacket _ pktLength _ => pktLength.toNat = tlv.data.length
  | .packet _ pktLength =>
    pktLength.toNat = tlv.data.length ∧ tlv.data.length < TLV_DATA_SIZE
  | .vcid => False

/-! ## Reading the headers -/

variable {config : Config} {frame : TcFrame} {sdls : SdlsFrame} {tlv : Tlv} {carrier : Carrier}

theorem bit_fields : ∀ (type uf : BitVec 1) (sg : BitVec 2) (pid : BitVec 4),
    let flags : Octet := type ++ uf ++ sg ++ pid
    ((flags &&& 0x80) >>> 7).setWidth 1 = type ∧ ((flags &&& 0x40) >>> 6).setWidth 1 = uf ∧
      ((flags &&& 0x30) >>> 4).setWidth 2 = sg ∧ (flags &&& 0x0F).setWidth 4 = pid := by
  decide +kernel

theorem word_octets (word : BitVec 16) :
    ((word >>> 8).setWidth 8).setWidth 16 <<< 8 ||| (word.setWidth 8).setWidth 16 = word := by
  have hround := BigEndian.ofBe_beOctets_word (n := 2) (by decide) word
  simpa [BigEndian.beOctets, BigEndian.ofBe] using hround

theorem pduOctet_eq {front : List Octet} {i n : Nat}
    (hdata : frame.tcPdu.cells.take n = front) (hi : i < front.length) :
    frame.pduOctet i = front.getD i 0 := by
  rw [← hdata, List.length_take] at hi
  rw [TcFrame.pduOctet, ← hdata, List.getD_eq_getElem?_getD, List.getD_eq_getElem?_getD,
    List.getElem?_take_of_lt (by omega)]

theorem Carries.octet (h : Carries config carrier tlv frame) {i : Nat} (hi : i < frame.tcPduLen) :
    frame.pduOctet i = (carrier.front ++ tlv.octets).getD i 0 :=
  pduOctet_eq h.data (h.length ▸ hi)

theorem Tlv.octets_length (tlv : Tlv) : tlv.octets.length = SDLS_TLV_HDR_SIZE + tlv.data.length := by
  rw [Tlv.octets, List.length_append]
  rfl

theorem Carries.length_eq (h : Carries config carrier tlv frame) :
    frame.tcPduLen = carrier.front.length + SDLS_TLV_HDR_SIZE + tlv.data.length := by
  rw [h.length, List.length_append, tlv.octets_length, Nat.add_assoc]

theorem Carries.tlvOctet (h : Carries config carrier tlv frame) {i : Nat}
    (hi : i < tlv.octets.length) :
    frame.pduOctet (carrier.front.length + i) = tlv.octets.getD i 0 := by
  have hlen := h.length
  rw [List.length_append] at hlen
  rw [h.octet (by omega), List.getD_eq_getElem?_getD, List.getD_eq_getElem?_getD,
    List.getElem?_append_right (Nat.le_add_right _ _), Nat.add_sub_cancel_left]

/-- The header decoding inverts the header's octets wherever they stand. -/
theorem Carries.tlvHeader (h : Carries config carrier tlv frame) :
    tlvHeaderAt frame carrier.front.length = tlv.hdr := by
  have hlen := tlv.octets_length
  simp only [SDLS_TLV_HDR_SIZE] at hlen
  have hflags : frame.pduOctet carrier.front.length = _ := h.tlvOctet (i := 0) (by omega)
  have hhigh := h.tlvOctet (i := 1) (by omega)
  have hlow := h.tlvOctet (i := 2) (by omega)
  obtain ⟨htype, huf, hsg, hpid⟩ :=
    bit_fields tlv.hdr.type tlv.hdr.uf tlv.hdr.sg tlv.hdr.pid
  have hword : frame.pduWord (carrier.front.length + 1) = tlv.hdr.pduLen := by
    rw [TcFrame.pduWord, hhigh, Nat.add_assoc, hlow]
    exact word_octets tlv.hdr.pduLen
  rw [tlvHeaderAt, hflags, hword]
  exact congr (congr (congr (congr (congrArg TlvHeader.mk htype) huf) hsg) hpid) rfl

/-! ## Which octets are copied -/

def pusAccepted (frame : TcFrame) : Prop :=
  (tlvHeaderAt frame 10).pduLen.toNat = 8 * subWord frame.tcPduLen 13 ∧
    (sppHeader frame).pktLength.toNat ≤ TLV_DATA_SIZE

def packetAccepted (frame : TcFrame) : Prop :=
  (tlvHeaderAt frame 6).pduLen.toNat / 8 ≤ subWord frame.header.fl 9 ∧
    (sppHeader frame).pktLength.toNat < TLV_DATA_SIZE ∧
    (sppHeader frame).pktLength.toNat < subWord frame.header.fl 9

instance : Decidable (pusAccepted frame) := inferInstanceAs (Decidable (_ ∧ _))

instance : Decidable (packetAccepted frame) := inferInstanceAs (Decidable (_ ∧ _ ∧ _))

/-- Start and count of the copy, where one is made. -/
def copyPlan (config : Config) (frame : TcFrame) : Option (Nat × Nat) :=
  if validEpSa frame then
    if hasSdlsApid frame then
      if config.hasPusHdr then
        if pusAccepted frame then some (13, (sppHeader frame).pktLength.toNat) else none
      else if packetAccepted frame then some (9, (sppHeader frame).pktLength.toNat)
      else none
    else if frame.header.vcid = TC_SDLS_EP_VCID then some (3, frame.header.fl)
    else none
  else none

def seenHeader (config : Config) (frame : TcFrame) (sdls : SdlsFrame) : TlvHeader :=
  if hasSdlsApid frame then
    if config.hasPusHdr then tlvHeaderAt frame 10 else tlvHeaderAt frame 6
  else { tlvHeaderAt frame 0 with type := sdls.tlvPdu.hdr.type }

theorem copyTlvData_cases (frame : TcFrame) (start count : Nat) (s : SdlsFrame) :
    (start + count ≤ TC_FRAME_DATA_SIZE ∧ count ≤ TLV_DATA_SIZE ∧
      ∃ data s', copyTlvData frame start count s =
          (.ok ⟨⟨s.tlvPdu.hdr, data⟩, start, FileImage.window frame.tcPdu.cells start count⟩, s') ∧
        (FileImage.window frame.tcPdu.cells start count).length = count ∧
        data.cells.take count = FileImage.window frame.tcPdu.cells start count) ∨
    (¬(start + count ≤ TC_FRAME_DATA_SIZE ∧ count ≤ TLV_DATA_SIZE) ∧
      copyTlvData frame start count s = (.error .memoryFault, s)) := by
  have hcells := frame.tcPdu.length_cells
  by_cases hread : start + count ≤ TC_FRAME_DATA_SIZE
  · have hwindow := FileImage.window_full (hread.trans_eq hcells.symm)
    have hoctets := octetsAt_inside (hread.trans_eq hcells.symm)
    by_cases hwrite : count ≤ TLV_DATA_SIZE
    · refine .inl ⟨hread, hwrite, ?_⟩
      have hroom : 0 + (FileImage.window frame.tcPdu.cells start count).length ≤ TLV_DATA_SIZE := by
        omega
      obtain ⟨data, hstore, hdata⟩ := s.tlvPdu.data.exists_write hroom
      have hcopy : copyInto s.tlvPdu.data 0 (FileImage.window frame.tcPdu.cells start count) =
          .ok data := by rw [copyInto, hstore]
      refine ⟨data, { s with tlvPdu := { s.tlvPdu with data := data } }, ?_, hwindow, ?_⟩
      · simp only [copyTlvData, bind_def, Routine.lift, Routine.get, Routine.modify, hoctets, hcopy]
        rfl
      · have hback := window_patch_same (hroom.trans_eq s.tlvPdu.data.length_cells.symm)
        rwa [← hdata, hwindow, FileImage.window, List.drop_zero] at hback
    · refine .inr ⟨fun h => hwrite h.2, ?_⟩
      have hcopy : copyInto s.tlvPdu.data 0 (FileImage.window frame.tcPdu.cells start count) =
          .error .memoryFault := by
        rw [copyInto, Buffer.write, dif_neg (by omega)]
      simp only [copyTlvData, bind_def, Routine.lift, Routine.get, hoctets, hcopy]
  · refine .inr ⟨fun h => hread h.1, ?_⟩
    have hoctets : octetsAt frame.tcPdu.cells start count = .error .memoryFault := by
      rw [octetsAt, readAt, if_neg (by rwa [hcells])]
    simp only [copyTlvData, bind_def, Routine.lift, hoctets]

/-! ## The three ways -/

theorem guardWith_holds {condition : Prop} [Decidable condition] {code : Error}
    (h : condition) : guardWith condition code = .ok () :=
  guardWith_ok.mpr (decide_eq_true h)

theorem guardWith_fails {condition : Prop} [Decidable condition] {code : Error}
    (h : ¬condition) : guardWith condition code = .error code :=
  guardWith_error.mpr ⟨decide_eq_false h, rfl⟩

theorem pusPacketPdu_accepted (h : pusAccepted frame) (s : SdlsFrame) :
    pusPacketPdu frame (sppHeader frame) s =
      copyTlvData frame 13 (sppHeader frame).pktLength.toNat
        { s with pus := pusHeader frame
                 tlvPdu := { s.tlvPdu with hdr := tlvHeaderAt frame 10 } } := by
  unfold pusAccepted at h
  unfold pusPacketPdu
  simp only [modify_bind, setTlvHeader]
  apply (lift_bind (guardWith_holds h.1) _).trans
  apply (lift_bind (guardWith_holds _) _).trans
  · exact lift_bind (guardWith_holds h.2) _
  · show (tlvHeaderAt frame 10).pduLen.toNat % 8 = 0
    omega

theorem pusPacketPdu_refused (h : ¬pusAccepted frame) (s : SdlsFrame) :
    (pusPacketPdu frame (sppHeader frame) s).1 = .error .badTlvLength := by
  unfold pusAccepted at h
  unfold pusPacketPdu
  simp only [modify_bind, setTlvHeader]
  by_cases hlen : (tlvHeaderAt frame 10).pduLen.toNat = 8 * subWord frame.tcPduLen 13
  · have hpkt : ¬(sppHeader frame).pktLength.toNat ≤ TLV_DATA_SIZE := fun hpkt => h ⟨hlen, hpkt⟩
    have hbytes : (tlvHeaderAt frame 10).pduLen.toNat % 8 = 0 := by omega
    apply (congrArg Prod.fst (lift_bind (guardWith_holds hlen) _)).trans
    apply (congrArg Prod.fst (lift_bind (guardWith_holds hbytes) _)).trans
    exact congrArg Prod.fst (lift_bind_error (guardWith_fails hpkt) _)
  · exact congrArg Prod.fst (lift_bind_error (guardWith_fails hlen) _)

theorem refusal_run {routine : Ep PduCall} {s : SdlsFrame} {code : Error}
    (h : (routine s).1 = .error code) : ∃ s', routine s = (.error code, s') :=
  ⟨_, run_eq h⟩

theorem packetPdu_accepted (h : packetAccepted frame) (s : SdlsFrame) :
    packetPdu frame (sppHeader frame) s =
      copyTlvData frame 9 (sppHeader frame).pktLength.toNat
        { s with tlvPdu := { s.tlvPdu with hdr := tlvHeaderAt frame 6 } } := by
  unfold packetAccepted at h
  unfold packetPdu
  simp only [modify_bind, setTlvHeader]
  apply (lift_bind (guardWith_holds h.1) _).trans
  exact lift_bind (guardWith_holds h.2) _

theorem packetPdu_refused (h : ¬packetAccepted frame) (s : SdlsFrame) :
    (packetPdu frame (sppHeader frame) s).1 = .error .badTlvLength := by
  unfold packetAccepted at h
  unfold packetPdu
  simp only [modify_bind, setTlvHeader]
  by_cases hlen : (tlvHeaderAt frame 6).pduLen.toNat / 8 ≤ subWord frame.header.fl 9
  · have hpkt := not_and.mp h hlen
    apply (congrArg Prod.fst (lift_bind (guardWith_holds hlen) _)).trans
    exact congrArg Prod.fst (lift_bind_error (guardWith_fails hpkt) _)
  · exact congrArg Prod.fst (lift_bind_error (guardWith_fails hlen) _)

theorem vcidPdu_eq (frame : TcFrame) (s : SdlsFrame) :
    vcidPdu frame s = copyTlvData frame 3 frame.header.fl
      { s with hdr := { s.hdr with type := (tlvHeaderAt frame 0).type }
               tlvPdu :=
                { s.tlvPdu with
                  hdr := { tlvHeaderAt frame 0 with type := s.tlvPdu.hdr.type } } } := by
  simp only [vcidPdu, SDLS_TLV_HDR_SIZE, bind_def, Routine.modify]

/-- Where a plan is made, the copy is what is left to do. -/
theorem processExtendedProcedurePdu_copies (sdls : SdlsFrame) {start count : Nat}
    (h : copyPlan config frame = some (start, count)) :
    ∃ s, s.tlvPdu.hdr = seenHeader config frame sdls ∧
      processExtendedProcedurePdu true config frame sdls =
        (copyTlvData frame start count >>= fun call => pure (some call)) s := by
  unfold copyPlan at h
  unfold processExtendedProcedurePdu seenHeader
  split_ifs at h with hsa hapid hpus haccepted haccepted hvcid
  all_goals cases h
  · simp only [hapid, hsa, hpus, if_true, sdlsPacketPdu, bind_def, Routine.modify,
      pusPacketPdu_accepted haccepted]
    exact ⟨_, rfl, rfl⟩
  · simp only [hapid, hsa, hpus, if_true, Bool.false_eq_true, if_false, sdlsPacketPdu, bind_def,
      Routine.modify, packetPdu_accepted haccepted]
    exact ⟨_, rfl, rfl⟩
  · simp only [hapid, hsa, hvcid, if_true, Bool.false_eq_true, if_false, bind_def, vcidPdu_eq]
    exact ⟨_, rfl, rfl⟩

/-- Without a plan `Crypto_PDU` is not called. -/
theorem processExtendedProcedurePdu_refuses (sdls : SdlsFrame) (h : copyPlan config frame = none) :
    (processExtendedProcedurePdu true config frame sdls).1 ∈
      ([.ok none, .error .badTlvLength, .error .sdlsEpWrongSpi] :
        List (Except Error (Option PduCall))) := by
  unfold copyPlan at h
  unfold processExtendedProcedurePdu
  split_ifs at h with hsa hapid hpus haccepted haccepted hvcid
  · obtain ⟨s', hbad⟩ := refusal_run
      (pusPacketPdu_refused haccepted { sdls with hdr := sppHeader frame })
    simp only [hapid, hsa, hpus, if_true, sdlsPacketPdu, bind_def, Routine.modify, hbad]
    decide
  · obtain ⟨s', hbad⟩ := refusal_run
      (packetPdu_refused haccepted { sdls with hdr := sppHeader frame })
    simp only [hapid, hsa, hpus, if_true, Bool.false_eq_true, if_false, sdlsPacketPdu, bind_def,
      Routine.modify, hbad]
    decide
  · simp only [hapid, hvcid, Bool.false_eq_true, if_false]
    exact List.mem_cons_self
  · simp only [hsa, if_true, Bool.false_eq_true, if_false]
    split_ifs
    · exact .tail _ (.tail _ (.head _))
    · exact List.mem_cons_self
    · exact List.mem_cons_self

/-- The copy stays in both arrays and in the data. -/
def PlanFits (frame : TcFrame) (start count : Nat) : Prop :=
  start + count ≤ frame.tcPduLen ∧ start + count ≤ TC_FRAME_DATA_SIZE ∧ count ≤ TLV_DATA_SIZE

/-- One run: it is refused, or it finds the planned octets, or it leaves an array. -/
theorem processExtendedProcedurePdu_cases (config : Config) (frame : TcFrame) (sdls : SdlsFrame) :
    (copyPlan config frame = none ∧
      ∀ call sdls', processExtendedProcedurePdu true config frame sdls ≠ (.ok (some call), sdls') ∧
        processExtendedProcedurePdu true config frame sdls ≠ (.error .memoryFault, sdls')) ∨
    ∃ start count, copyPlan config frame = some (start, count) ∧
      ((start + count ≤ TC_FRAME_DATA_SIZE ∧ count ≤ TLV_DATA_SIZE ∧
        ∃ data sdls', processExtendedProcedurePdu true config frame sdls =
            (.ok (some ⟨⟨seenHeader config frame sdls, data⟩, start,
              FileImage.window frame.tcPdu.cells start count⟩), sdls') ∧
          (FileImage.window frame.tcPdu.cells start count).length = count ∧
          data.cells.take count = FileImage.window frame.tcPdu.cells start count) ∨
      (¬(start + count ≤ TC_FRAME_DATA_SIZE ∧ count ≤ TLV_DATA_SIZE) ∧
        ∃ sdls', processExtendedProcedurePdu true config frame sdls =
          (.error .memoryFault, sdls'))) := by
  cases hplan : copyPlan config frame with
  | none =>
    have hmem := processExtendedProcedurePdu_refuses sdls hplan
    left
    refine ⟨rfl, fun call sdls' => ⟨fun hrun => ?_, fun hrun => ?_⟩⟩
    · rw [hrun] at hmem
      simp at hmem
    · rw [hrun] at hmem
      simp at hmem
  | some plan =>
    obtain ⟨start, count⟩ := plan
    obtain ⟨s, hheader, hrun⟩ := processExtendedProcedurePdu_copies sdls hplan
    right
    refine ⟨start, count, rfl, ?_⟩
    rw [hrun, bind_def, ← hheader]
    rcases copyTlvData_cases frame start count s with
      ⟨hread, hwrite, data, s', hcopy, hlen, hdata⟩ | ⟨hleaves, hcopy⟩
    · rw [hcopy]
      exact .inl ⟨hread, hwrite, data, s', rfl, hlen, hdata⟩
    · rw [hcopy]
      exact .inr ⟨hleaves, s, rfl⟩

/-- What is copied stays inside exactly when the planned count does. -/
theorem copiesInside_iff :
    CopiesInside config frame sdls ↔
      ∀ start count, copyPlan config frame = some (start, count) → PlanFits frame start count := by
  rcases processExtendedProcedurePdu_cases config frame sdls with
    ⟨hplan, hnot⟩ | ⟨start, count, hplan, hcopy⟩
  · constructor
    · intro _ start count hsome
      rw [hplan] at hsome
      cases hsome
    · intro _
      exact ⟨fun sdls' => (hnot ⟨sdls.tlvPdu, 0, []⟩ sdls').2,
        fun call sdls' hrun => absurd hrun (hnot call sdls').1⟩
  · constructor
    · intro ⟨hfault, hinside⟩ start' count' hsome
      rw [hplan] at hsome
      cases hsome
      rcases hcopy with ⟨hread, hwrite, data, sdls', hrun, hlen, _⟩ | ⟨_, sdls', hrun⟩
      · have hdata := hinside _ _ hrun
        rw [hlen] at hdata
        exact ⟨hdata, hread, hwrite⟩
      · exact absurd hrun (hfault sdls')
    · intro hfits
      obtain ⟨hdata, hread, hwrite⟩ := hfits start count hplan
      rcases hcopy with ⟨_, _, data, sdls', hrun, hlen, _⟩ | ⟨hleaves, _⟩
      · constructor
        · intro sdls'' hfault
          rw [hrun] at hfault
          cases hfault
        · intro call sdls'' hcall
          rw [hrun] at hcall
          cases hcall
          show start + (FileImage.window frame.tcPdu.cells start count).length ≤ _
          rwa [hlen]
      · exact absurd ⟨hread, hwrite⟩ hleaves

/-! ## The planned copy of a carried PDU -/

/-- Both packet carriers begin alike. -/
theorem packet_front {n : Nat} {sequence pktLength : BitVec 16} {tail : List Octet}
    (hdata : frame.tcPdu.cells.take n =
      [0x19, 0x80] ++ BigEndian.beOctets 2 sequence ++ BigEndian.beOctets 2 pktLength ++ tail) :
    hasSdlsApid frame = true ∧ (sppHeader frame).pktLength = pktLength := by
  have hlen : 6 ≤ ([0x19, 0x80] ++ BigEndian.beOctets 2 sequence ++
      BigEndian.beOctets 2 pktLength ++ tail).length := by
    simp only [List.length_append, BigEndian.beOctets_length]
    exact Nat.le_add_right _ _
  have hfirst : frame.pduOctet 0 = 0x19 := pduOctet_eq hdata (by omega)
  have hsecond : frame.pduOctet 1 = 0x80 := pduOctet_eq hdata (by omega)
  have hhigh : frame.pduOctet 4 = (pktLength >>> 8).setWidth 8 := pduOctet_eq hdata (by omega)
  have hlow : frame.pduOctet 5 = pktLength.setWidth 8 := pduOctet_eq hdata (by omega)
  constructor
  · rw [hasSdlsApid, hfirst, hsecond]
    rfl
  · show frame.pduWord 4 = pktLength
    rw [TcFrame.pduWord, hhigh, hlow, word_octets]

/-- The length field of a PDU that fits keeps a bare PDU from looking like a packet. -/
theorem Carries.bare_not_packet (h : Carries config .vcid tlv frame) :
    hasSdlsApid frame = false := by
  have hlen := tlv.octets_length
  have hcounted := tlv.counted
  have hfits := tlv.fits
  simp only [SDLS_TLV_HDR_SIZE, TLV_DATA_SIZE] at hlen hfits
  have hsecond : frame.pduOctet (0 + 1) = (tlv.hdr.pduLen >>> 8).setWidth 8 :=
    h.tlvOctet (by omega)
  have hsmall : frame.pduOctet 1 ≠ 0x80 := by
    rw [hsecond]
    intro heq
    have hnat := congrArg BitVec.toNat heq
    rw [BitVec.toNat_setWidth, BitVec.toNat_ushiftRight, Nat.shiftRight_eq_div_pow] at hnat
    simp only [BitVec.reduceToNat] at hnat
    omega
  rw [hasSdlsApid, decide_eq_false hsmall, Bool.and_false]

/-- The data stands behind the headers. -/
theorem Carries.dataWindow (h : Carries config carrier tlv frame) :
    FileImage.window frame.tcPdu.cells (carrier.front.length + SDLS_TLV_HDR_SIZE)
      tlv.data.length = tlv.data := by
  have hheader : (carrier.front ++ tlv.hdr.octets).length =
      carrier.front.length + SDLS_TLV_HDR_SIZE := List.length_append
  have hdata := h.data
  rw [Tlv.octets, ← List.append_assoc] at hdata
  have hdrop := congrArg (List.drop (carrier.front.length + SDLS_TLV_HDR_SIZE)) hdata
  rwa [List.drop_left' hheader, List.drop_take, h.length_eq, Nat.add_sub_cancel_left] at hdrop

theorem Carries.pus_plan {sequence pktLength : BitVec 16} {pus : BitVec 32}
    (h : Carries config (.pusPacket sequence pktLength pus) tlv frame) (sdls : SdlsFrame) :
    copyPlan config frame =
        (if pktLength.toNat ≤ TLV_DATA_SIZE then some (13, pktLength.toNat) else none) ∧
      seenHeader config frame sdls = tlv.hdr := by
  have hpus : config.hasPusHdr = true := h.configured
  have hheader : tlvHeaderAt frame 10 = tlv.hdr := h.tlvHeader
  have hdata := h.data
  rw [Carrier.front, List.append_assoc] at hdata
  obtain ⟨hapid, hlength⟩ := packet_front hdata
  have hcount : (tlvHeaderAt frame 10).pduLen.toNat = 8 * subWord frame.tcPduLen 13 := by
    have hlen : frame.tcPduLen = 13 + tlv.data.length := h.length_eq
    have hfits := tlv.fits
    simp only [TLV_DATA_SIZE] at hfits
    rw [hheader, tlv.counted, subWord_eq (by omega) (by omega), hlen, Nat.add_sub_cancel_left]
  constructor
  · simp only [copyPlan, h.sa, hapid, hpus, if_true, pusAccepted, hcount, true_and, hlength]
  · simp only [seenHeader, hapid, hpus, if_true, hheader]

theorem Carries.packet_plan {sequence pktLength : BitVec 16}
    (h : Carries config (.packet sequence pktLength) tlv frame) (sdls : SdlsFrame) :
    copyPlan config frame =
        (if pktLength.toNat < TLV_DATA_SIZE ∧ pktLength.toNat < frame.header.fl - 9 then
          some (9, pktLength.toNat) else none) ∧
      seenHeader config frame sdls = tlv.hdr := by
  have hpus : config.hasPusHdr = false := h.configured
  have hheader : tlvHeaderAt frame 6 = tlv.hdr := h.tlvHeader
  have hdata := h.data
  rw [Carrier.front, ← List.append_nil (_ ++ BigEndian.beOctets 2 pktLength),
    List.append_assoc] at hdata
  obtain ⟨hapid, hlength⟩ := packet_front hdata
  have hlen : frame.tcPduLen = 9 + tlv.data.length := h.length_eq
  have hreceived := h.received
  have hmax : subWord frame.header.fl 9 = frame.header.fl - 9 :=
    subWord_eq (by omega) (by omega)
  have hcount : (tlvHeaderAt frame 6).pduLen.toNat / 8 ≤ frame.header.fl - 9 := by
    rw [hheader, tlv.counted]
    omega
  constructor
  · simp only [copyPlan, h.sa, hapid, hpus, if_true, Bool.false_eq_true, if_false, packetAccepted,
      hmax, hcount, true_and, hlength]
  · simp only [seenHeader, hapid, hpus, if_true, Bool.false_eq_true, if_false, hheader]

theorem Carries.vcid_plan (h : Carries config .vcid tlv frame) :
    copyPlan config frame = some (3, frame.header.fl) := by
  have hvcid : frame.header.vcid = TC_SDLS_EP_VCID := h.configured
  simp only [copyPlan, h.sa, h.bare_not_packet, hvcid, if_true, Bool.false_eq_true, if_false]

theorem seenAs_iff_plan :
    SeenAs config tlv frame sdls ↔
      ∃ start count, copyPlan config frame = some (start, count) ∧ PlanFits frame start count ∧
        seenHeader config frame sdls = tlv.hdr ∧
        FileImage.window frame.tcPdu.cells start count = tlv.data := by
  constructor
  · intro ⟨call, sdls', hrun, hheader, hcopied, _, hinside, hroom⟩
    rcases processExtendedProcedurePdu_cases config frame sdls with
      ⟨_, hnot⟩ | ⟨start, count, hplan, hcopy⟩
    · exact absurd hrun (hnot call sdls').1
    · rcases hcopy with ⟨hread, hwrite, data, sdls'', hrun', hlen, _⟩ | ⟨_, sdls'', hrun'⟩
      · rw [hrun'] at hrun
        cases hrun
        rw [hlen] at hinside
        exact ⟨start, count, hplan, ⟨hinside, hread, hwrite⟩, hheader, hcopied⟩
      · rw [hrun'] at hrun
        cases hrun
  · intro ⟨start, count, hplan, ⟨hinside, hread, hwrite⟩, hheader, hdata⟩
    rcases processExtendedProcedurePdu_cases config frame sdls with
      ⟨hnone, _⟩ | ⟨start', count', hplan', hcopy⟩
    · rw [hplan] at hnone
      cases hnone
    · rw [hplan] at hplan'
      cases hplan'
      rcases hcopy with ⟨_, _, data, sdls', hrun, hlen, hcells⟩ | ⟨hleaves, _⟩
      · refine ⟨_, sdls', hrun, hheader, hdata, ?_, ?_, ?_⟩
        · show data.cells.take (FileImage.window frame.tcPdu.cells start count).length = _
          rw [hlen, hcells]
        · show start + (FileImage.window frame.tcPdu.cells start count).length ≤ _
          rwa [hlen]
        · show (FileImage.window frame.tcPdu.cells start count).length ≤ _
          rwa [hlen]
      · exact absurd ⟨hread, hwrite⟩ hleaves

/-- A carried PDU is found exactly behind a packet header with the right length. -/
theorem Carries.seenAs_iff (h : Carries config carrier tlv frame) :
    SeenAs config tlv frame sdls ↔ carrier.Faithful tlv := by
  have hlen := h.length_eq
  have hwindow := h.dataWindow
  have hreceived := h.received
  have hfits := tlv.fits
  simp only [TLV_DATA_SIZE, SDLS_TLV_HDR_SIZE] at hfits hlen hwindow
  rw [seenAs_iff_plan]
  cases carrier with
  | pusPacket sequence pktLength pus =>
    obtain ⟨hplan, hheader⟩ := h.pus_plan sdls
    have hstart : (Carrier.pusPacket sequence pktLength pus).front.length + 3 = 13 := rfl
    rw [hstart] at hlen hwindow
    constructor
    · rintro ⟨start, count, hsome, hfit, _, hdata⟩
      rw [hplan] at hsome
      split at hsome
      · cases hsome
        have hfull := FileImage.window_full (hfit.2.1.trans_eq frame.tcPdu.length_cells.symm)
        exact hfull.symm.trans (congrArg List.length hdata)
      · cases hsome
    · intro (hfaithful : pktLength.toNat = tlv.data.length)
      refine ⟨13, pktLength.toNat, ?_, ⟨?_, ?_, ?_⟩, hheader, ?_⟩
      · exact hplan.trans (if_pos (hfaithful.trans_le hfits))
      · omega
      · show 13 + pktLength.toNat ≤ 1019
        omega
      · exact hfaithful.trans_le hfits
      · rwa [hfaithful]
  | packet sequence pktLength =>
    obtain ⟨hplan, hheader⟩ := h.packet_plan sdls
    have hstart : (Carrier.packet sequence pktLength).front.length + 3 = 9 := rfl
    rw [hstart] at hlen hwindow
    constructor
    · rintro ⟨start, count, hsome, hfit, _, hdata⟩
      rw [hplan] at hsome
      split at hsome
      · rename_i haccepted
        cases hsome
        have hfull := FileImage.window_full (hfit.2.1.trans_eq frame.tcPdu.length_cells.symm)
        have hcount := hfull.symm.trans (congrArg List.length hdata)
        exact ⟨hcount, hcount ▸ haccepted.1⟩
      · cases hsome
    · rintro ⟨hfaithful, hshort⟩
      refine ⟨9, pktLength.toNat, ?_, ⟨?_, ?_, ?_⟩, hheader, ?_⟩
      · rw [hplan, if_pos ⟨hfaithful ▸ hshort, by omega⟩]
      · omega
      · show 9 + pktLength.toNat ≤ 1019
        omega
      · exact hfaithful.trans_le hfits
      · rwa [hfaithful]
  | vcid =>
    have hplan := h.vcid_plan
    constructor
    · rintro ⟨start, count, hsome, hfit, _⟩
      rw [hplan] at hsome
      cases hsome
      -- the frame length counts the headers too
      have hinside := hfit.1
      omega
    · exact False.elim

/-- Which PDUs are seen as they were put in, and which frames are copied from inside. -/
theorem extended_procedure_iff (config : Config) (frame : TcFrame) (sdls : SdlsFrame) :
    (∀ carrier tlv, Carries config carrier tlv frame →
      (SeenAs config tlv frame sdls ↔ carrier.Faithful tlv)) ∧
    (CopiesInside config frame sdls ↔
      ∀ start count, copyPlan config frame = some (start, count) → PlanFits frame start count) :=
  ⟨fun _ _ hcarries => hcarries.seenAs_iff, copiesInside_iff⟩

/-- A PDU without data. -/
def pingTlv : Tlv where
  hdr := { type := 0, uf := 0, sg := 3, pid := 1, pduLen := 0 }
  data := []
  counted := rfl
  fits := by decide

def blankSdlsFrame : SdlsFrame where
  hdr := { pvn := 0, type := 0, shdr := 0, appId := 0, seq := 0, pktid := 0, pktLength := 0 }
  pus := { shf := 0, pusv := 0, ack := 0, st := 0, sst := 0, sid := 0, spare := 0 }
  tlvPdu :=
    { hdr := { type := 0, uf := 0, sg := 0, pid := 0, pduLen := 0 }
      data := .replicate TLV_DATA_SIZE 0 }

/-- The processed frame with these octets as its data. -/
def pingFrame (front : List Octet) : TcFrame :=
  let octets := front ++ pingTlv.octets
  { blankFrame with
    header := { blankFrame.header with vcid := TC_SDLS_EP_VCID, fl := octets.length + 6 }
    tcPdu := ⟨octets.take TC_FRAME_DATA_SIZE ++
      List.replicate (TC_FRAME_DATA_SIZE - octets.length) 0, by simp; omega⟩
    tcPduLen := octets.length }

def pusCarrier : Carrier := .pusPacket 0xC000 0 0x10010001

theorem ping_carried_by_packet :
    Carries { scConfig with hasPusHdr := true } pusCarrier pingTlv
      (pingFrame pusCarrier.front) where
  configured := rfl
  sa := rfl
  length := rfl
  data := by decide +kernel
  received := by decide

theorem ping_carried_bare : Carries scConfig .vcid pingTlv (pingFrame []) where
  configured := rfl
  sa := rfl
  length := rfl
  data := by decide +kernel
  received := by decide

theorem ping_seen_in_packet :
    SeenAs { scConfig with hasPusHdr := true } pingTlv (pingFrame pusCarrier.front)
      blankSdlsFrame :=
  ((extended_procedure_iff _ _ _).1 _ _ ping_carried_by_packet).mpr rfl

/-- Bare on the virtual channel the same PDU is copied with nine octets instead of
none, three of them beyond the data and its headers. -/
theorem bare_ping_overread :
    Carries { scConfig with hasPusHdr := true } pusCarrier pingTlv (pingFrame pusCarrier.front) ∧
      Carries scConfig .vcid pingTlv (pingFrame []) ∧
      SeenAs { scConfig with hasPusHdr := true } pingTlv (pingFrame pusCarrier.front)
        blankSdlsFrame ∧
      ¬SeenAs scConfig pingTlv (pingFrame []) blankSdlsFrame ∧
      ¬CopiesInside scConfig (pingFrame []) blankSdlsFrame := by
  refine ⟨ping_carried_by_packet, ping_carried_bare, ?_, ?_, ?_⟩
  · exact ping_carried_by_packet.seenAs_iff.mpr rfl
  · exact ping_carried_bare.seenAs_iff.not.mpr id
  · intro hinside
    have hfits := copiesInside_iff.mp hinside 3 9 ping_carried_bare.vcid_plan
    exact absurd hfits.1 (by decide)

end Nos3.Sdls
