import Nos3.Cf.Source.DecodeSafety

/-!
# Decoding arbitrary octets

Whatever a message contains, receiving its header and running any of the PDU
decoders stays inside it, stores no more entries than the arrays hold, and after
the first failure grants nothing more.
-/
namespace Nos3.Cf
open Nos3.Base.Wire

/-! ## The receive functions are decoding steps -/

theorem recvPh_step (ph : PduBuffer) : DecoderStep ph.pdec (recvPh ph).2.pdec := by
  have hheader := steps_header ph.pduHeader ph.pdec
  unfold recvPh
  generalize decodeHeader ph.pduHeader ph.pdec = result at hheader ⊢
  obtain ⟨⟨success, pduHeader⟩, pdec⟩ := result
  have hdirective := steps_fileDirectiveHeader ph.fdirective pdec
  simp only
  generalize decodeFileDirectiveHeader ph.fdirective pdec = result at hdirective ⊢
  obtain ⟨fdirective, pdec'⟩ := result
  split
  · exact hheader
  · split
    · exact hheader
    · simp only
      split
      · exact hheader.trans hdirective
      · exact hheader

theorem recvMdDecode_step (ph : PduBuffer) : DecoderStep ph.pdec (recvMdDecode ph).2.pdec :=
  steps_md default ph.pdec

theorem recvFdDecode_step (ph : PduBuffer) : DecoderStep ph.pdec (recvFdDecode ph).2.pdec := by
  have hfd := steps_fileDataHeader (ph.pduHeader.segmentMetaFlag != 0) default ph.pdec
  unfold recvFdDecode
  generalize decodeFileDataHeader (ph.pduHeader.segmentMetaFlag != 0) default ph.pdec = result
    at hfd ⊢
  obtain ⟨fd, pdec⟩ := result
  simp only
  split
  · split
    · exact hfd.trans (setDone_step _)
    · exact hfd
  · exact hfd

theorem recvEof_step (ph : PduBuffer) : DecoderStep ph.pdec (recvEof ph).2.pdec :=
  steps_eof default ph.pdec

theorem recvAck_step (ph : PduBuffer) : DecoderStep ph.pdec (recvAck ph).2.pdec :=
  steps_ack default ph.pdec

theorem recvFin_step (ph : PduBuffer) : DecoderStep ph.pdec (recvFin ph).2.pdec :=
  steps_fin default ph.pdec

theorem recvNak_step (ph : PduBuffer) : DecoderStep ph.pdec (recvNak ph).2.pdec :=
  steps_nak default ph.pdec

inductive PduDecoder
  | md | fd | eof | ack | fin | nak
  deriving DecidableEq

def PduDecoder.recv : PduDecoder → PduBuffer → Bool × PduBuffer
  | .md => recvMdDecode
  | .fd => recvFdDecode
  | .eof => recvEof
  | .ack => recvAck
  | .fin => recvFin
  | .nak => recvNak

theorem PduDecoder.recv_step (kind : PduDecoder) (ph : PduBuffer) :
    DecoderStep ph.pdec (kind.recv ph).2.pdec := by
  cases kind with
  | md => exact recvMdDecode_step ph
  | fd => exact recvFdDecode_step ph
  | eof => exact recvEof_step ph
  | ack => exact recvAck_step ph
  | fin => exact recvFin_step ph
  | nak => exact recvNak_step ph

/-! ## Stored entries -/

def IntHeader.numTlv : IntHeader → Nat
  | .eof part => part.tlvList.numTlv
  | .fin part => part.tlvList.numTlv
  | _ => 0

def IntHeader.numSegments : IntHeader → Nat
  | .nak part => part.segmentList.numSegments
  | .fd part => part.segmentList.numSegments
  | _ => 0

theorem PduDecoder.recv_counts (kind : PduDecoder) (ph : PduBuffer) :
    (kind.recv ph).2.intHeader.numTlv ≤ pduMaxTlv ∧
      (kind.recv ph).2.intHeader.numSegments ≤ pduMaxSegments := by
  cases kind with
  | md => exact ⟨Nat.zero_le _, Nat.zero_le _⟩
  | ack => exact ⟨Nat.zero_le _, Nat.zero_le _⟩
  | eof => exact ⟨eof_count _, Nat.zero_le _⟩
  | fin => exact ⟨fin_count _, Nat.zero_le _⟩
  | nak => exact ⟨Nat.zero_le _, (nak_count _).trans (by decide)⟩
  | fd =>
    have hfd := fd_count (ph.pduHeader.segmentMetaFlag != 0) ph.pdec
    refine ⟨Nat.zero_le _, ?_⟩
    simp only [PduDecoder.recv, recvFdDecode, IntHeader.numSegments]
    generalize decodeFileDataHeader (ph.pduHeader.segmentMetaFlag != 0) default ph.pdec = result
      at hfd ⊢
    obtain ⟨fd, pdec⟩ := result
    simp only
    split
    · split <;> exact hfd
    · exact hfd

/-! ## Whole decode sequences -/

/-- The PDU buffer after `CF_CFDP_RecvPh` and one of the decoders ran on a message. -/
def decodeSequence (msgbuf : List Octet) (encapHdrSize : Nat) (kind : PduDecoder) : PduBuffer :=
  (kind.recv (recvPh (decodeStart msgbuf encapHdrSize msgbuf.length)).2).2

theorem decodeStart_inside (msgbuf : List Octet) (encapHdrSize : Nat) :
    let s := (decodeStart msgbuf encapHdrSize msgbuf.length).pdec
    s.codecState.nextOffset ≤ s.codecState.maxSize ∧ s.codecState.maxSize = s.base.length ∧
      s.requests = [] ∧ s.reads = [] := by
  unfold decodeStart
  by_cases h : msgbuf.length > encapHdrSize
  · simp [h, codecReset]
  · simp [h, codecReset, codecSetDone]

/-- Safety and stickiness of decoding, for every message and every decoder. A
decoder that starts out invalid grants nothing at all. -/
theorem decoder_safety (msgbuf : List Octet) (encapHdrSize : Nat) (kind : PduDecoder) :
    let ph := decodeSequence msgbuf encapHdrSize kind
    let s := ph.pdec
    s.codecState.maxSize = s.base.length ∧
    (∀ i ∈ s.reads, i < s.codecState.maxSize) ∧
    s.codecState.nextOffset ≤ s.codecState.maxSize ∧
    (∀ r ∈ s.requests, r.nextOffset ≤ s.codecState.maxSize ∧
      ∀ ptr, r.granted = some ptr → ptr + r.size ≤ s.codecState.maxSize) ∧
    ph.intHeader.numTlv ≤ pduMaxTlv ∧ ph.intHeader.numSegments ≤ pduMaxSegments ∧
    (∀ r ∈ s.requests, r.validBefore = false → r.granted = none) ∧
    (∀ r ∈ s.requests, r.granted = none → s.isOk = false) ∧
    (s.requests.Pairwise fun a b => a.granted = none → b.validBefore = false ∧ b.granted = none) ∧
    (∀ s₀ : DecoderState, s₀.isOk = false → ∀ ph₀ : PduBuffer, ph₀.pdec = s₀ →
      (recvPh ph₀).2.isOk = false ∧ (kind.recv ph₀).2.isOk = false ∧
      ∃ new, (kind.recv ph₀).2.pdec.requests = s₀.requests ++ new ∧
        ∀ r ∈ new, r.granted = none) := by
  intro ph s
  obtain ⟨hinside, hsize, hrequests, hreads⟩ := decodeStart_inside msgbuf encapHdrSize
  have hstep : DecoderStep (decodeStart msgbuf encapHdrSize msgbuf.length).pdec s :=
    (recvPh_step _).trans (kind.recv_step _)
  obtain ⟨new, reads, hlog⟩ := hstep.log
  have hnew : s.requests = new := by rw [hlog.requests, hrequests, List.nil_append]
  have hread : s.reads = reads := by rw [hlog.allReads, hreads, List.nil_append]
  obtain ⟨htlv, hseg⟩ := kind.recv_counts (recvPh (decodeStart msgbuf encapHdrSize msgbuf.length)).2
  refine ⟨by rw [hstep.size, hsize, hstep.base], ?_, hstep.inside hinside, ?_, htlv, hseg, ?_, ?_,
    ?_, ?_⟩
  · rw [hread, hstep.size]
    exact hlog.readsInside hinside
  · rw [hnew, hstep.size]
    exact hlog.granted hinside
  · rw [hnew]
    exact hlog.refused
  · rw [hnew]
    exact hlog.final
  · rw [hnew]
    refine hlog.later.imp_of_mem fun {a b} _ hb h ha => ?_
    exact ⟨h ha, hlog.refused b hb (h ha)⟩
  · rintro s₀ hinvalid ph₀ rfl
    have hkind := kind.recv_step ph₀
    obtain ⟨new₀, reads₀, hlog₀⟩ := hkind.log
    exact ⟨(recvPh_step ph₀).sticky hinvalid, hkind.sticky hinvalid, new₀, hlog₀.requests,
      fun r hr => hlog₀.refused r hr (hlog₀.invalid hinvalid r hr)⟩

end Nos3.Cf
