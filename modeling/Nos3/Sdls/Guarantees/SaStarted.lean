import Nos3.Sdls.Source.ApplyRules
import Nos3.Sdls.Source.TcState
import Nos3.Sdls.Guarantees.SaLifecycle

/-!
# Rejected frames leave the association database alone

Both directions move counters in one place each. On the receiver it is the
anti-replay check, which stores nothing unless every test passed; on the sender
it comes behind the last step that can fail.
-/
namespace Nos3.Sdls
open Nos3.Base.BigEndian (Octet)
open Nos3.Base.Program

variable {env : TcEnv}

/-! ## The receiver -/

theorem setSa_same (s : TcState) (i : Fin NUM_SA) : (s.setSa i (s.sas i)).sas = s.sas := by
  rw [TcState.setSa, Function.update_eq_self]

theorem checkIvArsn_restores (config : Config) (i : Fin NUM_SA) :
    RestoresOnError TcState.sas (checkIvArsn config i) := by
  intro s e s' h
  rw [checkIvArsn] at h
  split at h
  · cases h
  · rcases hrun : checkAntiReplay config (s.sas i) s.frame.sn.cells s.frame.iv.cells with
      ⟨status, sa⟩
    have h : (status, s.setSa i sa) = (.error e, s') := by
      simpa only [bind_def, Routine.get, hrun, Routine.modify, Routine.lift] using h
    cases h
    rw [checkAntiReplay_error hrun]
    exact setSa_same s i

theorem processFrame_restores (ingest : List Octet) :
    RestoresOnError TcState.sas (processFrame env ingest) := by
  refine .bind (parseHeaders_keeps ingest) fun i => .bind .get fun s => ?_
  refine .bind (.lift _) fun _ => .bind (parseSecurityHeader_keeps _ _ _ _) fun _ => ?_
  refine .bind (prepAad_keeps _ _ _ _) fun aad => .bind (setFrame_keeps _) fun _ => ?_
  refine .bind (.lift _) fun _ => .bind (.lift _) fun keys => ?_
  exact .bind (doDecrypt_keeps _ _ _ _ _ _ _) fun _ => checkIvArsn_restores _ _

/-! ## The sender -/

theorem createFecf_total (config : Config) (current : ManagedParameters) {frame : List Octet}
    (h : 2 ≤ frame.length) : ∃ frame', createFecf config current frame = .ok frame' := by
  rw [createFecf]
  split
  · rw [pokeAt, if_pos (by simp only [List.length_cons, List.length_nil]; omega)]
    exact ⟨_, rfl⟩
  · exact ⟨_, rfl⟩

theorem doEncrypt_restores (i : Fin NUM_SA) (setup : FrameSetup) (inFrame : List Octet)
    {frame : List Octet} (index : Nat) (hlen : 2 ≤ frame.length) :
    RestoresOnError TcState.sas (doEncrypt env i setup inFrame frame index) := by
  intro s e s' h
  rcases bind_error.mp h with hget | ⟨before, mid, hget, h⟩
  · cases hget
  · cases hget
    have hkeeps : ((tcEncrypt env (s.sas i) setup inFrame frame index s).2).sas = s.sas :=
      tcEncrypt_keeps (s.sas i) setup inFrame frame index s
    rcases bind_error.mp h with hfail | ⟨frame', mid, hrun, h⟩
    · rw [hfail] at hkeeps
      exact hkeeps
    · rw [hrun] at hkeeps
      obtain ⟨calls, hencrypt, -⟩ := tcEncrypt_run hrun
      have hrunLen := hencrypt.length_eq
      rcases bind_error.mp h with hfail | ⟨sa, mid', hrun', h⟩
      · rw [(lift_error.mp hfail).2]
        exact hkeeps
      · rcases bind_error.mp h with hfail | ⟨_, _, -, hfecf⟩
        · cases hfail
        · obtain ⟨_, htotal⟩ := createFecf_total env.config s.current
            (by rwa [hrunLen] : 2 ≤ frame'.length)
          rw [htotal] at hfecf
          cases hfecf

theorem applySecurity_restores (inFrame : List Octet) :
    RestoresOnError TcState.sas (applySecurity env inFrame) := by
  refine .bind (.lift _) fun _ => .bind (.lift _) fun header => ?_
  refine .bind (validateTcTempHeader_keeps inFrame header) fun i => .bind (.lift _) fun _ => ?_
  refine .bind .get fun s => ?_
  intro t e t' h
  rcases bind_error.mp h with hfail | ⟨setup, _, hlift, hbuilt⟩
  · rw [(lift_error.mp hfail).2]
  · obtain ⟨hsetup, rfl⟩ := lift_ok.mp hlift
    rcases bind_error.mp hbuilt with hfail | ⟨⟨frame, index⟩, _, hlift', hencrypt⟩
    · rw [(lift_error.mp hfail).2]
    · obtain ⟨hbuild, rfl⟩ := lift_ok.mp hlift'
      obtain ⟨_, -, -, -, -, hmin, -⟩ := calcFrameSetup_cases hsetup
      have hlen : 2 ≤ frame.length := by
        rw [buildFrame_length hbuild]
        exact Nat.le_trans (by decide) hmin
      exact doEncrypt_restores i setup inFrame index hlen _ e t' hencrypt

/-! ## Both directions -/

/-- What is raised before the extended procedures is returned as it is, and every
association is the one it was. -/
theorem rejected_frame_keeps_sas (env : TcEnv) (octets : List Octet) (s s' : TcState) (e : Error) :
    (processFrame env octets s = (.error e, s') →
      (∀ extended, processSecurity env extended octets s = (.error e, s')) ∧ s'.sas = s.sas) ∧
    (applySecurity env octets s = (.error e, s') → s'.sas = s.sas) := by
  refine ⟨fun h => ⟨fun extended => ?_, processFrame_restores octets s e s' h⟩,
    applySecurity_restores octets s e s'⟩
  rw [processSecurity, bind_def, h]

def unkeyedEnv : TcEnv :=
  ⟨scConfig, [scManagedParameters 2], fun _ => none, rejectingCrypto⟩

/-- 24 octets on virtual channel 2 that name the association 9. -/
def wrongSpiFrame : List Octet :=
  [0x20, 0x03, 0x08, 0x17, 0x00, 0x00, 0x00, 0x09] ++ List.replicate 16 0x5A

/-- On the way in the frame names an association that is not operational, on the way
out the key of its channel's association is missing. -/
theorem rejected_frame_keeps_sas_both_ways :
    (∃ s', processFrame unkeyedEnv wrongSpiFrame (startState (encryptionSa .aes256Gcm 12 12)) =
        (.error .saNotOperational, s') ∧ s'.sas = tableWith (encryptionSa .aes256Gcm 12 12)) ∧
    (∃ s', applySecurity unkeyedEnv wrongSpiFrame (startState (encryptionSa .aes256Gcm 12 12)) =
        (.error .keyIdError, s') ∧ s'.sas = tableWith (encryptionSa .aes256Gcm 12 12)) := by
  have hprocess : (processFrame unkeyedEnv wrongSpiFrame
      (startState (encryptionSa .aes256Gcm 12 12))).1 = .error .saNotOperational := by
    decide +kernel
  have happly : (applySecurity unkeyedEnv wrongSpiFrame
      (startState (encryptionSa .aes256Gcm 12 12))).1 = .error .keyIdError := by
    decide +kernel
  have hprocess := run_eq hprocess
  have happly := run_eq happly
  exact ⟨⟨_, hprocess, ((rejected_frame_keeps_sas _ _ _ _ _).1 hprocess).2⟩,
    ⟨_, happly, (rejected_frame_keeps_sas _ _ _ _ _).2 happly⟩⟩

end Nos3.Sdls

/-!
## The channel a start procedure installs

The loop over the channels of the PDU runs once more than there are channels, so it
stores one made of octets behind the PDU, unless the eight-bit place has started over
by then. What it stores on the virtual channel of the TM frame keeps the old virtual
channel.
-/
namespace Nos3.Sdls
open Nos3.Base.BigEndian (Octet)
open Nos3.Base.FixedArray
open Nos3.Base.Program

/-! ## What the loop reads and stores -/

/-- The channels the PDU has room for behind its SPI. -/
def SaRequest.channels (r : SaRequest) : Nat := (pduOctets r.pdu - 2) / 4

/-- A channel the PDU lists and the TLV data holds. -/
def Lists (r : SaRequest) (gvcid : Gvcid) : Prop :=
  ∃ x < r.channels, 2 + 4 * x + 4 ≤ TLV_DATA_SIZE ∧ gvcid = gvcidAt r (2 + 4 * x)

/-- The channels the loop takes. -/
def startEntries (r : SaRequest) : List Gvcid :=
  (List.range (r.channels + 1)).map fun x => gvcidAt r ((2 + 4 * x) % 256)

/-- The places in the TLV data that are read: the SPI, then four a channel. -/
def startReads (r : SaRequest) : List Nat :=
  [0, 1] ++ (List.range (r.channels + 1)).flatMap fun x =>
    [(2 + 4 * x) % 256, (2 + 4 * x) % 256 + 1, (2 + 4 * x) % 256 + 2, (2 + 4 * x) % 256 + 3]

/-- The association is operational on a channel of the PDU, and only the PDU was read. -/
structure StartsListed (r : SaRequest) (sa : SaEntry) : Prop where
  operational : sa.saState = .operational
  listed : Lists r sa.gvcid
  inside : ∀ i ∈ startReads r, i < pduOctets r.pdu

/-- A channel of which at least a part is stored. -/
def Stored (r : SaRequest) (gvcid : Gvcid) : Bool :=
  gvcid.mapid.val ≠ TYPE_MAP ∧ (gvcid.vcid ≠ r.vcid ∨ gvcid.vcid.val ≠ r.tmVcid)

/-- A channel that sets the virtual channel: away from the one of the TM frame its own,
else zero if it is of type TC. -/
def SetsVcid (r : SaRequest) (gvcid : Gvcid) : Bool :=
  Stored r gvcid ∧ (gvcid.vcid.val ≠ r.tmVcid ∨ gvcid.mapid.val = TYPE_TC)

def storedVcid (r : SaRequest) (gvcid : Gvcid) : Fin 64 :=
  if gvcid.vcid.val ≠ r.tmVcid then gvcid.vcid else 0

/-- The virtual channel behind some entries. -/
def keptVcid (r : SaRequest) (old : Gvcid) (entries : List Gvcid) : Fin 64 :=
  match entries.reverse.find? (SetsVcid r) with
  | none => old.vcid
  | some gvcid => storedVcid r gvcid

/-- The channel behind some entries: the last stored one with the virtual channel kept. -/
def keptGvcid (r : SaRequest) (old : Gvcid) (entries : List Gvcid) : Gvcid :=
  match entries.reverse.find? (Stored r) with
  | none => old
  | some gvcid => ⟨gvcid.tfvn, gvcid.scid, keptVcid r old entries, gvcid.mapid⟩

/-! ## The loop -/

variable {r : SaRequest}

theorem startGvcid_gvcid (r : SaRequest) (sa : SaEntry) (gvcid : Gvcid) :
    (startGvcid r sa gvcid).gvcid =
      if Stored r gvcid then
        ⟨gvcid.tfvn, gvcid.scid, if SetsVcid r gvcid then storedVcid r gvcid else sa.gvcid.vcid,
          gvcid.mapid⟩
      else sa.gvcid := by
  rcases gvcid with ⟨tfvn, scid, vcid, mapid⟩
  by_cases htc : vcid = r.vcid <;> by_cases htm : vcid.val = r.tmVcid <;>
    by_cases hmap : mapid.val = TYPE_MAP <;> by_cases hkind : mapid.val = TYPE_TC <;>
    by_cases hkindTm : mapid.val = TYPE_TM <;>
    simp_all [startGvcid, Stored, SetsVcid, storedVcid, TYPE_MAP, TYPE_TC, TYPE_TM]

theorem keptVcid_concat (old : Gvcid) (entries : List Gvcid) (gvcid : Gvcid) :
    keptVcid r old (entries ++ [gvcid]) =
      if SetsVcid r gvcid then storedVcid r gvcid else keptVcid r old entries := by
  rw [keptVcid, List.reverse_concat, List.find?_cons]
  cases SetsVcid r gvcid <;> rfl

theorem stored_of_setsVcid {gvcid : Gvcid} (h : SetsVcid r gvcid = true) :
    Stored r gvcid = true :=
  (of_decide_eq_true h).1

theorem keptGvcid_vcid (old : Gvcid) (entries : List Gvcid) :
    (keptGvcid r old entries).vcid = keptVcid r old entries := by
  rw [keptGvcid]
  cases hstored : entries.reverse.find? (Stored r) with
  | some gvcid => rfl
  | none =>
    have hnone : entries.reverse.find? (SetsVcid r) = none := by
      rw [List.find?_eq_none] at hstored ⊢
      exact fun gvcid hmem hsets => hstored gvcid hmem (stored_of_setsVcid hsets)
    rw [keptVcid, hnone]

theorem keptGvcid_concat (old : Gvcid) (entries : List Gvcid) (gvcid : Gvcid) :
    keptGvcid r old (entries ++ [gvcid]) =
      if Stored r gvcid then
        ⟨gvcid.tfvn, gvcid.scid, keptVcid r old (entries ++ [gvcid]), gvcid.mapid⟩
      else keptGvcid r old entries := by
  cases hstored : Stored r gvcid with
  | true => simp [keptGvcid, hstored]
  | false =>
    have hsets : SetsVcid r gvcid = false := by
      by_contra hsets
      rw [Bool.not_eq_false] at hsets
      rw [stored_of_setsVcid hsets] at hstored
      cases hstored
    simp [keptGvcid, hstored, keptVcid_concat, hsets]

/-- The channel after the loop. -/
theorem startGvcids_gvcid (r : SaRequest) (sa : SaEntry) (entries : List Gvcid) :
    (entries.foldl (startGvcid r) sa).gvcid = keptGvcid r sa.gvcid entries := by
  induction entries using List.reverseRecOn with
  | nil => rfl
  | append_singleton entries gvcid ih =>
    rw [List.foldl_append, List.foldl_cons, List.foldl_nil, startGvcid_gvcid, ih,
      keptGvcid_concat, keptVcid_concat, keptGvcid_vcid]

theorem startSa_gvcid (r : SaRequest) (sa : SaEntry) :
    (startSa r sa).gvcid = keptGvcid r sa.gvcid (startEntries r) := by
  rw [← startGvcids_gvcid, startEntries, List.foldl_map]
  rfl

/-- The loop depends on the octets it reads and on nothing else of the data. -/
theorem startSa_reads {r' : SaRequest} (sa : SaEntry) (hhdr : r'.pdu.hdr = r.pdu.hdr)
    (hvcid : r'.vcid = r.vcid) (htm : r'.tmVcid = r.tmVcid)
    (hsegments : r'.hasSegmentHdrs = r.hasSegmentHdrs)
    (hreads : ∀ i ∈ startReads r, r'.octet i = r.octet i) : startSa r' sa = startSa r sa := by
  have hchannels : r'.channels = r.channels := by
    rw [SaRequest.channels, SaRequest.channels, pduOctets, pduOctets, hhdr]
  have hentries : startEntries r' = startEntries r := by
    rw [startEntries, startEntries, hchannels]
    refine List.map_congr_left fun x hx => ?_
    have hread : ∀ k < 4, r'.octet ((2 + 4 * x) % 256 + k) = r.octet ((2 + 4 * x) % 256 + k) := by
      intro k hk
      refine hreads _ (List.mem_append_right _ (List.mem_flatMap.mpr ⟨x, hx, ?_⟩))
      have hcases : k = 0 ∨ k = 1 ∨ k = 2 ∨ k = 3 := by omega
      rcases hcases with rfl | rfl | rfl | rfl <;> simp
    have hfirst := hread 0 (by decide)
    rw [Nat.add_zero] at hfirst
    rw [gvcidAt, gvcidAt, hfirst, hread 1 (by decide), hread 2 (by decide), hread 3 (by decide),
      hsegments]
  have hstep : startGvcid r' = startGvcid r := by
    funext sa gvcid
    rw [startGvcid, startGvcid, hvcid, htm]
  have hfold : ∀ q : SaRequest, startSa q sa = (startEntries q).foldl (startGvcid q) sa := by
    intro q
    rw [startEntries, List.foldl_map]
    rfl
  rw [hfold, hfold, hentries, hstep]

/-- No read leaves the PDU exactly when the place has started over. -/
theorem startReads_inside_iff :
    (∀ i ∈ startReads r, i < pduOctets r.pdu) ↔ 258 ≤ pduOctets r.pdu := by
  constructor
  · intro h
    by_contra hshort
    have hchannels : r.channels = (pduOctets r.pdu - 2) / 4 := rfl
    have hplace : (2 + 4 * r.channels) % 256 = 2 + 4 * r.channels := by omega
    -- the last octet of the channel behind the last one
    have hlast := h (2 + 4 * r.channels + 3) (List.mem_append_right _
      (List.mem_flatMap.mpr ⟨r.channels, List.mem_range.mpr (Nat.lt_succ_self _), by
        rw [hplace]
        simp⟩))
    omega
  · intro hlong i hi
    rw [startReads, List.mem_append, List.mem_flatMap] at hi
    rcases hi with hi | ⟨x, -, hi⟩
    · simp only [List.mem_cons, List.not_mem_nil, or_false] at hi
      omega
    · simp only [List.mem_cons, List.not_mem_nil, or_false] at hi
      omega

theorem lists_of_entry {gvcid : Gvcid} (hlong : 258 ≤ pduOctets r.pdu)
    (h : gvcid ∈ startEntries r) : Lists r gvcid := by
  obtain ⟨x, -, rfl⟩ := List.mem_map.mp h
  have hchannels : r.channels = (pduOctets r.pdu - 2) / 4 := rfl
  refine ⟨x % 64, by omega, by rw [TLV_DATA_SIZE]; omega, ?_⟩
  rw [show (2 + 4 * x) % 256 = 2 + 4 * (x % 64) by omega]

/-! ## The procedure -/

/-- The place starts over, and the last channel stored is not the TM frame's, or what is
stored of it is listed all the same. -/
def StartListable (r : SaRequest) (sa : SaEntry) : Prop :=
  258 ≤ pduOctets r.pdu ∧
    match (startEntries r).reverse.find? (Stored r) with
    | none => Lists r sa.gvcid
    | some gvcid => gvcid.vcid.val ≠ r.tmVcid ∨
        Lists r ⟨gvcid.tfvn, gvcid.scid, keptVcid r sa.gvcid (startEntries r), gvcid.mapid⟩

theorem saStart_keyed {s : SaStore} {i : Fin NUM_SA} (hi : i.val = r.spi)
    (hkeyed : (s i).saState = .keyed) :
    saStart r s = (.ok (), Function.update s i (startSa r { s i with lpid := r.lpid })) := by
  have hspi : r.spi < NUM_SA := hi ▸ i.isLt
  obtain rfl : i = ⟨r.spi, hspi⟩ := Fin.ext hi
  rw [saStart, saProcedure, if_neg (by simp), dif_pos hspi, modify_bind, inState, get_bind]
  rw [if_pos (by rw [Function.update_self]; exact hkeyed), lift_bind rfl, Function.update_self]
  exact congrArg (Prod.mk _) (Function.update_idem _ _ _)

/-- A storing channel away from that of the TM frame is kept whole. -/
theorem keptVcid_whole {old gvcid : Gvcid} {entries : List Gvcid}
    (h : entries.reverse.find? (Stored r) = some gvcid) (htm : gvcid.vcid.val ≠ r.tmVcid) :
    keptVcid r old entries = gvcid.vcid := by
  obtain ⟨hstored, later, before, hsplit, hlater⟩ := List.find?_eq_some_iff_append.mp h
  have hsets : SetsVcid r gvcid = true := decide_eq_true ⟨hstored, .inl htm⟩
  have hfind : entries.reverse.find? (SetsVcid r) = some gvcid := by
    refine List.find?_eq_some_iff_append.mpr ⟨hsets, later, before, hsplit, fun other hother => ?_⟩
    by_contra hnot
    rw [Bool.not_eq_true', Bool.not_eq_false] at hnot
    have hunstored := hlater other hother
    rw [stored_of_setsVcid hnot] at hunstored
    cases hunstored
  rw [keptVcid, hfind]
  exact if_pos htm

/-- A start procedure installs a channel of its PDU and reads no further exactly in the
cases of `StartListable`. -/
theorem start_installs_listed_iff {s : SaStore} {i : Fin NUM_SA} (hi : i.val = r.spi)
    (hkeyed : (s i).saState = .keyed) :
    StartsListed r ((saStart r s).2 i) ↔ StartListable r (s i) := by
  have hslot : (saStart r s).2 i = startSa r { s i with lpid := r.lpid } := by
    rw [saStart_keyed hi hkeyed]
    exact Function.update_self _ _ _
  have hgvcid := startSa_gvcid r { s i with lpid := r.lpid }
  rw [hslot, StartListable]
  constructor
  · rintro ⟨-, hlisted, hinside⟩
    refine ⟨startReads_inside_iff.mp hinside, ?_⟩
    rw [hgvcid, keptGvcid] at hlisted
    split <;> rename_i hfind <;> rw [hfind] at hlisted
    · exact hlisted
    · exact .inr hlisted
  · rintro ⟨hlong, hstored⟩
    refine ⟨startSa_state _ _, ?_, startReads_inside_iff.mpr hlong⟩
    rw [hgvcid, keptGvcid]
    split at hstored <;> rename_i hfind
    · exact hstored
    · rename_i gvcid
      rcases hstored with htm | hlisted
      · rw [keptVcid_whole hfind htm]
        exact lists_of_entry hlong (List.mem_reverse.mp (List.mem_of_find?_eq_some hfind))
      · exact hlisted

/-! ## Two PDUs -/

/-- A start of association 1 with the given octets behind the SPI. -/
def startRequest (pduLen : BitVec 16) (channels : List Octet)
    (h : channels.length ≤ TLV_DATA_SIZE - 2 := by decide) : SaRequest :=
  { requestFor 11 with
    pdu := ⟨⟨0, 0, 1, 11, pduLen⟩,
      ⟨[0, 1] ++ channels ++ List.replicate (TLV_DATA_SIZE - 2 - channels.length) 0, by
        rw [TLV_DATA_SIZE] at h ⊢
        simp only [List.length_append, List.length_cons, List.length_nil, List.length_replicate]
        omega⟩⟩ }

/-- Virtual channel 4 with MAP 3, and virtual channel 5 with MAP 5. -/
def channelFour : List Octet := [0x00, 0x00, 0x31, 0x03]

def channelFive : List Octet := [0x00, 0x00, 0x31, 0x45]

/-- Sixty-four times the same channel. -/
def longStart : SaRequest :=
  startRequest 2064 (List.replicate 64 channelFour).flatten (by decide +kernel)

theorem long_start_listed :
    StartsListed longStart ((saStart longStart fun _ => keyedEntry).2 sampleSa) := by
  have hfind : (startEntries longStart).reverse.find? (Stored longStart) = some ⟨0, 3, 4, 3⟩ := by
    decide +kernel
  refine (start_installs_listed_iff (by decide +kernel) rfl).mpr ⟨by decide, ?_⟩
  rw [hfind]
  exact .inl (by decide)

/-- One channel in the PDU, and another in the octets an earlier PDU left behind it. -/
def staleStart : SaRequest := startRequest 48 (channelFour ++ channelFive)

theorem stale_channel_installed :
    saStart staleStart (fun _ => keyedEntry) =
        (.ok (), (saStart staleStart fun _ => keyedEntry).2) ∧
      staleStart.channels = 1 ∧
      ((saStart staleStart fun _ => keyedEntry).2 sampleSa).gvcid = ⟨0, 3, 5, 5⟩ ∧
      ¬StartsListed staleStart ((saStart staleStart fun _ => keyedEntry).2 sampleSa) := by
  have hgvcid : ((saStart staleStart fun _ => keyedEntry).2 sampleSa).gvcid = ⟨0, 3, 5, 5⟩ := by
    decide +kernel
  refine ⟨run_eq (by decide +kernel), by decide, hgvcid, fun h => ?_⟩
  obtain ⟨x, hx, -, hlisted⟩ := h.listed
  have hone : staleStart.channels = 1 := by decide
  obtain rfl : x = 0 := by omega
  rw [hgvcid] at hlisted
  revert hlisted
  decide +kernel

end Nos3.Sdls
