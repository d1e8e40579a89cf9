import Nos3.Eps.Guarantees.TelemetryMeaning
import Nos3.Eps.Source.Simulator

/-!
# A switch command is confirmed

The driver learns from the telemetry it reads back what became of its command. An enabled
simulator takes the command and reports the switch; a disabled one answers with zeros, which
no CRC fits.
-/
namespace Nos3.Eps
open Nos3.Base.BigEndian
open Function (update update_self)

/-! ## Requests -/

theorem response_disabled {s : Simulator} (h : s.enabled = false) (inData : List Octet) :
    determineI2cResponseForRequest inData s = (false, s) := if_pos h

theorem response_switch {s : Simulator} (h : s.enabled = true) {cmd value : Octet}
    (hcmd : cmd.toNat < 8) (hvalue : value = 0x00 ∨ value = 0xAA) :
    determineI2cResponseForRequest (command cmd value) s = (true, epsSwitchUpdate cmd value s) := by
  have hcrc : (command cmd value).getD 2 0 = genericEpsCrc8 (command cmd value) 2 := rfl
  have hfirst : (command cmd value).getD 0 0 = cmd := rfl
  have hsecond : (command cmd value).getD 1 0 = value := rfl
  rw [determineI2cResponseForRequest, if_neg (by rw [h]; decide), if_neg (by simp [command]),
    if_neg (not_not.mpr hcrc), hfirst, hsecond, if_neg (fun hbad => hbad.2 hvalue), if_pos hcmd]

theorem response_hk {s : Simulator} (h : s.enabled = true) :
    determineI2cResponseForRequest (command 0x70 0) s = (true, createReply s) := by
  have hcrc : (command 0x70 0).getD 2 0 = genericEpsCrc8 (command 0x70 0) 2 := rfl
  have hfirst : (command 0x70 0).getD 0 0 = 0x70 := rfl
  have hlarge : ¬(0x70 : Octet).toNat < 8 := by decide
  rw [determineI2cResponseForRequest, if_neg (by rw [h]; decide), if_neg (by simp [command]),
    if_neg (not_not.mpr hcrc), hfirst, if_neg (fun hbad => hlarge hbad.1), if_neg hlarge,
    if_pos rfl]

/-! ## Housekeeping -/

theorem requestHK_zeros (data : DeviceHk) :
    requestHK (List.replicate (GENERIC_EPS_DEVICE_HK_LEN + 1) 0x00) data = (OS_ERROR, data) := by
  have hcrc : GENERIC_EPS_CRC8 (List.replicate (GENERIC_EPS_DEVICE_HK_LEN + 1) 0x00)
      GENERIC_EPS_DEVICE_HK_LEN ≠ 0x00 := by decide +kernel
  rw [requestHK, if_neg]
  simpa [GENERIC_EPS_DEVICE_HK_LEN] using hcrc

theorem requestHKFrom_disabled {s : Simulator} (h : s.enabled = false) (data : DeviceHk) :
    requestHKFrom s data = ⟨OS_ERROR, data, { s with i2cReadValid := false }⟩ := by
  have hwrite : i2cWrite (command 0x70 0) s = { s with i2cReadValid := false } := by
    rw [i2cWrite, response_disabled h]
  simp only [requestHKFrom, i2cMasterTransaction, hwrite, i2cRead, Bool.false_eq_true, if_false,
    requestHK_zeros]

/-- After the announcement a reply changes nothing. -/
theorem requestHKFrom_enabled {s : Simulator} (h : s.enabled = true)
    (hinit : s.eps.initializedOtherSims = true) (data : DeviceHk) :
    (requestHKFrom s data).status = OS_SUCCESS ∧
      (requestHKFrom s data).sim.eps = s.eps ∧ (requestHKFrom s data).sim.sent = s.sent ∧
      ∀ i, ((requestHKFrom s data).data.switch i).status = (s.eps.switch i).status := by
  have hsame : initializeOtherSims s.eps = s.eps := if_pos hinit
  have hout : (createGenericEpsData s.eps).2 =
      telemetryOctets s.eps ++ [genericEpsCrc8 (telemetryOctets s.eps) 64] := by
    rw [createGenericEpsData, hsame]
  have hlength : (createGenericEpsData s.eps).2.length = GENERIC_EPS_DEVICE_HK_LEN + 1 := by
    rw [hout, List.length_append, telemetryOctets_length]
    rfl
  have hwrite : i2cWrite (command 0x70 0) s = { createReply s with i2cReadValid := true } := by
    rw [i2cWrite, response_hk h]
  have hread : i2cRead (GENERIC_EPS_DEVICE_HK_LEN + 1) { createReply s with i2cReadValid := true } =
      (createGenericEpsData s.eps).2 := by
    rw [i2cRead, if_pos rfl, ← hlength]
    refine List.ext_getElem (by simp [createReply]) fun i hi hi' => ?_
    simp [createReply, List.getElem?_eq_getElem hi']
  have hquiet : announcements s = [] := if_pos hinit
  simp only [requestHKFrom, i2cMasterTransaction, hwrite, hread, hout,
    requestHK_sealed _ (telemetryOctets_length s.eps)]
  refine ⟨trivial, ?_, ?_, fun i => ?_⟩
  · simp only [createReply, createGenericEpsData, hsame]
  · simp only [createReply, hquiet, List.append_nil]
  · rw [(interpretHk_others s.eps _).switch i]
    rfl

/-! ## Switch commands -/

/-- What an enabled simulator does with a switch command. -/
def switched (s : Simulator) (sw : Fin 8) (value : Octet) : Simulator :=
  { s with
    sent := s.sent ++ [(s.nodeName sw, if value = 0x00 then "DISABLE" else "ENABLE")]
    eps := s.eps.setStatus sw value
    i2cReadValid := true }

theorem commandDevice_enabled {s : Simulator} (h : s.enabled = true) {cmd value : Octet}
    (hcmd : cmd.toNat < 8) (hvalue : value = 0x00 ∨ value = 0xAA) :
    commandDevice cmd value s = (OS_SUCCESS, switched s ⟨cmd.toNat, hcmd⟩ value) := by
  have hrange : cmd.toNat < 0xAB := by omega
  rw [commandDevice, if_pos hrange, i2cMasterTransaction, i2cWrite,
    response_switch h hcmd hvalue, epsSwitchUpdate, dif_pos hcmd, if_pos hvalue]
  rfl

theorem commandDevice_disabled {s : Simulator} (h : s.enabled = false) {cmd : Octet}
    (hcmd : cmd.toNat < 8) (value : Octet) :
    commandDevice cmd value s = (OS_SUCCESS, { s with i2cReadValid := false }) := by
  have hrange : cmd.toNat < 0xAB := by omega
  rw [commandDevice, if_pos hrange, i2cMasterTransaction, i2cWrite, response_disabled h]

/-- A status read back in its low octet. -/
theorem status_readBack {value : Octet} (hvalue : value = 0x00 ∨ value = 0xAA) :
    (value.setWidth 16 : Word) &&& 0x00FF = value.setWidth 16 := by
  rcases hvalue with rfl | rfl <;> decide

/-- The result `r` of a command for the switch `switchNum` confirms what became of it. -/
structure Confirms (s : Simulator) (switchNum value : Octet) (r : Reply) : Prop where
  success_iff : r.status = OS_SUCCESS ↔
    switchNum.toNat < 8 ∧ (value = 0x00 ∨ value = 0xAA) ∧ s.enabled = true
  switched : r.status = OS_SUCCESS → ∀ h : switchNum.toNat < 8,
    r.sim.eps = s.eps.setStatus ⟨switchNum.toNat, h⟩ value ∧
      r.sim.sent = s.sent ++
        [(s.nodeName ⟨switchNum.toNat, h⟩, if value = 0x00 then "DISABLE" else "ENABLE")]
  unchanged : r.status ≠ OS_SUCCESS → r.sim.eps = s.eps ∧ r.sim.sent = s.sent

theorem commandSwitch_confirms (s : Simulator) (hinit : s.eps.initializedOtherSims = true)
    (switchNum value : Octet) (data : DeviceHk) :
    Confirms s switchNum value (commandSwitch switchNum value data s) := by
  have herror : OS_ERROR ≠ OS_SUCCESS := by decide
  unfold commandSwitch
  by_cases hnum : switchNum.toNat < 8
  · by_cases hvalue : value = 0x00 ∨ value = 0xAA
    · rw [dif_pos hnum, if_pos hvalue]
      cases henabled : s.enabled with
      | false =>
        have hstill : ({ s with i2cReadValid := false } : Simulator).enabled = false := henabled
        simp only [commandDevice_disabled henabled hnum, if_true,
          requestHKFrom_disabled hstill, herror, if_false]
        refine ⟨iff_of_false herror ?_, fun h => absurd h herror, fun _ => ⟨rfl, rfl⟩⟩
        rw [henabled]
        exact fun h => absurd h.2.2 (by decide)
      | true =>
        have hstill : (switched s ⟨switchNum.toNat, hnum⟩ value).enabled = true := henabled
        obtain ⟨hstatus, heps, hsent, hread⟩ := requestHKFrom_enabled hstill hinit data
        have hback := hread ⟨switchNum.toNat, hnum⟩
        have hset : ((switched s ⟨switchNum.toNat, hnum⟩ value).eps.switch
            ⟨switchNum.toNat, hnum⟩).status = value.setWidth 16 := by
          simp [switched, EpsModel.setStatus]
        simp only [commandDevice_enabled henabled hnum hvalue, if_true, hstatus, hback, hset,
          status_readBack hvalue, ne_eq, not_true_eq_false, if_false]
        refine ⟨iff_of_true hstatus ⟨hnum, hvalue, henabled⟩, fun _ _ => ⟨heps, hsent⟩,
          fun h => absurd hstatus h⟩
    · rw [dif_pos hnum, if_neg hvalue]
      exact ⟨iff_of_false herror fun h => hvalue h.2.1, fun h => absurd h herror,
        fun _ => ⟨rfl, rfl⟩⟩
  · rw [dif_neg hnum]
    exact ⟨iff_of_false herror fun h => hnum h.1, fun h => absurd h herror, fun _ => ⟨rfl, rfl⟩⟩

/-- All switches are off and were announced. -/
def quietSimulator : Simulator where
  eps := ⟨fun _ => default, fun _ => default, true⟩
  nodeName := fun _ => "sample-command"

/-- The second switch is turned on. -/
theorem commandSwitch_confirms_on :
    (commandSwitch 1 0xAA default quietSimulator).sim.sent =
      [("sample-command", "ENABLE")] := by
  have h := commandSwitch_confirms quietSimulator rfl 1 0xAA default
  exact (h.switched (h.success_iff.mpr ⟨by decide, Or.inr rfl, rfl⟩) (by decide)).2

end Nos3.Eps
