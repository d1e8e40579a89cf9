import Mathlib.Data.Fintype.Basic
import Mathlib.Tactic.FinCases
import Nos3.Base.CrcRegister
import Nos3.Eps.Source.Simulator

/-!
# EPS telemetry on both sides of the bus

The octets the simulator sends pass the CRC and give back what they were made
of, and no octet can be altered unnoticed. The octets of the EPS temperature are
made of the 12 V bus voltage, so that field means the same on both sides only
where the two agree.
-/
namespace Nos3.Eps
open Nos3.Base.BigEndian
open Nos3.Base.RegisterDigest

/-! ## The CRC -/

/-- The round of the inner loop undone: the polynomial leaves its mark on the low
bit. -/
def crc8BitBack (crc : Octet) : Octet :=
  if crc &&& 1 ≠ 0 then ((crc ^^^ 0x31) >>> 1) ||| 0x80 else crc >>> 1

theorem crc8BitBack_crc8Bit (crc : Octet) : crc8BitBack (crc8Bit crc) = crc := by
  revert crc
  decide

theorem crc8Bit_injective : Function.Injective crc8Bit :=
  Function.LeftInverse.injective crc8BitBack_crc8Bit

theorem crc8Octet_injective_crc (octet : Octet) : Function.Injective (crc8Octet · octet) :=
  (crc8Bit_injective.iterate 8).comp fun _ _ => (BitVec.xor_left_inj octet).mp

theorem crc8Octet_injective_octet (crc : Octet) : Function.Injective (crc8Octet crc) :=
  (crc8Bit_injective.iterate 8).comp fun _ _ => (BitVec.xor_right_inj crc).mp

/-! ## The octets -/

@[simp] theorem wordOctets_length (v : Word) : (wordOctets v).length = 2 := rfl

theorem readWord_at (front rest : List Octet) (v : Word) :
    readWord (front ++ (wordOctets v ++ rest)) front.length = v := by
  have hhigh : (front ++ (wordOctets v ++ rest)).getD front.length 0 = (v >>> 8).setWidth 8 := by
    simp [wordOctets]
  have hlow : (front ++ (wordOctets v ++ rest)).getD (front.length + 1) 0 = v.setWidth 8 := by
    simp [wordOctets]
  rw [readWord, hhigh, hlow, word_of_octets]

theorem words_length (words : List Word) : (words.flatMap wordOctets).length = 2 * words.length := by
  simp [Nat.mul_comm]

/-- The words of a string of octets are read at the even places. -/
theorem readWord_words {words : List Word} {i : Nat} (hi : i < words.length) (rest : List Octet) :
    readWord (words.flatMap wordOctets ++ rest) (2 * i) = words[i] := by
  have hsplit : words.flatMap wordOctets ++ rest =
      (words.take i).flatMap wordOctets ++
        (wordOctets words[i] ++ ((words.drop (i + 1)).flatMap wordOctets ++ rest)) := by
    conv_lhs => rw [← List.take_append_drop i words, List.drop_eq_getElem_cons hi]
    simp only [List.flatMap_append, List.flatMap_cons, List.append_assoc]
  have hplace : 2 * i = ((words.take i).flatMap wordOctets).length := by
    rw [words_length, List.length_take_of_le hi.le]
  rw [hsplit, hplace, readWord_at]

/-! ## What is sent -/

/-- What the flight software should see of a switch. -/
def EpsRail.seen (rail : EpsRail) : SwitchTlm where
  voltage := if rail.isOn then rail.voltage else 0
  current := if rail.isOn then rail.current else 0
  status := rail.status

def SwitchTlm.words (tlm : SwitchTlm) : List Word := [tlm.voltage, tlm.current, tlm.status]

/-- The words the telemetry octets are made of. -/
def telemetryWords (eps : EpsModel) : List Word :=
  [(eps.bus 0).voltage, (eps.bus 0).temperature, (eps.bus 1).voltage, (eps.bus 2).voltage,
    (eps.bus 3).voltage, (eps.bus 3).voltage, (eps.bus 4).voltage, (eps.bus 4).temperature] ++
  (List.finRange 8).flatMap fun i => (eps.switch i).seen.words

theorem switchOctets_eq (rail : EpsRail) :
    switchOctets rail = rail.seen.words.flatMap wordOctets := by
  unfold switchOctets EpsRail.seen SwitchTlm.words
  by_cases h : rail.isOn = true
  · simp [h]
  · simp [h, wordOctets]

theorem telemetryOctets_eq (eps : EpsModel) :
    telemetryOctets eps = (telemetryWords eps).flatMap wordOctets := by
  simp [telemetryOctets, telemetryWords, switchOctets_eq, List.flatMap_assoc]

theorem telemetryWords_length (eps : EpsModel) : (telemetryWords eps).length = 32 := rfl

theorem telemetryOctets_length (eps : EpsModel) : (telemetryOctets eps).length = 64 := by
  rw [telemetryOctets_eq, words_length, telemetryWords_length]

theorem readWord_telemetry (eps : EpsModel) (rest : List Octet) {i : Nat} (hi : i < 32) :
    readWord (telemetryOctets eps ++ rest) (2 * i) = (telemetryWords eps)[i] := by
  rw [telemetryOctets_eq]
  exact readWord_words hi rest

/-! ## What is understood -/

/-- Every field but the EPS temperature holds the quantity of its name. -/
structure OtherFieldsSame (eps : EpsModel) (hk : DeviceHk) : Prop where
  batteryVoltage : hk.batteryVoltage = (eps.bus 0).voltage
  batteryTemperature : hk.batteryTemperature = (eps.bus 0).temperature
  bus3p3Voltage : hk.bus3p3Voltage = (eps.bus 1).voltage
  bus5p0Voltage : hk.bus5p0Voltage = (eps.bus 2).voltage
  bus12Voltage : hk.bus12Voltage = (eps.bus 3).voltage
  solarArrayVoltage : hk.solarArrayVoltage = (eps.bus 4).voltage
  solarArrayTemperature : hk.solarArrayTemperature = (eps.bus 4).temperature
  switch : ∀ i, hk.switch i = (eps.switch i).seen

/-- Every field holds the quantity of its name; the EPS temperature is that of the
rail whose octets surround it. -/
structure SameMeaning (eps : EpsModel) (hk : DeviceHk) : Prop extends OtherFieldsSame eps hk where
  epsTemperature : hk.epsTemperature = (eps.bus 3).temperature

theorem readSwitch_telemetry (eps : EpsModel) (rest : List Octet) (i : Fin 8) :
    readSwitch (telemetryOctets eps ++ rest) (16 + 6 * i) = (eps.switch i).seen := by
  have hword (k : Nat) (hk : k < 3) :
      readWord (telemetryOctets eps ++ rest) (16 + 6 * i + 2 * k) =
        (telemetryWords eps).get
          ⟨8 + 3 * i.val + k, by rw [telemetryWords_length]; omega⟩ := by
    have hread := readWord_telemetry eps rest (i := 8 + 3 * i.val + k) (by omega)
    rwa [show 2 * (8 + 3 * i.val + k) = 16 + 6 * i + 2 * k by omega] at hread
  have h0 := hword 0 (by decide)
  have h1 := hword 1 (by decide)
  have h2 := hword 2 (by decide)
  simp only [readSwitch, Nat.mul_zero, Nat.mul_one, Nat.add_zero] at h0 h1 h2 ⊢
  rw [h0, h1, h2]
  fin_cases i <;> rfl

theorem interpretHk_others (eps : EpsModel) (rest : List Octet) :
    OtherFieldsSame eps (interpretHk (telemetryOctets eps ++ rest)) where
  batteryVoltage := readWord_telemetry eps rest (i := 0) (by decide)
  batteryTemperature := readWord_telemetry eps rest (i := 1) (by decide)
  bus3p3Voltage := readWord_telemetry eps rest (i := 2) (by decide)
  bus5p0Voltage := readWord_telemetry eps rest (i := 3) (by decide)
  bus12Voltage := readWord_telemetry eps rest (i := 4) (by decide)
  solarArrayVoltage := readWord_telemetry eps rest (i := 6) (by decide)
  solarArrayTemperature := readWord_telemetry eps rest (i := 7) (by decide)
  switch := readSwitch_telemetry eps rest

theorem interpretHk_epsTemperature (eps : EpsModel) (rest : List Octet) :
    (interpretHk (telemetryOctets eps ++ rest)).epsTemperature = (eps.bus 3).voltage :=
  readWord_telemetry eps rest (i := 5) (by decide)

/-! ## Alterations -/

/-- The octets that carry the right CRC. -/
theorem requestHK_sealed (payload : List Octet) (hlen : payload.length = 64) (data : DeviceHk) :
    requestHK (payload ++ [genericEpsCrc8 payload 64]) data =
      (OS_SUCCESS, interpretHk (payload ++ [genericEpsCrc8 payload 64])) := by
  simp [requestHK, GENERIC_EPS_CRC8, genericEpsCrc8, GENERIC_EPS_DEVICE_HK_LEN, ← hlen]

theorem requestHK_altered {payload : List Octet} (hlen : payload.length = 64) {i : Nat} (hi : i < 65)
    {octet : Octet} (hne : octet ≠ (payload ++ [genericEpsCrc8 payload 64]).getD i 0)
    (data : DeviceHk) :
    requestHK ((payload ++ [genericEpsCrc8 payload 64]).set i octet) data = (OS_ERROR, data) := by
  rw [requestHK, if_neg]
  by_cases hlast : i = 64
  · subst hlast
    have hset : (payload ++ [genericEpsCrc8 payload 64]).set 64 octet = payload ++ [octet] := by
      simp [hlen]
    rw [hset]
    simp only [GENERIC_EPS_CRC8, GENERIC_EPS_DEVICE_HK_LEN, ← hlen] at hne ⊢
    simpa [genericEpsCrc8] using Ne.symm hne
  · have hlt : i < payload.length := by omega
    have hset : (payload ++ [genericEpsCrc8 payload 64]).set i octet =
        payload.set i octet ++ [genericEpsCrc8 payload 64] := List.set_append_left _ _ hlt
    have hne : octet ≠ payload[i] := by simpa [List.getElem?_append_left hlt, hlt] using hne
    have hcrc := foldl_set_ne crc8Octet_injective_crc crc8Octet_injective_octet hlt hne 0xFF
    rw [hset]
    simpa [GENERIC_EPS_CRC8, genericEpsCrc8, GENERIC_EPS_DEVICE_HK_LEN, ← hlen] using hcrc

/-! ## The telemetry -/

/-- What the flight software makes of a reply, and what it does with an altered
one. -/
structure RequestMeans (eps : EpsModel) (outData : List Octet) (data : DeviceHk) : Prop where
  succeeds : (requestHK outData data).1 = OS_SUCCESS
  same : SameMeaning eps (requestHK outData data).2
  guarded : ∀ i < 65, ∀ octet ≠ outData.getD i 0,
    requestHK (outData.set i octet) data = (OS_ERROR, data)

theorem initializeOtherSims_bus (eps : EpsModel) : (initializeOtherSims eps).bus = eps.bus := by
  unfold initializeOtherSims
  split <;> rfl

theorem requestHK_reply (eps : EpsModel) (data : DeviceHk) :
    requestHK (createGenericEpsData eps).2 data =
      (OS_SUCCESS, interpretHk (createGenericEpsData eps).2) :=
  requestHK_sealed _ (telemetryOctets_length (initializeOtherSims eps)) data

theorem reply_epsTemperature (eps : EpsModel) (data : DeviceHk) :
    (requestHK (createGenericEpsData eps).2 data).2.epsTemperature = (eps.bus 3).voltage := by
  rw [requestHK_reply, ← initializeOtherSims_bus]
  exact interpretHk_epsTemperature _ _

/-- Every field but the EPS temperature comes across, and that one does exactly
where it agrees with the 12 V bus voltage. -/
theorem eps_telemetry_iff (eps : EpsModel) (data : DeviceHk) :
    RequestMeans (createGenericEpsData eps).1 (createGenericEpsData eps).2 data ↔
      (eps.bus 3).temperature = (eps.bus 3).voltage := by
  have hbus : (createGenericEpsData eps).1.bus = eps.bus := initializeOtherSims_bus eps
  constructor
  · intro h
    rw [← reply_epsTemperature eps data, h.same.epsTemperature, hbus]
  · intro htemp
    refine ⟨?_, ⟨?_, ?_⟩, fun i hi octet hne => requestHK_altered ?_ hi hne data⟩
    · rw [requestHK_reply]
    · rw [requestHK_reply]
      exact interpretHk_others _ _
    · rw [reply_epsTemperature, hbus, htemp]
    · exact telemetryOctets_length _

/-- A rail at 12000 mV and 20 °C, which is 8000 hundredths above -60 °C. -/
def warmRail : EpsRail := ⟨12000, 0, 0, 8000⟩

/-- The temperature reported of it is its voltage. -/
theorem eps_temperature_is_voltage :
    ¬ ∀ (eps : EpsModel) (data : DeviceHk),
      RequestMeans (createGenericEpsData eps).1 (createGenericEpsData eps).2 data := by
  intro h
  have htemp := (h ⟨fun _ => warmRail, fun _ => default, true⟩ default).same.epsTemperature
  rw [reply_epsTemperature] at htemp
  exact absurd htemp (by decide)

end Nos3.Eps
