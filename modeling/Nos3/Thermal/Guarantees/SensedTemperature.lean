import Mathlib.Data.Rat.Floor
import Mathlib.Tactic.Linarith
import Nos3.Thermal.Guarantees.HeaterState
import Nos3.Thermal.Source.Control

/-!
# The temperature the controller acts on

The sensor's register goes through the I2C octets, the driver and the
housekeeping packet unchanged. The controller takes the whole register for the
count of 0.0625 °C steps, without the shift of `TMP100_RawToCelsius`, so it works
with sixteen times the temperature.
-/
namespace Nos3.Thermal
open Nos3.Base.BigEndian

/-! ## Dropping the fraction -/

theorem truncate_neg (q : Rat) : truncate (-q) = -truncate q := by
  simp [truncate, Int.neg_tdiv]

theorem truncate_of_nonneg {q : Rat} (h : 0 ≤ q) : truncate q = ⌊q⌋ := by
  rw [truncate, Int.tdiv_eq_ediv_of_nonneg (Rat.num_nonneg.mpr h)]
  exact (Rat.floor_def q).symm

theorem truncate_bounds_of_nonneg {q : Rat} (h : 0 ≤ q) :
    0 ≤ truncate q ∧ (truncate q : Rat) ≤ q ∧ q < truncate q + 1 := by
  rw [truncate_of_nonneg h]
  exact ⟨Int.floor_nonneg.mpr h, Int.floor_le q, Int.lt_floor_add_one q⟩

/-- The integer next to `q` on the side of zero. -/
theorem truncate_cases (q : Rat) :
    (0 ≤ truncate q ∧ (truncate q : Rat) ≤ q ∧ q < truncate q + 1) ∨
    (truncate q ≤ 0 ∧ q ≤ truncate q ∧ (truncate q : Rat) - 1 < q) := by
  rcases le_total 0 q with h | h
  · exact .inl (truncate_bounds_of_nonneg h)
  · obtain ⟨hsign, hle, hlt⟩ := truncate_bounds_of_nonneg (neg_nonneg.mpr h)
    rw [truncate_neg] at hsign hle hlt
    push_cast at hle hlt
    exact .inr ⟨by linarith, by linarith, by linarith⟩

theorem truncate_eq_zero_iff (q : Rat) : truncate q = 0 ↔ -1 < q ∧ q < 1 := by
  constructor
  · intro h
    have hcases := truncate_cases q
    rw [h] at hcases
    push_cast at hcases
    rcases hcases with ⟨-, hle, hlt⟩ | ⟨-, hle, hlt⟩
    · exact ⟨by linarith, by linarith⟩
    · exact ⟨by linarith, by linarith⟩
  · rintro ⟨hlow, hhigh⟩
    rcases truncate_cases q with ⟨hsign, hle, -⟩ | ⟨hsign, hle, -⟩
    · have : truncate q < 1 := by exact_mod_cast hle.trans_lt hhigh
      omega
    · have : -1 < truncate q := by exact_mod_cast hlow.trans_le hle
      omega

/-! ## The register -/

/-- The count of sensor steps in a temperature. -/
def stepsOf (t : Rat) : Int := truncate (t / (1 / 16))

theorem temperatureToRegister_eq (t : Rat) :
    temperatureToRegister t = BitVec.ofInt 16 (16 * stepsOf t) := by
  rw [temperatureToRegister, BitVec.shiftLeft_eq_mul_twoPow, stepsOf, BitVec.ofInt_mul,
    BitVec.mul_comm]
  rfl

theorem stepsOf_range {t : Rat} (hcold : -40 ≤ t) (hhot : t ≤ 125) :
    -640 ≤ stepsOf t ∧ stepsOf t ≤ 2000 := by
  have hscale : t / (1 / 16) = 16 * t := by ring
  rcases truncate_cases (t / (1 / 16)) with ⟨hsign, hle, -⟩ | ⟨hsign, hle, -⟩
  · have hhigh : (stepsOf t : Rat) ≤ (2000 : Int) := by
      push_cast
      exact hle.trans (by rw [hscale]; linarith)
    exact ⟨by rw [stepsOf]; omega, by exact_mod_cast hhigh⟩
  · have hlow : ((-640 : Int) : Rat) ≤ stepsOf t := by
      push_cast
      exact le_trans (by rw [hscale]; linarith) hle
    exact ⟨by exact_mod_cast hlow, by rw [stepsOf]; omega⟩

theorem register_toInt {n : Int} (hlow : -640 ≤ n) (hhigh : n ≤ 2000) :
    (BitVec.ofInt 16 (16 * n)).toInt = 16 * n := by
  rw [BitVec.toInt_ofInt]
  exact Int.bmod_eq_of_le (by omega) (by omega)

theorem rawToCelsius_register {n : Int} (hlow : -640 ≤ n) (hhigh : n ≤ 2000) :
    rawToCelsius (BitVec.ofInt 16 (16 * n)) = (n : Rat) * (1 / 16) := by
  have hshift : (16 * n) >>> (4 : Nat) = n := by
    rw [Int.shiftRight_eq_div_pow]
    omega
  rw [rawToCelsius, BitVec.toInt_sshiftRight, register_toInt hlow hhigh, hshift]

theorem temperatureOf_register {n : Int} (hlow : -640 ≤ n) (hhigh : n ≤ 2000) :
    temperatureOf (UInt16.ofBitVec (BitVec.ofInt 16 (16 * n))) = .number n := by
  have hint : (UInt16.ofBitVec (BitVec.ofInt 16 (16 * n))).toInt16.toInt = 16 * n :=
    register_toInt hlow hhigh
  rw [temperatureOf, hint]
  push_cast
  congr 1
  ring

/-! ## The way of the register -/

theorem readWordOf_registerOctets (register : Word) :
    readWordOf (registerOctets register).1 (registerOctets register).2 = register := by
  have hhigh : (register.sshiftRight 8).setWidth 8 = (register >>> 8).setWidth 8 := by
    ext i hi
    simp [BitVec.getElem_setWidth, BitVec.getElem_sshiftRight, BitVec.getLsbD_eq_getElem,
      show i < 16 by omega, show 8 + i < 16 by omega]
  rw [readWordOf, registerOctets, hhigh, word_of_octets]

/-- A sensor that is read gives the register of what it senses. -/
theorem readRegister_temperature {sim : Tmp100Model} (henabled : sim.enabled = true)
    (store : DeviceHk → Word → DeviceHk) (data : DeviceHk) :
    (readRegister true TMP100_REG_TEMPERATURE store data sim).2.1 =
      store data (temperatureToRegister sim.sense.currentTemperature) := by
  have hpointer : (determineI2cResponse sim [TMP100_REG_TEMPERATURE]).pointerRegister =
      TMP100_REG_TEMPERATURE := by
    simp [determineI2cResponse, henabled, TMP100_REG_TEMPERATURE]
  have hsense : (determineI2cResponse sim [TMP100_REG_TEMPERATURE]).sense.temperatureRegister =
      temperatureToRegister sim.sense.currentTemperature := by
    rw [Tmp100Model.register_eq]
    simp only [determineI2cResponse, henabled, Bool.not_true, Bool.false_eq_true, ↓reduceIte,
      Tmp100Model.sense]
    split <;> rfl
  simp only [readRegister, i2cMasterTransaction, ↓reduceIte, i2cRead, hpointer,
    readWordOf_registerOctets, hsense]

/-- A read that stores elsewhere leaves the temperature. -/
theorem readRegister_other (ok : Bool) (pointer : Octet) {store : DeviceHk → Word → DeviceHk}
    (hstore : ∀ data word, (store data word).temperatureRaw = data.temperatureRaw)
    (data : DeviceHk) (sim : Tmp100Model) :
    (readRegister ok pointer store data sim).2.1.temperatureRaw = data.temperatureRaw := by
  unfold readRegister
  split
  · exact hstore _ _
  · rfl

theorem readTemperature_raw {sim : Tmp100Model} (henabled : sim.enabled = true) (data : DeviceHk) :
    (readTemperature true data sim).2.1.temperatureRaw =
      temperatureToRegister sim.sense.currentTemperature := by
  rw [readTemperature, readRegister_temperature henabled]

theorem reportHousekeeping_raw {sim : Tmp100Model} (henabled : sim.enabled = true)
    {ok : Octet → Bool} (hok : ok TMP100_REG_TEMPERATURE = true) (deviceHk : DeviceHk) :
    (reportHousekeeping true ok deviceHk sim).1.temperatureRaw =
      temperatureToRegister sim.sense.currentTemperature := by
  simp only [reportHousekeeping, ↓reduceIte, readAllRegisters]
  refine (readRegister_other _ _ ?_ _ _).trans ?_
  · exact fun _ _ => rfl
  refine (readRegister_other _ _ ?_ _ _).trans ?_
  · exact fun _ _ => rfl
  refine (readRegister_other _ _ ?_ _ _).trans ?_
  · exact fun _ _ => rfl
  rw [hok, readRegister_temperature henabled]

theorem processTelemetry_temperature (transmit : Transmit) (temperatureRaw : UInt16)
    (app : AppData) :
    (processTelemetry transmit temperatureRaw app).1.currentTemperature =
      temperatureOf temperatureRaw := by
  have hheater (turnOn : Bool) (app : AppData) :
      (commandHeater transmit turnOn app).1.currentTemperature = app.currentTemperature := by
    unfold commandHeater
    split <;> rfl
  have htrack (prev : Bool) (app : AppData) :
      (trackHeater prev app).currentTemperature = app.currentTemperature := by
    unfold trackHeater
    split
    · split <;> rfl
    · rfl
  have hstep (temperature : Double) (app : AppData) :
      (controlStep transmit temperature app).1.currentTemperature = app.currentTemperature := by
    unfold controlStep
    cases app.state with
    | disabled => rfl
    | idle | heating | cooling =>
      dsimp only
      split
      · exact hheater _ _
      · rfl
  unfold processTelemetry
  split
  · exact (htrack _ _).trans (hstep _ _)
  · rfl

/-! ## The comparisons -/

/-- The controller's temperature stands for the sensor's `t`, whose raw register it
got. -/
structure ActsOnSensor (t : Rat) (raw : Word) (temperature : Double) : Prop where
  same : temperature = .number (rawToCelsius raw)
  near : ∃ c, temperature = .number c ∧ |c - t| ≤ 1 / 16
  compares : ∀ threshold : Rat, 1 / 16 < |t - threshold| →
    temperature.lt (.number threshold) = decide (t < threshold) ∧
      (Double.number threshold).lt temperature = decide (threshold < t)

/-- A value within one step compares like the true one outside one step. -/
theorem compares_of_near {t c threshold : Rat} (hnear : |c - t| ≤ 1 / 16)
    (hfar : 1 / 16 < |t - threshold|) : (c < threshold ↔ t < threshold) ∧
      (threshold < c ↔ threshold < t) := by
  obtain ⟨hlow, hhigh⟩ := abs_le.mp hnear
  rcases lt_abs.mp hfar with hfar | hfar
  · exact ⟨⟨fun h => by linarith, fun h => by linarith⟩, fun _ => by linarith, fun _ => by linarith⟩
  · exact ⟨⟨fun _ => by linarith, fun _ => by linarith⟩, fun h => by linarith, fun h => by linarith⟩

theorem actsOnSensor_iff {t : Rat} (hcold : -40 ≤ t) (hhot : t ≤ 125) :
    ActsOnSensor t (temperatureToRegister t)
      (temperatureOf (UInt16.ofBitVec (temperatureToRegister t))) ↔ -(1 / 16) < t ∧ t < 1 / 16 := by
  obtain ⟨hlow, hhigh⟩ := stepsOf_range hcold hhot
  have hzero : stepsOf t = 0 ↔ -(1 / 16) < t ∧ t < 1 / 16 := by
    rw [stepsOf, truncate_eq_zero_iff, show t / (1 / 16) = 16 * t by ring]
    exact ⟨fun h => ⟨by linarith, by linarith⟩, fun h => ⟨by linarith, by linarith⟩⟩
  rw [temperatureToRegister_eq, temperatureOf_register hlow hhigh, ← hzero]
  constructor
  · intro h
    have hsame := h.same
    rw [rawToCelsius_register hlow hhigh, Double.number.injEq] at hsame
    have : (stepsOf t : Rat) = 0 := by linarith
    exact_mod_cast this
  · intro h
    have hnear : |((stepsOf t : Int) : Rat) - t| ≤ 1 / 16 := by
      obtain ⟨hl, hh⟩ := hzero.mp h
      rw [h, abs_le]
      push_cast
      exact ⟨by linarith, by linarith⟩
    refine ⟨?_, ⟨_, rfl, hnear⟩, fun threshold hfar => ?_⟩
    · rw [rawToCelsius_register hlow hhigh, h]
      norm_num
    · obtain ⟨hbelow, habove⟩ := compares_of_near hnear hfar
      exact ⟨decide_eq_decide.mpr hbelow, decide_eq_decide.mpr habove⟩

/-! ## The chain -/

/-- Over the whole range of the sensor the controller acts on its temperature only
where that is less than one step from zero. -/
theorem controller_temperature_iff (sim : Tmp100Model) (ok : Octet → Bool) (deviceHk : DeviceHk)
    (transmit : Transmit) (app : AppData) (henabled : sim.enabled = true)
    (hok : ok TMP100_REG_TEMPERATURE = true) (hcold : -40 ≤ sim.sense.currentTemperature)
    (hhot : sim.sense.currentTemperature ≤ 125) :
    let raw := (reportHousekeeping true ok deviceHk sim).1.temperatureRaw
    (readTemperature true deviceHk sim).2.1.temperatureRaw = raw ∧
      (ActsOnSensor sim.sense.currentTemperature raw
          (processTelemetry transmit (UInt16.ofBitVec raw) app).1.currentTemperature ↔
        -(1 / 16) < sim.sense.currentTemperature ∧ sim.sense.currentTemperature < 1 / 16) := by
  dsimp only
  rw [reportHousekeeping_raw henabled hok, readTemperature_raw henabled,
    processTelemetry_temperature]
  exact ⟨rfl, actsOnSensor_iff hcold hhot⟩

/-- Close to freezing the controller has the temperature. -/
theorem controller_temperature_near_zero :
    let raw := (reportHousekeeping true (fun _ => true) {} (.start (some (1 / 32)))).1.temperatureRaw
    ActsOnSensor (1 / 32) raw
      (processTelemetry (fun _ => 0) (UInt16.ofBitVec raw) {}).1.currentTemperature :=
  (controller_temperature_iff (.start (some (1 / 32))) (fun _ => true) {} (fun _ => 0) {}
    rfl rfl (by norm_num [Tmp100Model.start, Tmp100Model.sense])
    (by norm_num [Tmp100Model.start, Tmp100Model.sense])).2.mpr
    (by norm_num [Tmp100Model.start, Tmp100Model.sense])

/-- At 22 °C, between the two default thresholds, the controller takes it for
352 °C. -/
theorem controller_temperature_scaled :
    ¬ ∀ t : Rat, -40 ≤ t → t ≤ 125 →
      let raw := (reportHousekeeping true (fun _ => true) {} (.start (some t))).1.temperatureRaw
      ActsOnSensor t raw
        (processTelemetry (fun _ => 0) (UInt16.ofBitVec raw) {}).1.currentTemperature := by
  intro h
  have hacts := h 22 (by norm_num) (by norm_num)
  dsimp only at hacts
  rw [reportHousekeeping_raw rfl rfl, processTelemetry_temperature] at hacts
  have hsmall := (actsOnSensor_iff (by norm_num) (by norm_num)).mp hacts
  norm_num [Tmp100Model.start, Tmp100Model.sense] at hsmall

end Nos3.Thermal
