import Mathlib.Data.Rat.Floor
import Mathlib.Tactic.Linarith
import Mathlib.Tactic.Positivity
import Mathlib.Tactic.Ring
import Nos3.Base.Transition
import Nos3.Eps.Source.Simulator

/-!
# The charge of the battery

The panels are cut off at a full battery, so that at most the input of one tick lies above it.
Nothing cuts the rails off at an empty one.
-/
namespace Nos3.Eps
open Nos3.Base.BigEndian
open Base.Transition

/-! ## One tick -/

/-- What the panels give in a tick, in watt hours. -/
def solarInput (cfg : PowerConfig) (m : BatteryModel) (tick : Tick) : ℚ :=
  tick.microseconds / 1000000 * (powerIn cfg tick m.panelInhibit *
    if inhibitFlag cfg m.batteryWatthrs m.solarArrayInhibit then 1 else 0) / 3600

/-- What the rails take in a tick, in watt hours. -/
def consumption (m : BatteryModel) (tick : Tick) : ℚ :=
  tick.microseconds / 1000000 * powerOut m.sim.eps / 3600

theorem update_watthrs (cfg : PowerConfig) (tick : Tick) {m : BatteryModel}
    (h : m.chargeRateModifier = 0) :
    (updateBatteryValues cfg tick m).batteryWatthrs =
      m.batteryWatthrs + solarInput cfg m tick - consumption m tick := by
  simp only [updateBatteryValues, solarInput, consumption, h]
  ring

theorem lit_nonneg (inSun : Bool) (component : ℚ) : 0 ≤ lit inSun component := by
  unfold lit
  refine mul_nonneg ?_ ?_
  · split
    · rename_i hpos
      exact le_of_lt hpos
    · exact le_refl 0
  · split <;> norm_num

theorem svb_nonneg (tick : Tick) (panel : Panel) : 0 ≤ tick.svb panel := by
  cases panel <;> exact lit_nonneg _ _

theorem powerIn_nonneg (cfg : PowerConfig) (tick : Tick) (panelInhibit : Panel → Octet) :
    0 ≤ powerIn cfg tick panelInhibit := by
  have hpanel {power : ℚ} (hpower : 0 ≤ power) (panel : Panel) :
      0 ≤ power * tick.svb panel * (panelInhibit panel).toNat :=
    mul_nonneg (mul_nonneg hpower (svb_nonneg tick panel)) (Nat.cast_nonneg _)
  have hposX := hpanel cfg.main_nonneg .posX
  have hnegX := hpanel cfg.main_nonneg .negX
  have hposY := hpanel cfg.main_nonneg .posY
  have hnegY := hpanel cfg.main_nonneg .negY
  have hnegZ := hpanel cfg.small_nonneg .negZ
  unfold powerIn
  linarith

theorem EpsRail.power_nonneg (rail : EpsRail) : 0 ≤ rail.power := by
  unfold EpsRail.power
  positivity

theorem foldl_add_nonneg {α : Type} (f : α → ℚ) (hf : ∀ a, 0 ≤ f a) (l : List α) {start : ℚ}
    (hstart : 0 ≤ start) : 0 ≤ l.foldl (fun total a => total + f a) start := by
  induction l generalizing start with
  | nil => exact hstart
  | cons a rest ih => exact ih (add_nonneg hstart (hf a))

theorem powerOut_nonneg (eps : EpsModel) : 0 ≤ powerOut eps := by
  refine foldl_add_nonneg _ (fun i => mul_nonneg (eps.switch i).power_nonneg ?_) _ ?_
  · split <;> norm_num
  · exact foldl_add_nonneg _ (fun i => (eps.bus i).power_nonneg) _ (le_refl 0)

theorem consumption_nonneg (m : BatteryModel) (tick : Tick) : 0 ≤ consumption m tick := by
  have hout := powerOut_nonneg m.sim.eps
  unfold consumption
  positivity

theorem solarInput_nonneg (cfg : PowerConfig) (m : BatteryModel) (tick : Tick) :
    0 ≤ solarInput cfg m tick := by
  have hin := powerIn_nonneg cfg tick m.panelInhibit
  unfold solarInput
  positivity

/-- The panels are connected below a full battery alone. -/
theorem lt_max_of_inhibitFlag {cfg : PowerConfig} {watthrs : ℚ} {flag : Bool}
    (h : inhibitFlag cfg watthrs flag = true) : watthrs < cfg.maxBattery := by
  by_contra hfull
  have hmax := cfg.max_pos
  have habove : ¬watthrs ≤ 99999 / 100000 * cfg.maxBattery := by linarith
  rw [inhibitFlag, if_neg habove, if_pos (not_lt.mp hfull)] at h
  cases h

theorem solarInput_of_inhibited {cfg : PowerConfig} {m : BatteryModel} (tick : Tick)
    (h : inhibitFlag cfg m.batteryWatthrs m.solarArrayInhibit = false) :
    solarInput cfg m tick = 0 := by
  simp [solarInput, h]

/-! ## Runs -/

/-- The simulator with the input of the last tick that charged the battery. -/
structure Charging where
  model : BatteryModel
  tickInput : ℚ := 0

def Charging.step (cfg : PowerConfig) (c : Charging) (event : BatteryEvent) : Charging where
  model := c.model.handle cfg event
  tickInput :=
    match event with
    | .tick tick =>
      if inhibitFlag cfg c.model.batteryWatthrs c.model.solarArrayInhibit then
        solarInput cfg c.model tick
      else c.tickInput
    | _ => c.tickInput

/-- A charge between none and the maximum, and no override of the rate. -/
structure StartsCharged (cfg : PowerConfig) (m : BatteryModel) : Prop where
  nonneg : 0 ≤ m.batteryWatthrs
  le_max : m.batteryWatthrs ≤ cfg.maxBattery
  noOverride : m.chargeRateModifier = 0

def battery (cfg : PowerConfig) : Machine Charging BatteryEvent where
  start c := StartsCharged cfg c.model ∧ c.tickInput = 0
  next c event := some (c.step cfg event)

/-- The upper bound, which every step keeps. -/
structure Bounded (cfg : PowerConfig) (c : Charging) : Prop where
  input : 0 ≤ c.tickInput
  charge : c.model.batteryWatthrs ≤ cfg.maxBattery + c.tickInput
  noOverride : c.model.chargeRateModifier = 0

theorem Bounded.start {cfg : PowerConfig} {m : BatteryModel} (h : StartsCharged cfg m) :
    Bounded cfg ⟨m, 0⟩ :=
  ⟨le_refl 0, by simpa using h.le_max, h.noOverride⟩

theorem Bounded.step {cfg : PowerConfig} {c : Charging} (h : Bounded cfg c)
    (event : BatteryEvent) : Bounded cfg (c.step cfg event) := by
  cases event with
  | switch swNum swStatus => exact ⟨h.input, h.charge, h.noOverride⟩
  | toggle panel state => exact ⟨h.input, h.charge, h.noOverride⟩
  | tick tick =>
    have hwatthrs := update_watthrs cfg tick h.noOverride
    have hout := consumption_nonneg c.model tick
    have hcharge := h.charge
    cases hflag : inhibitFlag cfg c.model.batteryWatthrs c.model.solarArrayInhibit with
    | true =>
      have hmax := lt_max_of_inhibitFlag hflag
      refine ⟨?_, ?_, h.noOverride⟩
      · simpa only [Charging.step, hflag, if_true] using solarInput_nonneg cfg c.model tick
      · simp only [Charging.step, BatteryModel.handle, hflag, if_true, hwatthrs]
        linarith
    | false =>
      have hin := solarInput_of_inhibited tick hflag
      refine ⟨?_, ?_, h.noOverride⟩
      · simpa only [Charging.step, hflag, Bool.false_eq_true, if_false] using h.input
      · simp only [Charging.step, BatteryModel.handle, hflag, Bool.false_eq_true, if_false,
          hwatthrs, hin]
        linarith

/-! ## The voltage -/

theorem toUint16_toNat {q : ℚ} (hq : 0 ≤ q) (hlt : q < 65536) :
    ((toUint16 q).toNat : ℤ) = ⌊q⌋ := by
  have hfloor : q.num.tdiv q.den = ⌊q⌋ := by
    rw [Int.tdiv_eq_ediv_of_nonneg (Rat.num_nonneg.mpr hq)]
    exact (Rat.floor_def q).symm
  have hlow : 0 ≤ ⌊q⌋ := Int.floor_nonneg.mpr hq
  have hhigh : ⌊q⌋ < 65536 := Int.floor_lt.mpr (by exact_mod_cast hlt)
  rw [toUint16, hfloor, BitVec.toNat_ofInt]
  omega

theorem battVoltage_eq (cfg : PowerConfig) (watthrs : ℚ) :
    battVoltage cfg watthrs =
      950 * cfg.nominalBattVoltage + 100 * cfg.nominalBattVoltage * (watthrs / cfg.maxBattery) := by
  unfold battVoltage
  ring

/-- The battery voltage of the telemetry, in millivolts. -/
def BatteryModel.reported (m : BatteryModel) : ℕ := (m.sim.eps.bus 0).voltage.toNat

theorem update_reported (cfg : PowerConfig) (tick : Tick) (m : BatteryModel) :
    (updateBatteryValues cfg tick m).reported =
      (toUint16 (battVoltage cfg (updateBatteryValues cfg tick m).batteryWatthrs)).toNat := by
  simp only [BatteryModel.reported, updateBatteryValues, EpsModel.setBatteryVoltage,
    Function.update_self]

/-- The energy is between none and a full battery with the input of one tick, the voltage
follows it and is not wrapped. -/
structure Physical (cfg : PowerConfig) (c : Charging) : Prop where
  nonneg : 0 ≤ c.model.batteryWatthrs
  charge : c.model.batteryWatthrs ≤ cfg.maxBattery + c.tickInput
  low : 950 * cfg.nominalBattVoltage ≤ c.model.reported
  high : (c.model.reported : ℚ) ≤ 1050 * cfg.nominalBattVoltage +
    100 * cfg.nominalBattVoltage * (c.tickInput / cfg.maxBattery)
  unwrapped : (c.model.reported : ℤ) = ⌊battVoltage cfg c.model.batteryWatthrs⌋

def PhysicalAfter (cfg : PowerConfig) (c : Charging) (event : BatteryEvent) : Prop :=
  match event with
  | .tick _ => Physical cfg (c.step cfg event)
  | _ => True

/-- The rails take no more than there is, and the voltage of what remains fits its field. -/
def Sustained (cfg : PowerConfig) (c : Charging) (event : BatteryEvent) : Prop :=
  match event with
  | .tick tick =>
    consumption c.model tick ≤ c.model.batteryWatthrs + solarInput cfg c.model tick ∧
      battVoltage cfg (c.model.batteryWatthrs + solarInput cfg c.model tick -
        consumption c.model tick) < 65536
  | _ => True

theorem physical_of_nonneg {cfg : PowerConfig} {c : Charging} (hb : Bounded cfg c)
    (hnonneg : 0 ≤ c.model.batteryWatthrs)
    (hfits : battVoltage cfg c.model.batteryWatthrs < 65536)
    (hreported : c.model.reported =
      (toUint16 (battVoltage cfg c.model.batteryWatthrs)).toNat) : Physical cfg c := by
  have hmax := cfg.max_pos
  have hvoltage := battVoltage_eq cfg c.model.batteryWatthrs
  have hratio : 0 ≤ c.model.batteryWatthrs / cfg.maxBattery := div_nonneg hnonneg hmax.le
  have hnominal : (0 : ℚ) ≤ cfg.nominalBattVoltage := Nat.cast_nonneg _
  have hlow : 950 * (cfg.nominalBattVoltage : ℚ) ≤ battVoltage cfg c.model.batteryWatthrs := by
    rw [hvoltage]
    have hpart := mul_nonneg (mul_nonneg (by norm_num : (0 : ℚ) ≤ 100) hnominal) hratio
    linarith
  have hwhole : (c.model.reported : ℤ) = ⌊battVoltage cfg c.model.batteryWatthrs⌋ := by
    rw [hreported]
    exact toUint16_toNat (le_trans (by positivity) hlow) hfits
  have hfloor : ((c.model.reported : ℤ) : ℚ) ≤ battVoltage cfg c.model.batteryWatthrs := by
    rw [hwhole]
    exact Int.floor_le _
  refine ⟨hnonneg, hb.charge, ?_, ?_, hwhole⟩
  · have hbelow : (950 * cfg.nominalBattVoltage : ℤ) ≤ c.model.reported := by
      rw [hwhole]
      exact Int.le_floor.mpr (by exact_mod_cast hlow)
    exact_mod_cast hbelow
  · have hshare : c.model.batteryWatthrs / cfg.maxBattery ≤ 1 + c.tickInput / cfg.maxBattery := by
      rw [← div_self hmax.ne', ← add_div]
      exact div_le_div_of_nonneg_right hb.charge hmax.le
    have hpart := mul_le_mul_of_nonneg_left hshare
      (mul_nonneg (by norm_num : (0 : ℚ) ≤ 100) hnominal)
    calc (c.model.reported : ℚ) ≤ battVoltage cfg c.model.batteryWatthrs := by
          exact_mod_cast hfloor
      _ ≤ _ := by
          rw [hvoltage]
          linarith

/-- The upper bound holds in any case, so that a tick is physical exactly when it takes no more
than there is and the voltage fits. -/
theorem physicalAfter_iff {cfg : PowerConfig} {c : Charging} (h : Bounded cfg c)
    (event : BatteryEvent) : PhysicalAfter cfg c event ↔ Sustained cfg c event := by
  cases event with
  | switch swNum swStatus => exact Iff.rfl
  | toggle panel state => exact Iff.rfl
  | tick tick =>
    have hwatthrs := update_watthrs cfg tick h.noOverride
    simp only [PhysicalAfter, Sustained]
    rw [← hwatthrs]
    constructor
    · intro hphysical
      have hnonneg : 0 ≤ (updateBatteryValues cfg tick c.model).batteryWatthrs :=
        hphysical.nonneg
      have hwhole : ((updateBatteryValues cfg tick c.model).reported : ℤ) =
          ⌊battVoltage cfg (updateBatteryValues cfg tick c.model).batteryWatthrs⌋ :=
        hphysical.unwrapped
      have hfield : (updateBatteryValues cfg tick c.model).reported < 65536 :=
        ((updateBatteryValues cfg tick c.model).sim.eps.bus 0).voltage.isLt
      refine ⟨?_, ?_⟩
      · rw [hwatthrs] at hnonneg
        linarith
      · have hlt : ⌊battVoltage cfg (updateBatteryValues cfg tick c.model).batteryWatthrs⌋ <
            (65536 : ℤ) := by omega
        exact_mod_cast Int.floor_lt.mp hlt
    · rintro ⟨hdrain, hfits⟩
      refine physical_of_nonneg (h.step (.tick tick)) ?_ hfits (update_reported cfg tick c.model)
      change 0 ≤ (updateBatteryValues cfg tick c.model).batteryWatthrs
      rw [hwatthrs]
      linarith

/-- From a charge between none and the maximum, every tick of a run leaves the battery physical
exactly when no tick takes more than there is and every voltage fits its field. -/
theorem battery_physical_iff (cfg : PowerConfig) {m : BatteryModel} (hstart : StartsCharged cfg m)
    (events : List BatteryEvent) :
    (battery cfg).Along (PhysicalAfter cfg) ⟨m, 0⟩ events ↔
      (battery cfg).Along (Sustained cfg) ⟨m, 0⟩ events := by
  refine Machine.along_congr (Bounded cfg) (fun c event h => physicalAfter_iff h event) ?_ events
    (.start hstart)
  intro c event c' h _ hnext
  cases hnext
  exact h.step event

/-- The defaults of the configuration. -/
def defaultPower : PowerConfig where
  powerPerMainPanel := 4485 / 1000
  powerPerSmallPanel := 1281 / 1000
  maxBattery := 10
  nominalBattVoltage := 24
  main_nonneg := by norm_num
  small_nonneg := by norm_num
  max_pos := by norm_num

/-- The rails of the buses with their default currents. -/
def defaultBus : Fin 5 → EpsRail
  | 0 => ⟨24000, 0, 0, 8500⟩
  | 1 => ⟨3300, 250, 0, 0⟩
  | 2 => ⟨5000, 150, 0, 0⟩
  | 3 => ⟨12000, 100, 0, 0⟩
  | 4 => ⟨32000, 4000, 0, 14000⟩

/-- All switches are off. -/
def defaultBattery (watthrs : ℚ) : BatteryModel where
  sim := { eps := ⟨defaultBus, fun _ => default, true⟩, nodeName := fun _ => "" }
  batteryWatthrs := watthrs

/-- A second in the dark. -/
def darkSecond : Tick := ⟨1000000, false, 0, 0, 0, by decide⟩

theorem consumption_default (watthrs : ℚ) :
    consumption (defaultBattery watthrs) darkSecond = 111 / 144000 := by
  have hout : powerOut (defaultBattery watthrs).sim.eps = 111 / 40 := by
    have hbus : EpsRail.power (defaultBus 1) + EpsRail.power (defaultBus 2) +
        EpsRail.power (defaultBus 3) = 111 / 40 := by
      simp only [defaultBus, EpsRail.power, BitVec.reduceToNat]
      norm_num
    have hoff : (default : EpsRail).status = 0 := rfl
    simp only [powerOut, defaultBattery, hoff, ne_eq, not_true_eq_false, if_false, mul_zero,
      add_zero, List.foldl_fixed, List.foldl_cons, List.foldl_nil, zero_add, hbus]
  rw [consumption, hout]
  norm_num [darkSecond]

theorem solarInput_dark (cfg : PowerConfig) (m : BatteryModel) :
    solarInput cfg m darkSecond = 0 := by
  have hlit (component : ℚ) : lit false component = 0 := by simp [lit]
  have hsvb (panel : Panel) : darkSecond.svb panel = 0 := by
    cases panel <;> exact hlit _
  simp [solarInput, powerIn, hsvb]

/-- A full battery lasts a second. -/
theorem battery_physical_iff_full :
    (battery defaultPower).Along (PhysicalAfter defaultPower) ⟨defaultBattery 10, 0⟩
      [.tick darkSecond] := by
  refine (battery_physical_iff defaultPower ⟨?_, ?_, rfl⟩ _).mpr ⟨⟨?_, ?_⟩, fun _ _ => trivial⟩
  · norm_num [defaultBattery]
  · norm_num [defaultBattery, defaultPower]
  · rw [solarInput_dark, consumption_default]
    norm_num [defaultBattery]
  · rw [solarInput_dark, consumption_default, battVoltage_eq]
    norm_num [defaultBattery, defaultPower]

/-- An empty battery is charged less than nothing after a second in the dark. -/
theorem battery_physical_empty : ¬∀ (cfg : PowerConfig) (m : BatteryModel), StartsCharged cfg m →
    ∀ events : List BatteryEvent,
      (battery cfg).Along (PhysicalAfter cfg) ⟨m, 0⟩ events := by
  intro h
  obtain ⟨hphysical, -⟩ := h defaultPower (defaultBattery 0)
    ⟨le_refl 0, defaultPower.max_pos.le, rfl⟩ [.tick darkSecond]
  have hcharge :
      0 ≤ (updateBatteryValues defaultPower darkSecond (defaultBattery 0)).batteryWatthrs :=
    hphysical.nonneg
  rw [update_watthrs defaultPower darkSecond rfl, solarInput_dark, consumption_default] at hcharge
  exact absurd hcharge (by norm_num [defaultBattery])

end Nos3.Eps
