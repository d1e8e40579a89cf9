import Nos3.Thermal.Guarantees.HeaterState

/-!
# The heater switch counters

A run is recorded with the switches of the heater since the last reset. The control loop
counts its own; an override that switches the heater is the one switch that is not counted.
-/
namespace Nos3.Thermal
open Base.Transition

/-- The application with the switches since the last reset, or since the start. -/
structure Recorded where
  app : AppData := {}
  turnedOn : Nat := 0
  turnedOff : Nat := 0
  onAtReset : Bool := false

/-- An accepted `THERMAL_RESET_COUNTERS_CC`. -/
def Input.resets (input : Input) : Bool :=
  match input.msg with
  | .groundCommand cmd => cmd.fcnCode == 1 && cmd.size == noArgsSize
  | _ => false

def turnsOn (before after : AppData) : Nat := if !before.heaterState && after.heaterState then 1 else 0

def turnsOff (before after : AppData) : Nat := if before.heaterState && !after.heaterState then 1 else 0

def Recorded.step (r : Recorded) (input : Input) : Recorded :=
  let after := (input.outcome r.app).1
  if input.resets then { app := after, onAtReset := after.heaterState }
  else
    { r with
      app := after
      turnedOn := r.turnedOn + turnsOn r.app after
      turnedOff := r.turnedOff + turnsOff r.app after }

/-- The application from `THERMAL_AppInit` on, recorded. -/
def recorded : Machine Recorded Input where
  start r := r = {}
  next r input := some (r.step input)

/-- The counters hold the number of switches modulo 2^32 and are at most one apart. -/
structure CountsSwitches (r : Recorded) : Prop where
  on : r.app.heaterOnCount.toNat = r.turnedOn % 2 ^ 32
  off : r.app.heaterOffCount.toNat = r.turnedOff % 2 ^ 32
  apart : r.app.heaterOnCount = r.app.heaterOffCount ∨
    r.app.heaterOnCount = r.app.heaterOffCount + 1 ∨
    r.app.heaterOffCount = r.app.heaterOnCount + 1

/-- An accepted override that is sent and switches the heater. -/
def OverrideSwitches (app : AppData) (input : Input) : Prop :=
  ∃ cmd turnOn, input.msg = .groundCommand cmd ∧ Overrides input.transmit cmd turnOn app ∧
    app.heaterState ≠ turnOn

/-- On and off take turns. -/
def Recorded.Alternates (r : Recorded) : Prop :=
  r.turnedOn + r.onAtReset.toNat = r.turnedOff + r.app.heaterState.toNat

theorem Recorded.Alternates.step {r : Recorded} (h : r.Alternates) (input : Input) :
    (r.step input).Alternates := by
  unfold Recorded.step
  by_cases hr : input.resets
  · simp [hr, Recorded.Alternates]
  · simp only [hr, Recorded.Alternates, turnsOn, turnsOff] at h ⊢
    cases hbefore : r.app.heaterState <;> cases hafter : (input.outcome r.app).1.heaterState <;>
      (simp_all; try omega)

/-- Counters that hold numbers which take turns are at most one apart. -/
theorem apart_of_alternates {r : Recorded} (h : r.Alternates)
    (hon : r.app.heaterOnCount.toNat = r.turnedOn % 2 ^ 32)
    (hoff : r.app.heaterOffCount.toNat = r.turnedOff % 2 ^ 32) :
    r.app.heaterOnCount = r.app.heaterOffCount ∨
      r.app.heaterOnCount = r.app.heaterOffCount + 1 ∨
      r.app.heaterOffCount = r.app.heaterOnCount + 1 := by
  simp only [← UInt32.toNat_inj, UInt32.toNat_add, hon, hoff, UInt32.toNat_one]
  unfold Recorded.Alternates at h
  have hstart := r.onAtReset.toNat_le
  have hnow := r.app.heaterState.toNat_le
  omega

/-! ## One message -/

/-- The counters follow the heater. -/
structure Tallied (before after : AppData) : Prop where
  on : after.heaterOnCount = before.heaterOnCount + UInt32.ofNat (turnsOn before after)
  off : after.heaterOffCount = before.heaterOffCount + UInt32.ofNat (turnsOff before after)

/-- What the switch counters are about stays the same. -/
structure Unswitched (before after : AppData) : Prop where
  heater : after.heaterState = before.heaterState
  on : after.heaterOnCount = before.heaterOnCount
  off : after.heaterOffCount = before.heaterOffCount

theorem Unswitched.tallied {before after : AppData} (h : Unswitched before after) :
    Tallied before after := by
  constructor
  · simp [turnsOn, h.heater, h.on]
  · simp [turnsOff, h.heater, h.off]

theorem commandHeater_counts (transmit : Transmit) (turnOn : Bool) (app : AppData) :
    (commandHeater transmit turnOn app).1.heaterOnCount = app.heaterOnCount ∧
      (commandHeater transmit turnOn app).1.heaterOffCount = app.heaterOffCount := by
  unfold commandHeater
  split <;> exact ⟨rfl, rfl⟩

theorem controlStep_counts (transmit : Transmit) (temperature : Double) (app : AppData) :
    (controlStep transmit temperature app).1.heaterOnCount = app.heaterOnCount ∧
      (controlStep transmit temperature app).1.heaterOffCount = app.heaterOffCount := by
  unfold controlStep
  cases app.state with
  | disabled => exact ⟨rfl, rfl⟩
  | idle | heating | cooling =>
    dsimp only
    split
    · exact commandHeater_counts transmit _ app
    · exact ⟨rfl, rfl⟩

/-- The end of the control loop counts the switch it finds. -/
theorem trackHeater_tallied {before app : AppData} (hon : app.heaterOnCount = before.heaterOnCount)
    (hoff : app.heaterOffCount = before.heaterOffCount) :
    Tallied before (trackHeater before.heaterState app) := by
  obtain ⟨-, hheater, -⟩ := trackHeater_frame before.heaterState app
  constructor
  · rw [turnsOn, hheater]
    cases hb : before.heaterState <;> cases ha : app.heaterState <;> simp [trackHeater, ha, hon]
  · rw [turnsOff, hheater]
    cases hb : before.heaterState <;> cases ha : app.heaterState <;> simp [trackHeater, ha, hoff]

theorem reading_tallied (transmit : Transmit) (raw : UInt16) (app : AppData) :
    Tallied app (processTelemetry transmit raw app).1 := by
  unfold processTelemetry
  split
  · have hcounts := controlStep_counts transmit (temperatureOf raw)
      { app with currentTemperature := temperatureOf raw }
    exact trackHeater_tallied hcounts.1 hcounts.2
  · exact Unswitched.tallied ⟨rfl, rfl, rfl⟩

theorem verifyCmdLength_unswitched {cmd : GroundCommand} {size : Nat}
    {accepted : AppData → Outcome} {app : AppData}
    (h : cmd.size = size → Unswitched app (accepted app).1) :
    Unswitched app (verifyCmdLength cmd size accepted app).1 := by
  unfold verifyCmdLength
  split
  · exact ⟨rfl, rfl, rfl⟩
  · rename_i hsize
    exact h (not_not.mp hsize).symm

theorem setThresholds_unswitched (low high : Double) (app : AppData) :
    Unswitched app (setThresholds low high app) := by
  unfold setThresholds
  split
  · exact ⟨rfl, rfl, rfl⟩
  · split <;> exact ⟨rfl, rfl, rfl⟩

/-- An override, accepted or not. -/
theorem override_cases (transmit : Transmit) {cmd : GroundCommand} (turnOn : Bool) (app : AppData)
    (hcode : cmd.fcnCode = if turnOn then 5 else 6) :
    let after := (verifyCmdLength cmd noArgsSize
      (fun app => countCmd (commandHeater transmit turnOn app)) app).1
    ¬OverrideSwitches app ⟨transmit, .groundCommand cmd⟩ ∧ Unswitched app after ∨
      OverrideSwitches app ⟨transmit, .groundCommand cmd⟩ ∧ after.heaterState ≠ app.heaterState ∧
        after.heaterOnCount = app.heaterOnCount ∧ after.heaterOffCount = app.heaterOffCount := by
  intro after
  have hcounts := commandHeater_counts transmit turnOn app
  have hheater := commandHeater_heaterState transmit turnOn app
  by_cases hswitch : Overrides transmit cmd turnOn app ∧ app.heaterState ≠ turnOn
  · obtain ⟨hover, hother⟩ := hswitch
    refine Or.inr ⟨⟨cmd, turnOn, rfl, hover, hother⟩, ?_⟩
    have hafter : after = (countCmd (commandHeater transmit turnOn app)).1 := by
      simp only [after, verifyCmdLength, hover.2.1, ne_eq, not_true_eq_false, if_false]
    rw [if_pos hover.2.2] at hheater
    rw [hafter]
    refine ⟨?_, hcounts⟩
    change (commandHeater transmit turnOn app).1.heaterState ≠ app.heaterState
    rw [hheater]
    exact hother.symm
  · refine Or.inl ⟨?_, ?_⟩
    · rintro ⟨cmd', turnOn', hmsg, hover, hother⟩
      cases hmsg
      have hsame : turnOn' = turnOn := by
        have hcodes := hover.1.symm.trans hcode
        cases turnOn <;> cases turnOn' <;> simp_all
      exact hswitch ⟨hsame ▸ hover, hsame ▸ hother⟩
    · refine verifyCmdLength_unswitched fun hsize => ⟨?_, hcounts.1, hcounts.2⟩
      change (commandHeater transmit turnOn app).1.heaterState = app.heaterState
      rw [hheater]
      split
      · rename_i hsent
        by_contra hother
        exact hswitch ⟨⟨hcode, hsize, hsent⟩, fun heq => hother heq.symm⟩
      · rfl

/-- A message resets the counters, or they follow the heater, or they miss an override. -/
theorem outcome_cases (input : Input) (app : AppData) :
    input.resets = true ∧ ¬OverrideSwitches app input ∧
        (input.outcome app).1.heaterOnCount = 0 ∧ (input.outcome app).1.heaterOffCount = 0 ∨
      input.resets = false ∧ ¬OverrideSwitches app input ∧ Tallied app (input.outcome app).1 ∨
      input.resets = false ∧ OverrideSwitches app input ∧
        (input.outcome app).1.heaterState ≠ app.heaterState ∧
        (input.outcome app).1.heaterOnCount = app.heaterOnCount ∧
        (input.outcome app).1.heaterOffCount = app.heaterOffCount := by
  obtain ⟨transmit, msg⟩ := input
  cases msg with
  | sendHk | other =>
    refine Or.inr (Or.inl ⟨rfl, ?_, Unswitched.tallied ⟨rfl, rfl, rfl⟩⟩)
    rintro ⟨cmd, turnOn, hmsg, -⟩
    cases hmsg
  | tmp100Hk raw =>
    refine Or.inr (Or.inl ⟨rfl, ?_, reading_tallied transmit raw app⟩)
    rintro ⟨cmd, turnOn, hmsg, -⟩
    cases hmsg
  | groundCommand cmd =>
    have hnone (h5 : cmd.fcnCode ≠ 5) (h6 : cmd.fcnCode ≠ 6) :
        ¬OverrideSwitches app ⟨transmit, .groundCommand cmd⟩ := by
      rintro ⟨cmd', turnOn, hmsg, hover, -⟩
      cases hmsg
      cases turnOn
      · exact h6 hover.1
      · exact h5 hover.1
    have hquiet (h1 : cmd.fcnCode ≠ 1) : Input.resets ⟨transmit, .groundCommand cmd⟩ = false := by
      simp [Input.resets, h1]
    have hplain {app : AppData} : Unswitched app (countCmd (app, [])).1 := ⟨rfl, rfl, rfl⟩
    simp only [Input.outcome, processCommandPacket, processGroundCommand]
    split
    case h_1 hcode =>
      exact Or.inr (Or.inl ⟨hquiet (by omega), hnone (by omega) (by omega),
        (verifyCmdLength_unswitched fun _ => hplain).tallied⟩)
    case h_2 hcode =>
      by_cases hsize : cmd.size = noArgsSize
      · refine Or.inl ⟨by simp [Input.resets, hcode, hsize], hnone (by omega) (by omega), ?_⟩
        simp [verifyCmdLength, hsize, resetCounters]
      · exact Or.inr (Or.inl ⟨by simp [Input.resets, hsize], hnone (by omega) (by omega),
          (verifyCmdLength_unswitched fun h => absurd h hsize).tallied⟩)
    case h_3 hcode =>
      exact Or.inr (Or.inl ⟨hquiet (by omega), hnone (by omega) (by omega),
        (verifyCmdLength_unswitched fun _ => ⟨rfl, rfl, rfl⟩).tallied⟩)
    case h_4 hcode =>
      exact Or.inr (Or.inl ⟨hquiet (by omega), hnone (by omega) (by omega),
        (verifyCmdLength_unswitched fun _ => ⟨rfl, rfl, rfl⟩).tallied⟩)
    case h_5 hcode =>
      have hset := setThresholds_unswitched cmd.lowThreshold cmd.highThreshold app
      exact Or.inr (Or.inl ⟨hquiet (by omega), hnone (by omega) (by omega),
        (verifyCmdLength_unswitched fun _ => ⟨hset.heater, hset.on, hset.off⟩).tallied⟩)
    case h_6 hcode =>
      rcases override_cases transmit true app hcode with
        ⟨hover, hsame⟩ | hmissed
      · exact Or.inr (Or.inl ⟨hquiet (by omega), hover, hsame.tallied⟩)
      · exact Or.inr (Or.inr ⟨hquiet (by omega), hmissed⟩)
    case h_7 hcode =>
      rcases override_cases transmit false app hcode with
        ⟨hover, hsame⟩ | hmissed
      · exact Or.inr (Or.inl ⟨hquiet (by omega), hover, hsame.tallied⟩)
      · exact Or.inr (Or.inr ⟨hquiet (by omega), hmissed⟩)
    case h_8 h0 h1 h2 h3 h4 h5 h6 =>
      exact Or.inr (Or.inl ⟨hquiet h1, hnone h5 h6, Unswitched.tallied ⟨rfl, rfl, rfl⟩⟩)

/-! ## Runs -/

/-- The counters are right after the step. -/
def CountsAfter (r : Recorded) (input : Input) : Prop := CountsSwitches (r.step input)

/-- No override switches the heater in the step. -/
def NotOverridden (r : Recorded) (input : Input) : Prop := ¬OverrideSwitches r.app input

theorem toNat_add_count (count : UInt32) {total n : Nat} (hn : n ≤ 1)
    (h : count.toNat = total % 2 ^ 32) :
    (count + UInt32.ofNat n).toNat = (total + n) % 2 ^ 32 := by
  have hsmall : (UInt32.ofNat n).toNat = n := UInt32.toNat_ofNat_of_lt' (by
    rw [UInt32.size]
    omega)
  rw [UInt32.toNat_add, h, hsmall, Nat.mod_add_mod]

theorem turnsOn_le (before after : AppData) : turnsOn before after ≤ 1 := by
  unfold turnsOn
  split <;> omega

theorem turnsOff_le (before after : AppData) : turnsOff before after ≤ 1 := by
  unfold turnsOff
  split <;> omega

/-- A step keeps the counters right exactly when it is no override that switches the heater. -/
theorem countsAfter_iff {r : Recorded} (hc : CountsSwitches r) (halt : r.Alternates)
    (input : Input) : CountsAfter r input ↔ NotOverridden r input := by
  have hnext := halt.step input
  rcases outcome_cases input r.app with ⟨hreset, hover, hon, hoff⟩ | ⟨hquiet, hover, htally⟩ |
    ⟨hquiet, hover, hheater, hon, hoff⟩
  · refine iff_of_true ?_ hover
    have hstep : r.step input = { app := (input.outcome r.app).1
                                  onAtReset := (input.outcome r.app).1.heaterState } := by
      rw [Recorded.step, if_pos hreset]
    rw [CountsAfter, hstep]
    exact ⟨by rw [hon]; rfl, by rw [hoff]; rfl, Or.inl (by rw [hon, hoff])⟩
  · refine iff_of_true ?_ hover
    have hstep : r.step input = { r with
        app := (input.outcome r.app).1
        turnedOn := r.turnedOn + turnsOn r.app (input.outcome r.app).1
        turnedOff := r.turnedOff + turnsOff r.app (input.outcome r.app).1 } := by
      rw [Recorded.step, if_neg (by rw [hquiet]; decide)]
    rw [CountsAfter]
    rw [hstep] at hnext ⊢
    have hon : (input.outcome r.app).1.heaterOnCount.toNat =
        (r.turnedOn + turnsOn r.app (input.outcome r.app).1) % 2 ^ 32 := by
      rw [htally.on, toNat_add_count _ (turnsOn_le _ _) hc.on]
    have hoff : (input.outcome r.app).1.heaterOffCount.toNat =
        (r.turnedOff + turnsOff r.app (input.outcome r.app).1) % 2 ^ 32 := by
      rw [htally.off, toNat_add_count _ (turnsOff_le _ _) hc.off]
    exact ⟨hon, hoff, apart_of_alternates hnext hon hoff⟩
  · refine iff_of_false (fun hcounts => ?_) fun hnot => hnot hover
    have hstep : r.step input = { r with
        app := (input.outcome r.app).1
        turnedOn := r.turnedOn + turnsOn r.app (input.outcome r.app).1
        turnedOff := r.turnedOff + turnsOff r.app (input.outcome r.app).1 } := by
      rw [Recorded.step, if_neg (by rw [hquiet]; decide)]
    rw [CountsAfter, hstep] at hcounts
    have hcountOn := hcounts.on
    have hcountOff := hcounts.off
    have hbeforeOn := hc.on
    have hbeforeOff := hc.off
    dsimp only at hcountOn hcountOff
    rw [hon, turnsOn] at hcountOn
    rw [hoff, turnsOff] at hcountOff
    cases hb : r.app.heaterState <;> cases ha : (input.outcome r.app).1.heaterState
    · exact hheater (by rw [ha, hb])
    · simp only [hb, ha, Bool.not_false, Bool.and_self, if_true] at hcountOn
      omega
    · simp only [hb, ha, Bool.not_false, Bool.and_self, if_true] at hcountOff
      omega
    · exact hheater (by rw [ha, hb])

/-- The counters are right after every step of a run exactly when no override switches the
heater in one of them. -/
theorem heater_counters_iff (inputs : List Input) :
    recorded.Along CountsAfter {} inputs ↔ recorded.Along NotOverridden {} inputs := by
  refine Machine.along_congr (fun r => CountsSwitches r ∧ r.Alternates)
    (fun r input h => countsAfter_iff h.1 h.2 input) ?_ inputs
    ⟨⟨rfl, rfl, Or.inl rfl⟩, rfl⟩
  rintro r input r' ⟨hc, halt⟩ hok hnext
  cases hnext
  exact ⟨(countsAfter_iff hc halt input).mpr hok, halt.step input⟩

/-- An override turns the heater on, and the counters stay at zero. -/
theorem heater_counters_override : ¬∀ inputs : List Input, recorded.Along CountsAfter {} inputs := by
  intro h
  obtain ⟨hcounts, -⟩ := h [⟨fun _ => CFE_SUCCESS, .groundCommand ⟨5, 8, .nan, .nan⟩⟩]
  exact absurd hcounts.on (by decide)

end Nos3.Thermal
