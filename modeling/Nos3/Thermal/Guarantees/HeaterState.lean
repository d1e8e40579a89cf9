import Mathlib.Tactic.Linarith
import Nos3.Base.Transition
import Nos3.Thermal.Source.Control

/-!
# The heater follows the temperature

`state` stands for the heater state the last transition asked for. The two stay
in step exactly as long as no EPS command is lost, no override works against a
running transition, and control is not enabled again with the heater left on
while it is warm enough.
-/
namespace Nos3.Thermal
open Base.Transition

structure Input where
  transmit : Transmit
  msg : Message

def Input.outcome (input : Input) (app : AppData) : Outcome :=
  processCommandPacket input.transmit input.msg app

/-- The application from `THERMAL_AppInit` on. -/
def control : Machine AppData Input where
  start app := app = {}
  next app input := some (input.outcome app).1

def HeaterMatchesState (app : AppData) : Prop :=
  (app.state = .heating → app.heaterState = true) ∧
    (app.state = .cooling → app.heaterState = false)

/-- The heater is off above the high threshold and on below the low one. -/
def HeaterFollows (temperature : Double) (app : AppData) : Prop :=
  (app.tempHighThreshold.lt temperature = true → app.heaterState = false) ∧
    (temperature.lt app.tempLowThreshold = true → app.heaterState = true)

/-- What a telemetry packet leaves behind while control is enabled and every EPS command
attempted for it is sent. -/
def TracksTemperature (app : AppData) (input : Input) : Prop :=
  ∀ temperatureRaw, input.msg = .tmp100Hk temperatureRaw → app.controlEnabled = true →
    (∀ cmd ∈ (input.outcome app).2, input.transmit cmd = CFE_SUCCESS) →
    HeaterFollows (temperatureOf temperatureRaw) (input.outcome app).1

def Controlled (app : AppData) (input : Input) : Prop :=
  TracksTemperature app input ∧ HeaterMatchesState (input.outcome app).1

/-- A reading does not move `state` past the heater: the command of the transition is sent, or
the heater already is where the new state says. -/
def ReadingUndisturbed (transmit : Transmit) (temperature : Double) (app : AppData) : Prop :=
  match app.state with
  | .idle =>
    if temperature.lt app.tempLowThreshold then
      app.heaterState = true ∨ transmit (switchCmd true app) = CFE_SUCCESS
    else app.heaterState = false
  | .cooling =>
    temperature.lt app.tempLowThreshold = true → transmit (switchCmd true app) = CFE_SUCCESS
  | .heating =>
    app.tempHighThreshold.lt temperature = true → transmit (switchCmd false app) = CFE_SUCCESS
  | .disabled => True

/-- An override to `turnOn` reaches the EPS. -/
def Overrides (transmit : Transmit) (cmd : GroundCommand) (turnOn : Bool) (app : AppData) : Prop :=
  cmd.fcnCode = (if turnOn then 5 else 6) ∧ cmd.size = noArgsSize ∧
    transmit (switchCmd turnOn app) = CFE_SUCCESS

/-- The condition on a message and the state it arrives in. -/
def Undisturbed (app : AppData) (input : Input) : Prop :=
  match input.msg with
  | .tmp100Hk temperatureRaw =>
    app.controlEnabled = true → ReadingUndisturbed input.transmit (temperatureOf temperatureRaw) app
  | .groundCommand cmd =>
    (app.state = .cooling → ¬ Overrides input.transmit cmd true app) ∧
      (app.state = .heating → ¬ Overrides input.transmit cmd false app)
  | .sendHk | .other => True

/-! ## What holds in every state -/

structure Consistent (app : AppData) : Prop where
  disabled : app.state = .disabled ↔ app.controlEnabled = false
  ordered : app.tempLowThreshold.ge app.tempHighThreshold = false

/-- A temperature is not outside both of two thresholds the application accepted. -/
theorem lt_low_or_high {low high : Double} (h : low.ge high = false) (value : Rat)
    (hlow : (Double.number value).lt low = true) : high.lt (.number value) = false := by
  cases low <;> cases high <;> simp_all [Double.ge, Double.lt]
  linarith

theorem Consistent.start : Consistent {} where
  disabled := by simp
  ordered := by decide

theorem HeaterMatchesState.start : HeaterMatchesState {} := by
  simp [HeaterMatchesState]

/-- The fields a heater command leaves alone. -/
theorem commandHeater_frame (transmit : Transmit) (turnOn : Bool) (app : AppData) :
    (commandHeater transmit turnOn app).1.state = app.state ∧
      (commandHeater transmit turnOn app).1.controlEnabled = app.controlEnabled ∧
      (commandHeater transmit turnOn app).1.tempLowThreshold = app.tempLowThreshold ∧
      (commandHeater transmit turnOn app).1.tempHighThreshold = app.tempHighThreshold ∧
      (commandHeater transmit turnOn app).2 = [switchCmd turnOn app] := by
  unfold commandHeater
  split <;> exact ⟨rfl, rfl, rfl, rfl, rfl⟩

theorem commandHeater_heaterState (transmit : Transmit) (turnOn : Bool) (app : AppData) :
    (commandHeater transmit turnOn app).1.heaterState =
      if transmit (switchCmd turnOn app) = CFE_SUCCESS then turnOn else app.heaterState := by
  unfold commandHeater
  split <;> rfl

theorem trackHeater_frame (prevHeaterState : Bool) (app : AppData) :
    (trackHeater prevHeaterState app).state = app.state ∧
      (trackHeater prevHeaterState app).heaterState = app.heaterState ∧
      (trackHeater prevHeaterState app).controlEnabled = app.controlEnabled ∧
      (trackHeater prevHeaterState app).tempLowThreshold = app.tempLowThreshold ∧
      (trackHeater prevHeaterState app).tempHighThreshold = app.tempHighThreshold := by
  unfold trackHeater
  split
  · split <;> exact ⟨rfl, rfl, rfl, rfl, rfl⟩
  · exact ⟨rfl, rfl, rfl, rfl, rfl⟩

/-! ## One reading -/

theorem controlStep_frame (transmit : Transmit) (temperature : Double) (app : AppData) :
    (controlStep transmit temperature app).1.controlEnabled = app.controlEnabled ∧
      (controlStep transmit temperature app).1.tempLowThreshold = app.tempLowThreshold ∧
      (controlStep transmit temperature app).1.tempHighThreshold = app.tempHighThreshold := by
  unfold controlStep
  cases app.state with
  | disabled => exact ⟨rfl, rfl, rfl⟩
  | idle | heating | cooling =>
    dsimp only
    split <;> simp [Outcome.andThen, commandHeater_frame]

/-- A reading, field by field, in terms of the switch over the state. -/
theorem reading_enabled (transmit : Transmit) (raw : UInt16) {app : AppData}
    (h : app.controlEnabled = true) :
    let step := controlStep transmit (temperatureOf raw)
      { app with currentTemperature := temperatureOf raw }
    let after := processTelemetry transmit raw app
    after.1.state = step.1.state ∧ after.1.heaterState = step.1.heaterState ∧
      after.1.controlEnabled = app.controlEnabled ∧
      after.1.tempLowThreshold = app.tempLowThreshold ∧
      after.1.tempHighThreshold = app.tempHighThreshold ∧ after.2 = step.2 := by
  simp [processTelemetry, h, updateControlLoop, Outcome.andThen, trackHeater_frame,
    controlStep_frame]

/-- While the state and the heater agree, a reading keeps them so exactly when it is not
disturbed, and then the heater follows the temperature. -/
theorem controlStep_matches (transmit : Transmit) (value : Rat) {app : AppData}
    (hm : HeaterMatchesState app) :
    HeaterMatchesState (controlStep transmit (.number value) app).1 ↔
      ReadingUndisturbed transmit (.number value) app := by
  unfold controlStep ReadingUndisturbed HeaterMatchesState
  cases hs : app.state with
  | disabled => simp [hs]
  | idle =>
    by_cases hcold : (Double.number value).lt app.tempLowThreshold = true
    · simp [hcold, Outcome.andThen, commandHeater_heaterState, or_comm]
    · simp [hcold]
  | cooling =>
    have hoff := hm.2 hs
    by_cases hcold : (Double.number value).lt app.tempLowThreshold = true
    · simp [hcold, Outcome.andThen, commandHeater_heaterState, hoff]
    · simp [hcold, hoff]
  | heating =>
    have hon := hm.1 hs
    by_cases hwarm : app.tempHighThreshold.lt (.number value) = true
    · simp [hwarm, Outcome.andThen, commandHeater_heaterState, hon]
    · simp [hwarm, hs, hon]

theorem controlStep_tracks {transmit : Transmit} {value : Rat} {app : AppData}
    (hc : Consistent app) (henabled : app.controlEnabled = true) (hm : HeaterMatchesState app)
    (hsafe : ReadingUndisturbed transmit (.number value) app)
    (hsent : ∀ cmd ∈ (controlStep transmit (.number value) app).2, transmit cmd = CFE_SUCCESS) :
    (app.tempHighThreshold.lt (.number value) = true →
      (controlStep transmit (.number value) app).1.heaterState = false) ∧
    ((Double.number value).lt app.tempLowThreshold = true →
      (controlStep transmit (.number value) app).1.heaterState = true) := by
  have hone := lt_low_or_high hc.ordered value
  unfold controlStep at hsent ⊢
  unfold ReadingUndisturbed at hsafe
  cases hs : app.state with
  | disabled => simp [hc.disabled.mp hs] at henabled
  | idle =>
    by_cases hcold : (Double.number value).lt app.tempLowThreshold = true
    · simp [hs, hcold, Outcome.andThen, commandHeater_frame] at hsent
      simp [hcold, hone hcold, Outcome.andThen, commandHeater_heaterState, hsent]
    · simp [hs, hcold] at hsafe
      simp [hcold, hsafe]
  | cooling =>
    have hoff := hm.2 hs
    by_cases hcold : (Double.number value).lt app.tempLowThreshold = true
    · simp [hs, hcold, Outcome.andThen, commandHeater_frame] at hsent
      simp [hcold, hone hcold, Outcome.andThen, commandHeater_heaterState, hsent]
    · simp [hcold, hoff]
  | heating =>
    have hon := hm.1 hs
    by_cases hwarm : app.tempHighThreshold.lt (.number value) = true
    · have hcold : (Double.number value).lt app.tempLowThreshold = false := by
        by_contra h
        simp [hone (by simpa using h)] at hwarm
      simp [hs, hwarm, Outcome.andThen, commandHeater_frame] at hsent
      simp [hwarm, hcold, Outcome.andThen, commandHeater_heaterState, hsent]
    · simp [hwarm, hon]

/-! ## One message -/

theorem reading_agrees {transmit : Transmit} {raw : UInt16} {app : AppData}
    (hc : Consistent app) (hm : HeaterMatchesState app) :
    Controlled app ⟨transmit, .tmp100Hk raw⟩ ↔ Undisturbed app ⟨transmit, .tmp100Hk raw⟩ := by
  cases henabled : app.controlEnabled with
  | false =>
    simp [Controlled, TracksTemperature, Undisturbed, henabled, Input.outcome,
      processCommandPacket, processTelemetry]
    exact hm
  | true =>
    let reading : AppData := { app with currentTemperature := temperatureOf raw }
    have hmatches : HeaterMatchesState reading := hm
    have hconsistent : Consistent reading := ⟨hc.disabled, hc.ordered⟩
    obtain ⟨hstate, hheater, henabled', hlow, hhigh, hsent⟩ :=
      reading_enabled transmit raw henabled
    have hafter : HeaterMatchesState (processTelemetry transmit raw app).1 ↔
        ReadingUndisturbed transmit (temperatureOf raw) app := by
      have := controlStep_matches transmit ((raw.toInt16.toInt : Rat) / 16) hmatches
      unfold HeaterMatchesState at this ⊢
      rw [hstate, hheater]
      exact this
    constructor
    · rintro ⟨_, hkept⟩ _
      exact hafter.mp hkept
    · intro hsafe
      have hsafe := hsafe henabled
      refine ⟨?_, hafter.mpr hsafe⟩
      rintro _ ⟨⟩ _ hok
      have hok : ∀ cmd ∈ (processTelemetry transmit raw app).2, transmit cmd = CFE_SUCCESS := hok
      rw [hsent] at hok
      have := controlStep_tracks hconsistent henabled hmatches hsafe hok
      change HeaterFollows _ (processTelemetry transmit raw app).1
      unfold HeaterFollows
      rw [hheater, hhigh, hlow]
      exact this

theorem verifyCmdLength_matches {cmd : GroundCommand} {size : Nat} {accepted : AppData → Outcome}
    {app : AppData} (hm : HeaterMatchesState app) (h : HeaterMatchesState (accepted app).1) :
    HeaterMatchesState (verifyCmdLength cmd size accepted app).1 := by
  unfold verifyCmdLength
  split
  · exact hm
  · exact h

theorem setThresholds_matches {low high : Double} {app : AppData} (hm : HeaterMatchesState app) :
    HeaterMatchesState (setThresholds low high app) := by
  unfold setThresholds
  split
  · exact hm
  · split <;> exact hm

/-- An override moves the heater away from the state exactly when it reaches the EPS and the
state stands for the opposite. -/
theorem override_matches {transmit : Transmit} {cmd : GroundCommand} {app : AppData}
    (turnOn : Bool) (hm : HeaterMatchesState app) :
    HeaterMatchesState (verifyCmdLength cmd noArgsSize
        (fun app => countCmd (commandHeater transmit turnOn app)) app).1 ↔
      (app.state = (if turnOn then .cooling else .heating) →
        ¬ (cmd.size = noArgsSize ∧ transmit (switchCmd turnOn app) = CFE_SUCCESS)) := by
  by_cases hsize : cmd.size = noArgsSize
  · by_cases hsent : transmit (switchCmd turnOn app) = CFE_SUCCESS
    · cases turnOn <;>
        simp [verifyCmdLength, hsize, hsent, HeaterMatchesState, countCmd, Outcome.andThen,
          commandHeater_frame, commandHeater_heaterState]
    · have hfail : HeaterMatchesState (countCmd (commandHeater transmit turnOn app)).1 := by
        simpa [HeaterMatchesState, countCmd, Outcome.andThen, commandHeater_frame,
          commandHeater_heaterState, hsent] using hm
      simp [verifyCmdLength, hsize, hsent, hfail]
  · have hfail : HeaterMatchesState { app with errCounter := app.errCounter + 1 } := hm
    simp [verifyCmdLength, Ne.symm hsize, hsize, hfail]

theorem groundCommand_agrees {transmit : Transmit} {cmd : GroundCommand} {app : AppData}
    (hm : HeaterMatchesState app) :
    Controlled app ⟨transmit, .groundCommand cmd⟩ ↔
      Undisturbed app ⟨transmit, .groundCommand cmd⟩ := by
  have htelemetry : TracksTemperature app ⟨transmit, .groundCommand cmd⟩ := by
    rintro raw ⟨⟩
  simp only [Controlled, htelemetry, true_and, Undisturbed, Overrides, Input.outcome,
    processCommandPacket, processGroundCommand]
  split
  case h_1 hcode => simpa [hcode] using verifyCmdLength_matches hm hm
  case h_2 hcode => simpa [hcode] using verifyCmdLength_matches hm hm
  case h_3 hcode =>
    simpa [hcode] using verifyCmdLength_matches hm
      (by simp [HeaterMatchesState, countCmd, Outcome.andThen, enableControl])
  case h_4 hcode =>
    simpa [hcode] using verifyCmdLength_matches hm
      (by simp [HeaterMatchesState, countCmd, Outcome.andThen, disableControl])
  case h_5 hcode =>
    simpa [hcode] using verifyCmdLength_matches hm (setThresholds_matches hm)
  case h_6 hcode => simpa [hcode] using override_matches true hm
  case h_7 hcode => simpa [hcode] using override_matches false hm
  case h_8 hcode =>
    have hon : cmd.fcnCode ≠ 5 := by assumption
    have hoff : cmd.fcnCode ≠ 6 := by assumption
    exact iff_of_true hm (by simp [hon, hoff])

theorem message_agrees {input : Input} {app : AppData} (hc : Consistent app)
    (hm : HeaterMatchesState app) : Controlled app input ↔ Undisturbed app input := by
  obtain ⟨transmit, msg⟩ := input
  cases msg with
  | tmp100Hk raw => exact reading_agrees hc hm
  | groundCommand cmd => exact groundCommand_agrees hm
  | sendHk | other => exact iff_of_true ⟨by rintro raw ⟨⟩, hm⟩ trivial

/-! ## Runs -/

theorem controlStep_disabled (transmit : Transmit) (temperature : Double) (app : AppData) :
    (controlStep transmit temperature app).1.state = .disabled ↔ app.state = .disabled := by
  unfold controlStep
  cases hs : app.state with
  | disabled => simp [hs]
  | idle | heating | cooling =>
    dsimp only
    split <;> simp [Outcome.andThen, hs]

theorem Consistent.setThresholds {low high : Double} {app : AppData} (hc : Consistent app) :
    Consistent (setThresholds low high app) := by
  unfold Thermal.setThresholds
  split
  · exact ⟨hc.disabled, hc.ordered⟩
  · rename_i hordered
    split
    · exact ⟨hc.disabled, hc.ordered⟩
    · exact ⟨hc.disabled, by simpa using hordered⟩

theorem Consistent.commandHeater {transmit : Transmit} {turnOn : Bool} {app : AppData}
    (hc : Consistent app) : Consistent (countCmd (commandHeater transmit turnOn app)).1 where
  disabled := by simpa [countCmd, Outcome.andThen, commandHeater_frame] using hc.disabled
  ordered := by simpa [countCmd, Outcome.andThen, commandHeater_frame] using hc.ordered

theorem Consistent.verifyCmdLength {cmd : GroundCommand} {size : Nat}
    {accepted : AppData → Outcome} {app : AppData} (hc : Consistent app)
    (h : Consistent (accepted app).1) : Consistent (verifyCmdLength cmd size accepted app).1 := by
  unfold Thermal.verifyCmdLength
  split
  · exact ⟨hc.disabled, hc.ordered⟩
  · exact h

theorem Consistent.reading {transmit : Transmit} {raw : UInt16} {app : AppData}
    (hc : Consistent app) : Consistent (processTelemetry transmit raw app).1 := by
  cases henabled : app.controlEnabled with
  | false =>
    simp only [processTelemetry, henabled, Bool.false_eq_true, if_false]
    exact ⟨by simpa [henabled] using hc.disabled, hc.ordered⟩
  | true =>
    obtain ⟨hstate, _, henabled', hlow, hhigh, _⟩ :=
      reading_enabled transmit raw henabled
    refine ⟨?_, by rw [hlow, hhigh]; exact hc.ordered⟩
    rw [hstate, henabled', controlStep_disabled]
    exact hc.disabled

theorem Consistent.outcome {input : Input} {app : AppData} (hc : Consistent app) :
    Consistent (input.outcome app).1 := by
  obtain ⟨transmit, msg⟩ := input
  cases msg with
  | sendHk | other => exact hc
  | tmp100Hk raw => exact hc.reading
  | groundCommand cmd =>
    have hplain : ∀ app : AppData, Consistent app → Consistent (countCmd (app, [])).1 :=
      fun app hc => ⟨hc.disabled, hc.ordered⟩
    simp only [Input.outcome, processCommandPacket, processGroundCommand]
    split
    case h_1 => exact hc.verifyCmdLength (hplain app hc)
    case h_2 => exact hc.verifyCmdLength ⟨hc.disabled, hc.ordered⟩
    case h_3 => exact hc.verifyCmdLength (hplain _ ⟨by simp [enableControl], hc.ordered⟩)
    case h_4 => exact hc.verifyCmdLength (hplain _ ⟨by simp [disableControl], hc.ordered⟩)
    case h_5 => exact hc.verifyCmdLength (hplain _ hc.setThresholds)
    case h_6 | h_7 => exact hc.verifyCmdLength hc.commandHeater
    case h_8 => exact ⟨hc.disabled, hc.ordered⟩

/-- The heater follows the temperature, and the state the heater, through every message of a
run exactly when no message of the run is disturbed. -/
theorem heater_follows_temperature_iff (inputs : List Input) :
    control.Along Controlled {} inputs ↔ control.Along Undisturbed {} inputs := by
  refine Machine.along_congr (fun app => Consistent app ∧ HeaterMatchesState app)
    (fun app input h => message_agrees h.1 h.2) ?_ inputs
    ⟨Consistent.start, HeaterMatchesState.start⟩
  rintro app input after ⟨hc, hm⟩ hsafe hnext
  cases hnext
  exact ⟨hc.outcome, ((message_agrees hc hm).mpr hsafe).2⟩

/-- Every EPS command is sent. -/
private def sent (msg : Message) : Input := ⟨fun _ => CFE_SUCCESS, msg⟩

/-- 0 °C turns the heater on; disabling and enabling control forgets it, and 30 °C leaves it
on for as long as it stays warm. -/
theorem heater_left_on : ¬ ∀ inputs : List Input, control.Along Controlled {} inputs := by
  intro h
  obtain ⟨_, h⟩ := h [sent (.tmp100Hk 0), sent (.groundCommand ⟨3, 8, .nan, .nan⟩),
    sent (.groundCommand ⟨2, 8, .nan, .nan⟩), sent (.tmp100Hk 480)]
  obtain ⟨_, h⟩ := h _ rfl
  obtain ⟨_, h⟩ := h _ rfl
  obtain ⟨hlast, _⟩ := h _ rfl
  have hoff := (hlast.1 480 rfl (by decide +kernel) fun _ _ => rfl).1 (by decide +kernel)
  exact absurd hoff (by decide +kernel)

end Nos3.Thermal
