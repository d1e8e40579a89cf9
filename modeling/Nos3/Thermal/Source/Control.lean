import Nos3.Base.BigEndian
import Mathlib.Data.Rat.Defs
import Mathlib.Algebra.Order.Ring.Rat

/-!
# Thermal control application

The message loop of the application: TMP100 telemetry runs the hysteresis
algorithm, ground commands enable, disable and override it. A routine gives the
application data after it and the EPS commands it handed to the software bus;
`transmit` is the status `CFE_SB_TransmitMsg` returns for one of them.
-/
namespace Nos3.Thermal

/-- What a `double`, or a `float` widened to one, holds. -/
inductive Double
  | nan
  | negInf
  | number (value : Rat)
  | posInf
  deriving DecidableEq

/-- The C comparison `a < b`: false where an operand is no number. -/
def Double.lt : Double → Double → Bool
  | .nan, _ | _, .nan => false
  | .number a, .number b => decide (a < b)
  | .negInf, .negInf | .posInf, .posInf => false
  | .negInf, _ | _, .posInf => true
  | _, .negInf | .posInf, _ => false

/-- The C comparison `a >= b`. -/
def Double.ge : Double → Double → Bool
  | .nan, _ | _, .nan => false
  | a, b => !a.lt b

def THERMAL_TEMP_LOW_THRESHOLD : Double := .number 20
def THERMAL_TEMP_HIGH_THRESHOLD : Double := .number 25
def THERMAL_HEATER_EPS_SWITCH : UInt8 := 1

/-- `THERMAL_STATE_DISABLED` and the states that follow it. -/
inductive ThermalState
  | disabled
  | idle
  | heating
  | cooling
  deriving DecidableEq, Repr

structure AppData where
  cmdCounter : UInt8 := 0
  errCounter : UInt8 := 0
  state : ThermalState := .idle
  currentTemperature : Double := .number 0
  heaterState : Bool := false
  controlEnabled : Bool := true
  tempLowThreshold : Double := THERMAL_TEMP_LOW_THRESHOLD
  tempHighThreshold : Double := THERMAL_TEMP_HIGH_THRESHOLD
  heaterEpsSwitch : UInt8 := THERMAL_HEATER_EPS_SWITCH
  heaterOnCount : UInt32 := 0
  heaterOffCount : UInt32 := 0

/-- The payload of `GENERIC_EPS_Switch_cmd_t`. -/
structure SwitchCmd where
  switchNumber : UInt8
  state : UInt8
  deriving DecidableEq, Repr

def CFE_SUCCESS : Int := 0

abbrev Transmit := SwitchCmd → Int

abbrev Outcome := AppData × List SwitchCmd

/-- Goes on with the application data. -/
def Outcome.andThen (outcome : Outcome) (f : AppData → AppData) : Outcome :=
  (f outcome.1, outcome.2)

/-- The command `commandHeater` builds. -/
def switchCmd (turnOn : Bool) (app : AppData) : SwitchCmd where
  switchNumber := app.heaterEpsSwitch
  state := if turnOn then 0xAA else 0x00

def commandHeater (transmit : Transmit) (turnOn : Bool) (app : AppData) : Outcome :=
  if transmit (switchCmd turnOn app) = CFE_SUCCESS then
    ({ app with heaterState := turnOn }, [switchCmd turnOn app])
  else ({ app with errCounter := app.errCounter + 1 }, [switchCmd turnOn app])

/-- The end of the control loop, where changes of the heater are counted. -/
def trackHeater (prevHeaterState : Bool) (app : AppData) : AppData :=
  if app.heaterState ≠ prevHeaterState then
    if app.heaterState then { app with heaterOnCount := app.heaterOnCount + 1 }
    else { app with heaterOffCount := app.heaterOffCount + 1 }
  else app

/-- The switch over `State`. -/
def controlStep (transmit : Transmit) (temperature : Double) (app : AppData) : Outcome :=
  match app.state with
  | .idle | .cooling =>
    if temperature.lt app.tempLowThreshold then
      (commandHeater transmit true app).andThen fun app => { app with state := .heating }
    else ({ app with state := .cooling }, [])
  | .heating =>
    if app.tempHighThreshold.lt temperature then
      (commandHeater transmit false app).andThen fun app => { app with state := .cooling }
    else (app, [])
  | .disabled => (app, [])

def updateControlLoop (transmit : Transmit) (temperature : Double) (app : AppData) : Outcome :=
  (controlStep transmit temperature app).andThen (trackHeater app.heaterState)

/-- The register read as an `int16_t`, in steps of 0.0625. -/
def temperatureOf (temperatureRaw : UInt16) : Double :=
  .number ((temperatureRaw.toInt16.toInt : Rat) / 16)

def processTelemetry (transmit : Transmit) (temperatureRaw : UInt16) (app : AppData) : Outcome :=
  if app.controlEnabled then
    updateControlLoop transmit (temperatureOf temperatureRaw)
      { app with currentTemperature := temperatureOf temperatureRaw }
  else ({ app with currentTemperature := temperatureOf temperatureRaw }, [])

def enableControl (app : AppData) : AppData :=
  { app with controlEnabled := true, state := .idle }

def disableControl (app : AppData) : AppData :=
  { app with controlEnabled := false, state := .disabled }

def setThresholds (low high : Double) (app : AppData) : AppData :=
  if low.ge high then { app with errCounter := app.errCounter + 1 }
  else if low.lt (.number (-40)) ∨ (Double.number 125).lt high then
    { app with errCounter := app.errCounter + 1 }
  else { app with tempLowThreshold := low, tempHighThreshold := high }

def resetCounters (app : AppData) : AppData :=
  { app with cmdCounter := 0, errCounter := 0, heaterOnCount := 0, heaterOffCount := 0 }

/-- A command packet: the two thresholds are read where the code asks for them. -/
structure GroundCommand where
  fcnCode : Nat
  size : Nat
  lowThreshold : Double := .number 0
  highThreshold : Double := .number 0

def noArgsSize : Nat := 8
def setThresholdsSize : Nat := 16

def countCmd (outcome : Outcome) : Outcome :=
  outcome.andThen fun app => { app with cmdCounter := app.cmdCounter + 1 }

/-- `THERMAL_VerifyCmdLength` in front of what an accepted command does. -/
def verifyCmdLength (cmd : GroundCommand) (expectedLength : Nat) (accepted : AppData → Outcome)
    (app : AppData) : Outcome :=
  if expectedLength ≠ cmd.size then ({ app with errCounter := app.errCounter + 1 }, [])
  else accepted app

/-- The function codes are `THERMAL_NOOP_CC`, `THERMAL_RESET_COUNTERS_CC`, `THERMAL_ENABLE_CC`,
`THERMAL_DISABLE_CC`, `THERMAL_SET_THRESHOLDS_CC`, `THERMAL_HEATER_OVERRIDE_ON_CC` and
`THERMAL_HEATER_OVERRIDE_OFF_CC`, from 0 on. -/
def processGroundCommand (transmit : Transmit) (cmd : GroundCommand) (app : AppData) : Outcome :=
  match cmd.fcnCode with
  | 0 => verifyCmdLength cmd noArgsSize (fun app => countCmd (app, [])) app
  | 1 => verifyCmdLength cmd noArgsSize (fun app => (resetCounters app, [])) app
  | 2 => verifyCmdLength cmd noArgsSize (fun app => countCmd (enableControl app, [])) app
  | 3 => verifyCmdLength cmd noArgsSize (fun app => countCmd (disableControl app, [])) app
  | 4 =>
    verifyCmdLength cmd setThresholdsSize
      (fun app => countCmd (setThresholds cmd.lowThreshold cmd.highThreshold app, [])) app
  | 5 => verifyCmdLength cmd noArgsSize (fun app => countCmd (commandHeater transmit true app)) app
  | 6 => verifyCmdLength cmd noArgsSize (fun app => countCmd (commandHeater transmit false app)) app
  | _ => ({ app with errCounter := app.errCounter + 1 }, [])

/-- A message on the command pipe, by its message id. -/
inductive Message
  | groundCommand (cmd : GroundCommand)
  | sendHk
  | tmp100Hk (temperatureRaw : UInt16)
  | other

/-- A housekeeping request and an unknown message id only report. -/
def processCommandPacket (transmit : Transmit) (msg : Message) (app : AppData) : Outcome :=
  match msg with
  | .groundCommand cmd => processGroundCommand transmit cmd app
  | .tmp100Hk temperatureRaw => processTelemetry transmit temperatureRaw app
  | .sendHk | .other => (app, [])

end Nos3.Thermal

/-!
## TMP100 temperature sensor

The simulated sensor keeps its temperature in the upper twelve bits of a 16-bit
register, in steps of 0.0625 °C. The driver reads registers over I2C and the
TMP100 application reports them in its housekeeping packet. A `double` that the
sensor works with is a rational here; `ok` tells which I2C transactions succeed.
-/
namespace Nos3.Thermal
open Nos3.Base.BigEndian

abbrev Word := BitVec 16

/-! ## The simulator -/

/-- Conversion of a `double` to an integer, which drops the fraction. -/
def truncate (q : Rat) : Int := q.num.tdiv q.den

def temperatureToRegister (tempCelsius : Rat) : Word :=
  let adcCode : Word := BitVec.ofInt 16 (truncate (tempCelsius / (1 / 16)))
  adcCode <<< 4

def TMP100_REG_TEMPERATURE : Octet := 0x00
def TMP100_REG_CONFIG : Octet := 0x01
def TMP100_REG_TLOW : Octet := 0x02
def TMP100_REG_THIGH : Octet := 0x03

/-- `dataPoint` is what the data provider answers, if there is one. -/
structure Tmp100Model where
  pointerRegister : Octet := TMP100_REG_TEMPERATURE
  currentTemperature : Rat
  temperatureRegister : Word
  configRegister : Octet := 0x60
  tlowRegister : Word
  thighRegister : Word
  enabled : Bool := true
  dataPoint : Option Rat
  register_eq : temperatureRegister = temperatureToRegister currentTemperature

/-- The simulator as its constructor leaves it, with a data provider. -/
def Tmp100Model.start (dataPoint : Option Rat) : Tmp100Model where
  currentTemperature := 25
  temperatureRegister := temperatureToRegister 25
  tlowRegister := temperatureToRegister 75
  thighRegister := temperatureToRegister 80
  dataPoint := dataPoint
  register_eq := rfl

def readWordOf (msb lsb : Octet) : Word := (msb.setWidth 16 <<< 8) ||| lsb.setWidth 16

/-- A write transaction sets the pointer and, where octets follow, a register. -/
def determineI2cResponse (sim : Tmp100Model) (inData : List Octet) : Tmp100Model :=
  if !sim.enabled then sim
  else
    match inData with
    | [pointer] => { sim with pointerRegister := pointer &&& 0x03 }
    | [pointer, value] =>
      let sim := { sim with pointerRegister := pointer &&& 0x03 }
      if sim.pointerRegister = TMP100_REG_CONFIG then { sim with configRegister := value } else sim
    | [pointer, msb, lsb] =>
      let sim := { sim with pointerRegister := pointer &&& 0x03 }
      if sim.pointerRegister = TMP100_REG_TLOW then { sim with tlowRegister := readWordOf msb lsb }
      else if sim.pointerRegister = TMP100_REG_THIGH then
        { sim with thighRegister := readWordOf msb lsb }
      else sim
    | _ => sim

/-- Reading the temperature register asks the data provider first. -/
def Tmp100Model.sense (sim : Tmp100Model) : Tmp100Model :=
  match sim.dataPoint with
  | some x =>
    { sim with
      currentTemperature := x
      temperatureRegister := temperatureToRegister x
      register_eq := rfl }
  | none => sim

/-- The two octets of a signed register; the shift keeps the sign. -/
def registerOctets (register : Word) : Octet × Octet :=
  ((register.sshiftRight 8).setWidth 8, register.setWidth 8)

def i2cRead (sim : Tmp100Model) : (Octet × Octet) × Tmp100Model :=
  if sim.pointerRegister = TMP100_REG_TEMPERATURE then
    let sim := sim.sense
    (registerOctets sim.temperatureRegister, sim)
  else if sim.pointerRegister = TMP100_REG_CONFIG then ((sim.configRegister, 0x00), sim)
  else if sim.pointerRegister = TMP100_REG_TLOW then (registerOctets sim.tlowRegister, sim)
  else if sim.pointerRegister = TMP100_REG_THIGH then (registerOctets sim.thighRegister, sim)
  else ((0x00, 0x00), sim)

/-! ## The driver -/

/-- `TMP100_Device_HK_tlm_t`. -/
structure DeviceHk where
  temperatureRaw : Word := 0
  configRegister : Word := 0
  tlowRegister : Word := 0
  thighRegister : Word := 0
  deriving DecidableEq, Repr

/-- `i2c_master_transaction` that writes the pointer and reads two octets. -/
def i2cMasterTransaction (ok : Bool) (sim : Tmp100Model) (pointer : Octet) :
    Option (Octet × Octet) × Tmp100Model :=
  if ok then
    let (octets, sim) := i2cRead (determineI2cResponse sim [pointer])
    (some octets, sim)
  else (none, sim)

/-- One transaction, whose word goes to `store` if it succeeded. -/
def readRegister (ok : Bool) (pointer : Octet) (store : DeviceHk → Word → DeviceHk)
    (data : DeviceHk) (sim : Tmp100Model) : Bool × DeviceHk × Tmp100Model :=
  match i2cMasterTransaction ok sim pointer with
  | (some (msb, lsb), sim) => (true, store data (readWordOf msb lsb), sim)
  | (none, sim) => (false, data, sim)

/-- `TMP100_ReadTemperature`; the result is whether the status is `OS_SUCCESS`. -/
def readTemperature (ok : Bool) (data : DeviceHk) (sim : Tmp100Model) :
    Bool × DeviceHk × Tmp100Model :=
  readRegister ok TMP100_REG_TEMPERATURE (fun data word => { data with temperatureRaw := word })
    data sim

/-- `TMP100_ReadAllRegisters`; the status is that of the last transaction. -/
def readAllRegisters (ok : Octet → Bool) (data : DeviceHk) (sim : Tmp100Model) :
    Bool × DeviceHk × Tmp100Model :=
  let (_, data, sim) := readRegister (ok TMP100_REG_TEMPERATURE) TMP100_REG_TEMPERATURE
    (fun data word => { data with temperatureRaw := word }) data sim
  let (_, data, sim) := readRegister (ok TMP100_REG_CONFIG) TMP100_REG_CONFIG
    (fun data word => { data with configRegister := word }) data sim
  let (_, data, sim) := readRegister (ok TMP100_REG_TLOW) TMP100_REG_TLOW
    (fun data word => { data with tlowRegister := word }) data sim
  readRegister (ok TMP100_REG_THIGH) TMP100_REG_THIGH
    (fun data word => { data with thighRegister := word }) data sim

/-- `TMP100_RawToCelsius`. -/
def rawToCelsius (rawTemp : Word) : Rat := ((rawTemp.sshiftRight 4).toInt : Rat) * (1 / 16)

/-! ## The application -/

/-- `TMP100_ReportHousekeeping`: the device part of the packet it transmits. -/
def reportHousekeeping (deviceEnabled : Bool) (ok : Octet → Bool) (deviceHk : DeviceHk)
    (sim : Tmp100Model) : DeviceHk × Tmp100Model :=
  if deviceEnabled then
    let (_, deviceHk, sim) := readAllRegisters ok deviceHk sim
    (deviceHk, sim)
  else (deviceHk, sim)

end Nos3.Thermal
