import Nos3.Base.BigEndian
import Mathlib.Algebra.GroupWithZero.Nat
import Mathlib.Data.List.FinRange
import Mathlib.Logic.Function.Iterate
import Mathlib.Data.Rat.Floor
import Mathlib.Algebra.Order.Ring.Rat

/-!
# EPS housekeeping over I2C

`createGenericEpsData` is the simulator's side of the bus, `requestHK` the flight
software's. Both compute the same CRC-8. The I2C transaction itself is left out:
`requestHK` gets the octets that arrived.
-/
namespace Nos3.Eps
open Nos3.Base.BigEndian

abbrev Word := BitVec 16

/-! ## The CRC -/

/-- One round of the inner loop. -/
def crc8Bit (crc : Octet) : Octet :=
  if crc &&& 0x80 ≠ 0 then (crc <<< 1) ^^^ 0x31 else crc <<< 1

/-- One round of the outer loop. -/
def crc8Octet (crc octet : Octet) : Octet := crc8Bit^[8] (crc ^^^ octet)

/-- `generic_eps_crc8` of the simulator. -/
def genericEpsCrc8 (crcData : List Octet) (crcSize : Nat) : Octet :=
  (crcData.take crcSize).foldl crc8Octet 0xFF

/-- `GENERIC_EPS_CRC8` of the flight software. -/
def GENERIC_EPS_CRC8 (payload : List Octet) (length : Nat) : Octet :=
  (payload.take length).foldl crc8Octet 0xFF

/-! ## The simulator -/

/-- `EPS_Rail`. -/
structure EpsRail where
  voltage : Word
  current : Word
  status : Word
  temperature : Word
  deriving DecidableEq, Repr, Inhabited

scoped instance fiveBuses : NeZero 5 := ⟨by decide⟩

/-- The buses are the battery, 3.3 V, 5.0 V, 12.0 V and the solar array. -/
structure EpsModel where
  bus : Fin 5 → EpsRail
  switch : Fin 8 → EpsRail
  initializedOtherSims : Bool

/-- The first request settles the switches that were configured to be on. -/
def initializeSwitch (rail : EpsRail) : EpsRail :=
  if rail.status &&& 0x00AA = 0x00AA then { rail with status := 0x00AA } else rail

def initializeOtherSims (eps : EpsModel) : EpsModel :=
  if eps.initializedOtherSims then eps
  else { eps with switch := fun i => initializeSwitch (eps.switch i), initializedOtherSims := true }

def wordOctets (v : Word) : List Octet := [(v >>> 8).setWidth 8, v.setWidth 8]

def EpsRail.isOn (rail : EpsRail) : Bool := rail.status &&& 0x00FF == 0x00AA

def switchOctets (rail : EpsRail) : List Octet :=
  (if rail.isOn then wordOctets rail.voltage ++ wordOctets rail.current
    else [0x00, 0x00, 0x00, 0x00]) ++ wordOctets rail.status

/-- The octets before the CRC. -/
def telemetryOctets (eps : EpsModel) : List Octet :=
  wordOctets (eps.bus 0).voltage ++ wordOctets (eps.bus 0).temperature ++
  wordOctets (eps.bus 1).voltage ++ wordOctets (eps.bus 2).voltage ++
  wordOctets (eps.bus 3).voltage ++
  -- the EPS temperature
  wordOctets (eps.bus 3).voltage ++
  wordOctets (eps.bus 4).voltage ++ wordOctets (eps.bus 4).temperature ++
  (List.finRange 8).flatMap fun i => switchOctets (eps.switch i)

/-- The result is `out_data`. -/
def createGenericEpsData (eps : EpsModel) : EpsModel × List Octet :=
  let eps := initializeOtherSims eps
  let outData := telemetryOctets eps
  (eps, outData ++ [genericEpsCrc8 outData 64])

/-! ## The flight software -/

/-- `GENERIC_EPS_Switch_tlm_t`. -/
structure SwitchTlm where
  voltage : Word
  current : Word
  status : Word
  deriving DecidableEq, Repr, Inhabited

/-- `GENERIC_EPS_Device_HK_tlm_t`. -/
structure DeviceHk where
  batteryVoltage : Word
  batteryTemperature : Word
  bus3p3Voltage : Word
  bus5p0Voltage : Word
  bus12Voltage : Word
  epsTemperature : Word
  solarArrayVoltage : Word
  solarArrayTemperature : Word
  switch : Fin 8 → SwitchTlm
  deriving Inhabited

def GENERIC_EPS_DEVICE_HK_LEN : Nat := 64

def OS_SUCCESS : Int := 0
def OS_ERROR : Int := -1

/-- `read_data[i] << 8 | read_data[i + 1]`. -/
def readWord (readData : List Octet) (i : Nat) : Word :=
  ((readData.getD i 0).setWidth 16 <<< 8) ||| (readData.getD (i + 1) 0).setWidth 16

def readSwitch (readData : List Octet) (offset : Nat) : SwitchTlm where
  voltage := readWord readData offset
  current := readWord readData (offset + 2)
  status := readWord readData (offset + 4)

/-- What `requestHK` makes of a telemetry packet whose CRC is right. -/
def interpretHk (readData : List Octet) : DeviceHk where
  batteryVoltage := readWord readData 0
  batteryTemperature := readWord readData 2
  bus3p3Voltage := readWord readData 4
  bus5p0Voltage := readWord readData 6
  bus12Voltage := readWord readData 8
  epsTemperature := readWord readData 10
  solarArrayVoltage := readWord readData 12
  solarArrayTemperature := readWord readData 14
  switch := fun i => readSwitch readData (16 + 6 * i)

/-- `GENERIC_EPS_RequestHK` once the transaction has left its octets in
`read_data`. -/
def requestHK (readData : List Octet) (data : DeviceHk) : Int × DeviceHk :=
  let calcCrc := GENERIC_EPS_CRC8 readData GENERIC_EPS_DEVICE_HK_LEN
  if calcCrc = readData.getD GENERIC_EPS_DEVICE_HK_LEN 0 then (OS_SUCCESS, interpretHk readData)
  else (OS_ERROR, data)

end Nos3.Eps

/-!
## EPS switch commands over I2C

The simulator on the bus with the messages it sends to the nodes of the other simulators. A
transaction delivers the octets written and then the reply.
-/
namespace Nos3.Eps
open Nos3.Base.BigEndian
open Function (update)

/-- The simulator with its connection to the bus. -/
structure Simulator where
  eps : EpsModel
  enabled : Bool := true
  nodeName : Fin 8 → String
  sent : List (String × String) := []
  i2cReadValid : Bool := false
  i2cOutData : List Octet := []

/-! ## The simulator -/

def EpsModel.setStatus (eps : EpsModel) (sw : Fin 8) (swStatus : Octet) : EpsModel :=
  { eps with
    switch := update eps.switch sw { eps.switch sw with status := swStatus.setWidth 16 } }

def epsSwitchUpdate (swNum swStatus : Octet) (s : Simulator) : Simulator :=
  if h : swNum.toNat < 8 then
    if swStatus = 0x00 ∨ swStatus = 0xAA then
      let message := if swStatus = 0x00 then "DISABLE" else "ENABLE"
      { s with
        sent := s.sent ++ [(s.nodeName ⟨swNum.toNat, h⟩, message)]
        eps := s.eps.setStatus ⟨swNum.toNat, h⟩ swStatus }
    else s
  else s

/-- The announcement of the switches that are on. -/
def announcements (s : Simulator) : List (String × String) :=
  if s.eps.initializedOtherSims then []
  else ((List.finRange 8).filter fun i => (s.eps.switch i).status &&& 0x00AA == 0x00AA).map
    fun i => (s.nodeName i, "ENABLE")

/-- `create_generic_eps_data` into the octets of the connection. -/
def createReply (s : Simulator) : Simulator :=
  { s with
    eps := (createGenericEpsData s.eps).1
    sent := s.sent ++ announcements s
    i2cOutData := (createGenericEpsData s.eps).2 }

/-- The result is whether the request is valid. -/
def determineI2cResponseForRequest (inData : List Octet) (s : Simulator) : Bool × Simulator :=
  if s.enabled = false then (false, s)
  else if inData.length ≠ 3 then (false, s)
  else if inData.getD 2 0 ≠ genericEpsCrc8 inData 2 then (false, s)
  else if (inData.getD 0 0).toNat < 8 ∧ ¬(inData.getD 1 0 = 0x00 ∨ inData.getD 1 0 = 0xAA) then
    (false, s)
  else if (inData.getD 0 0).toNat < 8 then
    (true, epsSwitchUpdate (inData.getD 0 0) (inData.getD 1 0) s)
  else if inData.getD 0 0 = 0x70 then (true, createReply s)
  else if inData.getD 0 0 = 0xAA then (true, s)
  else (false, s)

def i2cWrite (wbuf : List Octet) (s : Simulator) : Simulator :=
  let response := determineI2cResponseForRequest wbuf s
  { response.2 with i2cReadValid := response.1 }

def i2cRead (rlen : Nat) (s : Simulator) : List Octet :=
  if s.i2cReadValid then (List.range rlen).map fun i => s.i2cOutData.getD i 0
  else List.replicate rlen 0x00

/-! ## The flight software -/

def i2cMasterTransaction (txbuf : List Octet) (rxlen : Nat) (s : Simulator) :
    List Octet × Simulator :=
  let s := i2cWrite txbuf s
  (i2cRead rxlen s, s)

def command (cmd value : Octet) : List Octet := [cmd, value, GENERIC_EPS_CRC8 [cmd, value, 0] 2]

/-- The status of the transaction is ignored. -/
def commandDevice (cmd value : Octet) (s : Simulator) : Int × Simulator :=
  if cmd.toNat < 0xAB then (OS_SUCCESS, (i2cMasterTransaction (command cmd value) 0 s).2)
  else (OS_ERROR, s)

structure Reply where
  status : Int
  data : DeviceHk
  sim : Simulator

/-- `GENERIC_EPS_RequestHK` with its transaction. -/
def requestHKFrom (s : Simulator) (data : DeviceHk) : Reply :=
  let reply := i2cMasterTransaction (command 0x70 0) (GENERIC_EPS_DEVICE_HK_LEN + 1) s
  let hk := requestHK reply.1 data
  ⟨hk.1, hk.2, reply.2⟩

def commandSwitch (switchNum value : Octet) (data : DeviceHk) (s : Simulator) : Reply :=
  if h : switchNum.toNat < 8 then
    if value = 0x00 ∨ value = 0xAA then
      let commanded := commandDevice switchNum value s
      if commanded.1 = OS_SUCCESS then
        let hk := requestHKFrom commanded.2 data
        if hk.status = OS_SUCCESS then
          if (hk.data.switch ⟨switchNum.toNat, h⟩).status &&& 0x00FF ≠ value.setWidth 16 then
            { hk with status := OS_ERROR }
          else hk
        else hk
      else ⟨commanded.1, data, commanded.2⟩
    else ⟨OS_ERROR, data, s⟩
  else ⟨OS_ERROR, data, s⟩

end Nos3.Eps

/-!
## The battery of the EPS simulator

A `double` is a rational here. Each time tick integrates what the panels give and what the
rails take; `EpsModel` has the rails, with the battery as the first bus.
-/
namespace Nos3.Eps
open Nos3.Base.BigEndian

/-- What the configuration gives. -/
structure PowerConfig where
  powerPerMainPanel : ℚ
  powerPerSmallPanel : ℚ
  maxBattery : ℚ
  nominalBattVoltage : ℕ
  main_nonneg : 0 ≤ powerPerMainPanel
  small_nonneg : 0 ≤ powerPerSmallPanel
  max_pos : 0 < maxBattery

/-- The panels that can be toggled. -/
inductive Panel
  | posX
  | negX
  | posY
  | negY
  | negZ
  deriving DecidableEq, Repr

structure BatteryModel where
  sim : Simulator
  batteryWatthrs : ℚ
  solarArrayInhibit : Bool := true
  chargeRateModifier : ℚ := 0
  panelInhibit : Panel → Octet := fun _ => 1

/-- A time tick with what the data provider answers in it. -/
structure Tick where
  microseconds : ℕ
  inSun : Bool
  sunVectorX : ℚ
  sunVectorY : ℚ
  sunVectorZ : ℚ
  positive : 0 < microseconds

/-- The part of a sun vector that falls on a panel. -/
def lit (inSun : Bool) (component : ℚ) : ℚ :=
  (if component > 0 then component else 0) * if inSun then 1 else 0

def Tick.svb (tick : Tick) : Panel → ℚ
  | .posX => lit tick.inSun tick.sunVectorX
  | .negX => lit tick.inSun (-1 * tick.sunVectorX)
  | .posY => lit tick.inSun tick.sunVectorY
  | .negY => lit tick.inSun (-1 * tick.sunVectorY)
  | .negZ => lit tick.inSun (-1 * tick.sunVectorZ)

/-- `_voltage/1000.0 * _current/1000.0`. -/
def EpsRail.power (rail : EpsRail) : ℚ := rail.voltage.toNat / 1000 * (rail.current.toNat / 1000)

/-- The loops over the buses and the switches. -/
def powerOut (eps : EpsModel) : ℚ :=
  let pOut := [1, 2, 3].foldl (fun pOut i => pOut + (eps.bus i).power) 0
  (List.finRange 8).foldl
    (fun pOut i => pOut + (eps.switch i).power * if (eps.switch i).status ≠ 0 then 1 else 0) pOut

/-- Both comparisons are made, the second after the first. -/
def inhibitFlag (cfg : PowerConfig) (watthrs : ℚ) (solarArrayInhibit : Bool) : Bool :=
  let flag := if watthrs ≥ cfg.maxBattery then false else solarArrayInhibit
  if watthrs ≤ 99999 / 100000 * cfg.maxBattery then true else flag

/-- The sum over the panels. -/
def powerIn (cfg : PowerConfig) (tick : Tick) (panelInhibit : Panel → Octet) : ℚ :=
  cfg.powerPerMainPanel * tick.svb .posX * (panelInhibit .posX).toNat +
  cfg.powerPerMainPanel * tick.svb .negX * (panelInhibit .negX).toNat +
  cfg.powerPerMainPanel * tick.svb .posY * (panelInhibit .posY).toNat +
  cfg.powerPerMainPanel * tick.svb .negY * (panelInhibit .negY).toNat +
  cfg.powerPerSmallPanel * tick.svb .negZ * (panelInhibit .negZ).toNat

/-- The voltage of the battery in millivolts, linear and 5 % about the nominal voltage. -/
def battVoltage (cfg : PowerConfig) (watthrs : ℚ) : ℚ :=
  let battMinVoltage := 95 / 100 * (cfg.nominalBattVoltage : ℚ)
  let battDiff := 1 / 10 * (cfg.nominalBattVoltage : ℚ)
  1000 * (battMinVoltage + battDiff * (watthrs / cfg.maxBattery))

/-- Conversion of a `double` to an `uint16_t`: the fraction is dropped. -/
def toUint16 (q : ℚ) : Word := BitVec.ofInt 16 (q.num.tdiv q.den)

def EpsModel.setBatteryVoltage (eps : EpsModel) (voltage : Word) : EpsModel :=
  { eps with bus := Function.update eps.bus 0 { eps.bus 0 with voltage := voltage } }

def updateBatteryValues (cfg : PowerConfig) (tick : Tick) (m : BatteryModel) : BatteryModel :=
  let pOut := powerOut m.sim.eps
  let flag := inhibitFlag cfg m.batteryWatthrs m.solarArrayInhibit
  let pIn := powerIn cfg tick m.panelInhibit * if flag then 1 else 0
  let deltaP := (tick.microseconds : ℚ) / 1000000 * ((pIn - pOut) + m.chargeRateModifier)
  let watthrs := m.batteryWatthrs + deltaP / 3600
  { m with
    sim := { m.sim with
      eps := m.sim.eps.setBatteryVoltage (toUint16 (battVoltage cfg watthrs)) }
    batteryWatthrs := watthrs
    solarArrayInhibit := flag }

/-- What happens to the simulator: a time tick, the update of a switch, a panel toggled. -/
inductive BatteryEvent
  | tick (tick : Tick)
  | switch (swNum swStatus : Octet)
  | toggle (panel : Panel) (state : Octet)

def BatteryModel.handle (cfg : PowerConfig) (m : BatteryModel) : BatteryEvent → BatteryModel
  | .tick tick => updateBatteryValues cfg tick m
  | .switch swNum swStatus => { m with sim := epsSwitchUpdate swNum swStatus m.sim }
  | .toggle panel state =>
    { m with panelInhibit := Function.update m.panelInhibit panel state }

end Nos3.Eps
