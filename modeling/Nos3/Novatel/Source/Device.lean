import Nos3.Base.BigEndian
import Nos3.Base.Strtok

/-!
# Reading the NovAtel OEM615

Both functions read all octets that wait on the UART into a new buffer and pass the rest of it
to a parser when the first token is known to them. A number is kept as the token that `atol`,
`atoi` or `atof` converts, the arithmetic of `double` is left out.
-/
namespace Nos3.Novatel
open Nos3.Base.BigEndian
open Base.Strtok

def OS_SUCCESS : Int := 0
def OS_ERROR : Int := -1

def ascii (text : List Char) : List Octet := text.map fun c => BitVec.ofNat 8 c.toNat

/-- The first token of the two logs that are parsed. -/
def bestXyza : List Octet := ascii ['#', 'B', 'E', 'S', 'T', 'X', 'Y', 'Z', 'A']
def gpgga : List Octet := ascii ['$', 'G', 'P', 'G', 'G', 'A']

def comma : List Octet := ascii [',']
def bestXyzaDelim : List Octet := ascii [',', ';', ' ']

/-! ## The data -/

/-- Zero, what an uninitialized variable has, or the conversion of a token. -/
inductive Value
  | zero
  | undefined
  | of (token : Token Octet)
  deriving DecidableEq, Repr

/-- Degrees and minutes in one number, negated for the direction 'S' or 'W'. -/
structure Angle where
  value : Value
  direction : Value
  deriving DecidableEq, Repr

/-- `NOVATEL_OEM615_Device_Data_tlm_t`. -/
structure DeviceData where
  weeks : Value
  secondsIntoWeek : Value
  fractions : Value
  ecefX : Value
  ecefY : Value
  ecefZ : Value
  velX : Value
  velY : Value
  velZ : Value
  lat : Angle
  lon : Angle
  alt : Value
  deriving DecidableEq, Repr

/-! ## The parsers -/

/-- The value of a field that is reset and assigned from the `n`-th of some calls, unless it
returned `NULL`. -/
def assigned (calls : List (Option (Token Octet))) (n : Nat) : Value :=
  match calls[n - 1]? with
  | some (some token) => .of token
  | _ => .zero

/-- The calls do not depend on what is assigned between them. -/
def parseBestXYZA (saveptr : List Octet) (data : DeviceData) : Option DeviceData :=
  (strtokCalls 0 bestXyzaDelim 22 saveptr).map fun calls =>
    { data with
      weeks := assigned calls 5
      -- the whole part and the rest of one number
      secondsIntoWeek := assigned calls 6
      fractions := assigned calls 6
      ecefX := assigned calls 12
      ecefY := assigned calls 13
      ecefZ := assigned calls 14
      velX := assigned calls 20
      velY := assigned calls 21
      velZ := assigned calls 22 }

/-- `GPGGA_Data_t`, a local variable that is not initialized. -/
structure GpggaData where
  utcTime : Value := .undefined
  latitude : Value := .undefined
  latDirection : Value := .undefined
  longitude : Value := .undefined
  lonDirection : Value := .undefined
  fixQuality : Value := .undefined
  numSatellites : Value := .undefined
  hdop : Value := .undefined
  altitude : Value := .undefined
  altitudeUnits : Value := .undefined
  geoidSeparation : Value := .undefined
  geoidUnits : Value := .undefined
  dgpsAge : Value := .undefined
  dgpsStationId : Value := .undefined

/-- The `switch` of the loop. -/
def GpggaData.assign (data : GpggaData) (field : Nat) (token : Token Octet) : GpggaData :=
  match field with
  | 1 => { data with utcTime := .of token }
  | 2 => { data with latitude := .of token }
  | 3 => { data with latDirection := .of token }
  | 4 => { data with longitude := .of token }
  | 5 => { data with lonDirection := .of token }
  | 6 => { data with fixQuality := .of token }
  | 7 => { data with numSatellites := .of token }
  | 8 => { data with hdop := .of token }
  | 9 => { data with altitude := .of token }
  | 10 => { data with altitudeUnits := .of token }
  | 11 => { data with geoidSeparation := .of token }
  | 12 => { data with geoidUnits := .of token }
  | 13 => { data with dgpsAge := .of token }
  | 14 => { data with dgpsStationId := .of token }
  | _ => data

/-- One round of the loop, with the number of the field before. -/
def gpggaRound (loop : Nat × GpggaData) (token : Token Octet) : Nat × GpggaData :=
  (loop.1 + 1, loop.2.assign (loop.1 + 1) token)

def parseBestGPGGA (saveptr : List Octet) (data : DeviceData) : Option DeviceData :=
  (foldTokens 0 comma gpggaRound (0, {}) saveptr).map fun loop =>
    { data with
      lat := ⟨loop.2.latitude, loop.2.latDirection⟩
      lon := ⟨loop.2.longitude, loop.2.lonDirection⟩
      alt := loop.2.altitude }

/-! ## The readers -/

/-- What the UART answers, the second with the octets it delivers. -/
structure Uart where
  bytesAvailable : Int
  readPort : Nat → Int × List Octet

/-- The new buffer after the read: `calloc` clears it, and the read writes no more than it is
asked for. -/
def Uart.buffer (uart : Uart) : List Octet :=
  let size := uart.bytesAvailable.toNat
  let received := (uart.readPort size).2.take size
  received ++ List.replicate (size - received.length) 0

/-- With the number of buffers that were allocated, and of calls that freed them. -/
structure Returned where
  status : Int
  data : DeviceData
  allocated : Nat
  freed : Nat

abbrev Parser := List Octet → DeviceData → Option DeviceData

/-- The function up to the comparisons of the first token with the logs it knows. There is no
result when an octet behind the buffer is read. -/
def readLog (parsers : List (List Octet × Parser)) (uart : Uart) (data : DeviceData) :
    Option Returned :=
  if 0 < uart.bytesAvailable then
    if (uart.readPort uart.bytesAvailable.toNat).1 ≠ uart.bytesAvailable then
      some ⟨OS_ERROR, data, 1, 1⟩
    else
      (strtokR 0 comma uart.buffer).bind fun call =>
        match call.1.bind fun token => parsers.find? fun p => p.1.isPrefixOf token.text with
        | some parser => (parser.2 call.2 data).map fun parsed => ⟨OS_SUCCESS, parsed, 1, 0⟩
        | none => some ⟨OS_ERROR, data, 1, 1⟩
  else some ⟨OS_ERROR, data, 0, 0⟩

def requestData : Uart → DeviceData → Option Returned := readLog [(bestXyza, parseBestXYZA)]

def childProcessReadData : Uart → DeviceData → Option Returned :=
  readLog [(bestXyza, parseBestXYZA), (gpgga, parseBestGPGGA)]

end Nos3.Novatel
