import Nos3.Base.BigEndian

/-!
# Requests to the Raspberry Pi device

Each request writes a command, reads its echo and then the reply. What the UART does is
given as `Uart`, and `Progress` tells how many of its polls and reads are used.
-/
namespace Nos3.RaspberryPi
open Nos3.Base.BigEndian

def OS_SUCCESS : Int := 0
def OS_ERROR : Int := -1
def UART_SUCCESS : Int := OS_SUCCESS

def RASPBERRY_PI_DEVICE_HDR_0 : Octet := 0xDE
def RASPBERRY_PI_DEVICE_HDR_1 : Octet := 0xAD
def RASPBERRY_PI_DEVICE_TRAILER_0 : Octet := 0xBE
def RASPBERRY_PI_DEVICE_TRAILER_1 : Octet := 0xEF
def RASPBERRY_PI_DEVICE_REQ_HK_CMD : Octet := 0x01
def RASPBERRY_PI_DEVICE_REQ_DATA_CMD : Octet := 0x02
def RASPBERRY_PI_DEVICE_CMD_SIZE : Nat := 9
def RASPBERRY_PI_DEVICE_HK_SIZE : Nat := 16
def RASPBERRY_PI_DEVICE_DATA_SIZE : Nat := 14

/-- The contents of an array. -/
abbrev Buffer := Nat → Octet

/-- The outcomes of the calls: of the flush, of the write, of each poll, and of each read
with the length asked for. -/
structure Uart where
  msTimeout : UInt8 := 50
  flush : Int
  write : List Octet → Int
  available : Nat → Int
  read : Nat → Int → Int × Buffer
  /-- what local arrays hold before they are written -/
  stack : Buffer

structure Progress where
  polls : Nat := 0
  reads : Nat := 0
  deriving DecidableEq, Repr

structure ReadResult where
  status : Int
  readData : Buffer
  after : Progress

/-- The loop of `readData`, with the rounds left before the timeout, the octets available and
the polls made. -/
def waitLoop (u : Uart) (dataLength : Int) : Nat → Int → Nat → Nat × Int × Nat
  | 0, bytesAvailable, polls => (0, bytesAvailable, polls)
  | left + 1, bytesAvailable, polls =>
    if bytesAvailable < dataLength then waitLoop u dataLength left (u.available polls) (polls + 1)
    else (left + 1, bytesAvailable, polls)

def readData (u : Uart) (buffer : Buffer) (dataLength : Nat) (s : Progress) : ReadResult :=
  let waited := waitLoop u dataLength u.msTimeout.toNat (u.available s.polls) (s.polls + 1)
  if 0 < waited.1 then
    let bytesAvailable := if waited.2.1 > dataLength then (dataLength : Int) else waited.2.1
    let read := u.read s.reads bytesAvailable
    { status := if read.1 ≠ bytesAvailable then OS_ERROR else OS_SUCCESS
      readData := read.2
      after := ⟨waited.2.2, s.reads + 1⟩ }
  else { status := OS_ERROR, readData := buffer, after := ⟨waited.2.2, s.reads⟩ }

/-- `write_data` of `commandDevice`. -/
def writeData (cmdCode : Octet) (payload : BitVec 32) : List Octet :=
  [RASPBERRY_PI_DEVICE_HDR_0, RASPBERRY_PI_DEVICE_HDR_1, cmdCode,
    (payload >>> 24).setWidth 8, (payload >>> 16).setWidth 8, (payload >>> 8).setWidth 8,
    payload.setWidth 8, RASPBERRY_PI_DEVICE_TRAILER_0, RASPBERRY_PI_DEVICE_TRAILER_1]

/-- The loop that confirms the echoed response from the octet `i` on. -/
def confirmEcho (echo : Buffer) : List Octet → Nat → Int
  | [], _ => OS_SUCCESS
  | octet :: rest, i => if echo i ≠ octet then OS_ERROR else confirmEcho echo rest (i + 1)

/-- The status after a short write is that of the flush. -/
def commandDevice (u : Uart) (cmdCode : Octet) (payload : BitVec 32) (s : Progress) :
    Int × Progress :=
  let status := u.flush
  if status = UART_SUCCESS then
    let bytes := u.write (writeData cmdCode payload)
    if bytes = RASPBERRY_PI_DEVICE_CMD_SIZE then
      let echo := readData u u.stack RASPBERRY_PI_DEVICE_CMD_SIZE s
      if echo.status = OS_SUCCESS then
        (confirmEcho echo.readData (writeData cmdCode payload) 0, echo.after)
      else (echo.status, echo.after)
    else (status, s)
  else (status, s)

/-- `RASPBERRY_PI_Device_HK_tlm_t`. -/
structure DeviceHk where
  deviceCounter : BitVec 32
  deviceConfig : BitVec 32
  deviceStatus : BitVec 32
  deriving DecidableEq, Repr

/-- `RASPBERRY_PI_Device_Data_tlm_t`. -/
structure DeviceData where
  deviceCounter : BitVec 32
  deviceDataX : BitVec 16
  deviceDataY : BitVec 16
  deviceDataZ : BitVec 16
  deriving DecidableEq, Repr

/-- `d[i] << 24 | d[i + 1] << 16 | d[i + 2] << 8 | d[i + 3]`. -/
def readLong (d : Buffer) (i : Nat) : BitVec 32 :=
  (d i).setWidth 32 <<< 24 ||| (d (i + 1)).setWidth 32 <<< 16 |||
    (d (i + 2)).setWidth 32 <<< 8 ||| (d (i + 3)).setWidth 32

/-- `d[i] << 8 | d[i + 1]`. -/
def readShort (d : Buffer) (i : Nat) : BitVec 16 :=
  (d i).setWidth 16 <<< 8 ||| (d (i + 1)).setWidth 16

/-- The check of the header and of the trailer at `trailer`. -/
def framed (d : Buffer) (trailer : Nat) : Bool :=
  d 0 == RASPBERRY_PI_DEVICE_HDR_0 && d 1 == RASPBERRY_PI_DEVICE_HDR_1 &&
    d trailer == RASPBERRY_PI_DEVICE_TRAILER_0 && d (trailer + 1) == RASPBERRY_PI_DEVICE_TRAILER_1

def interpretHk (d : Buffer) : DeviceHk where
  deviceCounter := readLong d 2
  deviceConfig := readLong d 6
  deviceStatus := readLong d 10

def interpretData (d : Buffer) : DeviceData where
  deviceCounter := readLong d 2
  deviceDataX := readShort d 6
  deviceDataY := readShort d 8
  deviceDataZ := readShort d 10

def requestHK (u : Uart) (data : DeviceHk) : Int × DeviceHk :=
  let command := commandDevice u RASPBERRY_PI_DEVICE_REQ_HK_CMD 0 {}
  if command.1 = OS_SUCCESS then
    let reply := readData u u.stack RASPBERRY_PI_DEVICE_HK_SIZE command.2
    if reply.status = OS_SUCCESS then
      if framed reply.readData 14 then (reply.status, interpretHk reply.readData)
      else (OS_ERROR, data)
    else (reply.status, data)
  else (command.1, data)

/-- Nothing happens to a reply with another header or trailer. -/
def requestData (u : Uart) (data : DeviceData) : Int × DeviceData :=
  let command := commandDevice u RASPBERRY_PI_DEVICE_REQ_DATA_CMD 0 {}
  if command.1 = OS_SUCCESS then
    let reply := readData u u.stack RASPBERRY_PI_DEVICE_DATA_SIZE command.2
    if reply.status = OS_SUCCESS then
      if framed reply.readData 12 then (reply.status, interpretData reply.readData)
      else (reply.status, data)
    else (OS_ERROR, data)
  else (command.1, data)

end Nos3.RaspberryPi
