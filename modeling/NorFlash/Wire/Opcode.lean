/-!
The commands of a serial NOR part as they appear on the wire, and the register bits they deal in.
-/
namespace NorFlash

inductive Opcode where
  | writeEnable
  | writeDisable
  | readStatus
  | readFlagStatus
  | readConfig
  /-- A second byte goes to the configuration register. -/
  | writeStatus
  | readId
  | read
  | fastRead
  | dualOutputRead
  | quadOutputRead
  | dualIoRead
  | quadIoRead
  | pageProgram
  | quadPageProgram
  | eraseSmallSector
  | eraseSector
  | enterFourByte
  | exitFourByte
  | readBank
  | writeBank
  | readExtendedAddress
  | writeExtendedAddress
  deriving DecidableEq, Repr, Inhabited

namespace Opcode

def byte : Opcode → UInt8
  | writeEnable => 0x06
  | writeDisable => 0x04
  | readStatus => 0x05
  | readFlagStatus => 0x70
  | readConfig => 0x35
  | writeStatus => 0x01
  | readId => 0x9f
  | read => 0x03
  | fastRead => 0x0b
  | dualOutputRead => 0x3b
  | quadOutputRead => 0x6b
  | dualIoRead => 0xbb
  | quadIoRead => 0xeb
  | pageProgram => 0x02
  | quadPageProgram => 0x32
  | eraseSmallSector => 0x20
  | eraseSector => 0xd8
  | enterFourByte => 0xb7
  | exitFourByte => 0xe9
  | readBank => 0x16
  | writeBank => 0x17
  | readExtendedAddress => 0xc8
  | writeExtendedAddress => 0xc5

def all : List Opcode :=
  [writeEnable, writeDisable, readStatus, readFlagStatus, readConfig, writeStatus, readId, read,
    fastRead, dualOutputRead, quadOutputRead, dualIoRead, quadIoRead, pageProgram,
    quadPageProgram, eraseSmallSector, eraseSector, enterFourByte, exitFourByte, readBank,
    writeBank, readExtendedAddress, writeExtendedAddress]

/-- The command a part takes a first byte for, if it knows it. -/
def ofByte? (b : UInt8) : Option Opcode :=
  if b = 0x06 then some writeEnable
  else if b = 0x04 then some writeDisable
  else if b = 0x05 then some readStatus
  else if b = 0x70 then some readFlagStatus
  else if b = 0x35 then some readConfig
  else if b = 0x01 then some writeStatus
  else if b = 0x9f then some readId
  else if b = 0x03 then some read
  else if b = 0x0b then some fastRead
  else if b = 0x3b then some dualOutputRead
  else if b = 0x6b then some quadOutputRead
  else if b = 0xbb then some dualIoRead
  else if b = 0xeb then some quadIoRead
  else if b = 0x02 then some pageProgram
  else if b = 0x32 then some quadPageProgram
  else if b = 0x20 then some eraseSmallSector
  else if b = 0xd8 then some eraseSector
  else if b = 0xb7 then some enterFourByte
  else if b = 0xe9 then some exitFourByte
  else if b = 0x16 then some readBank
  else if b = 0x17 then some writeBank
  else if b = 0xc8 then some readExtendedAddress
  else if b = 0xc5 then some writeExtendedAddress
  else none

@[simp] theorem ofByte?_byte (op : Opcode) : ofByte? op.byte = some op := by
  cases op <;> rfl

theorem byte_injective {a b : Opcode} (h : a.byte = b.byte) : a = b := by
  simpa using congrArg ofByte? h

/-- Dummy bytes between the address and the data of an array read. -/
def dummyBytes? : Opcode → Option Nat
  | read => some 0
  | fastRead | dualOutputRead | quadOutputRead | dualIoRead => some 1
  | quadIoRead => some 2
  | _ => none

end Opcode

namespace StatusBit

/-- A program, erase or register write is in progress. -/
def writeInProgress : UInt8 := 0x01

def writeEnabled : UInt8 := 0x02

/-- Quad enable of Macronix parts, in the status register. -/
def quadEnable : UInt8 := 0x40

end StatusBit

/-- Quad enable of Spansion and Winbond parts, in the configuration register. -/
def ConfigBit.quadEnable : UInt8 := 0x02

/-- The part has no program or erase running, in the flag status register. -/
def FlagStatusBit.controllerIdle : UInt8 := 0x80

end NorFlash
