/-!
The register block of the SPI controller: byte offsets, the bits of the control and status
registers, and the slave-select words.
-/
namespace NorFlash

/-- Hardware that an engine runs on: 32-bit registers addressed by byte offset, and a delay in
microseconds. Reading may change the hardware, since a data register is the end of a queue. -/
class Hardware (η : Type) where
  read : Nat → η → UInt32 × η
  write : Nat → UInt32 → η → η
  delay : UInt32 → η → η

namespace Controller

namespace Register

def globalInterruptEnable : Nat := 0x1c
def interruptStatus : Nat := 0x20
def interruptEnable : Nat := 0x28
def softwareReset : Nat := 0x40
def control : Nat := 0x60
def status : Nat := 0x64
def transmit : Nat := 0x68
def receive : Nat := 0x6c
def slaveSelect : Nat := 0x70
def transmitOccupancy : Nat := 0x74
def receiveOccupancy : Nat := 0x78

def all : List Nat :=
  [globalInterruptEnable, interruptStatus, interruptEnable, softwareReset, control, status,
    transmit, receive, slaveSelect, transmitOccupancy, receiveOccupancy]

end Register

/-- Written to the software reset register to reset the core. -/
def resetWord : UInt32 := 0x0a

/-- The slave-select word with every slave released. -/
def deselected : UInt32 := 0xffffffff

/-- Slave-select lines there are. -/
def lines : UInt8 := 32

/-- The slave-select word that selects one line, which is active low. A line beyond the width of
the register selects nothing. -/
def selectWord (line : UInt8) : UInt32 :=
  if line < lines then ~~~(1 <<< line.toUInt32) else deselected

namespace ControlBit

def loopback : UInt32 := 0x001
def enable : UInt32 := 0x002
def master : UInt32 := 0x004
def clockPolarity : UInt32 := 0x008
def clockPhase : UInt32 := 0x010
def transmitReset : UInt32 := 0x020
def receiveReset : UInt32 := 0x040
def manualSelect : UInt32 := 0x080
def inhibit : UInt32 := 0x100
def lsbFirst : UInt32 := 0x200

/-- Every bit that means something. -/
def all : UInt32 := 0x3ff

end ControlBit

/-- The control word of a claimed bus. -/
def controlOn : UInt32 :=
  ControlBit.manualSelect ||| ControlBit.master ||| ControlBit.enable

/-- The control word of a parked bus. -/
def controlOff : UInt32 :=
  ControlBit.inhibit ||| ControlBit.manualSelect

namespace StatusBit

def receiveEmpty : UInt32 := 0x1
def receiveFull : UInt32 := 0x2
def transmitEmpty : UInt32 := 0x4

end StatusBit

/-- The clock mode: phase, polarity and bit order. -/
structure ClockMode where
  phase : Bool
  polarity : Bool
  lsbFirst : Bool
  deriving DecidableEq, Repr, Inhabited

namespace ClockMode

def phaseBit : UInt8 := 0x01
def polarityBit : UInt8 := 0x02
def lsbFirstBit : UInt8 := 0x08

def allBits : UInt8 := phaseBit ||| polarityBit ||| lsbFirstBit

/-- Other bits than these three mean nothing. -/
def ofBits (bits : UInt8) : ClockMode :=
  ⟨bits &&& phaseBit ≠ 0, bits &&& polarityBit ≠ 0, bits &&& lsbFirstBit ≠ 0⟩

end ClockMode

end Controller

end NorFlash
