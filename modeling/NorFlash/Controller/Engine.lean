import NorFlash.Bus
import NorFlash.Bytes
import NorFlash.Controller.Registers
import NorFlash.Poll
import NorFlash.Settings

/-!
The transfer engine over the controller's registers. Every byte is written to the transmit
register, and its answer is collected before the next byte is sent, so the queues of the
controller hold at most one byte of a transfer.
-/
namespace NorFlash.Controller

structure Engine (η : Type) where
  hardware : η
  frequency : UInt32
  chipSelect : UInt8
  mode : ClockMode

/-- The outcome of a transfer with the bytes received up to its end, also when it failed. -/
structure TransferRun where
  outcome : Except Error Unit
  received : ByteArray

namespace Engine

variable {η : Type}

/-- An engine that has not touched its hardware yet. The chip-select has to be one of the lines of
the slave-select register. -/
def create (hardware : η) (settings : SpiSettings) : Except Error (Engine η) :=
  if lines ≤ settings.chipSelect then
    .error .invalidArgument
  else
    .ok ⟨hardware, settings.frequency, settings.chipSelect, .ofBits settings.mode⟩

variable [Hardware η]

def read (register : Nat) : Engine η → UInt32 × Engine η
  | ⟨hardware, frequency, chipSelect, mode⟩ =>
    match Hardware.read register hardware with
    | (value, hardware) => (value, ⟨hardware, frequency, chipSelect, mode⟩)

def write (register : Nat) (value : UInt32) : Engine η → Engine η
  | ⟨hardware, frequency, chipSelect, mode⟩ =>
    ⟨Hardware.write register value hardware, frequency, chipSelect, mode⟩

def delay (microseconds : UInt32) : Engine η → Engine η
  | ⟨hardware, frequency, chipSelect, mode⟩ =>
    ⟨Hardware.delay microseconds hardware, frequency, chipSelect, mode⟩

def select (engine : Engine η) : Engine η :=
  let word := selectWord engine.chipSelect
  engine.write Register.slaveSelect word

def deselect (engine : Engine η) : Engine η :=
  engine.write Register.slaveSelect deselected

/-- Releases every slave and makes the core a master that selects slaves by hand. -/
def claim (engine : Engine η) : Engine η :=
  engine.deselect.write Register.control controlOn

/-- Replaces the clock mode in the control register and leaves its other bits alone. -/
def setMode (mode : ClockMode) (engine : Engine η) : Engine η :=
  match engine.read Register.control with
  | (word, engine) =>
    let put (word : UInt32) (bit : UInt32) (on : Bool) : UInt32 :=
      if on then word ||| bit else word &&& ~~~bit
    let word := put word ControlBit.lsbFirst mode.lsbFirst
    let word := put word ControlBit.clockPhase mode.phase
    let word := put word ControlBit.clockPolarity mode.polarity
    match engine.write Register.control word with
    | ⟨hardware, frequency, chipSelect, _⟩ => ⟨hardware, frequency, chipSelect, mode⟩

/-- Resets the core, claims the bus and sets the clock mode. -/
def start (engine : Engine η) : Engine η :=
  let mode := engine.mode
  (((engine.delay 1).write Register.softwareReset resetWord).claim).setMode mode

/-- Status checks for the answer to one byte, 1 µs apart: two for a clock above 8 MHz, and one
more than the microseconds of a byte below. -/
def byteTimeout (engine : Engine η) : Nat :=
  let bits := 8000000
  let frequency := engine.frequency.toNat
  if bits < frequency then 2 else bits / max frequency 1 + 1

def status (engine : Engine η) : UInt32 × Engine η :=
  engine.read Register.status

/-- Whether the receive queue holds a byte. -/
def hasReceived (engine : Engine η) : Bool × Engine η :=
  match engine.status with
  | (word, engine) => (word &&& StatusBit.receiveEmpty = 0, engine)

/-- Reads before a transfer that remove stale bytes: one more than the receive queue holds. -/
def drainBudget : Nat := 17

/-- Empties the receive queue, which fails once the budget of reads is spent. -/
def drain : Nat → Engine η → Except Error Unit × Engine η
  | 0, engine => (.error .receiveNotEmpty, engine)
  | budget + 1, engine =>
    match engine.hasReceived with
    | (false, engine) => (.ok (), engine)
    | (true, engine) =>
      match engine.read Register.receive with
      | (_, engine) => drain budget engine

/-- Sends one byte and waits for its answer. -/
def shiftByte (byte : UInt8) (budget : Poll.Budget) : EStateM Error (Engine η) UInt8 :=
  fun engine =>
    match Poll.untilReady budget (fun engine =>
        match engine.hasReceived with
        | (received, engine) => .ok received engine)
      delay (engine.write Register.transmit byte.toUInt32) with
    | .error e engine => .error e engine
    | .ok .exhausted engine => .error .transferTimeout engine
    | .ok (.ready _) engine =>
      match engine.read Register.receive with
      | (word, engine) => .ok word.toUInt8 engine

/-- Sent when a transfer has no payload. -/
def idleByte : UInt8 := 0xff

/-- Shifts the bytes numbered `i` and later, of which `left` are left. -/
def shiftFrom (budget : Poll.Budget) (payload : Option ByteArray) (keep : Bool) :
    (left i : Nat) → (received : ByteArray) → Engine η → TransferRun × Engine η
  | 0, _, received, engine => (⟨.ok (), received⟩, engine)
  | left + 1, i, received, engine =>
    let byte := match payload with
      | some bytes => Bytes.byteAt bytes i
      | none => idleByte
    match shiftByte byte budget engine with
    | .error e engine => (⟨.error e, received⟩, engine)
    | .ok answer engine =>
      shiftFrom budget payload keep left (i + 1)
        (if keep then received.push answer else received) engine

/-- One transfer. A rejected request releases the slave; a byte that gets no answer leaves it
selected, for whoever opened the transaction to close. -/
def run (transfer : Transfer) (engine : Engine η) : TransferRun × Engine η :=
  let bytes := transfer.bits / 8
  let short (size : Option Nat) : Bool := size.any (· < bytes)
  if transfer.bits = 0 then
    (⟨.ok (), .empty⟩, if transfer.framing.last then engine.deselect else engine)
  else if transfer.bits % 8 ≠ 0 then
    (⟨.error .partialByte, .empty⟩, engine.deselect)
  else if short (transfer.payload.map (·.size)) || short transfer.room then
    (⟨.error .bufferTooSmall, .empty⟩, engine.deselect)
  else
    match drain drainBudget engine with
    | (.error e, engine) => (⟨.error e, .empty⟩, engine)
    | (.ok (), engine) =>
      let engine := if transfer.framing.first then engine.select else engine
      let budget : Poll.Budget := ⟨engine.byteTimeout, 1⟩
      match shiftFrom budget transfer.payload transfer.room.isSome bytes 0 .empty engine with
      | (⟨.error e, received⟩, engine) => (⟨.error e, received⟩, engine)
      | (⟨.ok (), received⟩, engine) =>
        (⟨.ok (), received⟩, if transfer.framing.last then engine.deselect else engine)

instance : SpiBus (Engine η) where
  transfer request engine :=
    match engine.run request with
    | (⟨.ok (), received⟩, engine) => .ok received engine
    | (⟨.error e, _⟩, engine) => .error e engine
  maxWrite _ := none
  release engine := engine
  selectUpper _ engine := engine
  delay := Engine.delay

end Engine

end NorFlash.Controller
