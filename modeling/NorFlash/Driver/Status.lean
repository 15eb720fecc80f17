import NorFlash.Driver.Basic
import NorFlash.Poll
import NorFlash.Wire.Frame

/-!
The registers of the part, waiting for it to become ready, and the sequence common to all write
commands: write enable, the command, and the wait for its completion.
-/
namespace NorFlash.Driver

variable {β : Type} [SpiBus β]

/-- Reads a register of one byte. -/
def readRegister (op : Opcode) : Action β UInt8 := do
  let answer ← onBus (Command.receive (Bytes.ofList [op.byte]) 1)
  return Bytes.byteAt answer 0

def readStatus : Action β UInt8 :=
  readRegister .readStatus

def readFlagStatus : Action β UInt8 :=
  readRegister .readFlagStatus

def readConfig : Action β UInt8 :=
  readRegister .readConfig

/-- One check: no write is in progress and, on parts that report it, the controller is idle. -/
def isReady : Action β Bool := do
  let status ← readStatus
  let state ← getState
  let idle : Bool ←
    if state.geometry.any (·.useFlagStatus) then do
      let flags ← readFlagStatus
      pure (flags &&& FlagStatusBit.controllerIdle != 0)
    else
      pure true
  return status &&& StatusBit.writeInProgress == 0 && idle

/-- Waits for the part, at most for the checks of a timeout in milliseconds. A timeout of zero
makes no check and fails at once. -/
def waitReady (timeout : UInt32) : Action β Unit := do
  let outcome ← Poll.untilReady (.ofMillis timeout) isReady
    (fun microseconds driver => driver.mapBus (SpiBus.delay microseconds))
  match outcome with
  | .ready _ => return ()
  | .exhausted => throw .busyTimeout

/-- Enables writing, sends a frame with its payload, and waits for completion: for the program
timeout when there is a payload, else for the erase timeout. -/
def write (frame : Frame) (payload : Option ByteArray) : Action β Unit := do
  let settings := (← getState).settings
  let timeout := if payload.isSome then settings.programTimeout else settings.eraseTimeout
  let _ ← onBus (Command.receive (Bytes.ofList [Opcode.writeEnable.byte]) 0)
  onBus (Command.send frame.bytes (payload.getD .empty))
  waitReady timeout
  modifyBus SpiBus.release

/-- Sends a frame and receives `length` bytes. -/
def receive (frame : Frame) (length : Nat) : Action β ByteArray := do
  let answer ← onBus (Command.receive frame.bytes length)
  modifyBus SpiBus.release
  return answer

def writeStatus (status : UInt8) : Action β Unit :=
  write (.ofOpcode Opcode.writeStatus.byte) (some (Bytes.ofList [status]))

/-- Writes the configuration register, as the second byte of a status write that puts back the
status register as it is. -/
def writeConfig (config : UInt8) : Action β Unit := do
  let status ← readStatus
  write (.ofOpcode Opcode.writeStatus.byte) (some (Bytes.ofList [status, config]))

/-- Reads the bank register back, if one is in use. -/
def readBank : Action β (Option UInt8) := do
  match (← getState).bank with
  | none => return none
  | some bank =>
    let answer ← receive (.ofOpcode bank.readCommand.byte) 1
    return some (Bytes.byteAt answer 0)

/-- Makes the bank of an address the current one. The register is written only when the bank
changes. -/
def selectBank (geometry : Geometry) (address : Nat) : Action β Unit := do
  let wanted := geometry.bankOf address
  match (← getState).bank with
  | none => return ()
  | some bank =>
    if wanted = bank.current.toNat then
      return ()
    let value := UInt8.ofNat wanted
    write (.ofOpcode bank.writeCommand.byte) (some (Bytes.ofList [value]))
    modifyState fun state => { state with bank := some { bank with current := value } }

/-- Routes commands to the die of a position and makes its bank the current one. Gives the
address on the die. -/
def visit (geometry : Geometry) (position : Nat) : Action β Nat := do
  let place := geometry.locate position
  if geometry.wiring = .stacked then
    modifyState fun state => { state with upper := place.upper }
    modifyBus (SpiBus.selectUpper place.upper)
  selectBank geometry place.address
  return place.address

end NorFlash.Driver
