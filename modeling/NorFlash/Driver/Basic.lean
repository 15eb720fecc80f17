import NorFlash.Command
import NorFlash.Geometry

/-!
The flash driver: a bus with the settings and what is known of the part. It goes from
`uninitialized` through `scanning` to `ready` once a scan has identified the part.
-/
namespace NorFlash

inductive Lifecycle where
  | uninitialized
  | scanning
  | ready
  deriving DecidableEq, Repr, Inhabited

/-- The commands of the bank register and the bank that was last written or read. -/
structure BankRegister where
  readCommand : Opcode
  writeCommand : Opcode
  current : UInt8
  deriving DecidableEq, Repr, Inhabited

structure DriverState where
  settings : FlashSettings
  lifecycle : Lifecycle := .uninitialized
  geometry : Option Geometry := none
  bank : Option BankRegister := none
  /-- The last address went to the upper of two stacked dies. -/
  upper : Bool := false
  /-- Whether the bytes from an offset on are write protected. -/
  lockCheck : Option (Nat → Nat → Bool) := none

structure Driver (β : Type) where
  bus : β
  state : DriverState

namespace Driver

variable {β : Type}

/-- An operation of the driver. One that fails keeps what it has done so far. -/
abbrev Action (β α : Type) := EStateM Error (Driver β) α

/-- A driver that has not scanned yet. -/
def create (bus : β) (settings : FlashSettings) : Driver β :=
  ⟨bus, { settings }⟩

/-- Carries an operation of the bus over to the driver. -/
def onBus {α : Type} (action : EStateM Error β α) : Action β α
  | ⟨bus, state⟩ =>
    match action bus with
    | .ok value bus => .ok value ⟨bus, state⟩
    | .error cause bus => .error cause ⟨bus, state⟩

/-- Applies a change to the bus alone. -/
def mapBus (change : β → β) : Driver β → Driver β
  | ⟨bus, state⟩ => ⟨change bus, state⟩

def modifyBus (change : β → β) : Action β Unit
  | driver => .ok () (driver.mapBus change)

def modifyState (change : DriverState → DriverState) : Action β Unit
  | ⟨bus, state⟩ => .ok () ⟨bus, change state⟩

def getState : Action β DriverState
  | driver =>
    let state := driver.state
    .ok state driver

/-- Runs an operation and gives its failure as a value. -/
def attempt {α : Type} (action : Action β α) : Action β (Except Error α)
  | driver =>
    match action driver with
    | .ok value driver => .ok (.ok value) driver
    | .error cause driver => .ok (.error cause) driver

/-- The geometry of the scanned part. -/
def geometry? (driver : Driver β) : Except Error Geometry :=
  match driver.state.lifecycle, driver.state.geometry with
  | .ready, some geometry => .ok geometry
  | _, _ => .error .notReady

/-- The bank selected through the bank register, if one is in use. -/
def currentBank? (driver : Driver β) : Option UInt8 :=
  driver.state.bank.map (·.current)

/-- Installs or removes the check that erase and program consult. -/
def setLockCheck (check : Option (Nat → Nat → Bool)) : Driver β → Driver β
  | ⟨bus, state⟩ => ⟨bus, { state with lockCheck := check }⟩

end Driver

end NorFlash
