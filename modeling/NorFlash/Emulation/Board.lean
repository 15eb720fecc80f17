import NorFlash.Controller.Engine
import NorFlash.Emulation.Controller

/-!
A board without hardware: the emulated controller with a clock that only adds up the delays asked
for, and the engine started over it.
-/
namespace NorFlash.Emulation

/-- The delays asked for so far. -/
structure Clock where
  total : Nat := 0
  calls : Nat := 0
  deriving DecidableEq, Repr, Inhabited

def Clock.delay (microseconds : UInt32) (clock : Clock) : Clock :=
  ⟨clock.total + microseconds.toNat, clock.calls + 1⟩

structure Board where
  controller : Controller
  clock : Clock

namespace Board

instance : Hardware Board where
  read register
    | ⟨controller, clock⟩ =>
      match controller.read register with
      | (value, controller) => (value, ⟨controller, clock⟩)
  write register value
    | ⟨controller, clock⟩ => ⟨controller.write register value, clock⟩
  delay microseconds
    | ⟨controller, clock⟩ => ⟨controller, clock.delay microseconds⟩

/-- Applies a change to the controller alone. -/
def mapController (change : Controller → Controller) : Board → Board
  | ⟨controller, clock⟩ => ⟨change controller, clock⟩

end Board

/-- The engine over a controller, started with the given settings. -/
def startEngine (controller : Controller) (settings : SpiSettings) :
    Except SetupError (NorFlash.Controller.Engine Board) :=
  match NorFlash.Controller.Engine.create (η := Board) ⟨controller, {}⟩ settings with
  | .ok engine => .ok engine.start
  | .error cause => .error (.badSettings cause)

end NorFlash.Emulation
