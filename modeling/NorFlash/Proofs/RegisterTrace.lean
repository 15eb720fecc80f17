import NorFlash.Proofs.EngineRun

/-!
The register accesses of a transfer. The engine runs over hardware that notes every access with
the value read, and behaves there as it does over the hardware itself.
-/
namespace NorFlash.Controller

/-- What an engine asks of its hardware, with the value that a read gave. -/
inductive RegisterCall where
  | read (register : Nat) (value : UInt32)
  | write (register : Nat) (value : UInt32)
  | delay (microseconds : UInt32)
  deriving DecidableEq, Repr

/-- Hardware with the calls made on it so far. -/
structure Watched (η : Type) where
  hardware : η
  calls : List RegisterCall

section Watch

variable {η : Type} [Hardware η]

namespace Watched

def read (register : Nat) (watched : Watched η) : UInt32 × Watched η :=
  match Hardware.read register watched.hardware with
  | (value, hardware) => (value, ⟨hardware, watched.calls ++ [.read register value]⟩)

instance : Hardware (Watched η) where
  read := read
  write register value watched :=
    ⟨Hardware.write register value watched.hardware, watched.calls ++ [.write register value]⟩
  delay microseconds watched :=
    ⟨Hardware.delay microseconds watched.hardware, watched.calls ++ [.delay microseconds]⟩

end Watched

/-- The calls that hardware can go through from its first state, and where they lead. -/
inductive Undergoes (start : η) : List RegisterCall → η → Prop where
  | start : Undergoes start [] start
  | read {calls : List RegisterCall} {hardware : η} (register : Nat)
    (before : Undergoes start calls hardware) :
    Undergoes start (calls ++ [.read register (Hardware.read register hardware).1])
      (Hardware.read register hardware).2
  | write {calls : List RegisterCall} {hardware : η} (register : Nat) (value : UInt32)
    (before : Undergoes start calls hardware) :
    Undergoes start (calls ++ [.write register value]) (Hardware.write register value hardware)
  | delay {calls : List RegisterCall} {hardware : η} (microseconds : UInt32)
    (before : Undergoes start calls hardware) :
    Undergoes start (calls ++ [.delay microseconds]) (Hardware.delay microseconds hardware)

/-- The hardware without its calls, which tell how it came from its first state. -/
structure Watched.Forgets (start : η) (watched : Watched η) (hardware : η) : Prop where
  same : watched.hardware = hardware
  undergoes : Undergoes start watched.calls hardware

/-- Noting the calls changes nothing of what they do. -/
theorem Watched.hardwareSimulation_forgets (start : η) :
    HardwareSimulation (Forgets start : Watched η → η → Prop) where
  value register := by
    rintro _ _ ⟨rfl, -⟩
    rfl
  read register := by
    rintro _ _ ⟨rfl, undergoes⟩
    exact ⟨rfl, undergoes.read register⟩
  write register value := by
    rintro _ _ ⟨rfl, undergoes⟩
    exact ⟨rfl, undergoes.write register value⟩
  delay microseconds := by
    rintro _ _ ⟨rfl, undergoes⟩
    exact ⟨rfl, undergoes.delay microseconds⟩

namespace Engine

/-- The engine over hardware on which no call has been noted yet. -/
def watched (engine : Engine η) : Engine (Watched η) :=
  ⟨⟨engine.hardware, []⟩, engine.frequency, engine.chipSelect, engine.mode⟩

/-- The calls that a transfer makes, in their order and whatever its result. -/
def callsOf (transfer : Transfer) (engine : Engine η) : List RegisterCall :=
  (engine.watched.run transfer).2.hardware.calls

/-- The noted transfer has the result of the transfer, and its calls are calls that the hardware
itself goes through. -/
theorem run_watched (transfer : Transfer) (engine : Engine η) :
    (engine.watched.run transfer).1 = (engine.run transfer).1 ∧
      Undergoes engine.hardware (engine.callsOf transfer) (engine.run transfer).2.hardware := by
  have hwatched : Alike (Watched.Forgets engine.hardware) engine.watched engine :=
    ⟨⟨rfl, .start⟩, rfl, rfl, rfl⟩
  have hrun := hwatched.run (Watched.hardwareSimulation_forgets engine.hardware) transfer
  unfold callsOf
  generalize engine.watched.run transfer = r at hrun ⊢
  generalize engine.run transfer = r' at hrun ⊢
  cases hrun with
  | same result engines => exact ⟨rfl, engines.hardware.undergoes⟩

end Engine

end Watch

end NorFlash.Controller
