import NorFlash.Bus

/-!
A flash command is a command phase followed by an optional data phase under one assertion of
chip-select. The command phase opens the transaction and also closes it when there is no data.
-/
namespace NorFlash.Command

variable {β : Type} [SpiBus β]

/-- Sends the command bytes and then exchanges `length` bytes of data. -/
def exchange (command : ByteArray) (payload : Option ByteArray) (room : Option Nat)
    (length : Nat) : EStateM Error β ByteArray := do
  let received ← SpiBus.transfer
    { bits := command.size * 8, payload := some command, room := none,
      framing := ⟨true, length = 0⟩ }
  if length = 0 then
    return received
  SpiBus.transfer { bits := length * 8, payload, room, framing := ⟨false, true⟩ }

/-- Sends a command and receives `length` bytes. -/
def receive (command : ByteArray) (length : Nat) : EStateM Error β ByteArray :=
  exchange command none (some length) length

/-- Sends a command and a payload. -/
def send (command payload : ByteArray) : EStateM Error β Unit := do
  let _ ← exchange command (some payload) none payload.size

end NorFlash.Command
