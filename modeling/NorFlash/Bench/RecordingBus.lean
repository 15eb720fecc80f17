import NorFlash.Bench.Digest
import NorFlash.Bench.Pattern
import NorFlash.Bench.TrialBus
import NorFlash.Bytes
import NorFlash.Wire.Opcode

/-!
A bus for trying the driver out: it answers flash commands by their opcode, records every
transfer, and fails when it is told to. A transfer that does not fit its buffers, or that has no
command to refer to, breaks it for good.
-/
namespace NorFlash.Bench

/-- A transfer that was carried out. -/
structure Recorded where
  bits : Nat
  framing : Framing
  payload : Option ByteArray

/-- Place in the transaction, bits, and payload of a transfer; a long payload by its digest. -/
def Recorded.text (transfer : Recorded) : String :=
  let place := match transfer.framing with
    | ⟨true, true⟩ => "O"
    | ⟨true, false⟩ => "B"
    | ⟨false, true⟩ => "E"
    | ⟨false, false⟩ => "-"
  let payload := match transfer.payload with
    | none => "*"
    | some bytes =>
      if bytes.size ≤ 16 then Text.Hex.ofBytes bytes
      else toString bytes.size ++ "#" ++ digest bytes
  place ++ toString transfer.bits ++ ":" ++ payload

structure RecordingBus where
  transfers : Array Recorded := #[]
  /-- Fail, without recording, once this many transfers are recorded. -/
  failAfter : Option Nat := none
  id : ByteArray := Bytes.ofList [0xc2, 0x20, 0x18, 0, 0, 0]
  /-- Answers to status reads before the status register itself answers. -/
  statusQueue : List UInt8 := []
  status : UInt8 := 0
  flagStatus : UInt8 := FlagStatusBit.controllerIdle
  config : UInt8 := 0
  bank : UInt8 := 0
  /-- Status writes have no effect. -/
  ignoresStatusWrites : Bool := false
  addressBytes : Nat := 3
  maxWrite : Option Nat := none
  delayed : Nat := 0
  /-- The die that was selected last, if ever one was. -/
  upper : Option Bool := none
  /-- The command that later transfers of the transaction belong to. -/
  pending : ByteArray := .empty
  broken : Bool := false

namespace RecordingBus

/-- A bus whose part answers with these ID bytes, six at most. -/
def withId (id : ByteArray) : RecordingBus :=
  if id.size ≤ 6 then { id := Bytes.resize id 6 } else { broken := true }

/-- The address that the pending command spells, if it is long enough. -/
def address? (bus : RecordingBus) : Option Nat :=
  if bus.addressBytes < bus.pending.size then
    let bytes := Bytes.toList (Bytes.slice bus.pending 1 bus.addressBytes)
    some (bytes.foldl (fun value byte => (value * 256 + byte.toNat) % UInt32.size) 0)
  else
    none

/-- The answer to the pending command with room for `length` bytes, if there is one. -/
def respond (length : Nat) (bus : RecordingBus) : Option (ByteArray × RecordingBus) :=
  if bus.pending.size = 0 then
    none
  else
    match Opcode.ofByte? (Bytes.byteAt bus.pending 0) with
    | some .readId => some (bus.id.extract 0 (min length bus.id.size), bus)
    | some .readStatus =>
      match bus.statusQueue with
      | [] => some (Bytes.fill length bus.status, bus)
      | status :: statusQueue => some (Bytes.fill length status, { bus with statusQueue })
    | some .readFlagStatus => some (Bytes.fill length bus.flagStatus, bus)
    | some .readConfig => some (Bytes.fill length bus.config, bus)
    | some .readBank | some .readExtendedAddress => some (Bytes.fill length bus.bank, bus)
    | some op =>
      if op.dummyBytes?.isSome then
        bus.address?.map fun address => (pattern address length, bus)
      else
        some (Bytes.fill length 0xff, bus)
    | none => some (Bytes.fill length 0xff, bus)

/-- Takes the payload of the pending command, if there is such a command. -/
def absorb (payload : ByteArray) (bus : RecordingBus) : Option RecordingBus :=
  if bus.pending.size = 0 then
    none
  else
    match Opcode.ofByte? (Bytes.byteAt bus.pending 0) with
    | some .writeStatus =>
      if bus.ignoresStatusWrites then
        some bus
      else if payload.size = 0 then
        none
      else
        let config := if payload.size = 1 then bus.config else Bytes.byteAt payload 1
        some { bus with status := Bytes.byteAt payload 0, config }
    | some .writeBank | some .writeExtendedAddress =>
      if payload.size = 0 then none else some { bus with bank := Bytes.byteAt payload 0 }
    | _ => some bus

/-- The answer of a transfer, what to record of it, and the bus after it, unless the transfer
breaks the bus. -/
def carryOut (transfer : Transfer) (bus : RecordingBus) :
    Option (ByteArray × Recorded × RecordingBus) := do
  let length := transfer.bits / 8
  let cut (bytes : ByteArray) : Option ByteArray :=
    if bytes.size < length then none else some (bytes.extract 0 length)
  let payload ← match transfer.payload with
    | none => some none
    | some bytes => (cut bytes).map some
  let (received, bus) ←
    if transfer.framing.first then
      some (.empty, { bus with pending := payload.getD .empty })
    else do
      let (received, bus) ← match transfer.room with
        | none => some (.empty, bus)
        | some room => if room < length then none else bus.respond length
      match payload with
      | none => some (received, bus)
      | some payload => (bus.absorb payload).map fun bus => (received, bus)
  return (received, ⟨transfer.bits, transfer.framing, payload⟩, bus)

def record (transfer : Recorded) (bus : RecordingBus) : RecordingBus :=
  { bus with transfers := bus.transfers.push transfer }

instance : SpiBus RecordingBus where
  transfer request bus :=
    if bus.broken || bus.failAfter = some bus.transfers.size then
      .error .transferTimeout bus
    else
      match bus.carryOut request with
      | some (received, recorded, bus) => .ok received (bus.record recorded)
      | none => .error .transferTimeout { bus with broken := true }
  maxWrite bus := bus.maxWrite
  release bus := bus
  selectUpper upper bus := { bus with upper := some upper }
  delay microseconds bus := { bus with delayed := bus.delayed + microseconds.toNat }

instance : TrialBus RecordingBus where
  isBroken bus := bus.broken
  mend bus := { bus with broken := false }

/-- The commands sent so far. -/
def commands (bus : RecordingBus) : List ByteArray :=
  (bus.transfers.toList.filter (·.framing.first)).map (·.payload.getD .empty)

/-- How often a command was sent. -/
def count (op : Opcode) (bus : RecordingBus) : Nat :=
  bus.commands.countP fun command => 0 < command.size && Bytes.byteAt command 0 = op.byte

end RecordingBus

end NorFlash.Bench
