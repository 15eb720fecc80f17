import NorFlash.Controller.Registers
import NorFlash.Emulation.Chip

/-!
The controller's register block with one part behind its select lines. A byte written to the
transmit register is exchanged with the part at once, and the answer goes to the receive queue.
-/
namespace NorFlash.Emulation

open NorFlash.Controller

structure Controller where
  chip : Chip
  /-- Bytes received and not read yet, oldest first. -/
  queue : List UInt8
  control : UInt32
  slaveSelect : UInt32
  /-- Writes to the reset, control and slave-select registers. -/
  log : Array (Nat × UInt32)
  /-- How often chip-select was asserted. -/
  transactions : Nat
  /-- A fault: the receive queue never drains. -/
  stuck : Bool
  /-- A fault: bytes are sent and no answer comes. -/
  silent : Bool

namespace Controller

def queueDepth : Nat := 16

def create (chip : Chip) : Controller where
  chip := chip
  queue := []
  control := controlOff
  slaveSelect := deselected
  log := #[]
  transactions := 0
  stuck := false
  silent := false

def isSelected (controller : Controller) : Bool :=
  controller.slaveSelect ≠ deselected

def status (controller : Controller) : UInt32 :=
  let empty := controller.queue.isEmpty && !controller.stuck
  StatusBit.transmitEmpty |||
    (if empty then StatusBit.receiveEmpty else 0) |||
    (if queueDepth ≤ controller.queue.length then StatusBit.receiveFull else 0)

/-- Applies a change to the part alone. -/
def mapChip (change : Chip → Chip) : Controller → Controller
  | ⟨chip, queue, control, slaveSelect, log, transactions, stuck, silent⟩ =>
    ⟨change chip, queue, control, slaveSelect, log, transactions, stuck, silent⟩

def record (register : Nat) (value : UInt32) : Controller → Controller
  | ⟨chip, queue, control, slaveSelect, log, transactions, stuck, silent⟩ =>
    ⟨chip, queue, control, slaveSelect, log.push (register, value), transactions, stuck, silent⟩

/-- A slave-select word asserts chip-select again even when it was asserted before. -/
def setSelect (word : UInt32) (controller : Controller) : Controller :=
  let wasSelected := controller.isSelected
  let controller := { controller with slaveSelect := word }
  if controller.isSelected then
    { controller with transactions := controller.transactions + 1 }.mapChip Chip.select
  else if wasSelected then
    controller.mapChip Chip.deselect
  else
    controller

/-- Exchanges one byte with the part. A full receive queue loses the answer. -/
def shift (byte : UInt8) : Controller → Controller
  | ⟨chip, queue, control, slaveSelect, log, transactions, stuck, silent⟩ =>
    match if slaveSelect ≠ deselected then chip.exchange byte else (0xff, chip) with
    | (answer, chip) =>
      let queue := if !silent && queue.length < queueDepth then queue ++ [answer] else queue
      ⟨chip, queue, control, slaveSelect, log, transactions, stuck, silent⟩

def reset (controller : Controller) : Controller :=
  { controller with control := controlOff, slaveSelect := deselected, queue := [] }.mapChip
    Chip.deselect

def setControl (word : UInt32) (controller : Controller) : Controller :=
  let drop := word &&& ControlBit.receiveReset ≠ 0
  { controller with
    control := word &&& ~~~(ControlBit.receiveReset ||| ControlBit.transmitReset)
    queue := if drop then [] else controller.queue }

def read (register : Nat) (controller : Controller) : UInt32 × Controller :=
  if register = Register.status then
    (controller.status, controller)
  else if register = Register.receive then
    if controller.stuck then
      (0xff, controller)
    else
      match controller.queue with
      | [] => (0, controller)
      | byte :: queue => (byte.toUInt32, { controller with queue })
  else if register = Register.control then
    (controller.control, controller)
  else if register = Register.slaveSelect then
    (controller.slaveSelect, controller)
  else if register = Register.receiveOccupancy then
    (UInt32.ofNat (controller.queue.length - 1), controller)
  else
    (0, controller)

def write (register : Nat) (value : UInt32) (controller : Controller) : Controller :=
  if register = Register.transmit then
    controller.shift value.toUInt8
  else if register = Register.slaveSelect then
    (controller.record register value).setSelect value
  else if register = Register.control then
    (controller.record register value).setControl value
  else if register = Register.softwareReset then
    let controller := controller.record register value
    if value = resetWord then controller.reset else controller
  else
    controller

end Controller

end NorFlash.Emulation
