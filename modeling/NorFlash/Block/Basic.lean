import NorFlash.Error
import NorFlash.Settings

/-!
Devices that hold images, the window of bytes through which an open device is read, and the
operations that a device offers to the pool.
-/
namespace NorFlash.Block

/-- The kind of a device. The pool takes devices of the kinds registered with it. -/
inductive DeviceKind where
  | flash
  | memory
  deriving DecidableEq, Repr, Inhabited

/-- The byte range that an open entity reads, with its position in it. -/
structure Window where
  base : Nat
  size : Nat
  cursor : Nat
  deriving DecidableEq, Repr, Inhabited

namespace Window

/-- The window over a region, read from its start. -/
def ofRegion (region : Region) : Window :=
  ⟨region.offset, region.length, 0⟩

/-- The position of the cursor on the device. The sum is a 64-bit word as long as the window ends
by the last address and the cursor is in the window or on the device. -/
def position (window : Window) : Nat :=
  window.base + window.cursor

def advance (count : Nat) (window : Window) : Window :=
  { window with cursor := window.cursor + count }

@[simp] theorem base_advance (count : Nat) (window : Window) :
    (window.advance count).base = window.base :=
  rfl

@[simp] theorem size_advance (count : Nat) (window : Window) :
    (window.advance count).size = window.size :=
  rfl

@[simp] theorem cursor_advance (count : Nat) (window : Window) :
    (window.advance count).cursor = window.cursor + count :=
  rfl

theorem position_advance (count : Nat) (window : Window) :
    (window.advance count).position = window.position + count :=
  (Nat.add_assoc ..).symm

theorem advance_advance (first second : Nat) (window : Window) :
    (window.advance first).advance second = window.advance (first + second) := by
  simp only [advance, Nat.add_assoc]

end Window

/-- The origin of a seek within a window. -/
inductive SeekMode where
  | set
  | current
  | fromEnd
  deriving DecidableEq, Repr, Inhabited

/-- What a device does for the pool. Reads and writes start at the cursor of the window and move
it, also when they fail on the way. -/
class Device (δ : Type) where
  kind : δ → DeviceKind
  /-- The identity of what the device was made for; the pool holds a key only once. -/
  key : δ → Nat
  /-- Windows begin and end at multiples of this. -/
  pageSize : δ → Nat
  /-- Checks the device before it is bound to a slot. -/
  start : EStateM Error δ Unit
  read : Nat → EStateM Error (Window × δ) ByteArray
  write : ByteArray → EStateM Error (Window × δ) Nat
  /-- Called when the slot of the device is released. -/
  stop : δ → δ

/-- Carries a read or write of a device over to a choice of devices. -/
def liftState {δ ε α : Type} (embed : δ → ε) (action : EStateM Error (Window × δ) α)
    (window : Window) (device : δ) : EStateM.Result Error (Window × ε) α :=
  match action (window, device) with
  | .ok value (window, device) => .ok value (window, embed device)
  | .error cause (window, device) => .error cause (window, embed device)

/-- A pool may hold devices of two types. -/
instance {δ ε : Type} [Device δ] [Device ε] : Device (δ ⊕ ε) where
  kind
    | .inl device => Device.kind device
    | .inr device => Device.kind device
  key
    | .inl device => Device.key device
    | .inr device => Device.key device
  pageSize
    | .inl device => Device.pageSize device
    | .inr device => Device.pageSize device
  start
    | .inl device =>
      match Device.start device with
      | .ok _ device => .ok () (.inl device)
      | .error cause device => .error cause (.inl device)
    | .inr device =>
      match Device.start device with
      | .ok _ device => .ok () (.inr device)
      | .error cause device => .error cause (.inr device)
  read length
    | (window, .inl device) => liftState .inl (Device.read length) window device
    | (window, .inr device) => liftState .inr (Device.read length) window device
  write bytes
    | (window, .inl device) => liftState .inl (Device.write bytes) window device
    | (window, .inr device) => liftState .inr (Device.write bytes) window device
  stop
    | .inl device => .inl (Device.stop device)
    | .inr device => .inr (Device.stop device)

end NorFlash.Block
