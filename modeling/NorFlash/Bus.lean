import NorFlash.Error

/-!
The byte-level bus below the flash driver: half-duplex transfers with explicit framing by the
chip-select line. Any type with these operations serves as a bus.
-/
namespace NorFlash

/-- The place of a transfer in its transaction: chip-select is asserted before the first one and
released after the last one. -/
structure Framing where
  first : Bool
  last : Bool
  deriving DecidableEq, Repr, Inhabited

namespace Framing

def bits (framing : Framing) : UInt8 :=
  (if framing.first then 1 else 0) ||| (if framing.last then 2 else 0)

/-- Bits above the lowest two mean nothing. -/
def ofBits (bits : UInt8) : Framing :=
  ⟨bits &&& 1 ≠ 0, bits &&& 2 ≠ 0⟩

@[simp] theorem ofBits_bits (framing : Framing) : ofBits framing.bits = framing := by
  rcases framing with ⟨_ | _, _ | _⟩ <;> rfl

/-- A transaction of a single transfer. -/
def once : Framing := ⟨true, true⟩

end Framing

/-- A request to shift `bits` bits out of the payload, or idle bytes when there is none, and into
a buffer with room for `room` bytes, or nowhere when there is none. -/
structure Transfer where
  bits : Nat
  payload : Option ByteArray
  room : Option Nat
  framing : Framing

/-- What a bus does for the driver. A transfer that succeeds gives the bytes it received, at the
start of the buffer; it gives fewer than there is room for if it leaves the rest untouched. -/
class SpiBus (β : Type) where
  transfer : Transfer → EStateM Error β ByteArray
  /-- The largest payload of a program command, if there is a limit. -/
  maxWrite : β → Option Nat
  /-- Called after every complete flash command. -/
  release : β → β
  /-- Routes the following commands to the upper or the lower of two stacked dies. -/
  selectUpper : Bool → β → β
  /-- Waits for this many microseconds. -/
  delay : UInt32 → β → β

end NorFlash
