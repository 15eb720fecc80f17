import NorFlash.Wire.Address

/-!
The bytes of a command phase: an opcode, an optional address and dummy bytes, eight at most.
-/
namespace NorFlash

structure Frame where
  opcode : UInt8
  rest : List UInt8
  length_rest_le : rest.length ≤ 7

namespace Frame

def capacity : Nat := 8

/-- A frame with nothing but its opcode. -/
def ofOpcode (opcode : UInt8) : Frame :=
  ⟨opcode, [], by simp⟩

def withAddress (opcode : UInt8) (width : AddressWidth) (address : UInt32) : Frame :=
  ⟨opcode, width.encode address, by cases width <;> simp [AddressWidth.bytes]⟩

/-- Appends zero bytes for the dummy cycles, as many as fit into the frame. -/
def withDummy (frame : Frame) (count : Nat) : Frame :=
  ⟨frame.opcode, frame.rest ++ List.replicate (min count (7 - frame.rest.length)) 0, by
    have := frame.length_rest_le
    simp
    omega⟩

def toList (frame : Frame) : List UInt8 :=
  frame.opcode :: frame.rest

def bytes (frame : Frame) : ByteArray :=
  Bytes.ofList frame.toList

def size (frame : Frame) : Nat :=
  frame.rest.length + 1

@[simp] theorem length_toList (frame : Frame) : frame.toList.length = frame.size :=
  rfl

theorem size_le_capacity (frame : Frame) : frame.size ≤ capacity := by
  have := frame.length_rest_le
  simp only [size, capacity]
  omega

@[simp] theorem toList_bytes (frame : Frame) : Bytes.toList frame.bytes = frame.toList :=
  rfl

@[simp] theorem toList_ofOpcode (opcode : UInt8) : (ofOpcode opcode).toList = [opcode] :=
  rfl

@[simp] theorem toList_withAddress (opcode : UInt8) (width : AddressWidth) (address : UInt32) :
    (withAddress opcode width address).toList = opcode :: width.encode address :=
  rfl

end Frame

end NorFlash
