import NorFlash.Block.Basic
import NorFlash.Bytes

/-!
A device over an image in memory. Positions are those of the image, and any range inside it can be
read and written.
-/
namespace NorFlash.Block

structure MemoryDevice where
  key : Nat
  memory : ByteArray

namespace MemoryDevice

def read (length : Nat) : EStateM Error (Window × MemoryDevice) ByteArray
  | (window, device) =>
    let start := window.position
    if start + length ≤ device.memory.size then
      .ok (Bytes.slice device.memory start length) (window.advance length, device)
    else
      .error .addressOutOfBounds (window, device)

def write (bytes : ByteArray) : EStateM Error (Window × MemoryDevice) Nat
  | (window, ⟨key, memory⟩) =>
    let start := window.position
    if start + bytes.size ≤ memory.size then
      .ok bytes.size (window.advance bytes.size, ⟨key, Bytes.overlay memory start bytes⟩)
    else
      .error .addressOutOfBounds (window, ⟨key, memory⟩)

instance : Device MemoryDevice where
  kind _ := .memory
  key := key
  pageSize _ := 1
  start := pure ()
  read := read
  write := write
  stop device := device

end MemoryDevice

end NorFlash.Block
