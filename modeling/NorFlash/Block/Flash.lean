import NorFlash.Block.Basic
import NorFlash.Bytes
import NorFlash.Driver.Array

/-!
A device over raw flash. Every raw read goes to a scratch buffer, from which the bytes asked for
are copied out; a request larger than the buffer becomes a series of raw reads. A raw read may
deliver fewer bytes than requested, and its count is what advances the cursor.
-/
namespace NorFlash.Block

/-- Flash that is read and written at 32-bit addresses. A read is given a buffer, which it may
leave in any state also when it fails, and answers with the count of bytes that it claims to have
put there. -/
class RawFlash (ρ : Type) where
  read : (address : Nat) → EStateM Error (ByteArray × ρ) Nat
  write : (address : Nat) → ByteArray → EStateM Error ρ Nat

instance {β : Type} [SpiBus β] : RawFlash (Driver β) where
  read address
    | (buffer, driver) =>
      match Driver.read address buffer.size driver with
      | .ok bytes driver => .ok bytes.size (Bytes.overlay buffer 0 bytes, driver)
      | .error cause driver => .error cause (buffer, driver)
  write address bytes := do
    Driver.program address bytes
    return bytes.size

/-- Raw flash of either of two types. -/
instance {ρ τ : Type} [RawFlash ρ] [RawFlash τ] : RawFlash (ρ ⊕ τ) where
  read address
    | (buffer, .inl raw) =>
      match RawFlash.read address (buffer, raw) with
      | .ok count (buffer, raw) => .ok count (buffer, .inl raw)
      | .error cause (buffer, raw) => .error cause (buffer, .inl raw)
    | (buffer, .inr raw) =>
      match RawFlash.read address (buffer, raw) with
      | .ok count (buffer, raw) => .ok count (buffer, .inr raw)
      | .error cause (buffer, raw) => .error cause (buffer, .inr raw)
  write address bytes
    | .inl raw =>
      match RawFlash.write address bytes raw with
      | .ok count raw => .ok count (.inl raw)
      | .error cause raw => .error cause (.inl raw)
    | .inr raw =>
      match RawFlash.write address bytes raw with
      | .ok count raw => .ok count (.inr raw)
      | .error cause raw => .error cause (.inr raw)

/-- The description of a flash device: where its scratch buffer lies, and the alignment of the
buffer and of windows. -/
structure FlashSpec where
  buffer : Region
  pageSize : Nat
  deriving DecidableEq, Repr, Inhabited

/-- A scratch buffer, which starts out zeroed. Only the bytes that have been written are kept. -/
structure Scratch where
  length : Nat
  written : ByteArray := .empty

/-- A fresh scratch buffer of a length. -/
instance : Coe Nat Scratch where
  coe length := { length }

namespace Scratch

/-- The first `count` bytes. -/
def take (count : Nat) (scratch : Scratch) : ByteArray :=
  Bytes.resize scratch.written count

/-- The buffer with its first bytes replaced. -/
def put (bytes : ByteArray) (scratch : Scratch) : Scratch :=
  { scratch with written := Bytes.overlay scratch.written 0 bytes }

end Scratch

structure FlashDevice (ρ : Type) where
  key : Nat
  spec : FlashSpec
  scratch : Scratch
  raw : ρ

namespace FlashDevice

variable {ρ : Type}

def isPowerOfTwo (n : Nat) : Bool :=
  n ≠ 0 && 1 <<< n.log2 = n

/-- Whether page size, buffer and scratch fit each other. -/
def isValid (device : FlashDevice ρ) : Bool :=
  let spec := device.spec
  isPowerOfTwo spec.pageSize && spec.buffer.length ≠ 0 && spec.buffer.isAligned spec.pageSize &&
    device.scratch.length = spec.buffer.length

variable [RawFlash ρ]

/-- One raw read into the first `request` bytes of the scratch buffer. -/
def rawRead (address request : Nat) : EStateM Error (Scratch × ρ) Nat
  | (scratch, raw) =>
    match RawFlash.read address (scratch.take request, raw) with
    | .ok count (buffer, raw) => .ok count (scratch.put (Bytes.resize buffer request), raw)
    | .error cause (buffer, raw) => .error cause (scratch.put (Bytes.resize buffer request), raw)

/-- One raw read at the cursor for at most `left` bytes, which has to deliver something and no
more than it was asked for. -/
def fetchOnce (left : Nat) : EStateM Error (Window × FlashDevice ρ) ByteArray
  | (window, ⟨key, spec, scratch, raw⟩) =>
    let address := window.position
    let request := min left scratch.length
    if UInt32.size ≤ address then
      .error .deviceFailure (window, ⟨key, spec, scratch, raw⟩)
    else
      match rawRead address request (scratch, raw) with
      | .error _ (scratch, raw) => .error .deviceFailure (window, ⟨key, spec, scratch, raw⟩)
      | .ok count (scratch, raw) =>
        if 0 < count ∧ count ≤ request then
          .ok (scratch.take count) (window.advance count, ⟨key, spec, scratch, raw⟩)
        else
          .error .deviceFailure (window, ⟨key, spec, scratch, raw⟩)

/-- Fetches `left` more bytes behind the first `done` bytes of a buffer, and tells how many bytes
the buffer then holds. What was fetched before a failure stays in it. -/
def fetchFrom (left done : Nat) (buffer : ByteArray) (state : Window × FlashDevice ρ) :
    (Except Error Nat × ByteArray) × (Window × FlashDevice ρ) :=
  if left = 0 then
    ((.ok done, buffer), state)
  else
    match fetchOnce left state with
    | .error cause state => ((.error cause, buffer), state)
    | .ok bytes state =>
      if bytes.size = 0 then
        ((.error .deviceFailure, buffer), state)
      else
        fetchFrom (left - bytes.size) (done + bytes.size) (Bytes.overlay buffer done bytes) state
termination_by left
decreasing_by omega

/-- Fills a buffer from the cursor on. -/
def readInto (buffer : ByteArray) :
    Window × FlashDevice ρ → (Except Error Nat × ByteArray) × (Window × FlashDevice ρ) :=
  fetchFrom buffer.size 0 buffer

def read (length : Nat) : EStateM Error (Window × FlashDevice ρ) ByteArray
  | state =>
    match readInto (Bytes.fill length 0) state with
    | ((.ok _, buffer), state) => .ok buffer state
    | ((.error cause, _), state) => .error cause state

instance : Device (FlashDevice ρ) where
  kind _ := .flash
  key := key
  pageSize device := device.spec.pageSize
  start device := if device.isValid then .ok () device else .error .invalidArgument device
  read := read
  write _ := pure 0
  stop device := device

end FlashDevice

end NorFlash.Block
