/-!
The causes for which an operation on the storage stack fails, shared by every layer from the
transfer engine to the device pool, with their wording and their general kind.
-/
namespace NorFlash

inductive Error where
  /-- The length of a transfer is not a whole number of bytes. -/
  | partialByte
  /-- Stale receive data could not be drained before a transfer. -/
  | receiveNotEmpty
  /-- A byte was sent and no answer came in time. -/
  | transferTimeout
  | partNotFound
  | unsupportedVendor
  | quadEnableFailed
  /-- The part stayed busy for the whole poll budget. -/
  | busyTimeout
  /-- The part has not been identified yet. -/
  | notReady
  | addressOutOfBounds
  | misaligned
  | bufferTooSmall
  | regionProtected
  | invalidArgument
  | noSpace
  | busy
  | notFound
  /-- Devices of this kind have no connector in the pool. -/
  | notRegistered
  | deviceFailure
  | invalidImage
  deriving DecidableEq, Repr, Inhabited

namespace Error

def message : Error → String
  | partialByte => "SPI transfer is not a multiple of 8 bits"
  | receiveNotEmpty => "SPI receive FIFO not empty"
  | transferTimeout => "SPI transfer timed out"
  | partNotFound => "flash chip not found"
  | unsupportedVendor => "unsupported vendor"
  | quadEnableFailed => "quad enable bit not set"
  | busyTimeout => "operation timed out"
  | notReady => "flash not scanned"
  | addressOutOfBounds => "address out of bounds"
  | misaligned => "misaligned request"
  | bufferTooSmall => "buffer too small"
  | regionProtected => "region is protected"
  | invalidArgument => "invalid argument"
  | noSpace => "no space left in device pool"
  | busy => "device busy"
  | notFound => "no such device"
  | notRegistered => "no connector registered for device type"
  | deviceFailure => "I/O error"
  | invalidImage => "invalid firmware image package"

/-- What an error means to a consumer of byte streams. -/
inductive Kind where
  | other
  | notFound
  | permissionDenied
  | addressInUse
  | invalidInput
  | invalidData
  | timedOut
  | unsupported
  | outOfMemory
  deriving DecidableEq, Repr

def kind : Error → Kind
  | transferTimeout | busyTimeout => .timedOut
  | invalidArgument | misaligned | addressOutOfBounds | bufferTooSmall => .invalidInput
  | invalidImage => .invalidData
  | noSpace => .outOfMemory
  | notFound | notRegistered | partNotFound => .notFound
  | unsupportedVendor => .unsupported
  | regionProtected => .permissionDenied
  | busy => .addressInUse
  | partialByte | receiveNotEmpty | quadEnableFailed | notReady | deviceFailure => .other

end Error

end NorFlash
