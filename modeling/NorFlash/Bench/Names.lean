import NorFlash.Error
import NorFlash.Settings

/-!
Names by which trial scripts and their records refer to errors and settings.
-/
namespace NorFlash

namespace Error

def name : Error → String
  | partialByte => "SpiTransferFailed"
  | receiveNotEmpty => "RxFifoNotEmpty"
  | transferTimeout => "SpiTimeout"
  | partNotFound => "ChipNotFound"
  | unsupportedVendor => "UnsupportedVendor"
  | quadEnableFailed => "QuadEnableFailed"
  | busyTimeout => "Timeout"
  | notReady => "NotReady"
  | addressOutOfBounds => "AddressOutOfBounds"
  | misaligned => "InvalidAlignment"
  | bufferTooSmall => "BufferTooSmall"
  | regionProtected => "RegionProtected"
  | invalidArgument => "InvalidArgument"
  | noSpace => "NoSpace"
  | busy => "Busy"
  | notFound => "NotFound"
  | notRegistered => "NotRegistered"
  | deviceFailure => "IoError"
  | invalidImage => "InvalidImage"

def all : List Error :=
  [partialByte, receiveNotEmpty, transferTimeout, partNotFound, unsupportedVendor,
    quadEnableFailed, busyTimeout, notReady, addressOutOfBounds, misaligned, bufferTooSmall,
    regionProtected, invalidArgument, noSpace, busy, notFound, notRegistered, deviceFailure,
    invalidImage]

def ofName? (s : String) : Option Error :=
  all.find? (·.name = s)

theorem ofName?_name (e : Error) : ofName? e.name = some e := by
  cases e <;> decide

def Kind.name : Kind → String
  | other => "Other"
  | notFound => "NotFound"
  | permissionDenied => "PermissionDenied"
  | addressInUse => "AddrInUse"
  | invalidInput => "InvalidInput"
  | invalidData => "InvalidData"
  | timedOut => "TimedOut"
  | unsupported => "Unsupported"
  | outOfMemory => "OutOfMemory"

end Error

/-- The name of a wiring in a record. -/
def Wiring.title : Wiring → String
  | single => "Single"
  | stacked => "Stacked"
  | parallel => "Parallel"

/-- The name of a read mode in a record. -/
def ReadMode.title : ReadMode → String
  | arraySlow => "ArraySlow"
  | arrayFast => "ArrayFast"
  | dualOutputFast => "DualOutputFast"
  | quadOutputFast => "QuadOutputFast"
  | dualIoFast => "DualIoFast"
  | quadIoFast => "QuadIoFast"

/-- The name of a program mode in a record. -/
def ProgramMode.title : ProgramMode → String
  | page => "PageProgram"
  | quadPage => "QuadPageProgram"

end NorFlash
