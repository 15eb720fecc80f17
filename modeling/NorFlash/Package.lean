import NorFlash.Block.Reader
import NorFlash.Bytes

/-!
Firmware image packages: a header of 16 bytes, entries of 40 bytes that end with an entry whose
identifier is all zeros, and the images behind them. All numbers are little-endian.
-/
namespace NorFlash.Package

open NorFlash.Block (ByteSource)

/-- The first word of every package. -/
def magic : Nat := 0xaa640001

/-- Images that a package may list. -/
def maxEntries : Nat := 16

/-- An image in a package, with its place relative to the start of the package. -/
structure Entry where
  uuid : List UInt8
  offset : Nat
  size : Nat
  flags : Nat
  deriving DecidableEq, Repr, Inhabited

/-- The identifiers of well-known image types with their short names. -/
def knownTypes : List (List UInt8 × String) := [
  ([0x5f, 0xf9, 0xec, 0x0b, 0x4d, 0x22, 0x3e, 0x4d,
    0xa5, 0x44, 0xc3, 0x9d, 0x81, 0xc7, 0x3f, 0x0a], "BL2"),
  ([0x97, 0x66, 0xfd, 0x3d, 0x89, 0xbe, 0xe8, 0x49,
    0xae, 0x5d, 0x78, 0xa1, 0x40, 0x60, 0x82, 0x13], "SCP_BL2"),
  ([0x47, 0xd4, 0x08, 0x6d, 0x4c, 0xfe, 0x98, 0x46,
    0x9b, 0x95, 0x29, 0x50, 0xcb, 0xbd, 0x5a, 0x00], "BL31"),
  ([0x05, 0xd0, 0xe1, 0x89, 0x53, 0xdc, 0x13, 0x47,
    0x8d, 0x2b, 0x50, 0x0a, 0x4b, 0x7a, 0x3e, 0x38], "BL32"),
  ([0xd6, 0xd0, 0xee, 0xa7, 0xfc, 0xea, 0xd5, 0x4b,
    0x97, 0x82, 0x99, 0x34, 0xf2, 0x34, 0xb6, 0xe4], "BL33")]

/-- The short name of an image type, if it is well known. -/
def typeName? (uuid : List UInt8) : Option String :=
  (knownTypes.find? (·.1 = uuid)).map (·.2)

/-- The number that a list of bytes spells, least significant first. -/
def littleEndian (bytes : List UInt8) : Nat :=
  bytes.foldr (fun byte value => value * 256 + byte.toNat) 0

def headerSize : Nat := 16

def entrySize : Nat := 40

def Entry.ofBytes (record : List UInt8) : Entry where
  uuid := record.take 16
  offset := littleEndian ((record.drop 16).take 8)
  size := littleEndian ((record.drop 24).take 8)
  flags := littleEndian ((record.drop 32).take 8)

/-- The entry that ends the list has an identifier of zeros only. -/
def Entry.isLast (entry : Entry) : Bool :=
  entry.uuid.all (· = 0)

variable {σ : Type} [ByteSource σ]

/-- Reads a record of a fixed size, which must not be cut off. -/
def readRecord (size : Nat) : EStateM Error σ (List UInt8) := do
  match ← ByteSource.readExact size with
  | some bytes => return Bytes.toList bytes
  | none => throw .invalidImage

/-- Reads the entries behind those read so far, of which `room` more are allowed. Every image has
to lie inside the package. -/
def readEntries (length : Nat) : (room : Nat) → List Entry → EStateM Error σ (List Entry)
  | room, entries => do
    let entry := Entry.ofBytes (← readRecord entrySize)
    if entry.isLast then
      return entries.reverse
    if length < entry.offset + entry.size then
      throw .invalidImage
    match room with
    | 0 => throw .noSpace
    | room + 1 => readEntries length room (entry :: entries)

/-- Reads the table of contents of a package of `length` bytes. -/
def readContents (length : Nat) : EStateM Error σ (List Entry) := do
  let _ ← ByteSource.seek (.start 0)
  let header ← readRecord headerSize
  if littleEndian (header.take 4) ≠ magic then
    throw .invalidImage
  readEntries length maxEntries []

/-- The first entry with this identifier. -/
def find? (entries : List Entry) (uuid : List UInt8) : Option Entry :=
  entries.find? (·.uuid = uuid)

/-- Reads the image of an entry into the front of a buffer, and tells its size. -/
def readImageInto (entry : Entry) (buffer : ByteArray) : EStateM Error σ (Nat × ByteArray) := do
  if buffer.size < entry.size then
    throw .bufferTooSmall
  if entry.size = 0 then
    return (0, buffer)
  let _ ← ByteSource.seek (.start entry.offset)
  match ← ByteSource.readExact entry.size with
  | some bytes => return (entry.size, Bytes.overlay buffer 0 bytes)
  | none => throw .invalidImage

/-- Reads the image of an entry with a buffer of `capacity` bytes. -/
def readImage (entry : Entry) (capacity : Nat) : EStateM Error σ ByteArray := do
  let (size, buffer) ← readImageInto entry (Bytes.fill capacity 0)
  return Bytes.slice buffer 0 size

end NorFlash.Package
