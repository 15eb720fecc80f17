import NorFlash.Block.Reader
import NorFlash.Block.Flash
import NorFlash.Package
import NorFlash.Tool.Session

/-!
Requests that read through the device pool, as an image loader does: a region into a file, and
the table of contents of the firmware image package.
-/
namespace NorFlash.Tool

open NorFlash.Block

/-- The driver as a device over the scratch buffer of the settings. -/
def storageDevice (storage : StorageSettings) (flash : Flash) : FlashDevice Flash :=
  ⟨0, ⟨storage.scratch, storage.pageSize⟩, storage.scratch.length, flash⟩

/-- Slots of the pool that requests read through. -/
def poolSlots : Nat := 2

/-- Binds a device to an empty pool and runs an operation with its handle. -/
def withDevice {α : Type} (device : FlashDevice Flash)
    (action : Handle → EStateM Error (Pool (FlashDevice Flash)) α) : Run α :=
  match Pool.register .flash (Pool.empty poolSlots) with
  | .error cause _ => throw (.stack cause)
  | .ok _ pool =>
    match Pool.deviceOpen device pool with
    | .error rejected _ => throw (.stack rejected.cause)
    | .ok handle pool =>
      match action handle pool with
      | .ok value _ => return value
      | .error cause _ => throw (.stack cause)

/-- The smallest window of whole pages around `[offset, offset + length)`. -/
def alignedWindow (offset length pageSize : Nat) : Region :=
  let base := offset / pageSize * pageSize
  let stop := (offset + length + pageSize - 1) / pageSize * pageSize
  ⟨base, stop - base⟩

/-- The most that is read through the pool at once. -/
def readChunk : Nat := 64 * 1024

/-- Reads pieces one after the other at the cursor of an entity. -/
def readPieces (entity : Entity) :
    List Piece → ByteArray → EStateM Error (Pool (FlashDevice Flash)) ByteArray
  | [], done => pure done
  | piece :: pieces, done => do
    let bytes ← Pool.read entity piece.length
    readPieces entity pieces (done ++ bytes)

/-- Reads a region through the pool into a file. -/
def read (target : Target) (settings : PlatformSettings) (offset length : Nat) (output : String) :
    Run Unit := do
  if length = 0 then
    throw .zeroLength
  let (geometry, flash) ← Flash.openTarget target settings
  if geometry.size < offset + length then
    throw (.outsideFlash offset length geometry.size)
  let bytes ← withDevice (storageDevice settings.storage flash) fun handle => do
    let window := alignedWindow offset length settings.storage.pageSize
    let entity ← Pool.openWindow handle window
    Pool.seek entity .set (offset - window.offset)
    let bytes ← readPieces entity (Piece.tile (fun _ => readChunk) 0 length) .empty
    Pool.close entity
    let _ ← Pool.deviceClose handle
    return bytes
  Run.writeFile output bytes
  Run.print ("Wrote " ++ toString bytes.size ++ " bytes to " ++ Text.quoted output)

/-- One line of the table of contents. -/
def entryLine (entry : Package.Entry) : String :=
  Text.left 10 ((Package.typeName? entry.uuid).getD "?") ++ " " ++
    Text.right 12 (Text.Hex.prefixed entry.offset) ++ " " ++
    Text.right 12 (Text.Hex.prefixed entry.size) ++ "  [" ++
    ", ".intercalate (entry.uuid.map Text.Hex.ofByte) ++ "]"

/-- Prints the table of contents of the package. The window for it is cut off at the end of the
flash and at a whole number of pages. -/
def listPackage (target : Target) (settings : PlatformSettings) : Run Unit := do
  let (geometry, flash) ← Flash.openTarget target settings
  let storage := settings.storage
  let length := min storage.package.length (geometry.size - storage.package.offset)
  if storage.pageSize = 0 then
    throw .zeroPageSize
  let window : Region :=
    ⟨storage.package.offset, length / storage.pageSize * storage.pageSize⟩
  let entries ← withDevice (storageDevice storage flash) fun handle => do
    Pool.check handle window
    let entity ← Pool.openWindow handle window
    fun pool =>
      match Package.readContents window.length (⟨pool, entity⟩ : EntityReader (FlashDevice Flash)) with
      | .ok entries reader => .ok entries reader.pool
      | .error cause reader => .error cause reader.pool
  Run.print ("FIP at " ++ Text.Hex.prefixed window.offset ++ " (" ++ toString entries.length ++
    " entries):")
  Run.print (Text.left 10 "Image" ++ " " ++ Text.right 12 "Offset" ++ " " ++
    Text.right 12 "Size" ++ "  UUID")
  Run.print (Text.rule 72)
  for entry in entries do
    Run.print (entryLine entry)

end NorFlash.Tool
