import NorFlash.Tool.Session

/-!
Requests that change the part: erasing a region and programming a file. The image is saved only
after everything else has succeeded.
-/
namespace NorFlash.Tool

/-- Erases units one after the other. -/
def eraseUnits (unit : Nat) :
    List Piece → Driver.Action (Controller.Engine Emulation.Board) Unit
  | [] => pure ()
  | piece :: pieces => do
    Driver.erase piece.position unit
    eraseUnits unit pieces

/-- Erases a region, a unit at a time, and saves the image. -/
def erase (target : Target) (settings : PlatformSettings) (offset length : Nat) : Run Unit := do
  let (geometry, flash) ← Flash.openTarget target settings
  let unit := geometry.eraseSize
  if offset % unit ≠ 0 ∨ length % unit ≠ 0 then
    throw (.notErasable offset length unit)
  let (_, flash) ← flash.perform (eraseUnits unit (Piece.tile (fun _ => unit) offset length))
  Run.print ("Erased " ++ toString length ++ " bytes starting at " ++ Text.Hex.address offset)
  flash.save target

/-- The most that is programmed at once. -/
def writeChunk : Nat := 4096

/-- Programs the pieces of the data, whose positions are those within the data. -/
def programPieces (offset : Nat) (data : ByteArray) :
    List Piece → Driver.Action (Controller.Engine Emulation.Board) Unit
  | [] => pure ()
  | piece :: pieces => do
    Driver.program (offset + piece.position) (Bytes.slice data piece.position piece.length)
    programPieces offset data pieces

/-- Programs the contents of a file and saves the image. Programming only clears bits, so the
flash is read back to see whether it now holds the data. -/
def write (target : Target) (settings : PlatformSettings) (offset : Nat) (input : String) :
    Run Unit := do
  let data ← Run.readFile input
  if data.size = 0 then
    throw (.emptyInput input)
  let (_, flash) ← Flash.openTarget target settings
  let (_, flash) ← flash.perform
    (programPieces offset data (Piece.tile (fun _ => writeChunk) 0 data.size))
  let (check, flash) ← flash.perform (Driver.read offset data.size)
  if check != data then
    throw .verification
  Run.print ("Wrote " ++ toString data.size ++ " bytes at " ++ Text.Hex.address offset)
  flash.save target

end NorFlash.Tool
