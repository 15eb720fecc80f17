import NorFlash.Driver.Array
import NorFlash.Driver.Scan
import NorFlash.Emulation.Board
import NorFlash.Text.Layout
import NorFlash.Tool.Arguments
import NorFlash.Tool.Workspace

/-!
What every request does with the workspace: it prints, reads and writes files, opens the emulated
flash that an image file backs, and saves it again.
-/
namespace NorFlash.Tool

/-- Why a request fails. -/
inductive Failure where
  | file (cause : FileError)
  | setup (cause : Emulation.SetupError)
  | stack (cause : Error)
  | emptyInput (path : String)
  | zeroLength
  | outsideFlash (offset length size : Nat)
  | notErasable (offset length eraseSize : Nat)
  | verification
  /-- A package window in pages of no bytes: a division by zero, which ends the program. -/
  | zeroPageSize
  deriving DecidableEq, Repr

/-- What is told of a failure, if the program lives to tell it. -/
def Failure.message? : Failure → Option String
  | file cause => some cause.message
  | setup cause => some cause.message
  | stack cause => some cause.message
  | emptyInput path => some (Text.quoted path ++ " is empty")
  | zeroLength => some "--length must be non-zero"
  | outsideFlash offset length size =>
    some ("region " ++ Text.Hex.prefixed offset ++ "+" ++ Text.Hex.prefixed length ++
      " exceeds flash size " ++ Text.Hex.prefixed size)
  | notErasable offset length eraseSize =>
    some ("region " ++ Text.Hex.prefixed offset ++ "+" ++ Text.Hex.prefixed length ++
      " is not aligned to the " ++ Text.Hex.prefixed eraseSize ++ " byte erase size")
  | verification => some "verification failed: flash contents differ from input"
  | zeroPageSize => none

/-- The workspace with the text printed so far. -/
structure Session where
  workspace : Workspace
  printed : String := ""

/-- A step of a request; what it has printed and saved stays when it fails. -/
abbrev Run := EStateM Failure Session

namespace Run

def print (line : String) : Run Unit :=
  modify fun session => { session with printed := session.printed ++ line ++ "\n" }

def readFile (path : String) : Run ByteArray := do
  match (← get).workspace.read path with
  | .ok bytes => return bytes
  | .error cause => throw (.file cause)

def writeFile (path : String) (bytes : ByteArray) : Run Unit := do
  match (← get).workspace.write path bytes with
  | .ok workspace => modify fun session => { session with workspace }
  | .error cause => throw (.file cause)

end Run

/-- The driver over the emulated controller and part. -/
abbrev Flash := Driver (Controller.Engine Emulation.Board)

namespace Flash

/-- The emulated part with the image loaded; without an image file it is erased. -/
def loadChip (target : Target) : Run Emulation.Chip := do
  match Emulation.Chip.named target.chip with
  | .error cause => throw (.setup cause)
  | .ok chip =>
    if (← get).workspace.exists? target.image then
      let image ← Run.readFile target.image
      match chip.load image with
      | (.ok (), chip) => return chip
      | (.error cause, _) => throw (.setup cause)
    else
      return chip

/-- Carries out an operation of the driver. -/
def perform {α : Type} (action : Driver.Action (Controller.Engine Emulation.Board) α)
    (flash : Flash) : Run (α × Flash) :=
  match action flash with
  | .ok value flash => return (value, flash)
  | .error cause _ => throw (.stack cause)

/-- Builds the emulated flash of a target and scans it. -/
def openTarget (target : Target) (settings : PlatformSettings) : Run (Geometry × Flash) := do
  let chip ← loadChip target
  match Emulation.startEngine (.create chip) settings.spi with
  | .error cause => throw (.setup cause)
  | .ok engine => perform Driver.scan (Driver.create engine settings.flash)

/-- The contents of the part. -/
def memory (flash : Flash) : ByteArray :=
  flash.bus.hardware.controller.chip.memory

/-- Writes the contents of the part back to the image file. -/
def save (flash : Flash) (target : Target) : Run Unit := do
  let memory := flash.memory
  Run.writeFile target.image memory
  Run.print ("Saved " ++ toString memory.size ++ " bytes to " ++ Text.quoted target.image)

end Flash

end NorFlash.Tool
