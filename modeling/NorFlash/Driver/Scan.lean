import NorFlash.Driver.Status
import NorFlash.Part.Table

/-!
Identifying the part and preparing it for use: write protection is cleared, quad mode enabled and
access above 16 MiB set up as the part and the settings need it.
-/
namespace NorFlash.Driver

variable {β : Type} [SpiBus β]

/-- Reads the ID bytes and looks them up. A failed transfer and an unknown answer both give
nothing. -/
def readId : Action β (Option Part) := do
  match ← attempt (onBus (Command.receive (Bytes.ofList [Opcode.readId.byte]) Part.maxIdLength)) with
  | .ok answer =>
    return Part.findById? (Bytes.toList (Bytes.resize answer Part.maxIdLength))
  | .error _ => return none

/-- Read-ID commands before a scan gives up. -/
def scanAttempts : Nat := 5

def identify : Nat → Action β Part
  | 0 => throw .partNotFound
  | attempts + 1 => do
    match ← readId with
    | some part => return part
    | none => identify attempts

/-- Parts of these vendors power up with their write protection on. -/
def powersUpProtected (part : Part) : Bool :=
  part.manufacturer = Manufacturer.atmel || part.manufacturer = Manufacturer.macronix ||
    part.manufacturer = Manufacturer.sst

/-- Sets the quad enable bit of a register, unless it is set, and reads it back. -/
def enableQuadBit (read : Action β UInt8) (write : UInt8 → Action β Unit) (bit : UInt8) :
    Action β Unit := do
  let value ← read
  if value &&& bit ≠ 0 then
    return ()
  write (value ||| bit)
  match ← attempt read with
  | .ok value => if value &&& bit ≠ 0 then return () else throw .quadEnableFailed
  | .error _ => throw .quadEnableFailed

/-- Enables quad mode in the way of the vendor. Micron parts need no bit for it. -/
def enableQuad (part : Part) : Action β Unit :=
  if part.manufacturer = Manufacturer.macronix then
    enableQuadBit readStatus writeStatus StatusBit.quadEnable
  else if part.manufacturer = Manufacturer.spansion ∨ part.manufacturer = Manufacturer.winbond then
    enableQuadBit readConfig writeConfig ConfigBit.quadEnable
  else if part.manufacturer = Manufacturer.micron then
    pure ()
  else
    throw .unsupportedVendor

/-- The commands of the bank register, which Spansion parts have of their own. -/
def bankCommands (part : Part) : Opcode × Opcode :=
  if part.manufacturer = Manufacturer.spansion then
    (.readBank, .writeBank)
  else
    (.readExtendedAddress, .writeExtendedAddress)

/-- Prepares access above 16 MiB on parts that are larger. -/
def setUpAddressing (part : Part) (geometry : Geometry) : Action β Unit := do
  if geometry.size ≤ Geometry.bankSize then
    return ()
  match (← getState).settings.addressing with
  | .threeByte => return ()
  | .fourByte => do
    onBus (Command.send (Bytes.ofList [Opcode.enterFourByte.byte]) .empty)
    modifyBus SpiBus.release
  | .bankRegister => do
    let (readCommand, writeCommand) := bankCommands part
    let answer ← receive (.ofOpcode readCommand.byte) 1
    modifyState fun state =>
      { state with bank := some ⟨readCommand, writeCommand, Bytes.byteAt answer 0⟩ }

/-- The steps of a scan, from the read-ID commands on. -/
def bringUp : Action β Geometry := do
  let part ← identify scanAttempts
  if powersUpProtected part then
    let _ ← attempt (writeStatus 0)
  let settings := (← getState).settings
  let geometry := Geometry.derive part settings
  modifyState fun state => { state with geometry := some geometry }
  if settings.readMode.isQuad || settings.programMode.isQuad then
    enableQuad part
  setUpAddressing part geometry
  return geometry

/-- Identifies the part and prepares it for use. Nothing is left of an earlier scan, nor of this
one when it fails. -/
def scan : Action β Geometry := do
  modifyState fun state => { state with lifecycle := .scanning, geometry := none, bank := none }
  match ← attempt bringUp with
  | .ok geometry =>
    modifyState fun state => { state with lifecycle := .ready }
    return geometry
  | .error cause =>
    modifyState fun state =>
      { state with lifecycle := .uninitialized, geometry := none, bank := none }
    throw cause

end NorFlash.Driver
