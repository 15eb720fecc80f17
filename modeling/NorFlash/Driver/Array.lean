import NorFlash.Driver.Status

/-!
Erasing, programming and reading the array of an identified part. A request is refused before
anything is sent, or it is cut into pieces that are carried out in order up to the first failure.
-/
namespace NorFlash.Driver

variable {β : Type} [SpiBus β]

/-- The geometry, for operations that need a part that is ready. -/
def requireReady : Action β Geometry := do
  let state ← getState
  match state.lifecycle, state.geometry with
  | .ready, some geometry => return geometry
  | _, _ => throw .notReady

def requireInside (geometry : Geometry) (offset length : Nat) : Action β Unit :=
  if geometry.contains offset length then pure () else throw .addressOutOfBounds

/-- The installed check takes the length as a 32-bit word. -/
def requireUnlocked (offset length : Nat) : Action β Unit := do
  if (← getState).lockCheck.any (· offset (length % UInt32.size)) then
    throw .regionProtected

/-- Erases the unit at a position. -/
def erasePiece (geometry : Geometry) (piece : Piece) : Action β Unit := do
  let address ← visit geometry piece.position
  write (.withAddress geometry.eraseCommand.byte geometry.width (.ofNat address)) none

def erasePieces (geometry : Geometry) : List Piece → Action β Unit
  | [] => pure ()
  | piece :: pieces => do
    erasePiece geometry piece
    erasePieces geometry pieces

/-- Erases `length` bytes at `offset`, both multiples of the erase size. -/
def erase (offset length : Nat) : Action β Unit := do
  let geometry ← requireReady
  if offset % geometry.eraseSize ≠ 0 ∨ length % geometry.eraseSize ≠ 0 then
    throw .misaligned
  requireInside geometry offset length
  requireUnlocked offset length
  erasePieces geometry (Piece.tile (fun _ => geometry.eraseSize) offset length)

/-- Programs the piece of the data that goes to its position; `offset` is that of the data. -/
def programPiece (geometry : Geometry) (offset : Nat) (data : ByteArray) (piece : Piece) :
    Action β Unit := do
  let address ← visit geometry piece.position
  let frame := .withAddress geometry.programMode.opcode.byte geometry.width (.ofNat address)
  write frame (some (Bytes.slice data (piece.position - offset) piece.length))

def programPieces (geometry : Geometry) (offset : Nat) (data : ByteArray) :
    List Piece → Action β Unit
  | [] => pure ()
  | piece :: pieces => do
    programPiece geometry offset data piece
    programPieces geometry offset data pieces

/-- Program commands without payload, sent at one position until one of them fails. -/
def programNothing (geometry : Geometry) (offset : Nat) : Nat → Action β Unit
  | 0 => throw .busyTimeout
  | attempts + 1 => do
    programPiece geometry offset .empty ⟨offset, 0⟩
    programNothing geometry offset attempts

/-- Far more commands than any bus survives that takes no payload at all. -/
def patience : Nat := 0x4000000000000000

/-- Programs data at `offset`, page by page. -/
def program (offset : Nat) (data : ByteArray) : Action β Unit := do
  let geometry ← requireReady
  requireInside geometry offset data.size
  requireUnlocked offset data.size
  let maxWrite : Option Nat ← fun driver =>
    let limit := SpiBus.maxWrite driver.bus
    .ok limit driver
  if maxWrite = some 0 ∧ data.size ≠ 0 then
    programNothing geometry offset patience
  else
    programPieces geometry offset data
      (Piece.tile (geometry.programLimit maxWrite) offset data.size)

/-- Reads the piece at a position. -/
def readPiece (geometry : Geometry) (piece : Piece) : Action β ByteArray := do
  let address ← visit geometry piece.position
  let frame := Frame.withAddress geometry.readMode.opcode.byte geometry.width (.ofNat address)
  let answer ← receive (frame.withDummy geometry.readMode.dummyBytes) piece.length
  return Bytes.resize answer piece.length

/-- Reads the pieces behind the bytes read so far. A failure is passed on only when nothing has
been read; later ones end the read early. -/
def readPieces (geometry : Geometry) : List Piece → (done : ByteArray) → Action β ByteArray
  | [], done => pure done
  | piece :: pieces, done => do
    match ← attempt (readPiece geometry piece) with
    | .ok bytes => readPieces geometry pieces (done ++ bytes)
    | .error cause => if done.size = 0 then throw cause else return done

/-- Reads `length` bytes at `offset`, or as many of the first ones as could be read. -/
def read (offset length : Nat) : Action β ByteArray := do
  let geometry ← requireReady
  requireInside geometry offset length
  readPieces geometry (Piece.tile geometry.readLimit offset length) .empty

end NorFlash.Driver
