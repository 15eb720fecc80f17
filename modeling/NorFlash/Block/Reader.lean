import NorFlash.Block.Pool

/-!
An open entity as a stream of bytes. Reads stop at the end of the window, where they give nothing,
and positions are those within the window.
-/
namespace NorFlash.Block

/-- The origin and distance of a seek in a stream. -/
inductive SeekFrom where
  | start (n : Nat)
  | current (n : Int)
  | fromEnd (n : Int)
  deriving DecidableEq, Repr, Inhabited

/-- A source of bytes with a position. A read gives at most the bytes asked for, and none at the
end. -/
class ByteSource (σ : Type) where
  read : Nat → EStateM Error σ ByteArray
  seek : SeekFrom → EStateM Error σ Nat

namespace ByteSource

variable {σ : Type} [ByteSource σ]

/-- Reads `left` more bytes behind those read so far, or nothing when the source ends before. -/
def readExactFrom (left : Nat) (done : ByteArray) (source : σ) :
    EStateM.Result Error σ (Option ByteArray) :=
  if left = 0 then
    .ok (some done) source
  else
    match ByteSource.read left source with
    | .error cause source => .error cause source
    | .ok bytes source =>
      if bytes.size = 0 then .ok none source
      else readExactFrom (left - bytes.size) (done ++ bytes) source
termination_by left
decreasing_by omega

/-- Reads exactly `length` bytes, or nothing when the source ends before. -/
def readExact (length : Nat) : EStateM Error σ (Option ByteArray) :=
  readExactFrom length .empty

end ByteSource

/-- An entity with the pool that it is open on. -/
structure EntityReader (δ : Type) where
  pool : Pool δ
  entity : Entity

namespace EntityReader

variable {δ : Type}

/-- Carries an operation of the pool over to the reader. -/
def onPool {α : Type} (action : Entity → EStateM Error (Pool δ) α) :
    EStateM Error (EntityReader δ) α
  | ⟨pool, entity⟩ =>
    match action entity pool with
    | .ok value pool => .ok value ⟨pool, entity⟩
    | .error cause pool => .error cause ⟨pool, entity⟩

/-- The cursor within the window. -/
def position : EStateM Error (EntityReader δ) Nat := do
  let window ← onPool Pool.window
  return window.cursor

variable [Device δ]

def read (length : Nat) : EStateM Error (EntityReader δ) ByteArray := do
  let window ← onPool Pool.window
  let length := min length (window.size - window.cursor)
  if length = 0 then
    return .empty
  onPool (Pool.read · length)

/-- Seeks by signed 64-bit positions, which have to lie inside the window. -/
def seek (target : SeekFrom) : EStateM Error (EntityReader δ) Nat := do
  let window ← onPool Pool.window
  let position : Except Error Int := match target with
    | .start n => if n < 0x8000000000000000 then .ok (n : Int) else .error .invalidArgument
    | .current n => Pool.checkedAdd (Pool.signed window.cursor) n
    | .fromEnd n => Pool.checkedAdd (Pool.signed window.size) n
  match position with
  | .error cause => throw cause
  | .ok position =>
    onPool (Pool.seek · .set position)
    return position.toNat

instance : ByteSource (EntityReader δ) where
  read := read
  seek := seek

end EntityReader

end NorFlash.Block
