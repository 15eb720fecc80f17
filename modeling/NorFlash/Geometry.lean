import NorFlash.Part.Basic
import NorFlash.Settings
import NorFlash.Wire.Address

/-!
The layout of an identified part under the chosen settings, the place of a logical position on
the dies, and the cutting of a request into the pieces that one command can carry.
-/
namespace NorFlash

namespace Wiring

/-- Parallel dies double every unit: sizes are shifted by one bit. -/
def shift : Wiring → Nat
  | parallel => 1
  | _ => 0

end Wiring

structure Geometry where
  part : Part
  pageSize : Nat
  /-- Bytes that one erase command clears. -/
  eraseSize : Nat
  size : Nat
  eraseCommand : Opcode
  readMode : ReadMode
  programMode : ProgramMode
  /-- Readiness is also polled through the flag status register. -/
  useFlagStatus : Bool
  wiring : Wiring
  width : AddressWidth
  deriving DecidableEq, Repr, Inhabited

/-- A position on one of the dies. -/
structure Location where
  upper : Bool
  address : Nat
  deriving DecidableEq, Repr, Inhabited

/-- A part of a request: a logical position and a number of bytes. -/
structure Piece where
  position : Nat
  length : Nat
  deriving DecidableEq, Repr, Inhabited

namespace Geometry

/-- The span of a three-byte address. -/
def bankSize : Nat := 0x1000000

/-- Pages are 512 bytes where the extended ID says so, which the two smallest parts of that
family do wrongly. -/
def pageSizeOf (part : Part) : UInt32 :=
  if part.extendedId = 0x4d00 ∧ part.device ≠ 0x0215 ∧ part.device ≠ 0x0216 then 512
  else part.pageSize

/-- Sizes are 32-bit words. -/
def derive (part : Part) (settings : FlashSettings) : Geometry :=
  let shift := UInt32.ofNat settings.wiring.shift
  let sector := part.sectorSize <<< shift
  let array := (sector * part.sectors) <<< shift
  let size := (if settings.wiring = .stacked then array <<< 1 else array).toNat
  let small := settings.smallSectors && part.features.contains .smallSector
  { part := part
    pageSize := (pageSizeOf part <<< shift).toNat
    eraseSize := if small then 4096 <<< settings.wiring.shift else sector.toNat
    size := size
    eraseCommand := if small then .eraseSmallSector else .eraseSector
    readMode := settings.readMode
    programMode := settings.programMode
    useFlagStatus := part.features.contains .flagStatus
    wiring := settings.wiring
    width := if settings.addressing = .fourByte ∧ bankSize < size then .four else .three }

variable (geometry : Geometry)

/-- Bytes that one value of the bank register covers. -/
def bankSpan : Nat :=
  bankSize <<< geometry.wiring.shift

/-- Whether `[offset, offset + length)` lies inside the part. -/
def contains (offset length : Nat) : Bool :=
  offset + length ≤ geometry.size

/-- Where a logical position lies. Of parallel dies the address is that of a pair of bytes. -/
def locate (position : Nat) : Location :=
  match geometry.wiring with
  | .single => ⟨false, position⟩
  | .stacked =>
    let half := geometry.size / 2
    if half ≤ position then ⟨true, position - half⟩ else ⟨false, position⟩
  | .parallel => ⟨false, position / 2⟩

/-- The value of the bank register for an address. -/
def bankOf (address : Nat) : Nat :=
  address / geometry.bankSpan

/-- Bytes up to the end of the bank and, on the lower of two stacked dies, of the die. -/
def readLimit (position : Nat) : Nat :=
  let place := geometry.locate position
  let bankLeft := geometry.bankSpan * (geometry.bankOf place.address + 1) - place.address
  if geometry.wiring = .stacked ∧ place.upper = false then
    min bankLeft (geometry.size / 2 - place.address)
  else
    bankLeft

/-- Bytes up to the end of the page, and no more than the bus takes in one payload. -/
def programLimit (maxWrite : Option Nat) (position : Nat) : Nat :=
  let pageLeft := geometry.pageSize - position % geometry.pageSize
  match maxWrite with
  | none => pageLeft
  | some limit => min pageLeft limit

end Geometry

namespace Piece

/-- Consecutive pieces of `[position, position + length)` behind those already in `done`, each as
long as the limit at its position admits and never empty. -/
def tileInto (limit : Nat → Nat) (position length : Nat) (done : Array Piece) : Array Piece :=
  if length = 0 then
    done
  else
    let n := min length (max 1 (limit position))
    tileInto limit (position + n) (length - n) (done.push ⟨position, n⟩)
termination_by length
decreasing_by omega

/-- The pieces of `[position, position + length)`, in order. -/
def tile (limit : Nat → Nat) (position length : Nat) : List Piece :=
  (tileInto limit position length #[]).toList

theorem tileInto_toList (limit : Nat → Nat) (position length : Nat) (done : Array Piece) :
    (tileInto limit position length done).toList =
      done.toList ++ (tileInto limit position length #[]).toList := by
  induction length using Nat.strongRecOn generalizing position done with
  | _ length ih =>
    by_cases h : length = 0
    · simp [tileInto, h]
    · have hlt : length - min length (max 1 (limit position)) < length := by omega
      rw [tileInto.eq_def limit position length done, tileInto.eq_def limit position length #[]]
      simp only [h, ↓reduceIte]
      rw [ih _ hlt, ih _ hlt _ (#[].push _)]
      simp

theorem tile_zero (limit : Nat → Nat) (position : Nat) : tile limit position 0 = [] := by
  simp [tile, tileInto]

theorem tile_of_ne_zero (limit : Nat → Nat) (position : Nat) {length : Nat} (h : length ≠ 0) :
    tile limit position length =
      ⟨position, min length (max 1 (limit position))⟩ ::
        tile limit (position + min length (max 1 (limit position)))
          (length - min length (max 1 (limit position))) := by
  simp only [tile]
  rw [tileInto]
  simp only [h, ↓reduceIte]
  rw [tileInto_toList]
  simp

/-- A range within its limit is one piece. -/
theorem tile_of_le {limit : Nat → Nat} {position length : Nat} (hlength : length ≠ 0)
    (hle : length ≤ max 1 (limit position)) :
    tile limit position length = [⟨position, length⟩] := by
  rw [tile_of_ne_zero _ _ hlength, Nat.min_eq_left hle, Nat.sub_self, tile_zero]

end Piece

end NorFlash
