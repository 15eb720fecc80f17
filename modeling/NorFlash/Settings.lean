import NorFlash.Wire.Opcode

/-!
Everything about the platform that can be chosen: the bus clock and chip-select, the timeouts and
commands of the flash driver, and the regions used for storage.
-/
namespace NorFlash

inductive ReadMode where
  | arraySlow
  | arrayFast
  | dualOutputFast
  | quadOutputFast
  | dualIoFast
  | quadIoFast
  deriving DecidableEq, Repr, Inhabited

namespace ReadMode

def opcode : ReadMode → Opcode
  | arraySlow => .read
  | arrayFast => .fastRead
  | dualOutputFast => .dualOutputRead
  | quadOutputFast => .quadOutputRead
  | dualIoFast => .dualIoRead
  | quadIoFast => .quadIoRead

/-- Dummy bytes sent after the address. -/
def dummyBytes : ReadMode → Nat
  | quadIoFast => 2
  | arraySlow => 0
  | _ => 1

/-- The part has to have its quad enable bit set. -/
def isQuad : ReadMode → Bool
  | quadOutputFast | quadIoFast => true
  | _ => false

def name : ReadMode → String
  | arraySlow => "array-slow"
  | arrayFast => "array-fast"
  | dualOutputFast => "dual-output-fast"
  | quadOutputFast => "quad-output-fast"
  | dualIoFast => "dual-io-fast"
  | quadIoFast => "quad-io-fast"

def all : List ReadMode :=
  [arraySlow, arrayFast, dualOutputFast, quadOutputFast, dualIoFast, quadIoFast]

def ofName? (s : String) : Option ReadMode :=
  all.find? (·.name = s)

theorem dummyBytes?_opcode (mode : ReadMode) :
    mode.opcode.dummyBytes? = some mode.dummyBytes := by
  cases mode <;> rfl

end ReadMode

inductive ProgramMode where
  | page
  | quadPage
  deriving DecidableEq, Repr, Inhabited

namespace ProgramMode

def opcode : ProgramMode → Opcode
  | page => .pageProgram
  | quadPage => .quadPageProgram

/-- The part has to have its quad enable bit set. -/
def isQuad : ProgramMode → Bool
  | page => false
  | quadPage => true

def name : ProgramMode → String
  | page => "page-program"
  | quadPage => "quad-page-program"

def all : List ProgramMode :=
  [page, quadPage]

def ofName? (s : String) : Option ProgramMode :=
  all.find? (·.name = s)

end ProgramMode

/-- How two dies share the bus. -/
inductive Wiring where
  | single
  /-- One die after the other; addresses in the upper half go to the second die. -/
  | stacked
  /-- Both dies side by side, each with every other byte. -/
  | parallel
  deriving DecidableEq, Repr, Inhabited

namespace Wiring

def name : Wiring → String
  | single => "single"
  | stacked => "stacked"
  | parallel => "parallel"

def all : List Wiring :=
  [single, stacked, parallel]

def ofName? (s : String) : Option Wiring :=
  all.find? (·.name = s)

end Wiring

/-- How addresses above 16 MiB are reached. -/
inductive Addressing where
  /-- They are not: the upper bits are dropped. -/
  | threeByte
  /-- By three-byte addresses within the bank that a register selects. -/
  | bankRegister
  | fourByte
  deriving DecidableEq, Repr, Inhabited

namespace Addressing

def name : Addressing → String
  | threeByte => "three-byte"
  | bankRegister => "bank-register"
  | fourByte => "four-byte"

def all : List Addressing :=
  [threeByte, bankRegister, fourByte]

def ofName? (s : String) : Option Addressing :=
  all.find? (·.name = s)

end Addressing

structure FlashSettings where
  programTimeout : UInt32 := 2000
  eraseTimeout : UInt32 := 5000
  /-- Erase by 4 KiB on parts that can. -/
  smallSectors : Bool := true
  readMode : ReadMode := .arrayFast
  programMode : ProgramMode := .page
  wiring : Wiring := .single
  addressing : Addressing := .bankRegister
  deriving DecidableEq, Repr

instance : Inhabited FlashSettings := ⟨{}⟩

structure SpiSettings where
  /-- Physical address of the controller's registers. -/
  base : Nat := 0x08000000
  frequency : UInt32 := 37500000
  chipSelect : UInt8 := 0
  mode : UInt8 := 0
  deriving DecidableEq, Repr

instance : Inhabited SpiSettings := ⟨{}⟩

/-- A byte range given by its start and its length. -/
structure Region where
  offset : Nat
  length : Nat
  deriving DecidableEq, Repr, Inhabited

def Region.isAligned (region : Region) (pageSize : Nat) : Bool :=
  pageSize ≠ 0 && region.offset % pageSize = 0 && region.length % pageSize = 0

structure StorageSettings where
  pageSize : Nat := 2048
  scratch : Region := ⟨0x40000000, 0x800000⟩
  /-- Where the firmware image package lies in the flash. -/
  package : Region := ⟨0, 0x800000⟩
  deriving DecidableEq, Repr

instance : Inhabited StorageSettings := ⟨{}⟩

structure PlatformSettings where
  spi : SpiSettings := {}
  flash : FlashSettings := {}
  storage : StorageSettings := {}
  deriving DecidableEq, Repr

instance : Inhabited PlatformSettings := ⟨{}⟩

end NorFlash
