import NorFlash.Bytes
import NorFlash.Error
import NorFlash.Geometry
import NorFlash.Part.Table

/-!
A serial NOR part at the level of exchanged bytes. Read commands answer from the bytes seen since
the part was selected; commands that change the array or a register take effect when chip-select
is released.
-/
namespace NorFlash.Emulation

structure Chip where
  part : Part
  memory : ByteArray
  pageSize : Nat
  status : UInt8
  config : UInt8
  bank : UInt8
  fourByte : Bool
  /-- Status reads that report a write in progress after each program, erase or status write. -/
  busyPolls : Nat
  /-- How many of them are left. -/
  busy : Nat
  selected : Bool
  /-- The bytes received since the part was selected. -/
  seen : ByteArray

/-- Why an emulated part cannot be set up. -/
inductive SetupError where
  | imageTooLarge (image size : Nat)
  | unknownChip (name : String)
  | badSettings (cause : Error)
  deriving DecidableEq, Repr

def SetupError.message : SetupError → String
  | imageTooLarge image size =>
    "image of " ++ toString image ++ " bytes does not fit a " ++ toString size ++ " byte flash"
  | unknownChip name => "unknown flash chip: " ++ name
  | badSettings cause => "bad SPI configuration: " ++ cause.message

namespace Chip

/-- An erased part. -/
def erased (part : Part) : Chip where
  part := part
  memory := Bytes.fill part.size 0xff
  pageSize := (Geometry.derive part {}).pageSize
  status := 0
  config := 0
  bank := 0
  fourByte := false
  busyPolls := 0
  busy := 0
  selected := false
  seen := .empty

/-- An erased part looked up in the table. -/
def named (name : String) : Except SetupError Chip :=
  match Part.findByName? name with
  | some part => .ok (erased part)
  | none => .error (.unknownChip name)

/-- Applies a change to the array alone. -/
def mapMemory (change : ByteArray → ByteArray) : Chip → Chip
  | ⟨part, memory, pageSize, status, config, bank, fourByte, busyPolls, busy, selected, seen⟩ =>
    ⟨part, change memory, pageSize, status, config, bank, fourByte, busyPolls, busy, selected,
      seen⟩

/-- Copies an image to the start of the array. -/
def load (image : ByteArray) (chip : Chip) : Except SetupError Unit × Chip :=
  let size := chip.memory.size
  if size < image.size then
    (.error (.imageTooLarge image.size size), chip)
  else
    (.ok (), chip.mapMemory (Bytes.overlay · 0 image))

/-- The named part with an image at the start of its array. -/
def withImage (name : String) (image : ByteArray) : Except SetupError Chip :=
  match named name with
  | .error cause => .error cause
  | .ok chip =>
    match chip.load image with
    | (.ok (), chip) => .ok chip
    | (.error cause, _) => .error cause

def writeEnabled (chip : Chip) : Bool :=
  chip.status &&& StatusBit.writeEnabled ≠ 0

/-- The write enable latch cleared, as every completed write does. -/
def latchCleared (chip : Chip) : Chip :=
  { chip with status := chip.status &&& ~~~StatusBit.writeEnabled }

def addressBytes (chip : Chip) : Nat :=
  if chip.fourByte then 4 else 3

/-- The array address spelled by the bytes received after the opcode. -/
def address (chip : Chip) : Nat :=
  let byte (i : Nat) : Nat := (Bytes.byteAt chip.seen (i + 1)).toNat
  let low := (byte 0 * 256 + byte 1) * 256 + byte 2
  if chip.fourByte then low * 256 + byte 3 else chip.bank.toNat * 0x1000000 + low

/-- Byte `n` after the opcode of an array read with some dummy bytes. -/
def readByte (chip : Chip) (n dummy : Nat) : UInt8 :=
  let start := chip.addressBytes + dummy
  if n < start then
    0xff
  else
    Bytes.byteAt chip.memory ((chip.address + (n - start)) % chip.memory.size)

/-- The answer to byte `n` after the opcode. -/
def answer (chip : Chip) (n : Nat) : Opcode → UInt8
  | .readId => chip.part.idBytes.getD n 0
  | .readStatus =>
    if chip.busy = 0 then chip.status else chip.status ||| StatusBit.writeInProgress
  | .readFlagStatus => if chip.busy = 0 then FlagStatusBit.controllerIdle else 0
  | .readConfig => chip.config
  | .readBank | .readExtendedAddress => chip.bank
  | op =>
    match op.dummyBytes? with
    | some dummy => chip.readByte n dummy
    | none => 0xff

/-- The chip after it has received one more byte. -/
def receive (byte : UInt8) : Chip → Chip
  | ⟨part, memory, pageSize, status, config, bank, fourByte, busyPolls, busy, selected, seen⟩ =>
    ⟨part, memory, pageSize, status, config, bank, fourByte, busyPolls, busy, selected,
      seen.push byte⟩

/-- Clocks one byte in and gives the byte clocked out. Every status read uses up one of the reads
that report a write in progress. -/
def exchange (byte : UInt8) (chip : Chip) : UInt8 × Chip :=
  if !chip.selected then
    (0xff, chip)
  else
    let index := chip.seen.size
    let chip := chip.receive byte
    if index = 0 then
      (0xff, chip)
    else
      match Opcode.ofByte? (Bytes.byteAt chip.seen 0) with
      | none => (0xff, chip)
      | some .readStatus =>
        let answer := chip.answer (index - 1) .readStatus
        (answer, { chip with busy := chip.busy - 1 })
      | some op => (chip.answer (index - 1) op, chip)

/-- Clears bits of the array by the bytes numbered `i` and later, of which `left` are left. What
goes past the end of the page goes on at its start. -/
def programFrom (pageSize address : Nat) (bytes : ByteArray) :
    (left i : Nat) → ByteArray → ByteArray
  | 0, _, memory => memory
  | left + 1, i, memory =>
    let start := address - address % pageSize
    let target := (start + (address + i) % pageSize) % memory.size
    let byte := Bytes.byteAt memory target &&& Bytes.byteAt bytes i
    programFrom pageSize address bytes left (i + 1) (memory.set! target byte)

/-- Sets the aligned unit that holds an address to `0xff`. -/
def eraseUnit (unit address : Nat) (memory : ByteArray) : ByteArray :=
  let address := address % memory.size
  let start := address - address % unit
  let stop := min (start + unit) memory.size
  Bytes.overlay memory start (Bytes.fill (stop - start) 0xff)

/-- The chip with a write begun: busy for as many status reads as are set. -/
def beginWrite (chip : Chip) : Chip :=
  { chip with busy := chip.busyPolls }

/-- Applies a command of which the bytes up to the release of chip-select are known. -/
def commit (op : Opcode) (chip : Chip) : Chip :=
  let arguments := chip.seen.size - 1
  match op with
  | .writeEnable => { chip with status := chip.status ||| StatusBit.writeEnabled }
  | .writeDisable => chip.latchCleared
  | .enterFourByte => { chip with fourByte := true }
  | .exitFourByte => { chip with fourByte := false }
  | .writeBank | .writeExtendedAddress =>
    let bank := if arguments = 0 then chip.bank else Bytes.byteAt chip.seen 1
    { chip with bank := bank }.latchCleared
  | .writeStatus =>
    if !chip.writeEnabled || arguments = 0 then
      chip
    else
      let kept := ~~~(StatusBit.writeInProgress ||| StatusBit.writeEnabled)
      let status := Bytes.byteAt chip.seen 1 &&& kept
      let config := if arguments = 1 then chip.config else Bytes.byteAt chip.seen 2
      { chip with status, config }.beginWrite
  | .pageProgram | .quadPageProgram =>
    let width := chip.addressBytes
    if !chip.writeEnabled || arguments ≤ width then
      chip
    else
      let address := chip.address
      let pageSize := chip.pageSize
      let bytes := chip.seen.extract (1 + width) chip.seen.size
      (chip.mapMemory (programFrom pageSize address bytes bytes.size 0)).latchCleared.beginWrite
  | .eraseSmallSector | .eraseSector =>
    if !chip.writeEnabled || arguments < chip.addressBytes then
      chip
    else
      let address := chip.address
      let unit := if op = .eraseSmallSector then 4096 else chip.part.sectorSize.toNat
      (chip.mapMemory (eraseUnit unit address)).latchCleared.beginWrite
  | _ => chip

/-- Chip-select is released: a write command that was received takes effect. -/
def deselect (chip : Chip) : Chip :=
  if !chip.selected then
    chip
  else if chip.seen.size = 0 then
    { chip with selected := false }
  else
    let chip := match Opcode.ofByte? (Bytes.byteAt chip.seen 0) with
      | some op => chip.commit op
      | none => chip
    { chip with selected := false, seen := .empty }

/-- Chip-select is asserted, which first ends a transaction that is still open. -/
def select (chip : Chip) : Chip :=
  { chip.deselect with selected := true, seen := .empty }

def exchangeFrom (bytes : ByteArray) : (left i : Nat) → (answers : ByteArray) → Chip →
    ByteArray × Chip
  | 0, _, answers, chip => (answers, chip)
  | left + 1, i, answers, chip =>
    match chip.exchange (Bytes.byteAt bytes i) with
    | (answer, chip) => exchangeFrom bytes left (i + 1) (answers.push answer) chip

/-- Clocks bytes in one after the other and gives the bytes clocked out. -/
def exchangeAll (bytes : ByteArray) (chip : Chip) : ByteArray × Chip :=
  exchangeFrom bytes bytes.size 0 .empty chip

def programmedFrom (memory : ByteArray) : (left count : Nat) → Nat
  | 0, count => count
  | left + 1, count =>
    programmedFrom memory left (if memory.get! left = 0xff then count else count + 1)

/-- The number of array bytes that are not erased. -/
def programmedBytes (chip : Chip) : Nat :=
  programmedFrom chip.memory chip.memory.size 0

end Chip

end NorFlash.Emulation
