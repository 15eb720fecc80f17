import NorFlash.Proofs.PartCalls

/-!
The emulated part with every access checked: an index into the array or into the received bytes has
to be there, a range has to lie inside them, and addresses are wrapped around a length that is not
zero. In the states that a part of the table can get into no check fails, and the checked part does
what the part does.
-/
namespace NorFlash

namespace Bytes

/-- The byte at an index, if it is one of the array. -/
def byte? (bytes : ByteArray) (i : Nat) : Option UInt8 :=
  if i < bytes.size then some (byteAt bytes i) else none

/-- The array with a byte stored at an index, if it is one of the array. -/
def set? (bytes : ByteArray) (i : Nat) (byte : UInt8) : Option ByteArray :=
  if i < bytes.size then some (bytes.set! i byte) else none

/-- The bytes of `[start, stop)`, if this is a range of the array. -/
def extract? (bytes : ByteArray) (start stop : Nat) : Option ByteArray :=
  if start ≤ stop ∧ stop ≤ bytes.size then some (bytes.extract start stop) else none

/-- The array with `[start, stop)` filled with a byte, if this is a range of the array. -/
def fillRange? (bytes : ByteArray) (start stop : Nat) (byte : UInt8) : Option ByteArray :=
  if start ≤ stop ∧ stop ≤ bytes.size then some (overlay bytes start (fill (stop - start) byte))
  else none

/-- An index wrapped around a length, if there is one. -/
def wrap? (i length : Nat) : Option Nat :=
  if length = 0 then none else some (i % length)

section Checked

variable {bytes : ByteArray} {i start stop length : Nat}

theorem byte?_of_lt (h : i < bytes.size) : byte? bytes i = some (byteAt bytes i) :=
  if_pos h

theorem set?_of_lt (h : i < bytes.size) (byte : UInt8) :
    set? bytes i byte = some (bytes.set! i byte) :=
  if_pos h

theorem extract?_of_le (hstart : start ≤ stop) (hstop : stop ≤ bytes.size) :
    extract? bytes start stop = some (bytes.extract start stop) :=
  if_pos ⟨hstart, hstop⟩

theorem fillRange?_of_le (hstart : start ≤ stop) (hstop : stop ≤ bytes.size) (byte : UInt8) :
    fillRange? bytes start stop byte =
      some (overlay bytes start (fill (stop - start) byte)) :=
  if_pos ⟨hstart, hstop⟩

theorem wrap?_of_pos (h : 0 < length) (i : Nat) : wrap? i length = some (i % length) :=
  if_neg (Nat.ne_of_gt h)

end Checked

end Bytes

namespace Emulation.Chip

open Bytes (byte? set? extract? fillRange? wrap?)

/-- The array address spelled by the bytes received after the opcode. -/
def address? (chip : Chip) : Option Nat := do
  let high ← byte? chip.seen 1
  let middle ← byte? chip.seen 2
  let low ← byte? chip.seen 3
  let address := (high.toNat * 256 + middle.toNat) * 256 + low.toNat
  if chip.fourByte then
    let last ← byte? chip.seen 4
    return address * 256 + last.toNat
  else
    return chip.bank.toNat * 0x1000000 + address

def readByte? (chip : Chip) (n dummy : Nat) : Option UInt8 := do
  let start := chip.addressBytes + dummy
  if n < start then
    return 0xff
  let address ← chip.address?
  let place ← wrap? (address + (n - start)) chip.memory.size
  byte? chip.memory place

def answer? (chip : Chip) (n : Nat) (op : Opcode) : Option UInt8 :=
  match op.dummyBytes? with
  | some dummy => chip.readByte? n dummy
  | none => some (chip.answer n op)

def exchange? (byte : UInt8) (chip : Chip) : Option (UInt8 × Chip) := do
  if !chip.selected then
    return (0xff, chip)
  let index := chip.seen.size
  let chip := chip.receive byte
  if index = 0 then
    return (0xff, chip)
  let code ← byte? chip.seen 0
  match Opcode.ofByte? code with
  | none => return (0xff, chip)
  | some .readStatus =>
    let answer ← chip.answer? (index - 1) .readStatus
    return (answer, { chip with busy := chip.busy - 1 })
  | some op =>
    let answer ← chip.answer? (index - 1) op
    return (answer, chip)

def programFrom? (pageSize address : Nat) (bytes : ByteArray) :
    (left i : Nat) → ByteArray → Option ByteArray
  | 0, _, memory => some memory
  | left + 1, i, memory => do
    let offset ← wrap? address pageSize
    let place ← wrap? (address + i) pageSize
    let target ← wrap? (address - offset + place) memory.size
    let old ← byte? memory target
    let byte ← byte? bytes i
    let memory ← set? memory target (old &&& byte)
    programFrom? pageSize address bytes left (i + 1) memory

def eraseUnit? (unit address : Nat) (memory : ByteArray) : Option ByteArray := do
  let address ← wrap? address memory.size
  let offset ← wrap? address unit
  let start := address - offset
  fillRange? memory start (min (start + unit) memory.size) 0xff

def commit? (op : Opcode) (chip : Chip) : Option Chip := do
  let arguments := chip.seen.size - 1
  match op with
  | .writeBank | .writeExtendedAddress =>
    let bank ← if arguments = 0 then pure chip.bank else byte? chip.seen 1
    return { chip with bank := bank }.latchCleared
  | .writeStatus =>
    if !chip.writeEnabled || arguments = 0 then
      return chip
    let kept := ~~~(StatusBit.writeInProgress ||| StatusBit.writeEnabled)
    let status ← byte? chip.seen 1
    let config ← if arguments = 1 then pure chip.config else byte? chip.seen 2
    return { chip with status := status &&& kept, config }.beginWrite
  | .pageProgram | .quadPageProgram =>
    if !chip.writeEnabled || arguments ≤ chip.addressBytes then
      return chip
    let address ← chip.address?
    let bytes ← extract? chip.seen (1 + chip.addressBytes) chip.seen.size
    let memory ← programFrom? chip.pageSize address bytes bytes.size 0 chip.memory
    return { chip with memory }.latchCleared.beginWrite
  | .eraseSmallSector | .eraseSector =>
    if !chip.writeEnabled || arguments < chip.addressBytes then
      return chip
    let address ← chip.address?
    let memory ← eraseUnit? (chip.eraseSpan op) address chip.memory
    return { chip with memory }.latchCleared.beginWrite
  | _ => return chip.commit op

def deselect? (chip : Chip) : Option Chip := do
  if !chip.selected then
    return chip
  if chip.seen.size = 0 then
    return { chip with selected := false }
  let code ← byte? chip.seen 0
  let chip ← match Opcode.ofByte? code with
    | some op => chip.commit? op
    | none => some chip
  return { chip with selected := false, seen := .empty }

def select? (chip : Chip) : Option Chip := do
  let chip ← chip.deselect?
  return { chip with selected := true, seen := .empty }

/-- The part after a call with all accesses checked. -/
def Call.after? : Call → Chip → Option Chip
  | select, chip => chip.select?
  | deselect, chip => chip.deselect?
  | exchange byte, chip => (chip.exchange? byte).map (·.2)
  | setBusyPolls polls, chip => some { chip with busyPolls := polls }

def run? : List Call → Chip → Option Chip
  | [], chip => some chip
  | call :: calls, chip => do
    let chip ← call.after? chip
    run? calls chip

section Reads

variable {chip : Chip}

/-- An address is spelled once all of its bytes have been received. -/
theorem address?_eq (h : chip.addressBytes < chip.seen.size) :
    chip.address? = some chip.address := by
  unfold addressBytes at h
  unfold address? address
  cases hfour : chip.fourByte with
  | false =>
    rw [hfour, if_neg Bool.false_ne_true] at h
    rw [Bytes.byte?_of_lt (show 1 < chip.seen.size by omega),
      Bytes.byte?_of_lt (show 2 < chip.seen.size by omega), Bytes.byte?_of_lt h]
    rfl
  | true =>
    rw [hfour, if_pos rfl] at h
    rw [Bytes.byte?_of_lt (show 1 < chip.seen.size by omega),
      Bytes.byte?_of_lt (show 2 < chip.seen.size by omega),
      Bytes.byte?_of_lt (show 3 < chip.seen.size by omega), Bytes.byte?_of_lt h]
    rfl

variable (hmemory : 0 < chip.memory.size) {n : Nat} (hseen : chip.seen.size = n + 2)
include hmemory hseen

/-- By the time that array bytes are answered, the address has been received. -/
theorem readByte?_eq (dummy : Nat) : chip.readByte? n dummy = some (chip.readByte n dummy) := by
  unfold readByte? readByte
  by_cases hearly : n < chip.addressBytes + dummy
  · simp only [hearly, ↓reduceIte]
    rfl
  · have hplace := Nat.mod_lt (chip.address + (n - (chip.addressBytes + dummy))) hmemory
    simp only [hearly, ↓reduceIte]
    rw [address?_eq (by omega)]
    exact (congrArg (· >>= byte? chip.memory) (Bytes.wrap?_of_pos hmemory _)).trans
      (Bytes.byte?_of_lt hplace)

theorem answer?_eq (op : Opcode) : chip.answer? n op = some (chip.answer n op) := by
  unfold answer?
  cases hdummy : op.dummyBytes? with
  | none => rfl
  | some dummy =>
    have hanswer : chip.answer n op = chip.readByte n dummy := by
      cases op <;> simp only [Opcode.dummyBytes?, reduceCtorEq, Option.some.injEq] at hdummy <;>
        simp only [answer, Opcode.dummyBytes?, hdummy]
    rw [hanswer]
    exact readByte?_eq hmemory hseen dummy

end Reads

section Writes

variable {memory : ByteArray} (hmemory : 0 < memory.size)
include hmemory

theorem programFrom?_eq {pageSize : Nat} (hpage : 0 < pageSize) (address : Nat)
    {bytes : ByteArray} {left i : Nat} (hleft : i + left = bytes.size) :
    programFrom? pageSize address bytes left i memory =
      some (programFrom pageSize address bytes left i memory) := by
  induction left generalizing i memory with
  | zero => rfl
  | succ left ih =>
    have hwrapped (place : Nat) : place % memory.size < memory.size := Nat.mod_lt _ hmemory
    have hstored (place : Nat) (byte : UInt8) : 0 < (memory.set! place byte).size := by
      rwa [Bytes.size_set!]
    unfold programFrom? programFrom
    simp only [Bytes.wrap?_of_pos hpage, Bytes.wrap?_of_pos hmemory, Option.bind_eq_bind,
      Option.bind_some, Bytes.byte?_of_lt (hwrapped _), Bytes.set?_of_lt (hwrapped _),
      Bytes.byte?_of_lt (show i < bytes.size by omega)]
    exact ih (hstored _ _) (by omega)

theorem eraseUnit?_eq {unit : Nat} (hunit : 0 < unit) (address : Nat) :
    eraseUnit? unit address memory = some (eraseUnit unit address memory) := by
  have hplace := Nat.mod_lt address hmemory
  unfold eraseUnit?
  simp only [Bytes.wrap?_of_pos hunit, Bytes.wrap?_of_pos hmemory, Option.bind_eq_bind,
    Option.bind_some]
  exact Bytes.fillRange?_of_le (by omega) (by omega) 0xff

end Writes

theorem exchange?_eq {chip : Chip} (hmemory : 0 < chip.memory.size) (byte : UInt8) :
    chip.exchange? byte = some (chip.exchange byte) := by
  unfold exchange? exchange
  cases chip.selected with
  | false => rfl
  | true =>
    have hsize : (chip.receive byte).seen.size = chip.seen.size + 1 := ByteArray.size_push
    simp only [Bool.not_true, Bool.false_eq_true, ↓reduceIte]
    by_cases hfirst : chip.seen.size = 0
    · simp only [hfirst, ↓reduceIte]
      rfl
    · have hanswer (op : Opcode) : (chip.receive byte).answer? (chip.seen.size - 1) op =
          some ((chip.receive byte).answer (chip.seen.size - 1) op) := by
        refine @answer?_eq (chip.receive byte) hmemory (chip.seen.size - 1) ?_ op
        rw [hsize]
        omega
      have hcode := Bytes.byte?_of_lt (show 0 < (chip.receive byte).seen.size by omega)
      simp only [hfirst, hanswer, hcode, Option.bind_eq_bind, Option.bind_some, ↓reduceIte]
      cases Opcode.ofByte? (Bytes.byteAt (chip.receive byte).seen 0) with
      | none => rfl
      | some op => cases op <;> rfl

section Registers

variable {chip : Chip}

theorem commit?_bank {op : Opcode} (hop : op = .writeBank ∨ op = .writeExtendedAddress) :
    chip.commit? op = some (chip.commit op) := by
  by_cases harguments : chip.seen.size - 1 = 0
  · rcases hop with rfl | rfl <;> simp [commit?, commit, harguments]
  · have hbank := Bytes.byte?_of_lt (show 1 < chip.seen.size by omega)
    rcases hop with rfl | rfl <;> simp [commit?, commit, harguments, hbank]

theorem commit?_writeStatus : chip.commit? .writeStatus = some (chip.commit .writeStatus) := by
  unfold commit? commit
  dsimp only
  by_cases hrefused : (!chip.writeEnabled || decide (chip.seen.size - 1 = 0)) = true
  · rw [if_pos hrefused, if_pos hrefused]
    rfl
  · rw [if_neg hrefused, if_neg hrefused]
    rw [Bool.or_eq_true, not_or, decide_eq_true_iff] at hrefused
    simp only [Bytes.byte?_of_lt (show 1 < chip.seen.size by omega), Option.bind_eq_bind,
      Option.bind_some]
    by_cases hone : chip.seen.size - 1 = 1
    · rw [if_pos hone, if_pos hone]
      rfl
    · rw [if_neg hone, if_neg hone, Bytes.byte?_of_lt (show 2 < chip.seen.size by omega)]
      rfl

end Registers

namespace Sound

variable {chip : Chip} (h : chip.Sound)
include h

theorem commit?_program (mode : ProgramMode) :
    chip.commit? mode.opcode = some (chip.commit mode.opcode) := by
  have hchecked : chip.commit? mode.opcode =
      if !chip.writeEnabled || chip.seen.size - 1 ≤ chip.addressBytes then some chip else do
        let address ← chip.address?
        let bytes ← extract? chip.seen (1 + chip.addressBytes) chip.seen.size
        let memory ← programFrom? chip.pageSize address bytes bytes.size 0 chip.memory
        return { chip with memory }.latchCleared.beginWrite := by
    cases mode <;> rfl
  have hplain : chip.commit mode.opcode =
      if !chip.writeEnabled || chip.seen.size - 1 ≤ chip.addressBytes then chip
      else chip.rewritten
        (programFrom chip.pageSize chip.address chip.payload chip.payload.size 0) := by
    cases mode <;> rfl
  rw [hchecked, hplain]
  by_cases hrefused : (!chip.writeEnabled || chip.seen.size - 1 ≤ chip.addressBytes) = true
  · rw [if_pos hrefused, if_pos hrefused]
  · rw [if_neg hrefused, if_neg hrefused]
    have hlong : chip.addressBytes < chip.seen.size - 1 := by
      rw [Bool.or_eq_true, not_or, decide_eq_true_iff] at hrefused
      exact Nat.lt_of_not_le hrefused.2
    rw [address?_eq (by omega), Bytes.extract?_of_le (by omega) (Nat.le_refl _)]
    simp only [Option.bind_eq_bind, Option.bind_some]
    rw [programFrom?_eq h.memory_pos h.page_pos chip.address (Nat.zero_add _)]
    rfl

theorem commit?_erase {op : Opcode} (hop : op = .eraseSmallSector ∨ op = .eraseSector)
    (hseen : chip.seen.size ≠ 0) : chip.commit? op = some (chip.commit op) := by
  have hchecked : chip.commit? op =
      if !chip.writeEnabled || chip.seen.size - 1 < chip.addressBytes then some chip else do
        let address ← chip.address?
        let memory ← eraseUnit? (chip.eraseSpan op) address chip.memory
        return { chip with memory }.latchCleared.beginWrite := by
    rcases hop with rfl | rfl <;> rfl
  have hplain : chip.commit op =
      if !chip.writeEnabled || chip.seen.size - 1 < chip.addressBytes then chip
      else chip.rewritten (eraseUnit (chip.eraseSpan op) chip.address) := by
    rcases hop with rfl | rfl <;> rfl
  rw [hchecked, hplain]
  by_cases hrefused : (!chip.writeEnabled || chip.seen.size - 1 < chip.addressBytes) = true
  · rw [if_pos hrefused, if_pos hrefused]
  · rw [if_neg hrefused, if_neg hrefused]
    have hlong : chip.addressBytes ≤ chip.seen.size - 1 := by
      rw [Bool.or_eq_true, not_or, decide_eq_true_iff] at hrefused
      exact Nat.le_of_not_lt hrefused.2
    rw [address?_eq (by omega)]
    simp only [Option.bind_eq_bind, Option.bind_some]
    rw [eraseUnit?_eq h.memory_pos (h.span_pos op)]
    rfl

theorem commit?_eq (op : Opcode) (hseen : chip.seen.size ≠ 0) :
    chip.commit? op = some (chip.commit op) := by
  cases op with
  | writeBank => exact commit?_bank (.inl rfl)
  | writeExtendedAddress => exact commit?_bank (.inr rfl)
  | writeStatus => exact commit?_writeStatus
  | pageProgram => exact h.commit?_program .page
  | quadPageProgram => exact h.commit?_program .quadPage
  | eraseSmallSector => exact h.commit?_erase (.inl rfl) hseen
  | eraseSector => exact h.commit?_erase (.inr rfl) hseen
  | _ => rfl

theorem deselect?_eq : chip.deselect? = some chip.deselect := by
  unfold deselect? deselect
  cases chip.selected with
  | false => rfl
  | true =>
    simp only [Bool.not_true, Bool.false_eq_true, ↓reduceIte]
    by_cases hseen : chip.seen.size = 0
    · rw [if_pos hseen, if_pos hseen]
      rfl
    · rw [if_neg hseen, if_neg hseen, Bytes.byte?_of_lt (Nat.pos_of_ne_zero hseen)]
      simp only [Option.bind_eq_bind, Option.bind_some]
      cases Opcode.ofByte? (Bytes.byteAt chip.seen 0) with
      | none => rfl
      | some op => simp only [h.commit?_eq op hseen, Option.bind_some]; rfl

theorem after?_eq (call : Call) : call.after? chip = some (call.after chip) := by
  cases call with
  | select =>
    simp only [Call.after?, select?, h.deselect?_eq, Option.bind_eq_bind, Option.bind_some]
    rfl
  | deselect => exact h.deselect?_eq
  | exchange byte => exact congrArg (Option.map (·.2)) (exchange?_eq h.memory_pos byte)
  | setBusyPolls polls => rfl

omit h in
/-- No access of any run is out of bounds. -/
theorem run?_eq {chip : Chip} (h : chip.Sound) (calls : List Call) :
    run? calls chip = some (run calls chip) := by
  induction calls generalizing chip with
  | nil => rfl
  | cons call calls ih =>
    simp only [run?, h.after?_eq call, Option.bind_eq_bind, Option.bind_some]
    exact ih (h.called call)

end Sound

end Emulation.Chip

end NorFlash
