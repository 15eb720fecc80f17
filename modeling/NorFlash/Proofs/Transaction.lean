import NorFlash.Command
import NorFlash.Proofs.ByteStream
import NorFlash.Wire.Address

/-!
Complete commands on a part whose chip-select is released: what the data phase answers and what
the part is after the release. Array commands are described for addresses that reach the part,
which is a matter of its address mode and its bank register.
-/
namespace NorFlash

namespace Emulation.Chip

/-- Chip-select is released and nothing is left of the last command. -/
structure Quiet (chip : Chip) : Prop where
  released : chip.selected = false
  unseen : chip.seen = .empty

/-- Chip-select is released, nothing is left of the last command, and the stored status register
shows no write in progress. -/
structure AtRest (chip : Chip) : Prop where
  released : chip.selected = false
  unseen : chip.seen = .empty
  settled : chip.status &&& StatusBit.writeInProgress = 0

theorem AtRest.quiet {chip : Chip} (h : chip.AtRest) : chip.Quiet :=
  ⟨h.released, h.unseen⟩

/-- The part while it is selected and has received these bytes. -/
def hearing (chip : Chip) (bytes : List UInt8) : Chip :=
  { chip with selected := true, seen := Bytes.ofList bytes }

/-- A command phase and a data phase under one assertion of chip-select. -/
def transact (command data : List UInt8) (chip : Chip) : List UInt8 × Chip :=
  let clocked := (chip.select.clock command).2.clock data
  (clocked.1, clocked.2.deselect)

theorem eta_of_released (chip : Chip) (hreleased : chip.selected = false)
    (hunseen : chip.seen = .empty) : { chip with selected := false, seen := .empty } = chip := by
  rw [← hreleased, ← hunseen]

theorem Quiet.select_eq {chip : Chip} (h : chip.Quiet) : chip.select = chip.hearing [] := by
  rw [select, deselect_of_released h.released]
  rfl

theorem hearing_push (chip : Chip) (bytes : List UInt8) (byte : UInt8) :
    (chip.hearing bytes).receive byte = chip.hearing (bytes ++ [byte]) := by
  have hseen : (Bytes.ofList bytes).push byte = Bytes.ofList (bytes ++ [byte]) :=
    Bytes.toList_injective (by simp)
  change { chip with selected := true, seen := (Bytes.ofList bytes).push byte } = _
  rw [hseen]
  rfl

theorem exchange_opcode (chip : Chip) (byte : UInt8) :
    (chip.hearing []).exchange byte = (0xff, chip.hearing [byte]) := by
  have hpush := hearing_push chip [] byte
  simp only [List.nil_append] at hpush
  rw [← hpush]
  rfl

/-- After the opcode every byte is answered by the opcode; only status reads change the part. -/
theorem exchange_hearing {op : Opcode} (hop : op ≠ .readStatus) (chip : Chip) (rest : List UInt8)
    (byte : UInt8) :
    (chip.hearing (op.byte :: rest)).exchange byte =
      ((chip.hearing (op.byte :: rest ++ [byte])).answer rest.length op,
        chip.hearing (op.byte :: rest ++ [byte])) := by
  have hselected (bytes : List UInt8) : (chip.hearing bytes).selected = true := rfl
  have hsize : (chip.hearing (op.byte :: rest)).seen.size = rest.length + 1 := rfl
  have hfirst : Bytes.byteAt (chip.hearing (op.byte :: rest ++ [byte])).seen 0 = op.byte := by
    simp [hearing]
  unfold exchange
  simp only [hselected, hsize, hearing_push, hfirst, Opcode.ofByte?_byte, Bool.not_true,
    Bool.false_eq_true, Nat.add_one_ne_zero, ↓reduceIte, Nat.add_sub_cancel]

theorem exchange_readStatus (chip : Chip) (byte : UInt8) :
    (chip.hearing [Opcode.readStatus.byte]).exchange byte =
      (chip.answer 0 .readStatus,
        { chip with busy := chip.busy - 1 }.hearing [Opcode.readStatus.byte, byte]) :=
  rfl

theorem clock_hearing {op : Opcode} (hop : op ≠ .readStatus) (chip : Chip)
    (rest bytes : List UInt8) :
    ((chip.hearing (op.byte :: rest)).clock bytes).2 =
      chip.hearing (op.byte :: rest ++ bytes) := by
  induction bytes generalizing rest with
  | nil => simp
  | cons byte bytes ih =>
    rw [clock_cons, exchange_hearing hop]
    simpa using ih (rest ++ [byte])

/-- The answers to a data phase, when each depends only on its number and on what was received
before the data phase. -/
theorem answers_hearing {op : Opcode} (hop : op ≠ .readStatus) (chip : Chip)
    (rest bytes : List UInt8) (f : Nat → UInt8)
    (hf : ∀ more n, rest.length ≤ n →
      (chip.hearing (op.byte :: rest ++ more)).answer n op = f n) :
    ((chip.hearing (op.byte :: rest)).clock bytes).1 =
      (List.range' rest.length bytes.length).map f := by
  induction bytes generalizing rest with
  | nil => rfl
  | cons byte bytes ih =>
    rw [clock_cons, exchange_hearing hop]
    have hrest := ih (rest ++ [byte]) (fun more n hn => by
      have h := hf (byte :: more) n (by simp at hn; omega)
      simpa using h)
    simp only [List.length_cons, List.range'_succ, List.map_cons, hf [byte] _ (Nat.le_refl _)]
    simpa using hrest

/-- Release after a command that the part knows. -/
theorem deselect_hearing (op : Opcode) (chip : Chip) (rest : List UInt8) :
    (chip.hearing (op.byte :: rest)).deselect =
      { (chip.hearing (op.byte :: rest)).commit op with selected := false, seen := .empty } := by
  have hfirst : Bytes.byteAt (chip.hearing (op.byte :: rest)).seen 0 = op.byte := by
    simp [hearing]
  have hselected : (chip.hearing (op.byte :: rest)).selected = true := rfl
  have hsize : (chip.hearing (op.byte :: rest)).seen.size = rest.length + 1 := rfl
  unfold deselect
  simp only [hselected, hsize, hfirst, Opcode.ofByte?_byte, Bool.not_true, Bool.false_eq_true,
    Nat.add_one_ne_zero, ↓reduceIte]

section Commands

variable {chip : Chip} (h : chip.Quiet)
include h

theorem transact_eq {op : Opcode} (hop : op ≠ .readStatus) (rest data : List UInt8) :
    chip.transact (op.byte :: rest) data =
      (((chip.hearing (op.byte :: rest)).clock data).1,
        { (chip.hearing (op.byte :: rest ++ data)).commit op with
          selected := false, seen := .empty }) := by
  have hcommand : (chip.select.clock (op.byte :: rest)).2 = chip.hearing (op.byte :: rest) := by
    rw [h.select_eq, clock_cons, exchange_opcode, clock_hearing hop]
    rfl
  unfold transact
  simp only [hcommand, clock_hearing hop]
  rw [List.cons_append, deselect_hearing]

/-- A command that only asks leaves the part as it was. -/
theorem transact_of_commit {op : Opcode} (hop : op ≠ .readStatus)
    (hcommit : ∀ chip : Chip, chip.commit op = chip) (rest data : List UInt8) :
    chip.transact (op.byte :: rest) data =
      (((chip.hearing (op.byte :: rest)).clock data).1, chip) := by
  rw [transact_eq h hop, hcommit]
  exact Prod.ext rfl (eta_of_released chip h.released h.unseen)

theorem transact_readStatus (byte : UInt8) :
    chip.transact [Opcode.readStatus.byte] [byte] =
      ([chip.answer 0 .readStatus], { chip with busy := chip.busy - 1 }) := by
  have hcommand : (chip.select.clock [Opcode.readStatus.byte]).2 =
      chip.hearing [Opcode.readStatus.byte] := by
    rw [h.select_eq, clock_cons, exchange_opcode]
    rfl
  unfold transact
  rw [hcommand, clock_cons, exchange_readStatus]
  simp only [clock_nil]
  rw [deselect_hearing]
  have hsame : { chip with busy := chip.busy - 1, selected := false, seen := .empty } =
      { chip with busy := chip.busy - 1 } :=
    eta_of_released { chip with busy := chip.busy - 1 } h.released h.unseen
  exact Prod.ext rfl hsame

/-- A one-byte register other than the status register. -/
theorem transact_register {op : Opcode} (hop : op ≠ .readStatus)
    (hcommit : ∀ chip : Chip, chip.commit op = chip) (byte : UInt8) :
    chip.transact [op.byte] [byte] = ([(chip.hearing [op.byte, byte]).answer 0 op], chip) := by
  rw [transact_of_commit h hop hcommit, clock_cons, exchange_hearing hop]
  rfl

theorem transact_readId (data : List UInt8) :
    chip.transact [Opcode.readId.byte] data =
      ((List.range data.length).map fun n => chip.part.idBytes.getD n 0, chip) := by
  rw [transact_of_commit h (by decide) (fun _ => rfl),
    answers_hearing (by decide) chip [] data (fun n => chip.part.idBytes.getD n 0)
      (fun _ _ _ => rfl), List.range_eq_range']
  rfl

/-- The part after a command that takes effect on its release. -/
theorem transact_commit {op : Opcode} (hop : op ≠ .readStatus) {rest data : List UInt8}
    {after : Chip} (hcommit : (chip.hearing (op.byte :: rest ++ data)).commit op =
      after.hearing (op.byte :: rest ++ data))
    (hreleased : after.selected = false) (hunseen : after.seen = .empty) :
    (chip.transact (op.byte :: rest) data).2 = after := by
  rw [transact_eq h hop, hcommit]
  exact eta_of_released after hreleased hunseen

theorem transact_writeEnable :
    (chip.transact [Opcode.writeEnable.byte] []).2 =
      { chip with status := chip.status ||| StatusBit.writeEnabled } :=
  transact_commit h (by decide) rfl h.released h.unseen

theorem transact_enterFourByte :
    (chip.transact [Opcode.enterFourByte.byte] []).2 = { chip with fourByte := true } :=
  transact_commit h (by decide) rfl h.released h.unseen

/-- The bank register changes as soon as the command is released, whether or not writing is
enabled. -/
theorem transact_bank {op : Opcode} (hop : op = .writeBank ∨ op = .writeExtendedAddress)
    (bank : UInt8) :
    (chip.transact [op.byte] [bank]).2 = { chip with bank }.latchCleared := by
  rcases hop with rfl | rfl
  · exact transact_commit h (by decide) rfl h.released h.unseen
  · exact transact_commit h (by decide) rfl h.released h.unseen

theorem transact_writeStatus (hw : chip.writeEnabled) (status : UInt8) (more : List UInt8) :
    (chip.transact [Opcode.writeStatus.byte] (status :: more)).2 =
      { chip with
        status := status &&& ~~~(StatusBit.writeInProgress ||| StatusBit.writeEnabled)
        config := more.head?.getD chip.config
        busy := chip.busyPolls } := by
  refine transact_commit h (by decide) ?_ h.released h.unseen
  have henabled (bytes : List UInt8) : (chip.hearing bytes).writeEnabled = true := hw
  cases more with
  | nil =>
    simp only [commit, henabled]
    rfl
  | cons config more =>
    simp only [commit, henabled]
    rfl

end Commands

/-- An address sent in this width is taken by the part for the address itself. -/
def Reaches (chip : Chip) (width : AddressWidth) (target : Nat) : Prop :=
  match width with
  | .three => chip.fourByte = false ∧ chip.bank.toNat = target / 0x1000000 ∧ target < UInt32.size
  | .four => chip.fourByte = true ∧ target < UInt32.size

/-- The bytes received after the opcode and the address. -/
def payload (chip : Chip) : ByteArray :=
  chip.seen.extract (1 + chip.addressBytes) chip.seen.size

/-- The array bytes that an erase command clears at once. -/
def eraseSpan (chip : Chip) (op : Opcode) : Nat :=
  if op = .eraseSmallSector then 4096 else chip.part.sectorSize.toNat

theorem commit_program {chip : Chip} (hw : chip.writeEnabled)
    (hlong : chip.addressBytes < chip.seen.size - 1) (mode : ProgramMode) :
    chip.commit mode.opcode =
      (chip.mapMemory (programFrom chip.pageSize chip.address chip.payload chip.payload.size
        0)).latchCleared.beginWrite := by
  have hargs : ¬ chip.seen.size - 1 ≤ chip.addressBytes := by omega
  cases mode <;> simp only [ProgramMode.opcode, commit, hw, hargs, Bool.not_true, Bool.false_or,
    decide_false, Bool.false_eq_true, ↓reduceIte, payload]

theorem commit_erase {chip : Chip} (hw : chip.writeEnabled)
    (hlong : chip.addressBytes ≤ chip.seen.size - 1) {op : Opcode}
    (hop : op = .eraseSmallSector ∨ op = .eraseSector) :
    chip.commit op =
      (chip.mapMemory (eraseUnit (chip.eraseSpan op) chip.address)).latchCleared.beginWrite := by
  have hargs : ¬ chip.seen.size - 1 < chip.addressBytes := by omega
  rcases hop with rfl | rfl <;> simp only [commit, hw, hargs, Bool.not_true, Bool.false_or,
    decide_false, Bool.false_eq_true, ↓reduceIte, eraseSpan, reduceCtorEq]

section ArrayCommands

variable {chip : Chip} {width : AddressWidth} {target : Nat} (hr : chip.Reaches width target)
include hr

theorem Reaches.addressBytes_eq (bytes : List UInt8) :
    (chip.hearing bytes).addressBytes = width.bytes := by
  cases width with
  | three => simp [Chip.addressBytes, hearing, hr.1, AddressWidth.bytes]
  | four => simp [Chip.addressBytes, hearing, hr.1, AddressWidth.bytes]

theorem Reaches.address_eq (op : UInt8) (more : List UInt8) :
    (chip.hearing (op :: (width.encode (.ofNat target) ++ more))).address = target := by
  cases width with
  | three =>
    obtain ⟨hfour, hbank, hlt⟩ := hr
    have hdecode := AddressWidth.decode_encode_three (.ofNat target)
    obtain ⟨a, b, c, hbytes⟩ : ∃ a b c, AddressWidth.three.encode (.ofNat target) = [a, b, c] :=
      ⟨_, _, _, rfl⟩
    rw [UInt32.toNat_ofNat_of_lt' hlt, hbytes] at hdecode
    simp only [AddressWidth.decode, List.foldl_cons, List.foldl_nil, Nat.zero_mul,
      Nat.zero_add] at hdecode
    rw [hbytes]
    calc
      (chip.hearing (op :: ([a, b, c] ++ more))).address =
          chip.bank.toNat * 0x1000000 + ((a.toNat * 256 + b.toNat) * 256 + c.toNat) := by
        simp [Chip.address, hearing, hfour]
      _ = 0x1000000 * (target / 0x1000000) + target % 0x1000000 := by
        rw [hdecode, hbank, Nat.mul_comm]
      _ = target := Nat.div_add_mod target 0x1000000
  | four =>
    obtain ⟨hfour, hlt⟩ := hr
    have hdecode := AddressWidth.decode_encode_four (.ofNat target)
    obtain ⟨a, b, c, d, hbytes⟩ :
        ∃ a b c d, AddressWidth.four.encode (.ofNat target) = [a, b, c, d] :=
      ⟨_, _, _, _, rfl⟩
    rw [UInt32.toNat_ofNat_of_lt' hlt, hbytes] at hdecode
    simp only [AddressWidth.decode, List.foldl_cons, List.foldl_nil, Nat.zero_mul,
      Nat.zero_add] at hdecode
    rw [hbytes]
    calc
      (chip.hearing (op :: ([a, b, c, d] ++ more))).address =
          ((a.toNat * 256 + b.toNat) * 256 + c.toNat) * 256 + d.toNat := by
        simp [Chip.address, hearing, hfour]
      _ = target := hdecode

/-- An array read answers with the bytes from the address on. -/
theorem Reaches.transact_read (h : chip.Quiet) (mode : ReadMode) (data : List UInt8)
    (hin : target + data.length ≤ chip.memory.size) :
    chip.transact (mode.opcode.byte ::
        (width.encode (.ofNat target) ++ List.replicate mode.dummyBytes 0)) data =
      (Bytes.toList (Bytes.slice chip.memory target data.length), chip) := by
  let rest := width.encode (.ofNat target) ++ List.replicate mode.dummyBytes 0
  have hop : mode.opcode ≠ .readStatus := by cases mode <;> decide
  have hcommit (chip : Chip) : chip.commit mode.opcode = chip := by cases mode <;> rfl
  have hanswer (chip : Chip) (n : Nat) :
      chip.answer n mode.opcode = chip.readByte n mode.dummyBytes := by
    cases mode <;> rfl
  have hlength : rest.length = width.bytes + mode.dummyBytes := by simp [rest]
  have hbyte (more : List UInt8) (n : Nat) (hn : rest.length ≤ n) :
      (chip.hearing (mode.opcode.byte :: rest ++ more)).answer n mode.opcode =
        Bytes.byteAt chip.memory ((target + (n - rest.length)) % chip.memory.size) := by
    have haddress := hr.address_eq mode.opcode.byte (List.replicate mode.dummyBytes 0 ++ more)
    rw [← List.append_assoc] at haddress
    rw [hanswer, readByte, hr.addressBytes_eq, ← hlength, if_neg (by omega), List.cons_append,
      haddress]
    rfl
  rw [transact_of_commit h hop hcommit, answers_hearing hop chip rest data _ hbyte,
    Bytes.toList_slice_eq_map hin, List.range'_eq_map_range, List.map_map]
  refine Prod.ext (List.map_congr_left fun i hi => ?_) rfl
  rw [List.mem_range] at hi
  simp only [Function.comp_apply, Nat.add_sub_cancel_left]
  rw [Nat.mod_eq_of_lt (by omega)]

/-- A page program clears bits of the array from the address on. -/
theorem Reaches.transact_program (h : chip.Quiet) (hw : chip.writeEnabled) (mode : ProgramMode)
    {data : ByteArray} (hdata : data.size ≠ 0) :
    (chip.transact (mode.opcode.byte :: width.encode (.ofNat target)) (Bytes.toList data)).2 =
      (chip.mapMemory (programFrom chip.pageSize target data data.size
        0)).latchCleared.beginWrite := by
  -- the part keeps opcode, address and payload in one buffer until it is released
  let frame := mode.opcode.byte :: (width.encode (.ofNat target) ++ Bytes.toList data)
  have hop : mode.opcode ≠ .readStatus := by cases mode <;> decide
  have hsize : (chip.hearing frame).seen.size = width.bytes + data.size + 1 := by
    simp [hearing, frame]
  have hpayload : (chip.hearing frame).payload = data := by
    apply Bytes.toList_injective
    have hseen : (chip.hearing frame).seen.data.toList = frame := rfl
    have hcut : (mode.opcode.byte :: width.encode (.ofNat target)).length = 1 + width.bytes := by
      simp [Nat.add_comm]
    rw [payload, hr.addressBytes_eq, Bytes.toList, ByteArray.data_extract, Array.toList_extract,
      hseen, hsize, List.extract_eq_take_drop]
    change List.take _ (List.drop _ ((mode.opcode.byte :: width.encode (.ofNat target)) ++ _)) = _
    rw [← hcut, List.drop_left, List.take_of_length_le (by simp)]
  have hcommit := @commit_program (chip.hearing frame) hw
    (by rw [hsize, hr.addressBytes_eq]; omega) mode
  rw [hpayload, hr.address_eq] at hcommit
  exact transact_commit h hop hcommit h.released h.unseen

/-- An erase clears the unit that holds the address. -/
theorem Reaches.transact_erase (h : chip.Quiet) (hw : chip.writeEnabled) {op : Opcode}
    (hop : op = .eraseSmallSector ∨ op = .eraseSector) :
    (chip.transact (op.byte :: width.encode (.ofNat target)) []).2 =
      (chip.mapMemory (eraseUnit (chip.eraseSpan op) target)).latchCleared.beginWrite := by
  let frame := op.byte :: (width.encode (.ofNat target) ++ [])
  have hsize : (chip.hearing frame).seen.size = width.bytes + 1 := by simp [hearing, frame]
  have hcommit := @commit_erase (chip.hearing frame) hw
    (by rw [hsize, hr.addressBytes_eq]; omega) op hop
  rw [hr.address_eq] at hcommit
  have hne : op ≠ .readStatus := by rcases hop with rfl | rfl <;> decide
  exact transact_commit h hne hcommit h.released h.unseen

end ArrayCommands

end Emulation.Chip

namespace Command

open Emulation (Chip)

/-- A command and its data phase are one transaction of the part. -/
theorem exchange_eq (chip : Chip) {command : ByteArray} (hcommand : command.size ≠ 0)
    (payload : Option ByteArray) (room : Option Nat) (length : Nat) {data : List UInt8}
    (hshort : Transfer.isShort ⟨length * 8, payload, room, ⟨false, true⟩⟩ = false)
    (hsent : Transfer.sent ⟨length * 8, payload, room, ⟨false, true⟩⟩ = data) :
    exchange command payload room length chip =
      .ok (if room.isSome then Bytes.ofList (chip.transact (Bytes.toList command) data).1
          else .empty) (chip.transact (Bytes.toList command) data).2 := by
  have hfirst (framing : Framing) (hopens : framing.first = true) :
      SpiBus.transfer ⟨command.size * 8, some command, none, framing⟩ chip =
        .ok .empty ((chip.select.clock (Bytes.toList command)).2.closed framing) := by
    have hsent := Transfer.sent_some (command.size * 8) command none framing (by omega)
    have h := @Chip.transfer_of_sound ⟨command.size * 8, some command, none, framing⟩
      (by dsimp only; omega) (by simp) (by simp [Transfer.isShort]) chip
    rw [hsent, Chip.opened, if_pos hopens] at h
    exact h
  unfold exchange
  change EStateM.bind (SpiBus.transfer _) _ chip = _
  rw [EStateM.bind, hfirst ⟨true, decide (length = 0)⟩ rfl]
  by_cases hlength : length = 0
  · subst hlength
    have hdata : data = [] := by simp [← hsent, Transfer.sent]
    subst hdata
    cases room <;> rfl
  · let request : Transfer := ⟨length * 8, payload, room, ⟨false, true⟩⟩
    have hsecond (held : Chip) :=
      @Chip.transfer_of_sound request (by dsimp only [request]; omega) (by simp [request]) hshort
        held
    simp only [hlength, ↓reduceIte]
    refine (hsecond _).trans ?_
    rw [hsent]
    simp only [decide_false]
    rfl

theorem receive_eq (chip : Chip) {command : ByteArray} (hcommand : command.size ≠ 0)
    (length : Nat) :
    receive command length chip =
      .ok (Bytes.ofList (chip.transact (Bytes.toList command)
          (List.replicate length Controller.Engine.idleByte)).1)
        (chip.transact (Bytes.toList command)
          (List.replicate length Controller.Engine.idleByte)).2 := by
  have hsent := Transfer.sent_none (length * 8) (some length) ⟨false, true⟩
  rw [Nat.mul_div_cancel length (by decide)] at hsent
  exact exchange_eq chip hcommand none (some length) length (by simp [Transfer.isShort]) hsent

theorem send_eq (chip : Chip) {command : ByteArray} (hcommand : command.size ≠ 0)
    (payload : ByteArray) :
    send command payload chip =
      .ok () (chip.transact (Bytes.toList command) (Bytes.toList payload)).2 := by
  have hsent := Transfer.sent_some (payload.size * 8) payload none ⟨false, true⟩ (by omega)
  have h := exchange_eq chip hcommand (some payload) none payload.size
    (by simp [Transfer.isShort]) hsent
  change EStateM.bind _ _ chip = _
  rw [EStateM.bind, h]
  rfl

end Command

end NorFlash
