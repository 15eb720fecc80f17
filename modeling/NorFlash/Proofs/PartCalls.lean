import NorFlash.Proofs.Rewrites
import NorFlash.Proofs.WriteCycle

/-!
The calls of the emulated part, made in any order and with any bytes. Each of them either commits
the command that the part has received or leaves its array and registers alone, and from that it
follows what holds in every state that a part of the table can get into.
-/
namespace NorFlash

/-- Pages and erase units of a part divide its array. -/
theorem Part.table_divided :
    Part.table.all (fun part =>
      decide (0 < part.size ∧ 0 < (Geometry.derive part {}).pageSize ∧
        part.size % (Geometry.derive part {}).pageSize = 0 ∧ part.size % 4096 = 0 ∧
        0 < part.sectorSize.toNat)) = true := by
  decide +kernel

namespace Emulation.Chip

/-- A call of the part. -/
inductive Call where
  | select
  | deselect
  | exchange (byte : UInt8)
  | setBusyPolls (polls : Nat)
  deriving DecidableEq, Repr

/-- The part after a call. -/
def Call.after : Call → Chip → Chip
  | select, chip => chip.select
  | deselect, chip => chip.deselect
  | exchange byte, chip => (chip.exchange byte).2
  | setBusyPolls polls, chip => { chip with busyPolls := polls }

/-- The part after calls that are made one after the other. -/
def run : List Call → Chip → Chip
  | [], chip => chip
  | call :: calls, chip => run calls (call.after chip)

/-- The states of the parts of the table: erased, and then what loading images and calls lead
to. -/
inductive Reachable : Chip → Prop where
  | erased {part : Part} (listed : part ∈ Part.table) : Reachable (.erased part)
  | loaded {chip filled : Chip} {image : ByteArray} (before : Reachable chip)
    (loads : chip.load image = (.ok (), filled)) : Reachable filled
  | called {chip : Chip} (call : Call) (before : Reachable chip) : Reachable (call.after chip)

theorem Reachable.run {chip : Chip} (h : Reachable chip) (calls : List Call) :
    Reachable (run calls chip) := by
  induction calls generalizing chip with
  | nil => exact h
  | cons call calls ih => exact ih (h.called call)

/-- The command that a call commits: it releases a part that has received its opcode. -/
def Call.commits? (call : Call) (chip : Chip) : Option Opcode :=
  match call with
  | select | deselect =>
    if chip.selected ∧ chip.seen.size ≠ 0 then Opcode.ofByte? (Bytes.byteAt chip.seen 0)
    else none
  | exchange _ | setBusyPolls _ => none

section Inversion

theorem exists_exchange (byte : UInt8) (chip : Chip) :
    ∃ busy seen, (chip.exchange byte).2 = { chip with busy, seen } := by
  unfold exchange
  split
  · exact ⟨chip.busy, chip.seen, rfl⟩
  dsimp only
  split
  · exact ⟨chip.busy, chip.seen.push byte, rfl⟩
  split
  · exact ⟨chip.busy, chip.seen.push byte, rfl⟩
  · exact ⟨chip.busy - 1, chip.seen.push byte, rfl⟩
  · exact ⟨chip.busy, chip.seen.push byte, rfl⟩

/-- The release commits the command that was received, if there is one that the part knows. -/
theorem deselect_cases (chip : Chip) :
    (∃ op, Call.deselect.commits? chip = some op ∧
      chip.deselect = { chip.commit op with selected := false, seen := .empty }) ∨
    (Call.deselect.commits? chip = none ∧
      ∃ seen, chip.deselect = { chip with selected := false, seen }) := by
  cases hselected : chip.selected with
  | false =>
    refine .inr ⟨by simp [Call.commits?, hselected], chip.seen, ?_⟩
    rw [deselect_of_released hselected, ← hselected]
  | true =>
    unfold deselect Call.commits?
    by_cases hseen : chip.seen.size = 0
    · exact .inr ⟨by simp [hseen], chip.seen, by simp [hselected, hseen]⟩
    · simp only [hselected, hseen, Bool.not_true, Bool.false_eq_true, ↓reduceIte,
        not_false_eq_true, and_self, ne_eq]
      cases hop : Opcode.ofByte? (Bytes.byteAt chip.seen 0) with
      | none => exact .inr ⟨rfl, .empty, rfl⟩
      | some op => exact .inl ⟨op, rfl, rfl⟩

/-- A call either commits a command, or leaves alone what only commands change. -/
theorem Call.after_cases (call : Call) (chip : Chip) :
    (∃ op, call.commits? chip = some op ∧
      ∃ selected, call.after chip = { chip.commit op with selected, seen := .empty }) ∨
    (call.commits? chip = none ∧
      ∃ busyPolls busy selected seen,
        call.after chip = { chip with busyPolls, busy, selected, seen }) := by
  cases call with
  | select =>
    rcases deselect_cases chip with ⟨op, hop, hafter⟩ | ⟨hnone, seen, hafter⟩
    · refine .inl ⟨op, hop, true, ?_⟩
      rw [after, Chip.select, hafter]
    · refine .inr ⟨hnone, chip.busyPolls, chip.busy, true, .empty, ?_⟩
      rw [after, Chip.select, hafter]
  | deselect =>
    rcases deselect_cases chip with ⟨op, hop, hafter⟩ | ⟨hnone, seen, hafter⟩
    · exact .inl ⟨op, hop, false, hafter⟩
    · exact .inr ⟨hnone, chip.busyPolls, chip.busy, false, seen, hafter⟩
  | exchange byte =>
    obtain ⟨busy, seen, hafter⟩ := exists_exchange byte chip
    exact .inr ⟨rfl, chip.busyPolls, busy, chip.selected, seen, hafter⟩
  | setBusyPolls polls => exact .inr ⟨rfl, polls, chip.busy, chip.selected, chip.seen, rfl⟩

end Inversion

/-- The commands that change the array, or a register other than by the latch alone. -/
def writeCommands : List Opcode :=
  [.writeStatus, .pageProgram, .quadPageProgram, .eraseSmallSector, .eraseSector]

/-- Whether such a command takes effect when it is committed: the write enable latch is set, and
the arguments are there. -/
def executes (chip : Chip) (op : Opcode) : Bool :=
  let arguments := chip.seen.size - 1
  chip.writeEnabled && match op with
    | .writeStatus => arguments ≠ 0
    | .pageProgram | .quadPageProgram => chip.addressBytes < arguments
    | .eraseSmallSector | .eraseSector => chip.addressBytes ≤ arguments
    | _ => false

theorem mem_writeCommands_of_executes {chip : Chip} {op : Opcode} (h : chip.executes op = true) :
    op ∈ writeCommands := by
  cases op <;> simp [executes, writeCommands] at h ⊢

/-- A write that does not take effect, for want of the latch or of arguments, does nothing. -/
theorem commit_of_not_executes {chip : Chip} {op : Opcode} (hop : op ∈ writeCommands)
    (hidle : chip.executes op = false) : chip.commit op = chip := by
  simp only [writeCommands, List.mem_cons, List.not_mem_nil, or_false] at hop
  rcases hop with rfl | rfl | rfl | rfl | rfl
  all_goals
    apply if_pos
    simp only [executes, Bool.and_eq_false_iff, decide_eq_false_iff_not] at hidle
    simpa using hidle

/-- The part after a change of its array that took effect. -/
def rewritten (chip : Chip) (change : ByteArray → ByteArray) : Chip :=
  (chip.mapMemory change).latchCleared.beginWrite

section Rewritten

variable (chip : Chip) (change : ByteArray → ByteArray)

@[simp] theorem part_rewritten : (chip.rewritten change).part = chip.part :=
  rfl

@[simp] theorem memory_rewritten : (chip.rewritten change).memory = change chip.memory :=
  rfl

@[simp] theorem pageSize_rewritten : (chip.rewritten change).pageSize = chip.pageSize :=
  rfl

@[simp] theorem status_rewritten :
    (chip.rewritten change).status = chip.status &&& ~~~StatusBit.writeEnabled :=
  rfl

end Rewritten

/-- What committing a command makes of the part. -/
inductive Outcome (chip : Chip) (op : Opcode) : Chip → Prop where
  | registers (status config : UInt8) (hop : op = .writeStatus) (takes : chip.executes op = true) :
    Outcome chip op { chip with
      status := status &&& ~~~(StatusBit.writeInProgress ||| StatusBit.writeEnabled)
      config := config }.beginWrite
  | program (hop : op = .pageProgram ∨ op = .quadPageProgram) (takes : chip.executes op = true) :
    Outcome chip op
      (chip.rewritten (programFrom chip.pageSize chip.address chip.payload chip.payload.size 0))
  | erase (hop : op = .eraseSmallSector ∨ op = .eraseSector) (takes : chip.executes op = true) :
    Outcome chip op (chip.rewritten (eraseUnit (chip.eraseSpan op) chip.address))
  | enable (hop : op = .writeEnable) (idle : chip.executes op = false) :
    Outcome chip op chip.enabled
  | other (status bank : UInt8) (fourByte : Bool) (idle : chip.executes op = false)
    (lowered : status = chip.status ∨ status = chip.status &&& ~~~StatusBit.writeEnabled) :
    Outcome chip op { chip with status, bank, fourByte }

section Executed

variable {chip : Chip}

theorem outcome_writeStatus (htakes : chip.executes .writeStatus = true) :
    Outcome chip .writeStatus (chip.commit .writeStatus) := by
  obtain ⟨hlatch, harguments⟩ := Bool.and_eq_true_iff.mp htakes
  have hsome : ¬ chip.seen.size - 1 = 0 := of_decide_eq_true harguments
  simp only [commit, hlatch, hsome, Bool.not_true, decide_false, Bool.or_self,
    Bool.false_eq_true, ↓reduceIte]
  exact .registers _ _ rfl htakes

theorem outcome_program (mode : ProgramMode) (htakes : chip.executes mode.opcode = true) :
    Outcome chip mode.opcode (chip.commit mode.opcode) := by
  have hop : mode.opcode = .pageProgram ∨ mode.opcode = .quadPageProgram := by
    cases mode <;> simp [ProgramMode.opcode]
  have hexecutes : chip.executes mode.opcode =
      (chip.writeEnabled && decide (chip.addressBytes < chip.seen.size - 1)) := by
    cases mode <;> rfl
  obtain ⟨hlatch, hlong⟩ := Bool.and_eq_true_iff.mp (hexecutes.symm.trans htakes)
  rw [commit_program hlatch (of_decide_eq_true hlong)]
  exact .program hop htakes

theorem outcome_erase {op : Opcode} (hop : op = .eraseSmallSector ∨ op = .eraseSector)
    (htakes : chip.executes op = true) : Outcome chip op (chip.commit op) := by
  have hexecutes : chip.executes op =
      (chip.writeEnabled && decide (chip.addressBytes ≤ chip.seen.size - 1)) := by
    rcases hop with rfl | rfl <;> rfl
  obtain ⟨hlatch, hlong⟩ := Bool.and_eq_true_iff.mp (hexecutes.symm.trans htakes)
  rw [commit_erase hlatch (of_decide_eq_true hlong) hop]
  exact .erase hop htakes

theorem outcome_of_executes {op : Opcode} (htakes : chip.executes op = true) :
    Outcome chip op (chip.commit op) := by
  cases op with
  | writeStatus => exact outcome_writeStatus htakes
  | pageProgram => exact outcome_program .page htakes
  | quadPageProgram => exact outcome_program .quadPage htakes
  | eraseSmallSector => exact outcome_erase (.inl rfl) htakes
  | eraseSector => exact outcome_erase (.inr rfl) htakes
  | _ => exact absurd htakes (by simp [executes])

end Executed

/-- Everything that a commit can do. -/
theorem commit_outcome (op : Opcode) (chip : Chip) : Outcome chip op (chip.commit op) := by
  cases htakes : chip.executes op with
  | true => exact outcome_of_executes htakes
  | false =>
    have hsame (hcommit : chip.commit op = chip) : Outcome chip op (chip.commit op) := by
      rw [hcommit]
      exact .other chip.status chip.bank chip.fourByte htakes (.inl rfl)
    by_cases hwrite : op ∈ writeCommands
    · exact hsame (commit_of_not_executes hwrite htakes)
    · cases op with
      | writeEnable => exact .enable rfl htakes
      | writeDisable => exact .other _ chip.bank chip.fourByte htakes (.inr rfl)
      | enterFourByte => exact .other chip.status chip.bank true htakes (.inl rfl)
      | exitFourByte => exact .other chip.status chip.bank false htakes (.inl rfl)
      | writeBank => exact .other _ _ chip.fourByte htakes (.inr rfl)
      | writeExtendedAddress => exact .other _ _ chip.fourByte htakes (.inr rfl)
      | writeStatus | pageProgram | quadPageProgram | eraseSmallSector | eraseSector =>
        simp [writeCommands] at hwrite
      | _ => exact hsame rfl

/-- What is true of a part of the table in every state: which part it is, that it has its array and
its pages, and that its stored status never shows a write in progress. -/
structure Sound (chip : Chip) : Prop where
  listed : chip.part ∈ Part.table
  size : chip.memory.size = chip.part.size
  page : chip.pageSize = (Geometry.derive chip.part {}).pageSize
  settled : chip.status &&& StatusBit.writeInProgress = 0

namespace Sound

variable {chip : Chip} (h : chip.Sound)
include h

theorem memory_pos : 0 < chip.memory.size := by
  obtain ⟨hsize, -⟩ := of_decide_eq_true (List.all_eq_true.mp Part.table_divided _ h.listed)
  rwa [h.size]

theorem page_pos : 0 < chip.pageSize := by
  obtain ⟨-, hpage, -⟩ := of_decide_eq_true (List.all_eq_true.mp Part.table_divided _ h.listed)
  rwa [h.page]

theorem page_dvd : chip.pageSize ∣ chip.memory.size := by
  obtain ⟨-, -, hpages, -⟩ := of_decide_eq_true (List.all_eq_true.mp Part.table_divided _ h.listed)
  rw [h.page, h.size]
  exact Nat.dvd_of_mod_eq_zero hpages

theorem span_pos (op : Opcode) : 0 < chip.eraseSpan op := by
  obtain ⟨-, -, -, -, hsector⟩ :=
    of_decide_eq_true (List.all_eq_true.mp Part.table_divided _ h.listed)
  unfold eraseSpan
  split
  · decide
  · exact hsector

theorem span_dvd (op : Opcode) : chip.eraseSpan op ∣ chip.memory.size := by
  obtain ⟨-, -, -, hsmall, -⟩ :=
    of_decide_eq_true (List.all_eq_true.mp Part.table_divided _ h.listed)
  rw [h.size, eraseSpan]
  split
  · exact Nat.dvd_of_mod_eq_zero hsmall
  · exact Nat.dvd_mul_right ..

/-- A program clears bits of the page of its address, taken modulo the size of the array. -/
theorem clears_page (address : Nat) (bytes : ByteArray) :
    ∃ start, start % chip.pageSize = 0 ∧ start + chip.pageSize ≤ chip.memory.size ∧
      Clears start (start + chip.pageSize) chip.memory
        (programFrom chip.pageSize address bytes bytes.size 0 chip.memory) := by
  obtain ⟨haligned, hfits, -⟩ := unit_wraps h.page_pos h.page_dvd h.memory_pos address
  exact ⟨_, haligned, hfits,
    clears_programFrom h.page_pos h.page_dvd h.memory_pos address bytes bytes.size 0 rfl⟩

theorem erases_unit (op : Opcode) (address : Nat) :
    ∃ start, start % chip.eraseSpan op = 0 ∧ start + chip.eraseSpan op ≤ chip.memory.size ∧
      Rewrites (fun _ _ => 0xff) start (start + chip.eraseSpan op) chip.memory
        (eraseUnit (chip.eraseSpan op) address chip.memory) :=
  ⟨_, rewrites_eraseUnit_wrapped (h.span_pos op) (h.span_dvd op) h.memory_pos address rfl⟩

theorem rewritten {change : ByteArray → ByteArray}
    (hsize : (change chip.memory).size = chip.memory.size) : (chip.rewritten change).Sound where
  listed := h.listed
  size := by
    rw [memory_rewritten, hsize, part_rewritten]
    exact h.size
  page := by
    rw [pageSize_rewritten, part_rewritten]
    exact h.page
  settled := and_and_of_and h.settled _

/-- Whatever a part commits, it stays sound. -/
theorem outcome {op : Opcode} {after : Chip} (houtcome : Outcome chip op after) : after.Sound := by
  cases houtcome with
  | registers status config =>
    refine ⟨h.listed, h.size, h.page, ?_⟩
    change (status &&& _) &&& StatusBit.writeInProgress = 0
    rw [UInt8.and_assoc]
    exact UInt8.and_zero
  | program =>
    obtain ⟨start, -, -, hclears⟩ := h.clears_page chip.address chip.payload
    exact h.rewritten hclears.size
  | erase =>
    obtain ⟨start, -, -, hrewrites⟩ := h.erases_unit op chip.address
    exact h.rewritten hrewrites.size
  | enable => exact ⟨h.listed, h.size, h.page, and_of_or_left h.settled (by decide)⟩
  | other status bank fourByte idle lowered =>
    refine ⟨h.listed, h.size, h.page, ?_⟩
    rcases lowered with rfl | rfl
    · exact h.settled
    · exact and_and_of_and h.settled _

theorem called (call : Call) : (call.after chip).Sound := by
  rcases call.after_cases chip with ⟨op, -, selected, hafter⟩ | ⟨-, _, _, _, _, hafter⟩
  · obtain ⟨hlisted, hsize, hpage, hsettled⟩ := h.outcome (commit_outcome op chip)
    rw [hafter]
    exact ⟨hlisted, hsize, hpage, hsettled⟩
  · rw [hafter]
    exact ⟨h.listed, h.size, h.page, h.settled⟩

end Sound

/-- Every state is sound, by induction on how it was reached. -/
theorem Reachable.sound {chip : Chip} (h : Reachable chip) : chip.Sound := by
  induction h with
  | erased listed => exact ⟨listed, Bytes.size_fill .., rfl, UInt8.zero_and⟩
  | @loaded chip filled image before loads ih =>
    unfold load at loads
    dsimp only at loads
    split at loads
    · cases loads
    next hfits =>
      cases loads
      refine ⟨ih.listed, ?_, ih.page, ih.settled⟩
      exact (Bytes.size_overlay (by omega)).trans ih.size
  | called call before ih => exact ih.called call

end Emulation.Chip

end NorFlash
