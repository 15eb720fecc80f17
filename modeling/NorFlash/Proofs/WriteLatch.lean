import NorFlash.Proofs.Identification
import NorFlash.Proofs.InBounds

/-!
The write enable latch of the emulated part. It has to be set for a command to change the array,
the configuration register or another bit of the status register, and every such command clears it.
The number of writes is therefore bounded by the number of times the latch was set: each step keeps
the writes so far, and a latch that is still set, within what was enabled.
-/
namespace NorFlash.Emulation.Chip

/-- What the latch guards: the array and the registers, without the latch itself. -/
def guarded (chip : Chip) : ByteArray × UInt8 × UInt8 :=
  (chip.memory, chip.config, chip.status &&& ~~~StatusBit.writeEnabled)

/-- The writes that the latch still allows. -/
def latch (chip : Chip) : Nat :=
  if chip.writeEnabled then 1 else 0

namespace Outcome

variable {chip after : Chip} {op : Opcode} (h : Outcome chip op after)
include h

theorem guarded_eq (hidle : chip.executes op = false) : after.guarded = chip.guarded := by
  cases h with
  | registers status config hop takes | program hop takes | erase hop takes =>
    exact absurd takes (by simp [hidle])
  | enable hop idle =>
    simp only [guarded, enabled, byte_or_and_distrib, UInt8.and_not_self, UInt8.or_zero]
  | other status bank fourByte idle lowered =>
    rcases lowered with rfl | rfl
    · rfl
    · simp only [guarded, UInt8.and_assoc, UInt8.and_self]

theorem writeEnabled_eq_false (htakes : chip.executes op = true) : after.writeEnabled = false := by
  apply decide_eq_false
  rw [Decidable.not_not]
  cases h with
  | registers status config hop takes =>
    change (status &&& _) &&& StatusBit.writeEnabled = 0
    rw [UInt8.and_assoc]
    exact UInt8.and_zero
  | program hop takes | erase hop takes =>
    rw [status_rewritten]
    exact and_not_and_self ..
  | enable hop idle | other status bank fourByte idle lowered =>
    exact absurd htakes (by simp [idle])

/-- A latch that is set after a commit was set before, or the commit has set it. -/
theorem enabled_of_writeEnabled (hset : after.writeEnabled = true) :
    op = .writeEnable ∨ chip.writeEnabled = true := by
  cases h with
  | registers status config hop takes | program hop takes | erase hop takes =>
    exact .inr (Bool.and_eq_true_iff.mp takes).1
  | enable hop idle => exact .inl hop
  | other status bank fourByte idle lowered =>
    rcases lowered with rfl | rfl
    · exact .inr hset
    · exact absurd (and_not_and_self chip.status _) (of_decide_eq_true hset)

/-- A write uses the latch up, and only its command sets it. -/
theorem writes_le_enables :
    (if chip.executes op then 1 else 0) + after.latch ≤
      (if op = .writeEnable then 1 else 0) + chip.latch := by
  unfold latch
  by_cases htakes : chip.executes op = true
  · have hlatch : chip.writeEnabled = true := (Bool.and_eq_true_iff.mp htakes).1
    have hcleared := h.writeEnabled_eq_false htakes
    simp [htakes, hlatch, hcleared]
  · rw [if_neg htakes, Nat.zero_add]
    by_cases hset : after.writeEnabled = true
    · rcases h.enabled_of_writeEnabled hset with hop | hlatch
      · simp [hset, hop]
      · simp [hset, hlatch]
    · simp [hset]

end Outcome

/-- The commands that calls commit, in their order, each with the part that receives it. -/
def commits : List Call → Chip → List (Chip × Opcode)
  | [], _ => []
  | call :: calls, chip =>
    let later := commits calls (call.after chip)
    match call.commits? chip with
    | some op => (chip, op) :: later
    | none => later

/-- How many of the commands take effect as writes. -/
def writes (calls : List Call) (chip : Chip) : Nat :=
  (commits calls chip).countP fun commit => commit.1.executes commit.2

/-- How many of the commands set the latch. -/
def enables (calls : List Call) (chip : Chip) : Nat :=
  (commits calls chip).countP fun commit => commit.2 = .writeEnable

section Calls

variable {call : Call} {chip : Chip}

theorem Call.after_of_commits {op : Opcode} (h : call.commits? chip = some op) :
    (call.after chip).memory = (chip.commit op).memory ∧
      (call.after chip).guarded = (chip.commit op).guarded ∧
      (call.after chip).writeEnabled = (chip.commit op).writeEnabled := by
  rcases call.after_cases chip with ⟨op', hop, selected, hafter⟩ | ⟨hnone, -⟩
  · obtain rfl : op = op' := Option.some.inj (h.symm.trans hop)
    rw [hafter]
    exact ⟨rfl, rfl, rfl⟩
  · cases h.symm.trans hnone

theorem Call.after_of_commits_none (h : call.commits? chip = none) :
    (call.after chip).guarded = chip.guarded ∧
      (call.after chip).writeEnabled = chip.writeEnabled := by
  rcases call.after_cases chip with ⟨op, hop, -⟩ | ⟨-, _, _, _, _, hafter⟩
  · cases h.symm.trans hop
  · rw [hafter]
    exact ⟨rfl, rfl⟩

/-- What is changed, a write has changed. -/
theorem exists_executes (hchanged : (call.after chip).guarded ≠ chip.guarded) :
    ∃ op, call.commits? chip = some op ∧ chip.executes op = true := by
  cases hcommits : call.commits? chip with
  | none =>
    obtain ⟨hguarded, -⟩ := Call.after_of_commits_none hcommits
    exact absurd hguarded hchanged
  | some op =>
    refine ⟨op, rfl, ?_⟩
    obtain ⟨-, hguarded, -⟩ := Call.after_of_commits hcommits
    rw [← Bool.not_eq_false]
    intro hidle
    apply hchanged
    rw [hguarded]
    exact (commit_outcome op chip).guarded_eq hidle

/-- The writes so far, and the latch if it is still set, stay within what was enabled. -/
theorem writes_add_latch_le (calls : List Call) (chip : Chip) :
    writes calls chip + (run calls chip).latch ≤ enables calls chip + chip.latch := by
  induction calls generalizing chip with
  | nil => exact Nat.le_refl _
  | cons call calls ih =>
    have hlater := ih (call.after chip)
    unfold writes enables at hlater ⊢
    simp only [commits, run]
    cases hcommits : call.commits? chip with
    | none =>
      obtain ⟨-, henabled⟩ := Call.after_of_commits_none hcommits
      have hlatch : (call.after chip).latch = chip.latch := by
        rw [latch, henabled, latch]
      rwa [hlatch] at hlater
    | some op =>
      have hstep := (commit_outcome op chip).writes_le_enables
      obtain ⟨-, -, henabled⟩ := Call.after_of_commits hcommits
      have hlatch : (call.after chip).latch = (chip.commit op).latch := by
        rw [latch, henabled, latch]
      simp only [List.countP_cons, decide_eq_true_eq]
      omega

end Calls

namespace Sound

variable {chip after : Chip} (h : chip.Sound) {op : Opcode} (houtcome : Outcome chip op after)
include h houtcome

theorem outcome_clears (hop : op = .pageProgram ∨ op = .quadPageProgram) :
    ∃ start, start % chip.pageSize = 0 ∧ start + chip.pageSize ≤ chip.memory.size ∧
      Clears start (start + chip.pageSize) chip.memory after.memory := by
  obtain ⟨start, haligned, hfits, hclears⟩ := h.clears_page chip.address chip.payload
  refine ⟨start, haligned, hfits, ?_⟩
  cases houtcome with
  | program =>
    rw [memory_rewritten]
    exact hclears
  | registers | enable | other => exact .refl ..
  | erase herases => rcases hop with rfl | rfl <;> simp at herases

theorem outcome_erases (hop : op = .eraseSmallSector ∨ op = .eraseSector) :
    ∃ start, start % chip.eraseSpan op = 0 ∧ start + chip.eraseSpan op ≤ chip.memory.size ∧
      Rewrites (fun _ byte => if chip.executes op then 0xff else byte) start
        (start + chip.eraseSpan op) chip.memory after.memory := by
  obtain ⟨start, haligned, hfits, herases⟩ := h.erases_unit op chip.address
  refine ⟨start, haligned, hfits, ?_⟩
  cases houtcome with
  | erase hsame takes =>
    rw [memory_rewritten]
    apply herases.congr
    intro i byte hi hi'
    rw [if_pos takes]
  | registers status config hwrites => rcases hop with rfl | rfl <;> simp at hwrites
  | program hprograms => rcases hop with rfl | rfl <;> simp at hprograms
  | enable hsets idle | other status bank fourByte idle =>
    refine ⟨rfl, ?_, fun _ => rfl⟩
    intro i hi hi'
    simp [enabled, idle]

end Sound

/-- The part changes under write enable only. Clocking a byte in changes nothing that is stored,
and it is the release of chip-select that can: of the array and the registers other than the latch
it changes something only by a write command that finds the latch set. The write clears the latch,
so that there are no more writes than commands that set it, and one more if it was set before.
A program clears bits of one page, an erase sets the bytes of one unit, the stored status never
shows a write in progress, and no access is out of bounds. -/
theorem changes_need_write_enable {chip : Chip} (h : Reachable chip) :
    (∀ byte, ∃ busy seen, (chip.exchange byte).2 = { chip with busy, seen }) ∧
    (∀ call : Call, (call.after chip).guarded ≠ chip.guarded →
      (call = .select ∨ call = .deselect) ∧ chip.writeEnabled = true ∧
        ∃ op ∈ writeCommands, call.commits? chip = some op ∧ chip.executes op = true) ∧
    (∀ (call : Call) op, call.commits? chip = some op → chip.executes op = true →
      (call.after chip).writeEnabled = false) ∧
    (∀ (call : Call) op, call.commits? chip = some op → op = .pageProgram ∨ op = .quadPageProgram →
      ∃ start, start % chip.pageSize = 0 ∧ start + chip.pageSize ≤ chip.memory.size ∧
        Clears start (start + chip.pageSize) chip.memory (call.after chip).memory) ∧
    (∀ (call : Call) op, call.commits? chip = some op →
      op = .eraseSmallSector ∨ op = .eraseSector →
      ∃ start, start % chip.eraseSpan op = 0 ∧ start + chip.eraseSpan op ≤ chip.memory.size ∧
        Rewrites (fun _ byte => if chip.executes op then 0xff else byte) start
          (start + chip.eraseSpan op) chip.memory (call.after chip).memory) ∧
    chip.status &&& StatusBit.writeInProgress = 0 ∧
    (∀ calls, writes calls chip ≤ enables calls chip + if chip.writeEnabled then 1 else 0) ∧
    (∀ calls, run? calls chip = some (run calls chip)) := by
  have hsound := h.sound
  refine ⟨fun byte => exists_exchange byte chip, ?changes, ?clears, ?programs, ?erases,
    hsound.settled, ?counts, hsound.run?_eq⟩
  case changes =>
    intro call hchanged
    obtain ⟨op, hcommits, htakes⟩ := exists_executes hchanged
    have hlatch : chip.writeEnabled = true := (Bool.and_eq_true_iff.mp htakes).1
    refine ⟨?_, hlatch, op, mem_writeCommands_of_executes htakes, hcommits, htakes⟩
    cases call with
    | select => exact .inl rfl
    | deselect => exact .inr rfl
    | exchange byte => cases hcommits
    | setBusyPolls polls => cases hcommits
  case clears =>
    intro call op hcommits htakes
    obtain ⟨-, -, henabled⟩ := Call.after_of_commits hcommits
    rw [henabled]
    exact (commit_outcome op chip).writeEnabled_eq_false htakes
  case programs =>
    intro call op hcommits hop
    obtain ⟨hmemory, -⟩ := Call.after_of_commits hcommits
    rw [hmemory]
    exact hsound.outcome_clears (commit_outcome op chip) hop
  case erases =>
    intro call op hcommits hop
    obtain ⟨hmemory, -⟩ := Call.after_of_commits hcommits
    rw [hmemory]
    exact hsound.outcome_erases (commit_outcome op chip) hop
  case counts =>
    intro calls
    exact Nat.le_trans (Nat.le_add_right ..) (writes_add_latch_le calls chip)

/-- A part that has received a page program after the command that sets the latch. -/
def programReceived : Chip :=
  run [.select, .exchange 0x06, .deselect, .select, .exchange 0x02, .exchange 0x00,
    .exchange 0x00, .exchange 0x10, .exchange 0x5a] (.erased .w25q256)

theorem changes_need_write_enable_programReceived :
    Reachable programReceived ∧
      Call.deselect.commits? programReceived = some .pageProgram ∧
      programReceived.executes .pageProgram = true ∧
      (Call.deselect.after programReceived).writeEnabled = false ∧
      ∃ start, start % programReceived.pageSize = 0 ∧
        start + programReceived.pageSize ≤ programReceived.memory.size ∧
        Clears start (start + programReceived.pageSize) programReceived.memory
          (Call.deselect.after programReceived).memory := by
  have hreachable : Reachable programReceived := (Reachable.erased Part.w25q256_mem).run _
  have hcommits : Call.deselect.commits? programReceived = some .pageProgram := by
    decide +kernel
  have htakes : programReceived.executes .pageProgram = true := by
    decide +kernel
  obtain ⟨-, -, hclears, hprograms, -⟩ := changes_need_write_enable hreachable
  exact ⟨hreachable, hcommits, htakes, hclears _ _ hcommits htakes,
    hprograms _ _ hcommits (.inl rfl)⟩

end Emulation.Chip

end NorFlash
