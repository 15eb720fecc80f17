import NorFlash.Proofs.Simulation
import NorFlash.Proofs.Transaction

/-!
Register reads, waits and write commands of the driver over the part itself. A wait uses up one
busy poll for each of its checks, whether it succeeds or not, so what a write leaves does not
depend on its outcome.
-/
namespace NorFlash

section Programs

variable {ε σ α κ : Type} {x : EStateM ε σ α} {s s' : σ}

theorem bind_of_ok {value : α} (h : x s = .ok value s') (f : α → EStateM ε σ κ) :
    (x >>= f) s = f value s' := by
  change EStateM.bind x f s = _
  rw [EStateM.bind, h]

theorem bind_of_error {cause : ε} (h : x s = .error cause s') (f : α → EStateM ε σ κ) :
    (x >>= f) s = .error cause s' := by
  change EStateM.bind x f s = _
  rw [EStateM.bind, h]

/-- A sequence that succeeds consists of two programs that succeed. -/
theorem ok_of_bind {f : α → EStateM ε σ κ} {s'' : σ} {result : κ}
    (h : (x >>= f) s = .ok result s'') :
    ∃ value s', x s = .ok value s' ∧ f value s' = .ok result s'' := by
  cases hx : x s with
  | ok value s' => exact ⟨value, s', rfl, (bind_of_ok hx f).symm.trans h⟩
  | error cause s' =>
    rw [bind_of_error hx] at h
    cases h

/-- The state that a program leaves, whether or not it succeeds. -/
def stateAfter : EStateM.Result ε σ α → σ
  | .ok _ s => s
  | .error _ s => s

/-- What a program answers, apart from the state that it leaves. -/
def answerOf : EStateM.Result ε σ α → Except ε α
  | .ok value _ => .ok value
  | .error cause _ => .error cause

end Programs

namespace Driver

theorem onBus_of_ok {β α : Type} {action : EStateM Error β α} {bus bus' : β} {value : α}
    (h : action bus = .ok value bus') (state : DriverState) :
    onBus action ⟨bus, state⟩ = .ok value ⟨bus', state⟩ := by
  rw [onBus, h]

theorem getState_eq {β : Type} (d : Driver β) : getState d = .ok d.state d :=
  rfl

theorem attempt_of_ok {β α : Type} {action : Action β α} {d d' : Driver β} {value : α}
    (h : action d = .ok value d') : attempt action d = .ok (.ok value) d' := by
  rw [attempt, h]

theorem attempt_of_error {β α : Type} {action : Action β α} {d d' : Driver β} {cause : Error}
    (h : action d = .error cause d') : attempt action d = .ok (.error cause) d' := by
  rw [attempt, h]

theorem ok_of_attempt {β α : Type} {x : Action β α} {d d' : Driver β} {value : α}
    (h : attempt x d = .ok (.ok value) d') : x d = .ok value d' := by
  cases hx : x d with
  | ok value' d₁ =>
    rw [attempt_of_ok hx] at h
    cases h
    rfl
  | error cause d₁ =>
    rw [attempt_of_error hx] at h
    cases h

/-- The end of an operation that waits: it either succeeds or runs out of checks. -/
def finish {β : Type} (succeeds : Prop) [Decidable succeeds] (driver : Driver β) :
    EStateM.Result Error (Driver β) Unit :=
  if succeeds then .ok () driver else .error .busyTimeout driver

theorem finish_of {β : Type} {succeeds : Prop} [Decidable succeeds] (h : succeeds)
    (driver : Driver β) : finish succeeds driver = .ok () driver :=
  if_pos h

theorem finish_of_not {β : Type} {succeeds : Prop} [Decidable succeeds] (h : ¬ succeeds)
    (driver : Driver β) : finish succeeds driver = .error .busyTimeout driver :=
  if_neg h

@[simp] theorem stateAfter_finish {β : Type} (succeeds : Prop) [Decidable succeeds]
    (driver : Driver β) : stateAfter (finish succeeds driver) = driver := by
  unfold finish
  split <;> rfl

end Driver

/-- The checks that a timeout in milliseconds allows. -/
def Poll.attempts (timeout : UInt32) : Nat :=
  (Budget.ofMillis timeout).attempts

section Bits

theorem byte_or_and_distrib (a b mask : UInt8) :
    (a ||| b) &&& mask = (a &&& mask) ||| (b &&& mask) :=
  UInt8.toBitVec_inj.1 BitVec.and_or_distrib_right

theorem and_of_or_left {a b mask : UInt8} (ha : a &&& mask = 0) (hb : b &&& mask = 0) :
    (a ||| b) &&& mask = 0 := by
  rw [byte_or_and_distrib, ha, hb, UInt8.or_self]

theorem or_and_self_ne_zero (a : UInt8) {bit : UInt8} (hbit : bit ≠ 0) :
    (a ||| bit) &&& bit ≠ 0 := by
  rw [byte_or_and_distrib, UInt8.and_self, Ne, UInt8.or_eq_zero_iff]
  exact fun hzero => hbit hzero.2

theorem and_and_of_and {a mask : UInt8} (h : a &&& mask = 0) (kept : UInt8) :
    (a &&& kept) &&& mask = 0 := by
  rw [UInt8.and_assoc, UInt8.and_comm kept, ← UInt8.and_assoc, h, UInt8.zero_and]

theorem and_not_and_self (a bit : UInt8) : (a &&& ~~~bit) &&& bit = 0 := by
  rw [UInt8.and_assoc, UInt8.not_and_self, UInt8.and_zero]

end Bits

namespace Emulation.Chip

/-- The part after this many status reads. -/
def polled (checks : Nat) (chip : Chip) : Chip :=
  { chip with busy := chip.busy - checks }

/-- The part with writing enabled. -/
def enabled (chip : Chip) : Chip :=
  { chip with status := chip.status ||| StatusBit.writeEnabled }

theorem polled_polled (chip : Chip) (m n : Nat) :
    (chip.polled m).polled n = chip.polled (m + n) := by
  simp only [polled, Nat.sub_sub]

theorem Quiet.polled {chip : Chip} (h : chip.Quiet) (checks : Nat) : (chip.polled checks).Quiet :=
  ⟨h.released, h.unseen⟩

theorem Quiet.enabled {chip : Chip} (h : chip.Quiet) : chip.enabled.Quiet :=
  ⟨h.released, h.unseen⟩

theorem AtRest.polled {chip : Chip} (h : chip.AtRest) (checks : Nat) :
    (chip.polled checks).AtRest :=
  ⟨h.released, h.unseen, h.settled⟩

theorem AtRest.enabled {chip : Chip} (h : chip.AtRest) : chip.enabled.AtRest :=
  ⟨h.released, h.unseen, and_of_or_left h.settled (by decide)⟩

theorem writeEnabled_enabled (chip : Chip) : chip.enabled.writeEnabled :=
  decide_eq_true (or_and_self_ne_zero chip.status (by decide))

/-- The part after a write to its bank register. -/
def rebanked (chip : Chip) (bank : UInt8) : Chip :=
  { chip.enabled with bank }.latchCleared

/-- The part after a write to its array. -/
def altered (chip : Chip) (change : ByteArray → ByteArray) : Chip :=
  (chip.enabled.mapMemory change).latchCleared.beginWrite

/-- The part after a write to its status register and, with more than one byte, to its
configuration register. -/
def restatused (chip : Chip) (status : UInt8) (more : List UInt8) : Chip :=
  { chip with
    status := status &&& ~~~(StatusBit.writeInProgress ||| StatusBit.writeEnabled)
    config := more.head?.getD chip.config
    busy := chip.busyPolls }

theorem AtRest.latchCleared {chip : Chip} (h : chip.AtRest) : chip.latchCleared.AtRest :=
  ⟨h.released, h.unseen, and_and_of_and h.settled _⟩

theorem AtRest.rebanked {chip : Chip} (h : chip.AtRest) (bank : UInt8) :
    (chip.rebanked bank).AtRest :=
  ⟨h.released, h.unseen, h.enabled.latchCleared.settled⟩

theorem AtRest.altered {chip : Chip} (h : chip.AtRest) (change : ByteArray → ByteArray) :
    (chip.altered change).AtRest :=
  ⟨h.released, h.unseen, h.enabled.latchCleared.settled⟩

/-- A status write settles the part, whatever its status register showed before. -/
theorem Quiet.restatused {chip : Chip} (h : chip.Quiet) (status : UInt8) (more : List UInt8) :
    (chip.restatused status more).AtRest := by
  refine ⟨h.released, h.unseen, ?_⟩
  change (status &&& _) &&& StatusBit.writeInProgress = 0
  rw [UInt8.and_assoc]
  exact UInt8.and_zero

/-- The busy flag is the lowest bit of the status register. -/
theorem answer_readStatus_ready {chip : Chip} (h : chip.AtRest) :
    (chip.answer 0 .readStatus &&& StatusBit.writeInProgress == 0) = decide (chip.busy = 0) := by
  by_cases hbusy : chip.busy = 0
  · simp [answer, hbusy, h.settled]
  · have hbit := @or_and_self_ne_zero chip.status StatusBit.writeInProgress (by decide)
    simp [answer, hbusy, hbit]

/-- Once a status read has shown the part to be ready, so does the flag status register. -/
theorem answer_readFlagStatus_agrees (chip : Chip) :
    (decide (chip.busy = 0) && ((if (chip.polled 1).busy = 0 then FlagStatusBit.controllerIdle
      else 0) &&& FlagStatusBit.controllerIdle != 0)) = decide (chip.busy = 0) := by
  by_cases hbusy : chip.busy = 0
  · simp only [hbusy, polled, Nat.zero_sub, ↓reduceIte]
    decide
  · simp only [hbusy, decide_false, Bool.false_and]

end Emulation.Chip

namespace Driver

open Emulation (Chip)

theorem receive_idle (chip : Chip) (op : Opcode) :
    Command.receive (Bytes.ofList [op.byte]) 1 chip =
      .ok (Bytes.ofList (chip.transact [op.byte] [Controller.Engine.idleByte]).1)
        (chip.transact [op.byte] [Controller.Engine.idleByte]).2 :=
  Command.receive_eq chip (by simp) 1

section Registers

variable {chip : Chip} (h : chip.Quiet) (state : DriverState)
include h

theorem readStatus_eq :
    readStatus ⟨chip, state⟩ = .ok (chip.answer 0 .readStatus) ⟨chip.polled 1, state⟩ := by
  have hreceive := receive_idle chip .readStatus
  rw [Chip.transact_readStatus h] at hreceive
  exact bind_of_ok (onBus_of_ok hreceive state) _

/-- A register other than the status register is read without a trace. -/
theorem readRegister_eq {op : Opcode} (hop : op ≠ .readStatus)
    (hcommit : ∀ chip : Chip, chip.commit op = chip) {value : UInt8}
    (hanswer : ∀ bytes, (chip.hearing bytes).answer 0 op = value) :
    readRegister op ⟨chip, state⟩ = .ok value ⟨chip, state⟩ := by
  have hreceive := receive_idle chip op
  rw [Chip.transact_register h hop hcommit, hanswer] at hreceive
  exact bind_of_ok (onBus_of_ok hreceive state) _

theorem readConfig_eq : readConfig ⟨chip, state⟩ = .ok chip.config ⟨chip, state⟩ :=
  readRegister_eq h state (by decide) (fun _ => rfl) (fun _ => rfl)

theorem readFlagStatus_eq :
    readFlagStatus ⟨chip, state⟩ =
      .ok (if chip.busy = 0 then FlagStatusBit.controllerIdle else 0) ⟨chip, state⟩ :=
  readRegister_eq h state (by decide) (fun _ => rfl) (fun _ => rfl)

end Registers

section Waiting

variable {chip : Chip} (h : chip.AtRest) (state : DriverState)
include h

/-- The flag status register agrees with the status register, so consulting it as well changes
nothing. -/
theorem isReady_eq :
    isReady ⟨chip, state⟩ = .ok (decide (chip.busy = 0)) ⟨chip.polled 1, state⟩ := by
  have hstatus := Chip.answer_readStatus_ready h
  refine (bind_of_ok (readStatus_eq h.quiet state) _).trans ?_
  refine (bind_of_ok (getState_eq _) _).trans ?_
  dsimp only
  split
  · have hflags := readFlagStatus_eq (h.quiet.polled 1) state
    refine (bind_of_ok (bind_of_ok hflags _) _).trans ?_
    rw [hstatus]
    exact congrArg (EStateM.Result.ok · _) chip.answer_readFlagStatus_agrees
  · rw [hstatus]
    exact congrArg (EStateM.Result.ok · _) (Bool.and_true _)

theorem untilReadyFrom_eq (interval : UInt32) (attempts check : Nat) :
    ∃ outcome, outcome.isReady = decide (chip.busy < attempts) ∧
      Poll.untilReadyFrom interval isReady
          (fun microseconds driver => driver.mapBus (SpiBus.delay microseconds)) attempts check
          ⟨chip, state⟩ = .ok outcome ⟨chip.polled attempts, state⟩ := by
  induction attempts generalizing chip check with
  | zero => exact ⟨.exhausted, by simp [Poll.Outcome.isReady], rfl⟩
  | succ attempts ih =>
    rw [Poll.untilReadyFrom_succ, isReady_eq h state]
    by_cases hbusy : chip.busy = 0
    · refine ⟨.ready (check + 1), by simp [Poll.Outcome.isReady, hbusy], ?_⟩
      have hsame : chip.polled 1 = chip.polled (attempts + 1) := by
        simp only [Chip.polled, hbusy, Nat.zero_sub]
      simp only [hbusy, decide_true, hsame]
    -- the check itself used up a busy poll, and the rest of the wait starts from there
    · obtain ⟨outcome, hready, hrest⟩ := ih (h.polled 1) (check + 1)
      refine ⟨outcome, ?_, ?_⟩
      · rw [hready, decide_eq_decide]
        simp only [Chip.polled]
        omega
      · simp only [hbusy, decide_false]
        rw [Nat.add_comm attempts 1, ← Chip.polled_polled]
        exact hrest

theorem waitReady_eq (timeout : UInt32) :
    waitReady timeout ⟨chip, state⟩ =
      finish (chip.busy < Poll.attempts timeout)
        ⟨chip.polled (Poll.attempts timeout), state⟩ := by
  obtain ⟨outcome, hready, hpoll⟩ :=
    untilReadyFrom_eq h state (Poll.Budget.ofMillis timeout).interval (Poll.attempts timeout) 0
  refine (bind_of_ok hpoll _).trans ?_
  cases outcome with
  | ready check =>
    rw [finish_of (of_decide_eq_true hready.symm)]
    rfl
  | exhausted =>
    rw [finish_of_not (of_decide_eq_false hready.symm)]
    rfl

end Waiting

section Writes

variable {chip : Chip} (h : chip.Quiet) (state : DriverState)
include h

/-- A write command ends in the wait for its completion; `sent` is the part once the command has
been released. -/
theorem write_eq (frame : Frame) (payload : Option ByteArray) {sent : Chip}
    (hsent : (chip.enabled.transact frame.toList (Bytes.toList (payload.getD .empty))).2 = sent)
    (hrest : sent.AtRest) {timeout : UInt32}
    (htimeout : timeout = if payload.isSome then state.settings.programTimeout
      else state.settings.eraseTimeout) :
    write frame payload ⟨chip, state⟩ =
      finish (sent.busy < Poll.attempts timeout)
        ⟨sent.polled (Poll.attempts timeout), state⟩ := by
  have henable := @Command.receive_eq chip (Bytes.ofList [Opcode.writeEnable.byte]) (by simp) 0
  have hcommand := @Command.send_eq chip.enabled frame.bytes (Nat.succ_ne_zero _)
    (payload.getD .empty)
  rw [Frame.toList_bytes, hsent] at hcommand
  have henabled : (chip.transact (Bytes.toList (Bytes.ofList [Opcode.writeEnable.byte]))
      (List.replicate 0 Controller.Engine.idleByte)).2 = chip.enabled :=
    Chip.transact_writeEnable h
  rw [henabled] at henable
  refine (bind_of_ok (getState_eq _) _).trans ?_
  refine (bind_of_ok (onBus_of_ok henable state) _).trans ?_
  refine (bind_of_ok (onBus_of_ok hcommand state) _).trans ?_
  have hwait := waitReady_eq hrest state timeout
  rw [← htimeout]
  by_cases hready : sent.busy < Poll.attempts timeout
  · rw [finish_of hready] at hwait ⊢
    exact bind_of_ok hwait _
  · rw [finish_of_not hready] at hwait ⊢
    exact bind_of_error hwait _

theorem write_status (status : UInt8) (more : List UInt8) :
    write (.ofOpcode Opcode.writeStatus.byte) (some (Bytes.ofList (status :: more)))
        ⟨chip, state⟩ =
      finish (chip.busyPolls < Poll.attempts state.settings.programTimeout)
        ⟨(chip.restatused status more).polled (Poll.attempts state.settings.programTimeout),
          state⟩ :=
  write_eq h state (.ofOpcode Opcode.writeStatus.byte) (some (Bytes.ofList (status :: more)))
    (Chip.transact_writeStatus h.enabled chip.writeEnabled_enabled status more)
    (h.restatused status more) rfl

end Writes

theorem write_bank {chip : Chip} (h : chip.AtRest) (state : DriverState) {op : Opcode}
    (hop : op = .writeBank ∨ op = .writeExtendedAddress) (bank : UInt8) :
    write (.ofOpcode op.byte) (some (Bytes.ofList [bank])) ⟨chip, state⟩ =
      finish (chip.busy < Poll.attempts state.settings.programTimeout)
        ⟨(chip.rebanked bank).polled (Poll.attempts state.settings.programTimeout), state⟩ :=
  write_eq h.quiet state (.ofOpcode op.byte) (some (Bytes.ofList [bank]))
    (Chip.transact_bank h.quiet.enabled hop bank) (h.rebanked bank) rfl

section ArrayWrites

variable {chip : Chip} (h : chip.AtRest) (state : DriverState) {width : AddressWidth}
  {target : Nat} (hr : chip.Reaches width target)
include h hr

theorem write_program (mode : ProgramMode) {data : ByteArray} (hdata : data.size ≠ 0) :
    write (.withAddress mode.opcode.byte width (.ofNat target)) (some data) ⟨chip, state⟩ =
      finish (chip.busyPolls < Poll.attempts state.settings.programTimeout)
        ⟨(chip.altered (Chip.programFrom chip.pageSize target data data.size 0)).polled
          (Poll.attempts state.settings.programTimeout), state⟩ :=
  have hreach : chip.enabled.Reaches width target := hr
  write_eq h.quiet state (.withAddress mode.opcode.byte width (.ofNat target)) (some data)
    (hreach.transact_program h.quiet.enabled chip.writeEnabled_enabled mode hdata) (h.altered _) rfl

theorem write_erase {op : Opcode} (hop : op = .eraseSmallSector ∨ op = .eraseSector) :
    write (.withAddress op.byte width (.ofNat target)) none ⟨chip, state⟩ =
      finish (chip.busyPolls < Poll.attempts state.settings.eraseTimeout)
        ⟨(chip.altered (Chip.eraseUnit (chip.eraseSpan op) target)).polled
          (Poll.attempts state.settings.eraseTimeout), state⟩ :=
  have hreach : chip.enabled.Reaches width target := hr
  write_eq h.quiet state (.withAddress op.byte width (.ofNat target)) none
    (hreach.transact_erase h.quiet.enabled chip.writeEnabled_enabled hop) (h.altered _) rfl

end ArrayWrites

/-- A frame that is answered is received without a trace on the driver. -/
theorem receive_read {chip : Chip} (h : chip.Quiet) (state : DriverState) (mode : ReadMode)
    {width : AddressWidth} {target length : Nat} (hr : chip.Reaches width target)
    (hin : target + length ≤ chip.memory.size) :
    receive ((Frame.withAddress mode.opcode.byte width (.ofNat target)).withDummy
        mode.dummyBytes) length ⟨chip, state⟩ =
      .ok (Bytes.slice chip.memory target length) ⟨chip, state⟩ := by
  let frame := (Frame.withAddress mode.opcode.byte width (.ofNat target)).withDummy mode.dummyBytes
  have hframe : frame.toList = mode.opcode.byte ::
      (width.encode (.ofNat target) ++ List.replicate mode.dummyBytes 0) := by
    have hroom : min mode.dummyBytes (7 - (width.encode (.ofNat target)).length) =
        mode.dummyBytes := by
      cases mode <;> cases width <;> rfl
    simp only [frame, Frame.withDummy, Frame.withAddress, Frame.toList, hroom]
  have hreceive := @Command.receive_eq chip frame.bytes (Nat.succ_ne_zero _) length
  rw [Frame.toList_bytes, hframe, hr.transact_read h mode _ (by simpa using hin),
    List.length_replicate, Bytes.ofList_toList] at hreceive
  exact bind_of_ok (onBus_of_ok hreceive state) _

end Driver

end NorFlash
