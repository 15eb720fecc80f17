import NorFlash.Proofs.StackRuns

/-!
The wait for a part at the bottom of a stack. Its outcome, what it leaves and every call that it
makes on the bus follow from the busy polls that the part has left and the checks that the timeout
allows.
-/
namespace NorFlash

open Emulation (Board Chip)

section Lockstep

variable {β γ α : Type} {R : β → γ → Prop}

/-- Related buses on which the same calls have been noted. -/
structure Traced.InStep (R : β → γ → Prop) (traced : Traced β) (other : Traced γ) : Prop where
  bus : R traced.bus other.bus
  calls : traced.calls = other.calls

variable [SpiBus β] [SpiBus γ]

/-- Related buses answer alike, so they are noted alike. -/
theorem Traced.busSimulation_inStep (h : BusSimulation R) :
    BusSimulation (InStep R : Traced β → Traced γ → Prop) where
  transfer request := by
    rintro ⟨bus, calls⟩ ⟨other, _⟩ ⟨hbus, rfl⟩
    have hagree := h.transfer request hbus
    cases hr : SpiBus.transfer request bus with
    | ok bytes bus' =>
      rw [hr] at hagree
      generalize hr' : SpiBus.transfer request other = r' at hagree
      cases hagree with
      | ok states =>
        rw [transfer_of_ok hr, transfer_of_ok hr']
        exact .ok ⟨states, rfl⟩
    | error cause bus' =>
      rw [hr] at hagree
      generalize hr' : SpiBus.transfer request other = r' at hagree
      cases hagree with
      | error states =>
        rw [transfer_of_error hr, transfer_of_error hr']
        exact .error ⟨states, rfl⟩
  maxWrite hstep := h.maxWrite hstep.bus
  release := by
    rintro ⟨bus, calls⟩ ⟨other, _⟩ ⟨hbus, rfl⟩
    exact ⟨h.release hbus, rfl⟩
  selectUpper upper := by
    rintro ⟨bus, calls⟩ ⟨other, _⟩ ⟨hbus, rfl⟩
    exact ⟨h.selectUpper upper hbus, rfl⟩
  delay microseconds := by
    rintro ⟨bus, calls⟩ ⟨other, _⟩ ⟨hbus, rfl⟩
    exact ⟨h.delay microseconds hbus, rfl⟩

omit [SpiBus β] [SpiBus γ] in
theorem Driver.callsOf_eq {x : Action (Traced β) α} {y : Action (Traced γ) α}
    (hxy : Simulates (Alike (Traced.InStep R)) x y) {d : Driver β} {e : Driver γ}
    (h : Alike R d e) : callsOf x d = callsOf y e := by
  have hagree := hxy (⟨⟨h.bus, rfl⟩, h.state⟩ : Alike (Traced.InStep R) d.traced e.traced)
  unfold callsOf
  generalize x d.traced = r at hagree ⊢
  generalize y e.traced = r' at hagree ⊢
  cases hagree with
  | ok states => exact states.bus.calls
  | error states => exact states.bus.calls

end Lockstep

/-- The calls that read a register of one byte. -/
def Opcode.registerCalls (op : Opcode) (value : UInt8) : List BusCall :=
  [.transfer ⟨8, some (Bytes.ofList [op.byte]), none, ⟨true, false⟩⟩ (.ok .empty),
    .transfer ⟨8, none, some 1, ⟨false, true⟩⟩ (.ok (Bytes.ofList [value]))]

/-- The calls of one check. The status read itself uses up a busy poll, and the flag status read
comes behind it. -/
def Check.calls (flagged : Bool) (chip : Chip) : List BusCall :=
  Opcode.readStatus.registerCalls (chip.answer 0 .readStatus) ++
    if flagged then
      Opcode.readFlagStatus.registerCalls ((chip.polled 1).answer 0 .readFlagStatus)
    else []

/-- The calls of a wait: a check with its delay for every busy poll, and the check that finds the
part ready if the budget goes as far. -/
def Check.waitCalls (flagged : Bool) (attempts : Nat) (chip : Chip) : List BusCall :=
  ((List.range (min attempts chip.busy)).flatMap fun poll =>
    calls flagged (chip.polled poll) ++ [.delay 100]) ++
    if chip.busy < attempts then calls flagged (chip.polled chip.busy) else []

namespace Driver

section Registers

variable {chip : Chip} (before : List BusCall)

theorem receive_traced {op : Opcode} {value : UInt8} {after : Chip}
    (h : chip.transact [op.byte] [Controller.Engine.idleByte] = ([value], after)) :
    Command.receive (Bytes.ofList [op.byte]) 1 (⟨chip, before⟩ : Traced Chip) =
      .ok (Bytes.ofList [value]) ⟨after, before ++ op.registerCalls value⟩ := by
  let opening : Transfer := ⟨8, some (Bytes.ofList [op.byte]), none, ⟨true, false⟩⟩
  let data : Transfer := ⟨8, none, some 1, ⟨false, true⟩⟩
  let selected := (chip.select.clock [op.byte]).2
  obtain ⟨hvalue, hafter⟩ := Prod.mk.inj h
  have hopening : SpiBus.transfer opening chip = .ok .empty selected := by
    have hsent : opening.sent = [op.byte] :=
      Transfer.sent_some 8 (Bytes.ofList [op.byte]) none ⟨true, false⟩ (by simp)
    have hsound := @Chip.transfer_of_sound opening (by simp [opening]) (by simp [opening])
      (by simp [opening, Transfer.isShort]) chip
    have hopened : chip.opened opening.framing = chip.select := rfl
    rwa [hsent, hopened] at hsound
  have hdata : SpiBus.transfer data selected = .ok (Bytes.ofList [value]) after := by
    have hsent : data.sent = [Controller.Engine.idleByte] :=
      Transfer.sent_none 8 (some 1) ⟨false, true⟩
    have hsound := @Chip.transfer_of_sound data (by simp [data]) (by simp [data])
      (by simp [data, Transfer.isShort]) selected
    have hopened : selected.opened data.framing = selected := rfl
    have hkept (answers : List UInt8) : Chip.kept data answers = Bytes.ofList answers := rfl
    have hclosed (held : Chip) : held.closed data.framing = held.deselect := rfl
    rwa [hsent, hopened, hkept, hclosed, hvalue, hafter] at hsound
  have hboth : before ++ op.registerCalls value =
      before ++ [.transfer opening (.ok .empty)] ++
        [.transfer data (.ok (Bytes.ofList [value]))] := by
    rw [List.append_assoc]
    rfl
  have hrequest : (⟨8, none, some 1, ⟨false, true⟩⟩ : Transfer) = data := rfl
  rw [hboth]
  refine (bind_of_ok (Traced.transfer_of_ok hopening before) _).trans ?_
  rw [if_neg Nat.one_ne_zero, Nat.one_mul, hrequest]
  exact Traced.transfer_of_ok hdata _

variable (h : chip.Quiet) (state : DriverState)
include h

theorem readStatus_traced :
    readStatus (⟨⟨chip, before⟩, state⟩ : Driver (Traced Chip)) = .ok (chip.answer 0 .readStatus)
      ⟨⟨chip.polled 1, before ++ Opcode.readStatus.registerCalls (chip.answer 0 .readStatus)⟩,
        state⟩ :=
  bind_of_ok (onBus_of_ok (receive_traced before (Chip.transact_readStatus h _)) state) _

theorem readFlagStatus_traced :
    readFlagStatus (⟨⟨chip, before⟩, state⟩ : Driver (Traced Chip)) = .ok (chip.answer 0 .readFlagStatus)
      ⟨⟨chip, before ++ Opcode.readFlagStatus.registerCalls (chip.answer 0 .readFlagStatus)⟩,
        state⟩ :=
  bind_of_ok (onBus_of_ok (receive_traced before
    (Chip.transact_register h (by decide) (fun _ => rfl) _)) state) _

end Registers

section Waiting

variable {chip : Chip} (h : chip.AtRest) (before : List BusCall) {state : DriverState}
  {flagged : Bool} (hflagged : state.geometry.any (·.useFlagStatus) = flagged)
include h hflagged

theorem isReady_traced :
    isReady (⟨⟨chip, before⟩, state⟩ : Driver (Traced Chip)) = .ok (decide (chip.busy = 0))
      ⟨⟨chip.polled 1, before ++ Check.calls flagged chip⟩, state⟩ := by
  have hstatus := Chip.answer_readStatus_ready h
  refine (bind_of_ok (readStatus_traced before h.quiet state) _).trans ?_
  refine (bind_of_ok (getState_eq _) _).trans ?_
  dsimp only
  rw [hflagged, Check.calls]
  cases flagged with
  | true =>
    have hflags := readFlagStatus_traced (before ++ Opcode.readStatus.registerCalls
      (chip.answer 0 .readStatus)) (h.quiet.polled 1) state
    rw [List.append_assoc] at hflags
    refine (bind_of_ok (bind_of_ok hflags _) _).trans ?_
    rw [hstatus]
    exact congrArg (EStateM.Result.ok · _) chip.answer_readFlagStatus_agrees
  | false =>
    rw [hstatus]
    refine (bind_of_ok rfl _).trans ?_
    rw [Bool.and_true, if_neg Bool.false_ne_true, List.append_nil]
    rfl

/-- As long as busy polls are left the checks do not pass, and each has its delay. -/
theorem pollFrom_busy (checks attempts check : Nat) (hbusy : checks ≤ chip.busy) :
    pollFrom (checks + attempts) check (⟨⟨chip, before⟩, state⟩ : Driver (Traced Chip)) =
      pollFrom attempts (check + checks) ⟨⟨chip.polled checks, before ++
        (List.range checks).flatMap fun poll =>
          Check.calls flagged (chip.polled poll) ++ [.delay 100]⟩, state⟩ := by
  induction checks generalizing attempts with
  | zero =>
    rw [Nat.zero_add, List.range_zero, List.flatMap_nil, List.append_nil]
    rfl
  | succ checks ih =>
    have hstep := isReady_traced (h.polled checks) (before ++
      (List.range checks).flatMap fun poll =>
        Check.calls flagged (chip.polled poll) ++ [.delay 100]) hflagged
    have hleft : (chip.polled checks).busy ≠ 0 := by
      simp only [Chip.polled]
      omega
    rw [decide_eq_false hleft, Chip.polled_polled] at hstep
    rw [Nat.add_assoc, Nat.add_comm 1, ih (attempts + 1) (by omega), pollFrom,
      Poll.untilReadyFrom_succ, hstep, List.range_succ, List.flatMap_append]
    simp only [List.flatMap_singleton, ← List.append_assoc, Nat.add_assoc]
    rfl

/-- A wait that is long enough ends with the check behind the last busy poll, and any other wait
once it has no checks left. -/
theorem waitReady_traced (timeout : UInt32) :
    waitReady timeout (⟨⟨chip, before⟩, state⟩ : Driver (Traced Chip)) =
      finish (chip.busy < Poll.attempts timeout) ⟨⟨chip.polled (Poll.attempts timeout),
        before ++ Check.waitCalls flagged (Poll.attempts timeout) chip⟩, state⟩ := by
  unfold Check.waitCalls
  by_cases hready : chip.busy < Poll.attempts timeout
  · obtain ⟨left, hleft⟩ := Nat.exists_eq_add_of_lt hready
    have hpoll := pollFrom_busy h before hflagged chip.busy (left + 1) 0 (Nat.le_refl _)
    have hlast := isReady_traced (h.polled chip.busy) (before ++
      (List.range chip.busy).flatMap fun poll =>
        Check.calls flagged (chip.polled poll) ++ [.delay 100]) hflagged
    have hdone : (chip.polled chip.busy).busy = 0 := Nat.sub_self _
    have hrest : (chip.polled chip.busy).polled 1 = chip.polled (Poll.attempts timeout) := by
      simp only [Chip.polled, Nat.sub_self, Nat.zero_sub]
      rw [Nat.sub_eq_zero_of_le (Nat.le_of_lt hready)]
    rw [decide_eq_true hdone, hrest] at hlast
    rw [finish_of hready, if_pos hready, Nat.min_eq_right (Nat.le_of_lt hready), ← List.append_assoc]
    rw [pollFrom, pollFrom, Poll.untilReadyFrom_succ, hlast, ← Nat.add_assoc, ← hleft] at hpoll
    exact bind_of_ok hpoll _
  · have hspent : Poll.attempts timeout ≤ chip.busy := Nat.le_of_not_lt hready
    have hpoll := pollFrom_busy h before hflagged (Poll.attempts timeout) 0 0 hspent
    rw [finish_of_not hready, if_neg hready, Nat.min_eq_left hspent, List.append_nil]
    exact bind_of_ok hpoll _

end Waiting

end Driver

section Counting

/-- A transfer that starts a command with this opcode. -/
def BusCall.starts (op : Opcode) : BusCall → Bool
  | transfer request _ => request.framing.first &&
      (request.payload.bind fun command => (Bytes.toList command).head?) == some op.byte
  | _ => false

def BusCall.delay? : BusCall → Option UInt32
  | delay microseconds => some microseconds
  | _ => none

/-- Calls with this many status reads, flag status reads and delays, of 100 µs each. -/
structure Tally (status flags delays : Nat) (calls : List BusCall) : Prop where
  status : calls.countP (BusCall.starts .readStatus) = status
  flags : calls.countP (BusCall.starts .readFlagStatus) = flags
  delays : calls.filterMap BusCall.delay? = List.replicate delays 100

theorem Tally.nil : Tally 0 0 0 [] :=
  ⟨rfl, rfl, rfl⟩

theorem Tally.append {status flags delays status' flags' delays' : Nat}
    {calls more : List BusCall} (h : Tally status flags delays calls)
    (hmore : Tally status' flags' delays' more) :
    Tally (status + status') (flags + flags') (delays + delays') (calls ++ more) where
  status := by rw [List.countP_append, h.status, hmore.status]
  flags := by rw [List.countP_append, h.flags, hmore.flags]
  delays := by rw [List.filterMap_append, h.delays, hmore.delays, List.replicate_append_replicate]

theorem Check.tally_calls (flagged : Bool) (chip : Chip) :
    Tally 1 (if flagged then 1 else 0) 0 (calls flagged chip) := by
  have hstatus (value : UInt8) : Tally 1 0 0 (Opcode.readStatus.registerCalls value) :=
    ⟨rfl, rfl, rfl⟩
  have hflags (value : UInt8) : Tally 0 1 0 (Opcode.readFlagStatus.registerCalls value) :=
    ⟨rfl, rfl, rfl⟩
  unfold calls
  cases flagged with
  | true => exact (hstatus _).append (hflags _)
  | false => exact (hstatus _).append .nil

theorem Check.tally_rounds (flagged : Bool) (chip : Chip) (rounds : Nat) :
    Tally rounds (if flagged then rounds else 0) rounds
      ((List.range rounds).flatMap fun poll =>
        calls flagged (chip.polled poll) ++ [.delay 100]) := by
  have hdelay : Tally 0 0 1 [.delay 100] := ⟨rfl, rfl, rfl⟩
  induction rounds with
  | zero => cases flagged <;> exact .nil
  | succ rounds ih =>
    have hlast := ih.append ((tally_calls flagged (chip.polled rounds)).append hdelay)
    rw [List.range_succ, List.flatMap_append, List.flatMap_singleton]
    cases flagged <;> exact hlast

/-- One status read more than there are busy polls, if the budget goes as far. -/
theorem Check.tally_waitCalls (flagged : Bool) (attempts : Nat) (chip : Chip) :
    let checks := if chip.busy < attempts then chip.busy + 1 else attempts
    Tally checks (if flagged then checks else 0) (min attempts chip.busy)
      (waitCalls flagged attempts chip) := by
  have hrounds := tally_rounds flagged chip (min attempts chip.busy)
  unfold waitCalls
  by_cases hready : chip.busy < attempts
  · rw [Nat.min_eq_right (Nat.le_of_lt hready)] at hrounds ⊢
    have hall := hrounds.append (tally_calls flagged (chip.polled chip.busy))
    rw [if_pos hready, if_pos hready]
    cases flagged <;> exact hall
  · rw [Nat.min_eq_left (Nat.le_of_not_lt hready)] at hrounds ⊢
    rw [if_neg hready, if_neg hready, List.append_nil]
    exact hrounds

end Counting

/-- An operation of the driver over the part itself that ends after a wait ends alike over the
registers. -/
theorem Stack.finish_of_core {stack : Stack}
    {x : Driver.Action (Controller.Engine Board) Unit} {y : Driver.Action Chip Unit}
    (hxy : Simulates (Driver.Alike StandsFor) x y)
    (hstack : Driver.Alike StandsFor stack stack.core) {succeeds : Prop} [Decidable succeeds]
    {d : Driver Chip} (h : y stack.core = Driver.finish succeeds d) :
    ∃ after : Stack, x stack = Driver.finish succeeds after ∧ after.core = d := by
  have hagree := hxy hstack
  rw [h] at hagree
  generalize x stack = r at hagree
  by_cases hsucceeds : succeeds
  · rw [Driver.finish_of hsucceeds] at hagree
    cases hagree with
    | ok states => exact ⟨_, (Driver.finish_of hsucceeds _).symm, core_of_alike states⟩
  · rw [Driver.finish_of_not hsucceeds] at hagree
    cases hagree with
    | error states => exact ⟨_, (Driver.finish_of_not hsucceeds _).symm, core_of_alike states⟩

open Driver in
/-- A wait spends the busy polls of the part and nothing else. After any run without faults whose
latest scan has succeeded, and with the part released, it succeeds exactly if its checks outnumber
the busy polls left, and takes as many of them away as it makes checks. Each check is a status
read, on parts with a flag status register followed by a read of that, and every check that finds
the part busy is followed by a delay of 100 µs. Without a timeout nothing goes over the bus. -/
theorem wait_spends_busy_polls {setup : Setup} {fresh : Stack}
    (hfresh : setup.assemble = .ok fresh)
    {operations : List (Operation (Controller.Engine Board))}
    (hclean : ∀ operation ∈ operations, operation.Faultless) {g : Geometry}
    (hscanned : (Session.run fresh.bus setup.flash operations).scanned = some (.ok g))
    (hreleased :
      (Stack.chip (Session.run fresh.bus setup.flash operations).driver).selected = false)
    (timeout : UInt32) :
    let stack : Stack := (Session.run fresh.bus setup.flash operations).driver
    let busy := stack.chip.busy
    let attempts := min (10 * timeout.toNat) 0xffffffff
    let checks := if busy < attempts then busy + 1 else attempts
    let calls := callsOf (waitReady timeout) stack
    (∃ after : Stack,
      waitReady timeout stack =
        (if busy < attempts then .ok () after else .error .busyTimeout after) ∧
      after.chip = { stack.chip with busy := busy - attempts } ∧ after.state = stack.state) ∧
    calls = Check.waitCalls g.useFlagStatus attempts stack.chip ∧
    Tally checks (if g.useFlagStatus then checks else 0) (min attempts busy) calls ∧
    (timeout = 0 → calls = []) ∧
    (setup.part ∈ Part.table →
      g.useFlagStatus = setup.part.features.contains .flagStatus) := by
  intro stack busy attempts checks calls
  have hfaultless := Session.faultless_run hfresh hclean
  have hrest : stack.chip.AtRest := hfaultless.works.intact.proper.atRest hreleased
  have halike : Alike StandsFor stack stack.core := ⟨hfaultless.works.standsFor, rfl⟩
  have hattempts : Poll.attempts timeout = attempts :=
    congrArg (min · 0xffffffff) (Nat.mul_comm ..)
  have hflagged : stack.core.state.geometry.any (·.useFlagStatus) = g.useFlagStatus := by
    have hknown := Session.consistent_run fresh.bus setup.flash operations
    rw [hscanned] at hknown
    cases hknown with
    | ready _ _ geometry =>
      have hgeometry : stack.core.state.geometry = some g := geometry
      rw [hgeometry]
      rfl
    | unknown failed => exact absurd rfl (failed g)
  have hcalls : calls = Check.waitCalls g.useFlagStatus attempts stack.chip := by
    have hstep : calls = callsOf (waitReady timeout) stack.core :=
      callsOf_eq (simulates_waitReady (Traced.busSimulation_inStep busSimulation_standsFor)
        timeout) halike
    have hcore := waitReady_traced hrest [] hflagged timeout
    rw [hattempts] at hcore
    rw [hstep]
    have hmade := congrArg (fun result => (stateAfter result).bus.calls) hcore
    rw [stateAfter_finish, List.nil_append] at hmade
    exact hmade
  refine ⟨?_, hcalls, ?_, ?_, fun hlisted => hfaultless.flagged hlisted g hscanned⟩
  · have hcore := waitReady_eq hrest stack.core.state timeout
    rw [hattempts] at hcore
    obtain ⟨after, hafter, hsame⟩ :=
      Stack.finish_of_core (simulates_waitReady busSimulation_standsFor timeout) halike hcore
    have hchip : after.core.bus = stack.chip.polled attempts := by rw [hsame]
    have hstate : after.core.state = stack.core.state := by rw [hsame]
    exact ⟨after, hafter, hchip, hstate⟩
  · rw [hcalls]
    exact Check.tally_waitCalls g.useFlagStatus attempts stack.chip
  · rintro rfl
    rw [hcalls, Check.waitCalls]
    simp [attempts]

/-- A part that is busy for five status reads, and a driver that waits for no program. -/
def hasty : Setup :=
  .twoBanks { programTimeout := 0 } 5

/-- A scan, and a status write that is not waited for. -/
def unawaited : List (Operation (Controller.Engine Board)) :=
  [.routine .scan, .routine (.writeStatus 0)]

/-- Such a write leaves the part released, with all of its busy polls. -/
theorem run_unawaited :
    ∃ fresh : Stack, hasty.assemble = .ok fresh ∧
      let session := Session.run fresh.bus hasty.flash unawaited
      session.scanned = some (.ok (.derive .w25q256 hasty.flash)) ∧
      (Stack.chip session.driver).selected = false ∧ (Stack.chip session.driver).busy = 5 := by
  have hsound : hasty.Sound := Setup.sound_twoBanks rfl (by decide) 5
  obtain ⟨ready, hscans, -⟩ := hsound.exists_scans Part.w25q256_takenFor rfl
  obtain ⟨htuned, -⟩ := hsound.tuned_of_scans hscans
  obtain ⟨fresh, hfresh, hscan⟩ := hscans
  obtain ⟨-, hcreated⟩ := Setup.works_of_assemble hfresh
  obtain ⟨after, hwrite, hafter⟩ := Stack.finish_of_core
    (Driver.simulates_write busSimulation_standsFor _ _) htuned.alike
    (Driver.write_status htuned.attuned.rest.quiet ready.state 0 [])
  have hscanned : Session.step { driver := fresh } (.routine .scan) =
      { driver := ready, scanned := some (.ok (.derive .w25q256 hasty.flash)) } := by
    have hperform : Routine.scan.perform fresh = .ok () ready := bind_of_ok hscan _
    change Session.mk (stateAfter (Routine.scan.perform fresh))
      (some (answerOf (Driver.scan fresh))) = _
    rw [hperform, hscan]
    rfl
  have hwritten (scanned : Option (Except Error Geometry)) :
      Session.step { driver := ready, scanned } (.routine (.writeStatus 0)) =
        { driver := after, scanned } := by
    change Session.mk (stateAfter (Driver.writeStatus 0 ready)) scanned = _
    exact congrArg (Session.mk · scanned)
      ((congrArg stateAfter hwrite).trans (Driver.stateAfter_finish ..))
  have hrun : Session.run fresh.bus hasty.flash unawaited =
      { driver := after, scanned := some (.ok (.derive .w25q256 hasty.flash)) } := by
    rw [Session.run, ← hcreated, unawaited, List.foldl_cons, List.foldl_cons, List.foldl_nil,
      hscanned, hwritten]
  have hchip : Stack.chip after = (ready.core.bus.restatused 0 []).polled 0 := by
    have hsettings : ready.state.settings = hasty.flash := htuned.attuned.chosen
    rw [hsettings] at hafter
    exact congrArg Driver.bus hafter
  refine ⟨fresh, hfresh, ?_⟩
  dsimp only
  rw [hrun]
  refine ⟨rfl, ?_, ?_⟩
  · rw [hchip]
    exact htuned.attuned.rest.released
  · rw [hchip]
    exact htuned.attuned.polls

/-- Five busy polls are gone after six status reads, which a timeout of one millisecond allows. -/
theorem wait_spends_busy_polls_unawaited :
    ∃ fresh : Stack, hasty.assemble = .ok fresh ∧ (∀ operation ∈ unawaited, operation.Faultless) ∧
      let stack : Stack := (Session.run fresh.bus hasty.flash unawaited).driver
      stack.chip.selected = false ∧ stack.chip.busy = 5 ∧
      (∃ after : Stack, Driver.waitReady 1 stack = .ok () after ∧ after.chip.busy = 0) ∧
      Tally 6 0 5 (Driver.callsOf (Driver.waitReady 1) stack) := by
  obtain ⟨fresh, hfresh, hscanned, hreleased, hbusy⟩ := run_unawaited
  have hclean : ∀ operation ∈ unawaited, operation.Faultless := by
    simp [unawaited, Operation.Faultless]
  obtain ⟨⟨after, hwait, hchip, -⟩, -, htally, -⟩ :=
    wait_spends_busy_polls hfresh hclean hscanned hreleased 1
  have hleft : (Stack.chip after).busy =
      (Stack.chip (Session.run fresh.bus hasty.flash unawaited).driver).busy - 10 :=
    congrArg Chip.busy hchip
  rw [hbusy] at hleft hwait htally
  exact ⟨fresh, hfresh, hclean, hreleased, hbusy, ⟨after, hwait, hleft⟩, htally⟩

end NorFlash
