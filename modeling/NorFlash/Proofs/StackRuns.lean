import NorFlash.Proofs.Lifecycle
import NorFlash.Proofs.PartCalls
import NorFlash.Proofs.QuadEnable
import NorFlash.Proofs.RegisterHistory
import NorFlash.Proofs.RegisterTrace

/-!
Runs of a stack without faults: the operations of its driver in any order, and in between what else
may be done to its engine. In every state that they lead to the engine stands for its part, and what
the latest scan has found is the entry of the table under which the part is known.
-/
namespace NorFlash

open Emulation (Board Chip)

section Invariants

variable {σ α : Type} {P : σ → Prop}

/-- The same state, with a property. -/
def Both (P : σ → Prop) (s t : σ) : Prop :=
  s = t ∧ P s

theorem agree_both {r : EStateM.Result Error σ α} (h : P (stateAfter r)) : Agree (Both P) r r := by
  cases r with
  | ok value s => exact .ok ⟨rfl, h⟩
  | error cause s => exact .error ⟨rfl, h⟩

/-- A property that every operation of a bus keeps. -/
theorem busSimulation_both {β : Type} [SpiBus β] {P : β → Prop}
    (transfer : ∀ request bus, P bus → P (stateAfter (SpiBus.transfer request bus)))
    (release : ∀ bus, P bus → P (SpiBus.release bus))
    (selectUpper : ∀ upper bus, P bus → P (SpiBus.selectUpper upper bus))
    (delay : ∀ microseconds bus, P bus → P (SpiBus.delay microseconds bus)) :
    BusSimulation (Both P) where
  transfer request := by
    rintro bus _ ⟨rfl, h⟩
    exact agree_both (transfer request bus h)
  maxWrite h := congrArg SpiBus.maxWrite h.1
  release := by
    rintro bus _ ⟨rfl, h⟩
    exact ⟨rfl, release bus h⟩
  selectUpper upper := by
    rintro bus _ ⟨rfl, h⟩
    exact ⟨rfl, selectUpper upper bus h⟩
  delay microseconds := by
    rintro bus _ ⟨rfl, h⟩
    exact ⟨rfl, delay microseconds bus h⟩

/-- Such a property is kept by every operation of a driver. -/
theorem Driver.bus_stateAfter {β : Type} {P : β → Prop} {x : Driver.Action β α}
    (hx : Simulates (Driver.Alike (Both P)) x x) {d : Driver β} (h : P d.bus) :
    P (stateAfter (x d)).bus := by
  have hagree := hx (⟨⟨rfl, h⟩, rfl⟩ : Driver.Alike (Both P) d d)
  generalize x d = r at hagree
  cases hagree with
  | ok states => exact states.bus.2
  | error states => exact states.bus.2

end Invariants

namespace Emulation.Chip

/-- What is true of an emulated part in every state: which part it is, that its stored status never
shows a write in progress, and that it has forgotten a command once chip-select is released. -/
structure Proper (part : Part) (chip : Chip) : Prop where
  part_eq : chip.part = part
  settled : chip.status &&& StatusBit.writeInProgress = 0
  unseen : chip.selected = false → chip.seen = .empty

variable {part : Part} {chip : Chip}

theorem Outcome.part_eq {op : Opcode} {after : Chip} (h : Outcome chip op after) :
    after.part = chip.part := by
  cases h with
  | program => exact part_rewritten ..
  | erase => exact part_rewritten ..
  | _ => rfl

theorem Outcome.settled {op : Opcode} {after : Chip} (h : Outcome chip op after)
    (hsettled : chip.status &&& StatusBit.writeInProgress = 0) :
    after.status &&& StatusBit.writeInProgress = 0 := by
  cases h with
  | registers status config =>
    change (status &&& _) &&& StatusBit.writeInProgress = 0
    rw [UInt8.and_assoc]
    exact UInt8.and_zero
  | program =>
    rw [status_rewritten]
    exact and_and_of_and hsettled _
  | erase =>
    rw [status_rewritten]
    exact and_and_of_and hsettled _
  | enable => exact and_of_or_left hsettled (by decide)
  | other status bank fourByte idle lowered =>
    rcases lowered with rfl | rfl
    · exact hsettled
    · exact and_and_of_and hsettled _

theorem seen_deselect (h : chip.selected = true) : chip.deselect.seen = .empty := by
  unfold deselect
  rw [if_neg (by simp [h])]
  split
  case isTrue hnothing => exact ByteArray.size_eq_zero_iff.mp hnothing
  case isFalse => rfl

theorem Proper.called (h : chip.Proper part) (call : Call) : (call.after chip).Proper part := by
  have hkept : (call.after chip).part = chip.part ∧
      (call.after chip).status &&& StatusBit.writeInProgress = 0 := by
    rcases call.after_cases chip with ⟨op, -, selected, hafter⟩ | ⟨-, _, _, _, _, hafter⟩
    · rw [hafter]
      exact ⟨(commit_outcome op chip).part_eq, (commit_outcome op chip).settled h.settled⟩
    · rw [hafter]
      exact ⟨rfl, h.settled⟩
  refine ⟨hkept.1.trans h.part_eq, hkept.2, fun hreleased => ?_⟩
  cases call with
  | select => cases hreleased
  | deselect =>
    cases hselected : chip.selected with
    | false =>
      rw [Call.after, deselect_of_released hselected]
      exact h.unseen hselected
    | true => exact seen_deselect hselected
  | exchange byte =>
    have hoff : chip.selected = false := (selected_exchange chip byte).symm.trans hreleased
    rw [Call.after, exchange_of_released hoff]
    exact h.unseen hoff
  | setBusyPolls polls => exact h.unseen hreleased

/-- A part without a transaction is at rest. -/
theorem Proper.atRest (h : chip.Proper part) (hreleased : chip.selected = false) : chip.AtRest :=
  ⟨hreleased, h.unseen hreleased, h.settled⟩

end Emulation.Chip

namespace Emulation.Controller

open NorFlash.Controller

/-- A write does to the part what a call of it does, or nothing, and it sets or clears no fault. -/
theorem Consistent.write_part {controller : Controller} (h : Consistent controller)
    (register : Nat) (word : UInt32) :
    ((controller.write register word).chip = controller.chip ∨
      ∃ call : Chip.Call, (controller.write register word).chip = call.after controller.chip) ∧
    (controller.write register word).stuck = controller.stuck ∧
    (controller.write register word).silent = controller.silent := by
  rcases write_cases register word controller with
    ⟨-, hwrite⟩ | ⟨-, hwrite⟩ | ⟨-, hwrite⟩ | ⟨-, -, hwrite⟩ | ⟨-, -, -, -, log, hwrite⟩ <;>
    rw [hwrite]
  case inl =>
    rw [h.shift_eq]
    exact ⟨.inr ⟨.exchange word.toUInt8, rfl⟩, rfl, rfl⟩
  case inr.inl =>
    by_cases hword : word = deselected
    · rw [hword, (h.record ..).setSelect_deselected]
      exact ⟨.inr ⟨.deselect, rfl⟩, rfl, rfl⟩
    · rw [setSelect_of_ne hword]
      exact ⟨.inr ⟨.select, rfl⟩, rfl, rfl⟩
  case inr.inr.inl => exact ⟨.inl rfl, rfl, rfl⟩
  case inr.inr.inr.inl => exact ⟨.inr ⟨.deselect, rfl⟩, rfl, rfl⟩
  case inr.inr.inr.inr => exact ⟨.inl rfl, rfl, rfl⟩

end Emulation.Controller

/-- A board without faults, with this part behind its controller. -/
structure Intact (part : Part) (board : Board) : Prop where
  consistent : board.controller.Consistent
  flowing : board.controller.stuck = false
  answering : board.controller.silent = false
  proper : board.controller.chip.Proper part

namespace Intact

open NorFlash.Controller

variable {part : Part} {board : Board} (h : Intact part board)
include h

theorem read (register : Nat) : Intact part (Hardware.read register board).2 := by
  obtain ⟨controller, clock⟩ := board
  have hconsistent := h.consistent.read register
  change Intact part ⟨(controller.read register).2, clock⟩
  rcases Emulation.Controller.read_cases register controller with
    ⟨-, -, byte, queue, -, hread⟩ | ⟨-, hread⟩
  · rw [hread] at hconsistent ⊢
    exact ⟨hconsistent, h.flowing, h.answering, h.proper⟩
  · rw [hread]
    exact h

theorem write (register : Nat) (word : UInt32) :
    Intact part (Hardware.write register word board) := by
  obtain ⟨controller, clock⟩ := board
  obtain ⟨hpart, hstuck, hsilent⟩ := h.consistent.write_part register word
  refine ⟨h.consistent.write register word, hstuck.trans h.flowing, hsilent.trans h.answering, ?_⟩
  change (controller.write register word).chip.Proper part
  rcases hpart with hsame | ⟨call, hcall⟩
  · exact hsame ▸ h.proper
  · exact hcall ▸ h.proper.called call

theorem undergoes {calls : List RegisterCall} {after : Board}
    (hcalls : Undergoes board calls after) : Intact part after := by
  induction hcalls with
  | start => exact h
  | read register before ih => exact ih.read register
  | write register value before ih => exact ih.write register value
  | delay microseconds before ih => exact ⟨ih.consistent, ih.flowing, ih.answering, ih.proper⟩

end Intact

/-- An engine with a chip-select line that exists, over a board without faults. -/
structure Works (part : Part) (engine : Controller.Engine Board) : Prop where
  line : engine.chipSelect < Controller.lines
  intact : Intact part engine.hardware

namespace Works

variable {part : Part} {engine : Controller.Engine Board}

theorem standsFor (h : Works part engine) :
    StandsFor engine engine.hardware.controller.chip :=
  ⟨engine.hardware.controller.queue, h.intact.consistent.queue_le, h.line, h.intact.flowing,
    h.intact.answering, rfl, rfl, h.intact.consistent.selected⟩

theorem of_standsFor {chip : Chip} (h : StandsFor engine chip) (hproper : chip.Proper part) :
    Works part engine := by
  obtain ⟨queue, hqueue, hline, hstuck, hsilent, rfl, rfl, hselected⟩ := h
  exact ⟨hline, ⟨hselected, hqueue⟩, hstuck, hsilent, hproper⟩

/-- A transfer is made of register accesses. -/
theorem transfer (h : Works part engine) (request : Transfer) :
    Works part (stateAfter (SpiBus.transfer request engine)) := by
  have hstate : (stateAfter (SpiBus.transfer request engine)) = (engine.run request).2 := by
    simp only [SpiBus.transfer]
    generalize engine.run request = r
    obtain ⟨⟨outcome, received⟩, after⟩ := r
    cases outcome <;> rfl
  have hagree := busSimulation_standsFor.transfer request h.standsFor
  have hline : (stateAfter (SpiBus.transfer request engine)).chipSelect < Controller.lines := by
    generalize SpiBus.transfer request engine = r at hagree
    generalize SpiBus.transfer request engine.hardware.controller.chip = r' at hagree
    cases hagree with
    | ok states =>
      obtain ⟨_, _, hdrives⟩ := states
      exact hdrives.line
    | error states =>
      obtain ⟨_, _, hdrives⟩ := states
      exact hdrives.line
  obtain ⟨-, hundergoes⟩ := engine.run_watched request
  refine ⟨hline, ?_⟩
  rw [hstate]
  exact h.intact.undergoes hundergoes

end Works

theorem busSimulation_works (part : Part) : BusSimulation (Both (Works part)) :=
  busSimulation_both (fun request _ h => h.transfer request) (fun _ h => h) (fun _ _ h => h)
    fun _ _ h => ⟨h.line, h.intact.consistent, h.intact.flowing, h.intact.answering,
      h.intact.proper⟩

section Identifying

namespace Emulation.Chip

theorem select_deselect (chip : Chip) : chip.deselect.select = chip.select := by
  rw [select, deselect_of_released (selected_deselect chip)]
  rfl

/-- A command ends a transaction that is still open. -/
theorem transact_deselect (chip : Chip) (command data : List UInt8) :
    chip.deselect.transact command data = chip.transact command data := by
  rw [transact, select_deselect]
  rfl

end Emulation.Chip

/-- The entry under which a part is identified has a flag status register just as the part. -/
theorem Part.table_flagged :
    Part.table.all (fun part => (findById? part.idBytes).all fun entry =>
      entry.features.contains .flagStatus == part.features.contains .flagStatus) = true := by
  decide +kernel

theorem Part.TakenFor.flagStatus_eq {part entry : Part} (h : part.TakenFor entry)
    (hlisted : part ∈ table) :
    entry.features.contains .flagStatus = part.features.contains .flagStatus := by
  have hpart := List.all_eq_true.mp table_flagged part hlisted
  rw [h.identified] at hpart
  exact eq_of_beq hpart

namespace Driver

variable {chip : Chip} {part entry : Part}

theorem readId_deselect (chip : Chip) (state : DriverState) :
    readId ⟨chip.deselect, state⟩ = readId ⟨chip, state⟩ := by
  have hreceive := @Command.receive_eq chip (Bytes.ofList [Opcode.readId.byte]) (by simp)
    Part.maxIdLength
  have hended := @Command.receive_eq chip.deselect (Bytes.ofList [Opcode.readId.byte]) (by simp)
    Part.maxIdLength
  rw [Chip.transact_deselect] at hended
  refine (bind_of_ok (attempt_of_ok (onBus_of_ok hended state)) _).trans (Eq.symm ?_)
  exact bind_of_ok (attempt_of_ok (onBus_of_ok hreceive state)) _

/-- A scan finds the entry of the part even where it has to end a transaction first. -/
theorem layout_of_scan (h : chip.Proper part) (ht : part.TakenFor entry) {state : DriverState}
    {g : Geometry} {ready : Driver Chip} (hscan : scan ⟨chip, state⟩ = .ok g ready) :
    g = .derive entry state.settings := by
  have hended := h.called .deselect
  have hquiet : chip.deselect.Quiet := (hended.atRest (Chip.selected_deselect chip)).quiet
  have hread := readId_eq hquiet (hended.part_eq.symm ▸ ht) (scanning state)
  rw [readId_deselect] at hread
  have hidentify : identify scanAttempts ⟨chip, scanning state⟩ =
      .ok entry ⟨chip.deselect, scanning state⟩ := bind_of_ok hread _
  have hbringUp : bringUp ⟨chip, scanning state⟩ =
      prepare entry ⟨chip.deselect, scanning state⟩ := by
    rw [bringUp_eq_prepare]
    exact bind_of_ok hidentify _
  cases hprepare : prepare entry (⟨chip.deselect, scanning state⟩ : Driver Chip) with
  | error cause d' =>
    have hfailed := @scan_of_error _ _ ⟨chip, state⟩ d' cause (hbringUp.trans hprepare)
    cases hscan.symm.trans hfailed
  | ok found d' =>
    have hfound := @scan_of_ok _ _ ⟨chip, state⟩ d' found (hbringUp.trans hprepare)
    rw [(EStateM.Result.ok.inj (hscan.symm.trans hfound)).1]
    exact (prepare_records rfl hprepare).1

end Driver

end Identifying

/-- What may be done to an engine behind the back of its driver: accesses to the registers, and
another busy time for the part. Neither of them sets a fault, moves the engine to another
chip-select line or goes to the part past the controller. -/
inductive Tended : Controller.Engine Board → Controller.Engine Board → Prop where
  | accessed {engine after : Controller.Engine Board} {calls : List Controller.RegisterCall}
    (undergoes : Controller.Undergoes engine.hardware calls after.hardware)
    (line : after.chipSelect = engine.chipSelect) : Tended engine after
  | retimed (engine : Controller.Engine Board) (polls : Nat) :
    Tended engine { engine with hardware :=
      engine.hardware.mapController (.mapChip (Chip.Call.setBusyPolls polls).after) }

theorem Works.tended {part : Part} {engine after : Controller.Engine Board}
    (h : Works part engine) (htended : Tended engine after) : Works part after := by
  cases htended with
  | accessed undergoes line => exact ⟨line ▸ h.line, h.intact.undergoes undergoes⟩
  | retimed polls =>
    obtain ⟨⟨selected, queue_le⟩, flowing, answering, proper⟩ := h.intact
    exact ⟨h.line, ⟨selected, queue_le⟩, flowing, answering,
      proper.called (.setBusyPolls polls)⟩

/-- Operations that set no fault. -/
def Operation.Faultless : Operation (Controller.Engine Board) → Prop
  | useBus change => ∀ engine, Tended engine (change engine)
  | _ => True

/-- What holds in a faultless run of a stack: the engine works its part, and a layout that was
found uses the flag status register if the part has one. -/
structure Session.Faultless (part : Part) (session : Session (Controller.Engine Board)) :
    Prop where
  works : Works part session.driver.bus
  flagged : part ∈ Part.table → ∀ g, session.scanned = some (.ok g) →
    g.useFlagStatus = part.features.contains .flagStatus

namespace Session.Faultless

variable {part : Part} {session : Session (Controller.Engine Board)}

theorem flagged_scan (h : session.Faultless part) (hlisted : part ∈ Part.table) {g : Geometry}
    (hscan : answerOf (Driver.scan session.driver) = .ok g) :
    g.useFlagStatus = part.features.contains .flagStatus := by
  obtain ⟨entry, ht⟩ := Part.exists_takenFor hlisted
  cases hresult : Driver.scan session.driver with
  | error cause ready =>
    rw [hresult] at hscan
    cases hscan
  | ok found ready =>
    rw [hresult] at hscan
    cases hscan
    have halike : Driver.Alike StandsFor session.driver (Stack.core session.driver) :=
      ⟨h.works.standsFor, rfl⟩
    have hcore := Stack.core_of_scan halike hresult
    rw [Driver.layout_of_scan h.works.intact.proper ht hcore]
    exact ht.flagStatus_eq hlisted

theorem step (h : session.Faultless part) {operation : Operation (Controller.Engine Board)}
    (hclean : operation.Faultless) : (session.step operation).Faultless part := by
  have hkept {α : Type} {x : Driver.Action (Controller.Engine Board) α}
      (hx : Simulates (Driver.Alike (Both (Works part))) x x) :
      Works part (stateAfter (x session.driver)).bus :=
    Driver.bus_stateAfter hx h.works
  have hbus := busSimulation_works part
  cases operation with
  | routine routine =>
    cases routine with
    | scan =>
      refine ⟨hkept ((Driver.simulates_scan hbus).bind fun _ => .pure _), fun hlisted g hg => ?_⟩
      exact h.flagged_scan hlisted (Option.some.inj hg)
    | call request =>
      refine ⟨hkept ?_, h.flagged⟩
      cases request with
      | read offset length =>
        exact (Driver.simulates_read hbus offset length).bind fun _ => .pure _
      | program offset data => exact Driver.simulates_program hbus offset data
      | erase offset length => exact Driver.simulates_erase hbus offset length
    | writeStatus status => exact ⟨hkept (Driver.simulates_write hbus _ _), h.flagged⟩
    | writeConfig config => exact ⟨hkept (Driver.simulates_writeConfig hbus config), h.flagged⟩
  | readId => exact ⟨hkept (Driver.simulates_readId hbus), h.flagged⟩
  | readStatus => exact ⟨hkept (Driver.simulates_readRegister hbus _), h.flagged⟩
  | readFlagStatus => exact ⟨hkept (Driver.simulates_readRegister hbus _), h.flagged⟩
  | readConfig => exact ⟨hkept (Driver.simulates_readRegister hbus _), h.flagged⟩
  | isReady => exact ⟨hkept (Driver.simulates_isReady hbus), h.flagged⟩
  | waitReady timeout => exact ⟨hkept (Driver.simulates_waitReady hbus timeout), h.flagged⟩
  | write frame payload => exact ⟨hkept (Driver.simulates_write hbus frame payload), h.flagged⟩
  | receive frame length => exact ⟨hkept (Driver.simulates_receive hbus frame length), h.flagged⟩
  | readBank =>
    refine ⟨hkept (Driver.simulates_getState.bind fun state => ?_), h.flagged⟩
    cases state.bank with
    | none => exact .pure _
    | some bank => exact (Driver.simulates_receive hbus _ _).bind fun _ => .pure _
  | setLockCheck check => exact ⟨h.works, h.flagged⟩
  | useBus change => exact ⟨h.works.tended (hclean _), h.flagged⟩

end Session.Faultless

theorem Setup.works_of_assemble {setup : Setup} {fresh : Stack}
    (hfresh : setup.assemble = .ok fresh) :
    Works setup.part fresh.bus ∧ fresh = .create fresh.bus setup.flash := by
  unfold assemble at hfresh
  unfold Chip.load at hfresh
  dsimp only at hfresh
  split at hfresh
  case h_1 => cases hfresh
  case h_2 chip hload =>
    split at hload
    · cases hload
    cases hload
    split at hfresh
    case h_1 => cases hfresh
    case h_2 engine hstart =>
      cases hfresh
      have hproper : Chip.Proper setup.part setup.freshChip := ⟨rfl, UInt8.zero_and, fun _ => rfl⟩
      exact ⟨.of_standsFor (standsFor_of_startEngine rfl hstart) hproper, rfl⟩

/-- Every run without faults of a stack put together from a setup. -/
theorem Session.faultless_run {setup : Setup} {fresh : Stack} (hfresh : setup.assemble = .ok fresh)
    {operations : List (Operation (Controller.Engine Board))}
    (hclean : ∀ operation ∈ operations, operation.Faultless) :
    (Session.run fresh.bus setup.flash operations).Faultless setup.part := by
  have hsteps (session : Session (Controller.Engine Board)) (h : session.Faultless setup.part) :
      (operations.foldl Session.step session).Faultless setup.part := by
    induction operations generalizing session with
    | nil => exact h
    | cons operation operations ih =>
      exact ih (fun other hother => hclean other (List.mem_cons_of_mem _ hother)) _
        (h.step (hclean operation List.mem_cons_self))
  exact hsteps _ ⟨(setup.works_of_assemble hfresh).1, fun _ g h => by cases h⟩

end NorFlash
