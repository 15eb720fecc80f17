import NorFlash.Emulation.Board
import NorFlash.Proofs.EngineRun

/-!
The transfer engine over the emulated controller does what the byte-stream bus does: stale answers
are drained first, the answer to each byte leaves the receive queue before the next byte goes out,
and the slave-select register moves the chip-select of the part.
-/
namespace NorFlash

namespace Emulation.Controller

/-- A controller without faults that has this receive queue and this part behind it. -/
structure Carries (queue : List UInt8) (controller : Controller) (chip : Chip) : Prop where
  flowing : controller.stuck = false
  answering : controller.silent = false
  queued : controller.queue = queue
  part : controller.chip = chip
  selected : controller.isSelected = chip.selected

namespace Carries

open NorFlash.Controller

variable {queue : List UInt8} {controller : Controller} {chip : Chip}

theorem status_receiveEmpty (h : Carries queue controller chip) :
    decide (controller.status &&& StatusBit.receiveEmpty = 0) = !queue.isEmpty := by
  simp only [Controller.status, h.flowing, h.queued, Bool.not_false, Bool.and_true]
  cases queue with
  | nil => decide
  | cons byte queue =>
    simp only [List.isEmpty_cons, Bool.false_eq_true, ↓reduceIte]
    split <;> decide

theorem read_receive {byte : UInt8} (h : Carries (byte :: queue) controller chip) :
    ∃ after, controller.read Register.receive = (byte.toUInt32, after) ∧
      Carries queue after chip := by
  refine ⟨{ controller with queue }, ?_, h.flowing, h.answering, rfl, h.part, h.selected⟩
  simp [Controller.read, Register.receive, Register.status, h.flowing, h.queued]

/-- The transmit register exchanges one byte, whether or not the part is selected. -/
theorem write_transmit (h : Carries [] controller chip) (byte : UInt8) :
    Carries [(chip.exchange byte).1] (controller.write Register.transmit byte.toUInt32)
      (chip.exchange byte).2 := by
  obtain ⟨part, _, control, slaveSelect, log, transactions, _, _⟩ := controller
  obtain ⟨rfl, rfl, rfl, rfl, hselected⟩ := h
  have hexchange : (if slaveSelect ≠ deselected then part.exchange byte else (0xff, part)) =
      part.exchange byte := by
    split
    case isTrue => rfl
    case isFalse hoff =>
      -- no line is selected, so the part is released and answers with the idle level
      have hreleased : part.selected = false := by
        rw [← hselected]
        simpa [isSelected] using hoff
      rw [Chip.exchange_of_released hreleased]
  have hwrite : Controller.write Register.transmit byte.toUInt32
      ⟨part, [], control, slaveSelect, log, transactions, false, false⟩ =
      ⟨(part.exchange byte).2, [(part.exchange byte).1], control, slaveSelect, log,
        transactions, false, false⟩ := by
    simp only [Controller.write, ↓reduceIte, shift, UInt8.toUInt8_toUInt32, hexchange]
    simp [queueDepth]
  rw [hwrite]
  exact ⟨rfl, rfl, rfl, rfl, hselected.trans (Chip.selected_exchange ..).symm⟩

theorem write_select (h : Carries queue controller chip) {word : UInt32} (hw : word ≠ deselected) :
    Carries queue (controller.write Register.slaveSelect word) chip.select := by
  change Carries queue ((controller.record Register.slaveSelect word).setSelect word) chip.select
  obtain ⟨part, _, control, slaveSelect, log, transactions, _, _⟩ := controller
  obtain ⟨rfl, rfl, rfl, rfl, hselected⟩ := h
  have hon : decide (word ≠ deselected) = true := by simpa using hw
  simp only [record, setSelect, isSelected, hon, ↓reduceIte, mapChip]
  exact ⟨rfl, rfl, rfl, rfl, hon⟩

theorem write_deselect (h : Carries queue controller chip) :
    Carries queue (controller.write Register.slaveSelect deselected) chip.deselect := by
  change Carries queue ((controller.record Register.slaveSelect deselected).setSelect deselected)
    chip.deselect
  obtain ⟨part, waiting, control, slaveSelect, log, transactions, _, _⟩ := controller
  obtain ⟨rfl, rfl, rfl, rfl, hselected⟩ := h
  have hoff : isSelected ⟨part, waiting, control, deselected,
      log.push (Register.slaveSelect, deselected), transactions, false, false⟩ = false := by
    simp [isSelected]
  have hwas : isSelected ⟨part, waiting, control, slaveSelect,
      log.push (Register.slaveSelect, deselected), transactions, false, false⟩ =
        part.selected := hselected
  simp only [record, setSelect, hoff, hwas, Bool.false_eq_true, ↓reduceIte, mapChip]
  split
  case isTrue => exact ⟨rfl, rfl, rfl, rfl, (Chip.selected_deselect part).symm⟩
  case isFalse hreleased =>
    rw [Bool.not_eq_true] at hreleased
    rw [Chip.deselect_of_released hreleased]
    exact ⟨rfl, rfl, rfl, rfl, hreleased.symm⟩

theorem write_control (h : Carries [] controller chip) (word : UInt32) :
    Carries [] (controller.write Register.control word) chip := by
  change Carries [] ((controller.record Register.control word).setControl word) chip
  obtain ⟨part, _, control, slaveSelect, log, transactions, _, _⟩ := controller
  obtain ⟨rfl, rfl, rfl, rfl, hselected⟩ := h
  exact ⟨rfl, rfl, by simp [record, setControl], rfl, hselected⟩

theorem write_reset (h : Carries queue controller chip) :
    Carries [] (controller.write Register.softwareReset resetWord) chip.deselect := by
  obtain ⟨part, _, control, slaveSelect, log, transactions, _, _⟩ := controller
  obtain ⟨rfl, rfl, rfl, rfl, hselected⟩ := h
  exact ⟨rfl, rfl, rfl, rfl, (Chip.selected_deselect part).symm⟩

end Carries

end Emulation.Controller

open Emulation (Board Chip)

theorem Controller.selectWord_ne_deselected {line : UInt8} (h : line < lines) :
    selectWord line ≠ deselected := by
  have hall : ∀ n : Fin 32, ~~~((1 : UInt32) <<< (UInt8.ofNat n).toUInt32) ≠ deselected := by
    decide
  have hn : line.toNat < 32 := UInt8.lt_iff_toNat_lt.mp h
  have hline := hall ⟨line.toNat, hn⟩
  rw [UInt8.ofNat_toNat] at hline
  rwa [selectWord, if_pos h]

/-- An engine with a chip-select line that exists, over a controller without faults. -/
structure Drives (queue : List UInt8) (engine : Controller.Engine Board) (chip : Chip) : Prop where
  line : engine.chipSelect < Controller.lines
  carries : Emulation.Controller.Carries queue engine.hardware.controller chip

namespace Drives

open Controller

variable {queue : List UInt8} {engine : Engine Board} {chip : Chip}

theorem delay (h : Drives queue engine chip) (microseconds : UInt32) :
    Drives queue (engine.delay microseconds) chip :=
  ⟨h.line, h.carries⟩

theorem select (h : Drives queue engine chip) : Drives queue engine.select chip.select :=
  ⟨h.line, h.carries.write_select (Controller.selectWord_ne_deselected h.line)⟩

theorem deselect (h : Drives queue engine chip) : Drives queue engine.deselect chip.deselect :=
  ⟨h.line, h.carries.write_deselect⟩

theorem hasReceived (h : Drives queue engine chip) :
    engine.hasReceived = (!queue.isEmpty, engine) := by
  rw [← h.carries.status_receiveEmpty]
  rfl

theorem read_receive {byte : UInt8} (h : Drives (byte :: queue) engine chip) :
    ∃ after, engine.read Register.receive = (byte.toUInt32, after) ∧ Drives queue after chip := by
  obtain ⟨controller, hread, hcarries⟩ := h.carries.read_receive
  refine ⟨{ engine with hardware := (⟨controller, engine.hardware.clock⟩ : Board) }, ?_, h.line,
    hcarries⟩
  change ((engine.hardware.controller.read Register.receive).1,
    ({ engine with hardware := (⟨(engine.hardware.controller.read Register.receive).2,
      engine.hardware.clock⟩ : Board) } : Engine Board)) = _
  rw [hread]

/-- A budget above the length of the queue is enough to empty it. -/
theorem drain (h : Drives queue engine chip) (budget : Nat) (hb : queue.length < budget) :
    ∃ after, Engine.drain budget engine = (.ok (), after) ∧ Drives [] after chip := by
  -- one check and one read for every stale answer, and one more check to see that none is left
  induction queue generalizing budget engine with
  | nil =>
    obtain _ | budget := budget
    · simp at hb
    · exact ⟨engine, by simp [Engine.drain, h.hasReceived], h⟩
  | cons byte queue ih =>
    obtain _ | budget := budget
    · simp at hb
    · obtain ⟨next, hread, hnext⟩ := h.read_receive
      obtain ⟨after, hdrain, hafter⟩ := ih hnext budget (by simpa using hb)
      exact ⟨after, by simp [Engine.drain, h.hasReceived, hread, hdrain], hafter⟩

/-- The answer to a byte is there at the first check. -/
theorem shiftByte (h : Drives [] engine chip) (byte : UInt8) {budget : Poll.Budget}
    (hb : 0 < budget.attempts) :
    ∃ after, Engine.shiftByte byte budget engine = .ok (chip.exchange byte).1 after ∧
      Drives [] after (chip.exchange byte).2 := by
  have hsent : Drives [(chip.exchange byte).1] (engine.write Register.transmit byte.toUInt32)
      (chip.exchange byte).2 := ⟨h.line, h.carries.write_transmit byte⟩
  obtain ⟨after, hread, hafter⟩ := hsent.read_receive
  refine ⟨after, ?_, hafter⟩
  have hready : Engine.answered (engine.write Register.transmit byte.toUInt32) =
      .ok true (engine.write Register.transmit byte.toUInt32) := by
    rw [Engine.answered, hsent.hasReceived]
    rfl
  have hpoll : Poll.untilReady budget Engine.answered Engine.delay
      (engine.write Register.transmit byte.toUInt32) =
      .ok (.ready 1) (engine.write Register.transmit byte.toUInt32) :=
    Poll.untilReady_of_ready hb hready
  rw [Poll.untilReady] at hpoll
  rw [Engine.shiftByte_eq, hpoll]
  simp only [hread, UInt8.toUInt8_toUInt32]

/-- Shifting the bytes from number `i` on clocks them through the part. -/
theorem shiftFrom (h : Drives [] engine chip) (budget : Poll.Budget) (hb : 0 < budget.attempts)
    (payload : Option ByteArray) (keep : Bool) (left i : Nat) (received : ByteArray) :
    ∃ after, Engine.shiftFrom budget payload keep left i received engine =
        (⟨.ok (), if keep then
          received ++ Bytes.ofList (chip.clock ((List.range' i left).map
            (Transfer.byteSent payload))).1
          else received⟩, after) ∧
      Drives [] after (chip.clock ((List.range' i left).map (Transfer.byteSent payload))).2 := by
  induction left generalizing i received engine chip with
  | zero => exact ⟨engine, by cases keep <;> simp [Engine.shiftFrom], h⟩
  | succ left ih =>
    obtain ⟨next, hshift, hnext⟩ := h.shiftByte (Transfer.byteSent payload i) hb
    obtain ⟨after, hrest, hafter⟩ := ih hnext (i + 1)
      (if keep then received.push (chip.exchange (Transfer.byteSent payload i)).1 else received)
    refine ⟨after, ?_, by simpa [List.range'_succ, Chip.clock_cons] using hafter⟩
    rw [Engine.shiftFrom_succ, hshift]
    dsimp only
    rw [hrest]
    cases keep with
    | false => rfl
    | true =>
      simp only [↓reduceIte, List.range'_succ, List.map_cons, Chip.clock_cons]
      congr 2
      exact Bytes.toList_injective (by simp)

theorem byteTimeout_pos (engine : Engine Board) : 0 < engine.byteTimeout := by
  unfold Engine.byteTimeout
  dsimp only
  split
  · exact Nat.two_pos
  · exact Nat.succ_pos _

theorem opened (h : Drives queue engine chip) (framing : Framing) :
    Drives queue (if framing.first then engine.select else engine) (chip.opened framing) := by
  unfold Chip.opened
  split
  · exact h.select
  · exact h

theorem closed (h : Drives queue engine chip) (framing : Framing) :
    Drives queue (if framing.last then engine.deselect else engine) (chip.closed framing) := by
  unfold Chip.closed
  split
  · exact h.deselect
  · exact h

/-- A sound transfer of at least one byte ends well, and leaves the receive queue empty. -/
theorem run_of_sound (h : Drives queue engine chip)
    (hqueue : queue.length ≤ Emulation.Controller.queueDepth) {request : Transfer}
    (hpos : request.bits ≠ 0) (hwhole : request.bits % 8 = 0) (hshort : request.isShort = false) :
    ∃ after, engine.run request = (⟨.ok (),
        Chip.kept request ((chip.opened request.framing).clock request.sent).1⟩, after) ∧
      Drives [] after (((chip.opened request.framing).clock request.sent).2.closed
        request.framing) := by
  obtain ⟨drained, hdrain, hdrained⟩ := h.drain Engine.drainBudget
    (Nat.lt_succ_of_le hqueue)
  obtain ⟨shifted, hshift, hshifted⟩ := (hdrained.opened request.framing).shiftFrom
    ⟨Engine.byteTimeout (if request.framing.first then drained.select else drained), 1⟩
    (byteTimeout_pos _) request.payload request.room.isSome (request.bits / 8) 0 .empty
  rw [Transfer.map_byteSent] at hshift hshifted
  have hkept (answers : List UInt8) : (if request.room.isSome then
      ByteArray.empty ++ Bytes.ofList answers else ByteArray.empty) =
      Chip.kept request answers := by
    unfold Chip.kept
    split
    · exact Bytes.toList_injective (by simp)
    · rfl
  rw [hkept] at hshift
  refine ⟨_, ?_, hshifted.closed request.framing⟩
  rw [Engine.run_of_sound hpos hwhole hshort, hdrain]
  dsimp only
  rw [Engine.clock, hshift]

end Drives

/-- The engine in place of the byte-stream bus: it may start with stale answers. -/
def StandsFor (engine : Controller.Engine Board) (chip : Chip) : Prop :=
  ∃ queue, queue.length ≤ Emulation.Controller.queueDepth ∧ Drives queue engine chip

section Transfers

variable {η : Type} [Hardware η] {request : Transfer} {engine after : Controller.Engine η}
  {received : ByteArray}

theorem Controller.Engine.transfer_of_run_ok
    (h : engine.run request = (⟨.ok (), received⟩, after)) :
    SpiBus.transfer request engine = .ok received after := by
  simp only [SpiBus.transfer]
  rw [h]

theorem Controller.Engine.transfer_of_run_error {cause : Error}
    (h : engine.run request = (⟨.error cause, received⟩, after)) :
    SpiBus.transfer request engine = .error cause after := by
  simp only [SpiBus.transfer]
  rw [h]

end Transfers

/-- The transfer engine over the emulated registers simulates the byte-stream bus. -/
theorem busSimulation_standsFor : BusSimulation StandsFor where
  transfer request := by
    rintro engine chip ⟨queue, hqueue, h⟩
    change Agree StandsFor _ (Chip.transfer request chip)
    by_cases hpos : request.bits = 0
    · rw [Controller.Engine.transfer_of_run_ok (Controller.Engine.run_of_nothing hpos engine),
        Chip.transfer, if_pos hpos]
      exact .ok ⟨queue, hqueue, h.closed request.framing⟩
    by_cases hwhole : request.bits % 8 = 0
    · cases hshort : request.isShort with
      | false =>
        obtain ⟨after, hrun, hafter⟩ := h.run_of_sound hqueue hpos hwhole hshort
        rw [Controller.Engine.transfer_of_run_ok hrun, Chip.transfer_of_sound hpos hwhole hshort]
        exact .ok ⟨[], Nat.zero_le _, hafter⟩
      | true =>
        have hrun := Controller.Engine.run_of_short hpos hwhole hshort engine
        rw [Controller.Engine.transfer_of_run_error hrun, Chip.transfer, if_neg hpos,
          if_neg (not_not_intro hwhole), if_pos hshort]
        exact .error ⟨queue, hqueue, h.deselect⟩
    · have hrun := Controller.Engine.run_of_partial hwhole engine
      rw [Controller.Engine.transfer_of_run_error hrun, Chip.transfer, if_neg hpos, if_pos hwhole]
      exact .error ⟨queue, hqueue, h.deselect⟩
  maxWrite _ := rfl
  release h := h
  selectUpper _ _ _ h := h
  delay microseconds _ _ h :=
    let ⟨queue, hqueue, hdrives⟩ := h
    ⟨queue, hqueue, hdrives.delay microseconds⟩

/-- An engine started over a fresh controller stands for the part behind it. -/
theorem startEngine_standsFor {chip : Chip} (hreleased : chip.selected = false)
    {settings : SpiSettings} (hline : settings.chipSelect < Controller.lines) :
    ∃ engine, Emulation.startEngine (.create chip) settings = .ok engine ∧
      StandsFor engine chip := by
  let engine : Controller.Engine Board := ⟨⟨.create chip, {}⟩, settings.frequency,
    settings.chipSelect, .ofBits settings.mode⟩
  have hcreated : Emulation.Controller.Carries [] (.create chip) chip :=
    ⟨rfl, rfl, rfl, rfl, hreleased.symm⟩
  have hclaimed := ((hcreated.write_reset.write_deselect).write_control
    Controller.controlOn).write_control
  simp only [Chip.deselect_of_released hreleased] at hclaimed
  have hstart : Emulation.startEngine (.create chip) settings = .ok engine.start := by
    simp only [Emulation.startEngine, Controller.Engine.create, UInt8.not_le.mpr hline, ↓reduceIte,
      engine]
  exact ⟨engine.start, hstart, [], Nat.zero_le _, hline, hclaimed _⟩

end NorFlash
