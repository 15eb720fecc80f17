import NorFlash.Proofs.Identification
import NorFlash.Proofs.RegisterEngine

/-!
The emulated controller under any sequence of register accesses: chip-select of the part follows
the slave-select register, and the receive queue stays within its depth. These two facts are all
that a transfer of the engine needs, so it can start from every state that accesses lead to.
-/
namespace NorFlash

open Emulation (Board Chip)

namespace Emulation.Controller

open NorFlash.Controller

/-- An access to the register block. The faults may come and go between two of them. -/
inductive Access where
  | read (register : Nat)
  | write (register : Nat) (value : UInt32)
  | fault (stuck silent : Bool)
  deriving DecidableEq, Repr

def Access.after : Access → Controller → Controller
  | read register, controller => (controller.read register).2
  | write register value, controller => controller.write register value
  | fault stuck silent, controller => { controller with stuck, silent }

/-- The states that accesses lead to from a fresh controller with a part that is not selected. -/
inductive Reachable : Controller → Prop where
  | fresh {chip : Chip} (released : chip.selected = false) : Reachable (create chip)
  | accessed {controller : Controller} (access : Access) (before : Reachable controller) :
    Reachable (access.after controller)

/-- What every access keeps, also while a fault is set. -/
structure Consistent (controller : Controller) : Prop where
  selected : controller.isSelected = controller.chip.selected
  queue_le : controller.queue.length ≤ queueDepth

namespace Consistent

variable {controller : Controller}

theorem create {chip : Chip} (released : chip.selected = false) : Consistent (create chip) where
  selected := by
    rw [Controller.create, released]
    rfl
  queue_le := Nat.zero_le _

theorem shift (h : Consistent controller) (byte : UInt8) : Consistent (controller.shift byte) := by
  obtain ⟨chip, queue, control, slaveSelect, log, transactions, stuck, silent⟩ := controller
  obtain ⟨hselected, hqueue⟩ := h
  have hlength (answer : UInt8) :
      (if !silent && queue.length < queueDepth then queue ++ [answer] else queue).length ≤
        queueDepth := by
    split
    case isTrue hroom =>
      simp only [Bool.and_eq_true, decide_eq_true_eq] at hroom
      simp only [List.length_append, List.length_singleton]
      omega
    case isFalse => exact hqueue
  unfold Controller.shift
  dsimp only
  split
  case isTrue => exact ⟨hselected.trans (Chip.selected_exchange chip byte).symm, hlength _⟩
  case isFalse => exact ⟨hselected, hlength _⟩

/-- The part is selected or released to match the new slave-select word. -/
theorem setSelect (h : Consistent controller) (word : UInt32) :
    Consistent (controller.setSelect word) := by
  obtain ⟨chip, queue, control, slaveSelect, log, transactions, stuck, silent⟩ := controller
  obtain ⟨hselected, hqueue⟩ := h
  unfold Controller.setSelect
  dsimp only
  split
  case isTrue hon => exact ⟨hon, hqueue⟩
  case isFalse hoff =>
    rw [Bool.not_eq_true] at hoff
    split
    case isTrue => exact ⟨hoff.trans (Chip.selected_deselect chip).symm, hqueue⟩
    case isFalse hwas =>
      rw [Bool.not_eq_true, hselected] at hwas
      exact ⟨hoff.trans hwas.symm, hqueue⟩

theorem setControl (h : Consistent controller) (word : UInt32) :
    Consistent (controller.setControl word) := by
  refine ⟨h.selected, ?_⟩
  unfold Controller.setControl
  dsimp only
  split
  · exact Nat.zero_le _
  · exact h.queue_le

theorem reset (controller : Controller) : Consistent controller.reset := by
  refine ⟨?_, Nat.zero_le _⟩
  exact (Chip.selected_deselect controller.chip).symm

theorem record (h : Consistent controller) (register : Nat) (value : UInt32) :
    Consistent (controller.record register value) :=
  ⟨h.selected, h.queue_le⟩

/-- Only the receive register changes anything, and it takes at most one byte from the queue. -/
theorem read (h : Consistent controller) (register : Nat) :
    Consistent (controller.read register).2 := by
  unfold Controller.read
  by_cases hstatus : register = Register.status
  · rw [if_pos hstatus]
    exact h
  rw [if_neg hstatus]
  by_cases hreceive : register = Register.receive
  · rw [if_pos hreceive]
    by_cases hstuck : controller.stuck
    · rw [if_pos hstuck]
      exact h
    rw [if_neg hstuck]
    cases hqueue : controller.queue with
    | nil => exact h
    | cons byte queue =>
      have hle := h.queue_le
      rw [hqueue, List.length_cons] at hle
      exact ⟨h.selected, Nat.le_of_succ_le hle⟩
  rw [if_neg hreceive]
  repeat' split
  all_goals exact h

theorem write (h : Consistent controller) (register : Nat) (value : UInt32) :
    Consistent (controller.write register value) := by
  have hrecorded := h.record register value
  unfold Controller.write
  split
  · exact h.shift _
  split
  · exact hrecorded.setSelect _
  split
  · exact hrecorded.setControl _
  split
  · dsimp only
    split
    · exact reset _
    · exact hrecorded
  · exact h

end Consistent

theorem Reachable.consistent {controller : Controller} (h : Reachable controller) :
    Consistent controller := by
  induction h with
  | fresh released => exact .create released
  | accessed access before ih =>
    cases access with
    | read register => exact ih.read register
    | write register value => exact ih.write register value
    | fault stuck silent => exact ⟨ih.selected, ih.queue_le⟩

end Emulation.Controller

/-- The bytes that a transfer of `n` bytes takes from the buffer of the caller. -/
def Transfer.taken (payload : Option ByteArray) (n : Nat) : List UInt8 :=
  match payload with
  | some bytes => (Bytes.toList bytes).take n
  | none => List.replicate n Controller.Engine.idleByte

theorem Transfer.length_taken {payload : Option ByteArray} {n : Nat}
    (hpayload : ∀ bytes ∈ payload, n ≤ bytes.size) : (taken payload n).length = n := by
  cases payload with
  | none => exact List.length_replicate
  | some bytes =>
    rw [taken, List.length_take, Bytes.length_toList]
    exact Nat.min_eq_left (hpayload bytes rfl)

/-- Buffers of at least `n` bytes are not short for a transfer of `n` bytes. -/
theorem Transfer.isShort_of_le {payload buffer : Option ByteArray} {n : Nat}
    (hpayload : ∀ bytes ∈ payload, n ≤ bytes.size) (hbuffer : ∀ bytes ∈ buffer, n ≤ bytes.size)
    (framing : Framing) : isShort ⟨8 * n, payload, buffer.map (·.size), framing⟩ = false := by
  have hbytes : 8 * n / 8 = n := Nat.mul_div_cancel_left n (by decide)
  unfold isShort
  rw [hbytes, Bool.or_eq_false_iff]
  constructor
  · cases payload with
    | none => rfl
    | some bytes => exact decide_eq_false (Nat.not_lt.mpr (hpayload bytes rfl))
  · cases buffer with
    | none => rfl
    | some bytes => exact decide_eq_false (Nat.not_lt.mpr (hbuffer bytes rfl))

theorem Transfer.sent_eq_taken {payload : Option ByteArray} {n : Nat}
    (hpayload : ∀ bytes ∈ payload, n ≤ bytes.size) (room : Option Nat) (framing : Framing) :
    sent ⟨8 * n, payload, room, framing⟩ = taken payload n := by
  have hbytes : 8 * n / 8 = n := Nat.mul_div_cancel_left n (by decide)
  cases payload with
  | none => rw [sent_none, hbytes, taken]
  | some bytes =>
    have hn : n ≤ bytes.size := hpayload bytes rfl
    apply List.ext_getElem
    · simp only [sent, taken, List.length_map, List.length_range, List.length_take,
        Bytes.length_toList]
      omega
    · intro i hi htaken
      simp only [taken, List.length_take] at htaken
      have hplace : i < (Bytes.toList bytes).length := by omega
      simp only [sent, taken, byteSent, List.getElem_map, List.getElem_range, List.getElem_take,
        Bytes.byteAt_eq_getD, List.getElem?_eq_getElem hplace, Option.getD_some]

namespace Emulation.Chip

@[simp] theorem length_clock (bytes : List UInt8) (chip : Chip) :
    (clock bytes chip).1.length = bytes.length := by
  induction bytes generalizing chip with
  | nil => rfl
  | cons byte bytes ih => simp [clock_cons, ih]

/-- A part that is not selected answers with the idle level and stays as it is. -/
theorem clock_of_released {chip : Chip} (h : chip.selected = false) (bytes : List UInt8) :
    clock bytes chip = (List.replicate bytes.length 0xff, chip) := by
  induction bytes with
  | nil => rfl
  | cons byte bytes ih =>
    rw [clock_cons, exchange_of_released h, ih]
    rfl

end Emulation.Chip

/-- What a caller finds in its buffer after a transfer that has received these bytes. -/
def Transfer.landed (received buffer : ByteArray) : ByteArray :=
  Bytes.overlay buffer 0 received

/-- Received bytes come first in the buffer, and nothing behind them has changed. -/
theorem Transfer.landed_ofList {answers : List UInt8} {n : Nat} (hn : answers.length = n)
    {buffer : ByteArray} (hroom : n ≤ buffer.size) :
    (landed (Bytes.ofList answers) buffer).size = buffer.size ∧
      Bytes.slice (landed (Bytes.ofList answers) buffer) 0 n = Bytes.ofList answers ∧
      ∀ i, n ≤ i →
        Bytes.byteAt (landed (Bytes.ofList answers) buffer) i = Bytes.byteAt buffer i := by
  subst hn
  have hin : 0 + (Bytes.ofList answers).size ≤ buffer.size := by
    rwa [Nat.zero_add, Bytes.size_ofList]
  refine ⟨Bytes.size_overlay hin, ?_, fun i hi => ?_⟩
  · apply Bytes.toList_injective
    rw [Bytes.toList_slice, landed, Bytes.toList_overlay]
    simp
  · rw [landed, Bytes.byteAt_overlay hin, if_neg (by rw [Bytes.size_ofList]; omega)]

/-- From every state that register accesses lead to, a transfer of at least one byte is the
transfer of the part itself: chip-select, the bytes one by one, and chip-select again. -/
theorem transfer_of_reachable {engine : Controller.Engine Board}
    (hreach : engine.hardware.controller.Reachable) (hline : engine.chipSelect < Controller.lines)
    (hstuck : engine.hardware.controller.stuck = false)
    (hsilent : engine.hardware.controller.silent = false) {n : Nat} (hn : 0 < n)
    {dout din : Option ByteArray} (hdout : ∀ bytes ∈ dout, n ≤ bytes.size)
    (hdin : ∀ buffer ∈ din, n ≤ buffer.size) (framing : Framing) :
    let chip := engine.hardware.controller.chip
    let opened := if framing.first then chip.select else chip
    let clocked := opened.clock (Transfer.taken dout n)
    ∃ received after,
      SpiBus.transfer ⟨8 * n, dout, din.map (·.size), framing⟩ engine = .ok received after ∧
      after.hardware.controller.chip =
        (if framing.last then clocked.2.deselect else clocked.2) ∧
      (opened.selected = false → clocked = (List.replicate n 0xff, opened)) ∧
      (∀ buffer ∈ din, (Transfer.landed received buffer).size = buffer.size ∧
        Bytes.slice (Transfer.landed received buffer) 0 n = Bytes.ofList clocked.1 ∧
        ∀ i, n ≤ i →
          Bytes.byteAt (Transfer.landed received buffer) i = Bytes.byteAt buffer i) ∧
      after.hardware.controller.queue = [] := by
  intro chip opened clocked
  have hconsistent := hreach.consistent
  have hdrives : Drives engine.hardware.controller.queue engine chip :=
    ⟨hline, hstuck, hsilent, rfl, rfl, hconsistent.selected⟩
  let request : Transfer := ⟨8 * n, dout, din.map (·.size), framing⟩
  have hshort : request.isShort = false := Transfer.isShort_of_le hdout hdin framing
  have hlength : (Transfer.taken dout n).length = n := Transfer.length_taken hdout
  have hbegun : request.bits ≠ 0 := by
    dsimp only [request]
    omega
  obtain ⟨after, hrun, hafter⟩ := hdrives.run_of_sound hconsistent.queue_le hbegun
    (Nat.mul_mod_right 8 n) hshort
  rw [Transfer.sent_eq_taken hdout] at hrun hafter
  refine ⟨Chip.kept request clocked.1, after, Controller.Engine.transfer_of_run_ok hrun,
    hafter.carries.part, ?_, ?_, hafter.carries.queued⟩
  · intro hreleased
    have hidle := Chip.clock_of_released hreleased (Transfer.taken dout n)
    rwa [hlength] at hidle
  · intro buffer hbuffer
    have hanswers : clocked.1.length = n := (Chip.length_clock ..).trans hlength
    have hkept : Chip.kept request clocked.1 = Bytes.ofList clocked.1 := by
      have hroom : request.room = some buffer.size := congrArg (Option.map (·.size)) hbuffer
      rw [Chip.kept, hroom]
      rfl
    rw [hkept]
    exact Transfer.landed_ofList hanswers (hdin buffer hbuffer)

/-- A controller that was left with its part selected, a write enable command pending in the part
and the answer to it in the receive queue. -/
def Emulation.Controller.leftOpen : Controller :=
  ((create (.erased .w25q256)).write Controller.Register.slaveSelect
    (Controller.selectWord 0)).write Controller.Register.transmit 0x06

theorem Emulation.Controller.reachable_leftOpen : leftOpen.Reachable :=
  .accessed (.write Controller.Register.transmit 0x06)
    (.accessed (.write Controller.Register.slaveSelect (Controller.selectWord 0)) (.fresh rfl))

/-- The stale answer is dropped, selecting the part anew carries out the pending command, and the
status read that follows shows its effect. -/
theorem transfer_of_reachable_leftOpen :
    ∃ received after, SpiBus.transfer ⟨16, some (Bytes.ofList [Opcode.readStatus.byte, 0x00]),
        some (Bytes.ofList [1, 2, 3, 4]).size, .once⟩
        (⟨⟨.leftOpen, {}⟩, 37500000, 0, default⟩ : Controller.Engine Board) =
          .ok received after ∧
      Bytes.slice (Transfer.landed received (Bytes.ofList [1, 2, 3, 4])) 0 2 =
        Bytes.ofList [0xff, StatusBit.writeEnabled] ∧
      Bytes.byteAt (Transfer.landed received (Bytes.ofList [1, 2, 3, 4])) 2 = 3 ∧
      after.hardware.controller.queue = [] := by
  have hdout : ∀ bytes ∈ some (Bytes.ofList [Opcode.readStatus.byte, 0x00]), 2 ≤ bytes.size := by
    rintro _ ⟨⟩
    decide
  have hdin : ∀ buffer ∈ some (Bytes.ofList [1, 2, 3, 4]), 2 ≤ buffer.size := by
    rintro _ ⟨⟩
    decide
  obtain ⟨received, after, htransfer, -, -, hlanded, hqueue⟩ :=
    @transfer_of_reachable ⟨⟨.leftOpen, {}⟩, 37500000, 0, default⟩
      Emulation.Controller.reachable_leftOpen (by decide) rfl rfl 2 (by decide) _ _ hdout hdin .once
  obtain ⟨-, hfilled, hrest⟩ := hlanded _ rfl
  exact ⟨received, after, htransfer, hfilled, hrest 2 (by decide), hqueue⟩

end NorFlash
