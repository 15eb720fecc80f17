import Mathlib.Data.List.Induction
import NorFlash.Proofs.RegisterAccess

/-!
What a sequence of register accesses has done to the emulated controller. Chip-select of the part
and the count of transactions follow the writes to the slave-select register, the part has seen the
bytes sent since it was selected, and the receive queue gives out the answers in the order in which
they came, up to an access that clears it.
-/
namespace NorFlash.Emulation

open NorFlash.Controller

@[simp] theorem Chip.seen_select (chip : Chip) : chip.select.seen = .empty :=
  rfl

/-- A selected part keeps the bytes it has received in their order. -/
theorem Chip.toList_seen_exchange {chip : Chip} (h : chip.selected = true) (byte : UInt8) :
    Bytes.toList (chip.exchange byte).2.seen = Bytes.toList chip.seen ++ [byte] := by
  have hseen : (chip.exchange byte).2.seen = chip.seen.push byte := by
    unfold exchange
    rw [if_neg (by simp [h])]
    dsimp only
    split
    · rfl
    split <;> rfl
  rw [hseen, Bytes.toList_push]

namespace Controller

/-- Accesses that are made in this order. -/
def run (accesses : List Access) (controller : Controller) : Controller :=
  accesses.foldl (fun controller access => access.after controller) controller

theorem run_concat (accesses : List Access) (access : Access) (controller : Controller) :
    run (accesses ++ [access]) controller = access.after (run accesses controller) :=
  List.foldl_append

namespace Access

/-- A write to the slave-select register that selects a slave, the same one as before or not. -/
def selects : Access → Bool
  | write register word => register = Register.slaveSelect && word ≠ deselected
  | _ => false

/-- The byte that a write to the transmit register sends. -/
def byteSent? : Access → Option UInt8
  | write register word => if register = Register.transmit then some word.toUInt8 else none
  | _ => none

/-- A reset of the core or of its receive queue. -/
def clears : Access → Bool
  | write register word =>
    register = Register.softwareReset && word = resetWord ||
      register = Register.control && word &&& ControlBit.receiveReset ≠ 0
  | _ => false

end Access

/-- The bytes that accesses send, in their order. -/
def sent (accesses : List Access) : List UInt8 :=
  accesses.filterMap Access.byteSent?

/-- What an access appends to the receive queue: the answer of the part to a byte that is sent,
unless it does not come or finds the queue full. -/
def gained (controller : Controller) (access : Access) : List UInt8 :=
  match access.byteSent? with
  | some byte =>
    if !controller.silent && controller.queue.length < queueDepth then
      [(controller.chip.exchange byte).1]
    else []
  | none => []

/-- What an access takes out of the receive queue: the word that a read of the receive register
gives, unless the queue is empty or does not drain. -/
def delivered (controller : Controller) : Access → List UInt32
  | .read register =>
    if register = Register.receive ∧ controller.stuck = false ∧ controller.queue ≠ [] then
      [(controller.read register).1]
    else []
  | _ => []

/-- The answers that accesses append to the receive queue. -/
def allGained : List Access → Controller → List UInt8
  | [], _ => []
  | access :: accesses, controller =>
    gained controller access ++ allGained accesses (access.after controller)

/-- The words that accesses take out of the receive queue. -/
def allDelivered : List Access → Controller → List UInt32
  | [], _ => []
  | access :: accesses, controller =>
    delivered controller access ++ allDelivered accesses (access.after controller)

/-- A write does something by its register, or is no more than recorded. -/
theorem write_cases (register : Nat) (word : UInt32) (controller : Controller) :
    (register = Register.transmit ∧
      controller.write register word = controller.shift word.toUInt8) ∨
    (register = Register.slaveSelect ∧
      controller.write register word = (controller.record register word).setSelect word) ∨
    (register = Register.control ∧
      controller.write register word = (controller.record register word).setControl word) ∨
    (register = Register.softwareReset ∧ word = resetWord ∧
      controller.write register word = (controller.record register word).reset) ∨
    (register ≠ Register.transmit ∧ register ≠ Register.slaveSelect ∧
      register ≠ Register.control ∧ ¬ (register = Register.softwareReset ∧ word = resetWord) ∧
      ∃ log, controller.write register word = { controller with log }) := by
  unfold write
  by_cases htransmit : register = Register.transmit
  · rw [if_pos htransmit]
    exact .inl ⟨htransmit, rfl⟩
  rw [if_neg htransmit]
  by_cases hselect : register = Register.slaveSelect
  · rw [if_pos hselect]
    exact .inr (.inl ⟨hselect, rfl⟩)
  rw [if_neg hselect]
  by_cases hcontrol : register = Register.control
  · rw [if_pos hcontrol]
    exact .inr (.inr (.inl ⟨hcontrol, rfl⟩))
  rw [if_neg hcontrol]
  by_cases hreset : register = Register.softwareReset
  · rw [if_pos hreset]
    by_cases hword : word = resetWord
    · exact .inr (.inr (.inr (.inl ⟨hreset, hword, if_pos hword⟩)))
    · exact .inr (.inr (.inr (.inr ⟨htransmit, hselect, hcontrol, fun h => hword h.2, _,
        if_neg hword⟩)))
  · rw [if_neg hreset]
    exact .inr (.inr (.inr (.inr ⟨htransmit, hselect, hcontrol, fun h => hreset h.1,
      controller.log, rfl⟩)))

/-- A read takes the oldest byte from the receive queue, or changes nothing. -/
theorem read_cases (register : Nat) (controller : Controller) :
    (register = Register.receive ∧ controller.stuck = false ∧ ∃ byte queue,
      controller.queue = byte :: queue ∧
      controller.read register = (byte.toUInt32, { controller with queue })) ∨
    (¬ (register = Register.receive ∧ controller.stuck = false ∧ controller.queue ≠ []) ∧
      (controller.read register).2 = controller) := by
  unfold read
  by_cases hstatus : register = Register.status
  · rw [if_pos hstatus]
    exact .inr ⟨fun h => absurd (hstatus.symm.trans h.1) (by decide), rfl⟩
  rw [if_neg hstatus]
  by_cases hreceive : register = Register.receive
  · rw [if_pos hreceive]
    cases hstuck : controller.stuck with
    | true => exact .inr ⟨fun h => absurd h.2.1 (by decide), rfl⟩
    | false =>
      cases hqueue : controller.queue with
      | nil => exact .inr ⟨fun h => h.2.2 rfl, rfl⟩
      | cons byte queue => exact .inl ⟨hreceive, rfl, byte, queue, rfl, rfl⟩
  rw [if_neg hreceive]
  refine .inr ⟨fun h => hreceive h.1, ?_⟩
  repeat' split
  all_goals rfl

section Writes

variable {controller : Controller} (h : Consistent controller)
include h

/-- A byte goes to the part whether or not it is selected, since a released part ignores it. -/
theorem Consistent.shift_eq (byte : UInt8) :
    controller.shift byte =
      { controller with
        chip := (controller.chip.exchange byte).2
        queue :=
          if !controller.silent && controller.queue.length < queueDepth then
            controller.queue ++ [(controller.chip.exchange byte).1]
          else controller.queue } := by
  obtain ⟨chip, queue, control, slaveSelect, log, transactions, stuck, silent⟩ := controller
  have hexchange : (if slaveSelect ≠ deselected then chip.exchange byte else (0xff, chip)) =
      chip.exchange byte := by
    split
    case isTrue => rfl
    case isFalse hoff =>
      have hreleased : chip.selected = false :=
        h.selected.symm.trans (decide_eq_false hoff)
      rw [Chip.exchange_of_released hreleased]
  unfold Controller.shift
  dsimp only
  rw [hexchange]

/-- A word without a slave releases the part. -/
theorem Consistent.setSelect_deselected :
    controller.setSelect deselected =
      { controller with slaveSelect := deselected, chip := controller.chip.deselect } := by
  obtain ⟨chip, queue, control, slaveSelect, log, transactions, stuck, silent⟩ := controller
  have hselected : decide (slaveSelect ≠ deselected) = chip.selected := h.selected
  unfold Controller.setSelect isSelected
  dsimp only
  rw [if_neg (by simp), hselected]
  split
  case isTrue => rfl
  case isFalse hreleased => rw [Chip.deselect_of_released (by simpa using hreleased)]

omit h in
theorem setSelect_of_ne {word : UInt32} (hword : word ≠ deselected) (controller : Controller) :
    controller.setSelect word =
      { controller with
        slaveSelect := word
        chip := controller.chip.select
        transactions := controller.transactions + 1 } := by
  have hon : ({ controller with slaveSelect := word } : Controller).isSelected = true :=
    decide_eq_true hword
  unfold setSelect
  dsimp only
  rw [if_pos hon]
  rfl

end Writes

/-- An access that asserts chip-select begins a transaction. -/
theorem after_of_selects {access : Access} (h : access.selects = true) (controller : Controller) :
    (access.after controller).transactions = controller.transactions + 1 ∧
      (access.after controller).chip = controller.chip.select := by
  cases access with
  | read register => cases h
  | fault stuck silent => cases h
  | write register word =>
    obtain ⟨hregister, hword⟩ := Bool.and_eq_true_iff.mp h
    obtain rfl := of_decide_eq_true hregister
    have hafter : (Access.write Register.slaveSelect word).after controller =
        (controller.record Register.slaveSelect word).setSelect word := rfl
    rw [hafter, setSelect_of_ne (of_decide_eq_true hword)]
    exact ⟨rfl, rfl⟩

/-- Without such an access no transaction begins, and a part that is selected has been so before
and has seen one byte more for each byte sent. -/
theorem Consistent.after_of_not_selects {controller : Controller} (h : Consistent controller)
    {access : Access} (hnot : access.selects = false) :
    (access.after controller).transactions = controller.transactions ∧
      ((access.after controller).chip.selected = true →
        controller.chip.selected = true ∧
        Bytes.toList (access.after controller).chip.seen =
          Bytes.toList controller.chip.seen ++ access.byteSent?.toList) := by
  have hsame (seen : ByteArray) : Bytes.toList seen = Bytes.toList seen ++ [] :=
    (List.append_nil _).symm
  cases access with
  | fault stuck silent => exact ⟨rfl, fun hon => ⟨hon, hsame _⟩⟩
  | read register =>
    rw [Access.after]
    rcases read_cases register controller with ⟨-, -, byte, queue, -, hread⟩ | ⟨-, hread⟩ <;>
      rw [hread] <;> exact ⟨rfl, fun hon => ⟨hon, hsame _⟩⟩
  | write register word =>
    rw [Access.after]
    rcases write_cases register word controller with
      ⟨rfl, hwrite⟩ | ⟨rfl, hwrite⟩ | ⟨rfl, hwrite⟩ | ⟨rfl, -, hwrite⟩ |
        ⟨htransmit, -, -, -, log, hwrite⟩ <;> rw [hwrite]
    case inl =>
      rw [h.shift_eq]
      refine ⟨rfl, fun hon => ?_⟩
      have hselected : controller.chip.selected = true :=
        (Chip.selected_exchange ..).symm.trans hon
      exact ⟨hselected, Chip.toList_seen_exchange hselected _⟩
    case inr.inl =>
      have hword : word = deselected := by simpa [Access.selects] using hnot
      rw [hword, (h.record ..).setSelect_deselected]
      refine ⟨rfl, fun hon => ?_⟩
      rw [Chip.selected_deselect] at hon
      cases hon
    case inr.inr.inl => exact ⟨rfl, fun hon => ⟨hon, hsame _⟩⟩
    case inr.inr.inr.inl =>
      refine ⟨rfl, fun hon => ?_⟩
      have hoff := Chip.selected_deselect controller.chip
      exact absurd (hoff.symm.trans hon) Bool.false_ne_true
    case inr.inr.inr.inr =>
      refine ⟨rfl, fun hon => ⟨hon, ?_⟩⟩
      rw [Access.byteSent?, if_neg htransmit]
      exact hsame _

/-- A byte that is sent is the only thing that makes the receive queue longer, and a read of the
receive register the only thing that makes it shorter, apart from clearing it. -/
theorem Consistent.queue_after {controller : Controller} (h : Consistent controller)
    {access : Access} (hkept : access.clears = false) :
    (controller.queue ++ gained controller access).map UInt8.toUInt32 =
      delivered controller access ++ (access.after controller).queue.map UInt8.toUInt32 := by
  cases access with
  | fault stuck silent =>
    simp only [gained, Access.byteSent?, List.append_nil]
    rfl
  | read register =>
    simp only [gained, Access.byteSent?, List.append_nil, delivered, Access.after]
    rcases read_cases register controller with ⟨hregister, hstuck, byte, queue, hqueue, hread⟩ |
      ⟨hnot, hread⟩
    · rw [if_pos ⟨hregister, hstuck, by simp [hqueue]⟩, hread, hqueue]
      rfl
    · rw [if_neg hnot, hread]
      rfl
  | write register word =>
    simp only [delivered, List.nil_append, Access.after, gained]
    rcases write_cases register word controller with
      ⟨rfl, hwrite⟩ | ⟨rfl, hwrite⟩ | ⟨rfl, hwrite⟩ | ⟨rfl, hword, -⟩ |
        ⟨htransmit, -, -, -, log, hwrite⟩
    case inl =>
      rw [hwrite, h.shift_eq, Access.byteSent?, if_pos rfl]
      dsimp only
      split
      · rfl
      · rw [List.append_nil]
    case inr.inl =>
      rw [hwrite, Access.byteSent?, if_neg (by decide), List.append_nil]
      by_cases hword : word = deselected
      · rw [hword, (h.record ..).setSelect_deselected]
        rfl
      · rw [setSelect_of_ne hword]
        rfl
    case inr.inr.inl =>
      have hkeep : ¬ (word &&& ControlBit.receiveReset ≠ 0) := by
        simpa [Access.clears, Register.control, Register.softwareReset] using hkept
      rw [hwrite, Access.byteSent?, if_neg (by decide), List.append_nil]
      unfold Controller.setControl
      dsimp only
      rw [if_neg (by simpa using hkeep)]
      rfl
    case inr.inr.inr.inl => simp [Access.clears, hword] at hkept
    case inr.inr.inr.inr =>
      rw [hwrite, Access.byteSent?, if_neg htransmit, List.append_nil]

theorem queue_of_clears {access : Access} (h : access.clears = true) (controller : Controller) :
    (access.after controller).queue = [] := by
  cases access with
  | read register => cases h
  | fault stuck silent => cases h
  | write register word =>
    rw [Access.clears, Bool.or_eq_true, Bool.and_eq_true, Bool.and_eq_true] at h
    rcases h with ⟨hregister, hword⟩ | ⟨hregister, hword⟩
    · obtain rfl := of_decide_eq_true hregister
      obtain rfl := of_decide_eq_true hword
      rfl
    · obtain rfl := of_decide_eq_true hregister
      change (if word &&& ControlBit.receiveReset ≠ 0 then [] else _) = []
      exact if_pos (of_decide_eq_true hword)

section Runs

variable {chip : Chip} (released : chip.selected = false)
include released

theorem reachable_run (accesses : List Access) : Reachable (run accesses (create chip)) := by
  induction accesses using List.reverseRecOn with
  | nil => exact .fresh released
  | append_singleton accesses access ih =>
    rw [run_concat]
    exact ih.accessed access

/-- What the accesses made on a fresh controller tell about it: every transaction was begun by one
of them, and a selected part has seen what was sent behind the last one that did so. -/
structure Recounts (accesses : List Access) (controller : Controller) : Prop where
  transactions : controller.transactions = accesses.countP Access.selects
  seen : controller.chip.selected = true → ∃ before word after,
    accesses = before ++ .write Register.slaveSelect word :: after ∧ word ≠ deselected ∧
    (∀ access ∈ after, access.selects = false) ∧
    Bytes.toList controller.chip.seen = sent after

omit released in
theorem Recounts.concat {accesses : List Access} {controller : Controller}
    (h : Recounts accesses controller) (hconsistent : Consistent controller) (access : Access) :
    Recounts (accesses ++ [access]) (access.after controller) := by
  cases hselects : access.selects with
  | true =>
    obtain ⟨htransactions, hchip⟩ := after_of_selects hselects controller
    constructor
    · rw [htransactions, h.transactions, List.countP_append]
      simp [hselects]
    · intro _
      cases access with
      | read register => cases hselects
      | fault stuck silent => cases hselects
      | write register word =>
        obtain ⟨hregister, hword⟩ := Bool.and_eq_true_iff.mp hselects
        obtain rfl := of_decide_eq_true hregister
        refine ⟨accesses, word, [], rfl, of_decide_eq_true hword, by simp, ?_⟩
        rw [hchip, Chip.seen_select]
        rfl
  | false =>
    obtain ⟨htransactions, hchip⟩ := hconsistent.after_of_not_selects hselects
    constructor
    · rw [htransactions, h.transactions, List.countP_append]
      simp [hselects]
    · intro hon
      obtain ⟨hwas, hseen⟩ := hchip hon
      obtain ⟨before, word, after, rfl, hword, hnone, hsent⟩ := h.seen hwas
      refine ⟨before, word, after ++ [access], by simp, hword, ?_, ?_⟩
      · intro other hother
        rcases List.mem_append.mp hother with hin | hlast
        · exact hnone other hin
        · rw [List.mem_singleton.mp hlast, hselects]
      · rw [hseen, hsent, sent, sent, List.filterMap_append]
        cases hbyte : access.byteSent? <;> simp [hbyte]

theorem recounts_run (accesses : List Access) :
    Recounts accesses (run accesses (create chip)) := by
  induction accesses using List.reverseRecOn with
  | nil =>
    refine ⟨rfl, fun hon => ?_⟩
    exact absurd (released.symm.trans hon) Bool.false_ne_true
  | append_singleton accesses access ih =>
    rw [run_concat]
    exact ih.concat (reachable_run released accesses).consistent access

omit released in
/-- What the receive queue holds and gains is given out in this order. -/
theorem Reachable.queue_run {controller : Controller} (h : Reachable controller)
    {accesses : List Access} (hkept : ∀ access ∈ accesses, access.clears = false) :
    (controller.queue ++ allGained accesses controller).map UInt8.toUInt32 =
      allDelivered accesses controller ++ (run accesses controller).queue.map UInt8.toUInt32 := by
  induction accesses generalizing controller with
  | nil => simp [allGained, allDelivered, run]
  | cons access accesses ih =>
    have hfirst := h.consistent.queue_after (hkept access (List.mem_cons_self ..))
    have hrest := ih (h.accessed access) fun other hother =>
      hkept other (List.mem_cons_of_mem _ hother)
    rw [allGained, allDelivered, ← List.append_assoc, List.map_append, hfirst, List.append_assoc,
      ← List.map_append, hrest, List.append_assoc]
    rfl

/-- The controller keeps the part and its receive queue in step with the accesses made on it, which
may be any, with the faults coming and going between them. The queue stays within its depth;
chip-select of the part and the slave-select register agree; the transactions are the writes that
select a slave; a selected part has seen what was sent since the last of them. A byte that is sent
appends one answer to a queue with room for it, if answers come at all, and what is appended is read
in its order until a reset clears the queue. -/
theorem controller_in_step (accesses : List Access) :
    let controller := run accesses (create chip)
    controller.queue.length ≤ 16 ∧
    (controller.chip.selected = true ↔ controller.slaveSelect ≠ 0xffffffff) ∧
    controller.transactions = accesses.countP Access.selects ∧
    (controller.chip.selected = true → ∃ before word after,
      accesses = before ++ .write Register.slaveSelect word :: after ∧ word ≠ 0xffffffff ∧
      (∀ access ∈ after, access.selects = false) ∧
      Bytes.toList controller.chip.seen = sent after) ∧
    (controller.silent = false → controller.queue.length < 16 → ∀ word,
      (controller.write Register.transmit word).queue =
        controller.queue ++ [(controller.chip.exchange word.toUInt8).1]) ∧
    (∀ more, (∀ access ∈ more, access.clears = false) →
      (controller.queue ++ allGained more controller).map UInt8.toUInt32 =
        allDelivered more controller ++ (run more controller).queue.map UInt8.toUInt32) ∧
    ∀ access : Access, access.clears = true → (access.after controller).queue = [] := by
  intro controller
  have hreachable := reachable_run released accesses
  have hconsistent := hreachable.consistent
  have hrecounts := recounts_run released accesses
  refine ⟨hconsistent.queue_le, ?_, hrecounts.transactions, hrecounts.seen, ?_,
    fun more hkept => hreachable.queue_run hkept, fun access hclears => queue_of_clears hclears _⟩
  · rw [← hconsistent.selected]
    exact decide_eq_true_iff
  · intro hsilent hroom word
    have hwrite : controller.write Register.transmit word = controller.shift word.toUInt8 := rfl
    rw [hwrite, hconsistent.shift_eq]
    exact if_pos (Bool.and_eq_true_iff.mpr ⟨by rw [hsilent]; rfl, decide_eq_true hroom⟩)

end Runs

/-- A part is selected and sent its ID command, and the first two bytes that it answers are read:
the idle level and its manufacturer. -/
def identifying : List Access :=
  [.write Register.slaveSelect (selectWord 0), .write Register.transmit 0x9f,
    .write Register.transmit 0, .read Register.receive, .read Register.receive]

/-- The next answer is appended to the queue, which is empty by then, and read from there. -/
theorem controller_in_step_identifying :
    (Chip.erased .w25q256).selected = false ∧
    let controller := run identifying (create (.erased .w25q256))
    controller.transactions = 1 ∧ controller.chip.selected = true ∧
    controller.queue.length ≤ 16 ∧
    (controller.write Register.transmit 0).queue = [0x40] ∧
    allDelivered [.write Register.transmit 0, .read Register.receive] controller ++
      (run [.write Register.transmit 0, .read Register.receive] controller).queue.map
        UInt8.toUInt32 = [0x40] := by
  have released : (Chip.erased .w25q256).selected = false := rfl
  obtain ⟨hlength, hselected, htransactions, -, happended, hqueue, -⟩ :=
    controller_in_step released identifying
  exact ⟨released, htransactions, hselected.mpr (by decide), hlength,
    happended rfl (by decide +kernel) 0, (hqueue _ (by decide)).symm⟩

end Controller

end NorFlash.Emulation
