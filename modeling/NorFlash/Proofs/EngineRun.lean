import NorFlash.Proofs.ByteStream
import NorFlash.Proofs.Simulation

/-!
A transfer of the engine, as one equation for every way it can go. Over related hardware it goes
the same way.
-/
namespace NorFlash.Controller

namespace Engine

section Equations

variable {η : Type} [Hardware η]

/-- The check that waits for the answer to a byte. -/
def answered : EStateM Error (Engine η) Bool :=
  fun engine =>
    match engine.hasReceived with
    | (received, engine) => .ok received engine

theorem shiftByte_eq (byte : UInt8) (budget : Poll.Budget) (engine : Engine η) :
    shiftByte byte budget engine =
      match Poll.untilReadyFrom budget.interval answered delay budget.attempts 0
          (engine.write Register.transmit byte.toUInt32) with
      | .error cause engine => .error cause engine
      | .ok .exhausted engine => .error .transferTimeout engine
      | .ok (.ready _) engine =>
        match engine.read Register.receive with
        | (word, engine) => .ok word.toUInt8 engine :=
  rfl

theorem shiftFrom_succ (budget : Poll.Budget) (payload : Option ByteArray) (keep : Bool)
    (left i : Nat) (received : ByteArray) (engine : Engine η) :
    shiftFrom budget payload keep (left + 1) i received engine =
      match shiftByte (Transfer.byteSent payload i) budget engine with
      | .error cause engine => (⟨.error cause, received⟩, engine)
      | .ok answer engine =>
        shiftFrom budget payload keep left (i + 1)
          (if keep then received.push answer else received) engine := by
  cases payload <;> rfl

/-- The bytes of a transfer, and the release of the slave behind the last one. -/
def clock (transfer : Transfer) (engine : Engine η) : TransferRun × Engine η :=
  match shiftFrom ⟨engine.byteTimeout, 1⟩ transfer.payload transfer.room.isSome
      (transfer.bits / 8) 0 .empty engine with
  | (⟨.error cause, received⟩, engine) => (⟨.error cause, received⟩, engine)
  | (⟨.ok (), received⟩, engine) =>
    (⟨.ok (), received⟩, if transfer.framing.last then engine.deselect else engine)

variable {transfer : Transfer}

theorem run_of_nothing (h : transfer.bits = 0) (engine : Engine η) :
    engine.run transfer =
      (⟨.ok (), .empty⟩, if transfer.framing.last then engine.deselect else engine) := by
  unfold run
  rw [if_pos h]

theorem run_of_partial (h : transfer.bits % 8 ≠ 0) (engine : Engine η) :
    engine.run transfer = (⟨.error .partialByte, .empty⟩, engine.deselect) := by
  have hpos : transfer.bits ≠ 0 := fun hzero => h (by rw [hzero])
  unfold run
  rw [if_neg hpos, if_pos h]

theorem run_of_short (hpos : transfer.bits ≠ 0) (hwhole : transfer.bits % 8 = 0)
    (h : transfer.isShort = true) (engine : Engine η) :
    engine.run transfer = (⟨.error .bufferTooSmall, .empty⟩, engine.deselect) := by
  unfold run
  rw [if_neg hpos, if_neg (not_not_intro hwhole)]
  exact if_pos h

theorem run_of_sound (hpos : transfer.bits ≠ 0) (hwhole : transfer.bits % 8 = 0)
    (h : transfer.isShort = false) (engine : Engine η) :
    engine.run transfer =
      match engine.drain drainBudget with
      | (.error cause, engine) => (⟨.error cause, .empty⟩, engine)
      | (.ok (), engine) =>
        clock transfer (if transfer.framing.first then engine.select else engine) := by
  unfold run
  rw [if_neg hpos, if_neg (not_not_intro hwhole)]
  exact if_neg (Bool.eq_false_iff.mp h)

end Equations

end Engine

section Simulation

variable {η θ : Type} [Hardware η] [Hardware θ]

/-- A relation between two kinds of hardware that registers and delays keep, and under which both
read the same. -/
structure HardwareSimulation (R : η → θ → Prop) : Prop where
  value (register : Nat) {h : η} {k : θ} : R h k →
    (Hardware.read register h).1 = (Hardware.read register k).1
  read (register : Nat) {h : η} {k : θ} : R h k →
    R (Hardware.read register h).2 (Hardware.read register k).2
  write (register : Nat) (value : UInt32) {h : η} {k : θ} : R h k →
    R (Hardware.write register value h) (Hardware.write register value k)
  delay (microseconds : UInt32) {h : η} {k : θ} : R h k →
    R (Hardware.delay microseconds h) (Hardware.delay microseconds k)

namespace Engine

/-- Engines with the same settings, over related hardware. -/
structure Alike (R : η → θ → Prop) (engine : Engine η) (other : Engine θ) : Prop where
  hardware : R engine.hardware other.hardware
  frequency : engine.frequency = other.frequency
  chipSelect : engine.chipSelect = other.chipSelect
  mode : engine.mode = other.mode

/-- The same result, with engines that are alike. -/
inductive SameRun {α : Type} (R : η → θ → Prop) : α × Engine η → α × Engine θ → Prop where
  | same (result : α) {engine : Engine η} {other : Engine θ} (engines : Alike R engine other) :
    SameRun R (result, engine) (result, other)

namespace Alike

variable {R : η → θ → Prop} {engine : Engine η} {other : Engine θ} (h : HardwareSimulation R)
include h

theorem read (register : Nat) (engines : Alike R engine other) :
    SameRun R (engine.read register) (other.read register) := by
  have hpair : engine.read register =
      ((other.read register).1, (engine.read register).2) :=
    Prod.ext (h.value register engines.hardware) rfl
  rw [hpair]
  exact .same _ ⟨h.read register engines.hardware, engines.frequency, engines.chipSelect,
    engines.mode⟩

theorem write (register : Nat) (value : UInt32) (engines : Alike R engine other) :
    Alike R (engine.write register value) (other.write register value) :=
  ⟨h.write register value engines.hardware, engines.frequency, engines.chipSelect, engines.mode⟩

theorem delay (microseconds : UInt32) (engines : Alike R engine other) :
    Alike R (engine.delay microseconds) (other.delay microseconds) :=
  ⟨h.delay microseconds engines.hardware, engines.frequency, engines.chipSelect, engines.mode⟩

theorem deselect (engines : Alike R engine other) : Alike R engine.deselect other.deselect :=
  engines.write h _ _

theorem opened (framing : Framing) (engines : Alike R engine other) :
    Alike R (if framing.first then engine.select else engine)
      (if framing.first then other.select else other) := by
  split
  · unfold Engine.select
    rw [engines.chipSelect]
    exact engines.write h _ _
  · exact engines

theorem closed (framing : Framing) (engines : Alike R engine other) :
    Alike R (if framing.last then engine.deselect else engine)
      (if framing.last then other.deselect else other) := by
  split
  · exact engines.deselect h
  · exact engines

theorem hasReceived (engines : Alike R engine other) :
    SameRun R engine.hasReceived other.hasReceived := by
  have hread := engines.read h Register.status
  unfold Engine.hasReceived Engine.status
  generalize engine.read Register.status = r at hread ⊢
  generalize other.read Register.status = r' at hread ⊢
  cases hread with
  | same word engines => exact .same _ engines

theorem drain (budget : Nat) (engines : Alike R engine other) :
    SameRun R (engine.drain budget) (other.drain budget) := by
  induction budget generalizing engine other with
  | zero => exact .same _ engines
  | succ budget ih =>
    have hreceived := engines.hasReceived h
    unfold Engine.drain
    generalize engine.hasReceived = r at hreceived ⊢
    generalize other.hasReceived = r' at hreceived ⊢
    cases hreceived with
    | same received polled =>
      cases received with
      | false => exact .same _ polled
      | true =>
        have hread := polled.read h Register.receive
        rename_i engine' other'
        dsimp only
        generalize engine'.read Register.receive = r at hread ⊢
        generalize other'.read Register.receive = r' at hread ⊢
        cases hread with
        | same word drained => exact ih drained

theorem answered : Simulates (Alike R) Engine.answered Engine.answered := by
  intro engine other engines
  have hreceived := engines.hasReceived h
  unfold Engine.answered
  generalize engine.hasReceived = r at hreceived ⊢
  generalize other.hasReceived = r' at hreceived ⊢
  cases hreceived with
  | same received polled => exact .ok polled

theorem shiftByte (byte : UInt8) (budget : Poll.Budget) :
    Simulates (Alike R) (Engine.shiftByte byte budget) (Engine.shiftByte byte budget) := by
  intro engine other engines
  have hwait (microseconds : UInt32) {engine : Engine η} {other : Engine θ}
      (engines : Alike R engine other) :
      Alike R (engine.delay microseconds) (other.delay microseconds) :=
    engines.delay h microseconds
  have hpoll := Simulates.untilReadyFrom (answered h) hwait budget.interval budget.attempts 0
    (engines.write h Register.transmit byte.toUInt32)
  rw [shiftByte_eq, shiftByte_eq]
  generalize Poll.untilReadyFrom _ _ _ _ _ (engine.write _ _) = r at hpoll ⊢
  generalize Poll.untilReadyFrom _ _ _ _ _ (other.write _ _) = r' at hpoll ⊢
  cases hpoll with
  | error polled => exact .error polled
  | @ok outcome engine other polled =>
    cases outcome with
    | exhausted => exact .error polled
    | ready check =>
      have hread := polled.read h Register.receive
      dsimp only
      generalize engine.read Register.receive = r at hread ⊢
      generalize other.read Register.receive = r' at hread ⊢
      cases hread with
      | same word engines => exact .ok engines

theorem shiftFrom (budget : Poll.Budget) (payload : Option ByteArray) (keep : Bool)
    (left i : Nat) (received : ByteArray) (engines : Alike R engine other) :
    SameRun R (shiftFrom budget payload keep left i received engine)
      (shiftFrom budget payload keep left i received other) := by
  induction left generalizing i received engine other with
  | zero => exact .same _ engines
  | succ left ih =>
    have hshift := shiftByte h (Transfer.byteSent payload i) budget engines
    rw [shiftFrom_succ, shiftFrom_succ]
    generalize Engine.shiftByte _ budget engine = r at hshift ⊢
    generalize Engine.shiftByte _ budget other = r' at hshift ⊢
    cases hshift with
    | error shifted => exact .same _ shifted
    | ok shifted => exact ih _ _ shifted

theorem clock (transfer : Transfer) (engines : Alike R engine other) :
    SameRun R (engine.clock transfer) (other.clock transfer) := by
  have htimeout : engine.byteTimeout = other.byteTimeout := by
    unfold byteTimeout
    rw [engines.frequency]
  have hshift := engines.shiftFrom h ⟨other.byteTimeout, 1⟩ transfer.payload
    transfer.room.isSome (transfer.bits / 8) 0 .empty
  unfold Engine.clock
  rw [htimeout]
  generalize Engine.shiftFrom _ _ _ _ _ _ engine = r at hshift ⊢
  generalize Engine.shiftFrom _ _ _ _ _ _ other = r' at hshift ⊢
  cases hshift with
  | same result shifted =>
    obtain ⟨_ | _, received⟩ := result
    · exact .same _ shifted
    · exact .same _ (shifted.closed h transfer.framing)

/-- A transfer goes the same way over related hardware. -/
theorem run (transfer : Transfer) (engines : Alike R engine other) :
    SameRun R (engine.run transfer) (other.run transfer) := by
  by_cases hpos : transfer.bits = 0
  · rw [run_of_nothing hpos, run_of_nothing hpos]
    exact .same _ (engines.closed h transfer.framing)
  by_cases hwhole : transfer.bits % 8 = 0
  · cases hshort : transfer.isShort with
    | true =>
      rw [run_of_short hpos hwhole hshort, run_of_short hpos hwhole hshort]
      exact .same _ (engines.deselect h)
    | false =>
      have hdrain := engines.drain h drainBudget
      rw [run_of_sound hpos hwhole hshort, run_of_sound hpos hwhole hshort]
      generalize engine.drain drainBudget = r at hdrain ⊢
      generalize other.drain drainBudget = r' at hdrain ⊢
      cases hdrain with
      | same outcome drained =>
        cases outcome with
        | error cause => exact .same _ drained
        | ok => exact (drained.opened h transfer.framing).clock h transfer
  · rw [run_of_partial hwhole, run_of_partial hwhole]
    exact .same _ (engines.deselect h)

end Alike

end Engine

end Simulation

end NorFlash.Controller
