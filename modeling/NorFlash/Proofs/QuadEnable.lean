import NorFlash.Proofs.QuadScan
import NorFlash.Proofs.Stack
import NorFlash.Proofs.TableOrder

/-!
The registers of the emulated part after a scan in a quad mode: whatever they held before, the quad
enable bit is set. Where it lies in the configuration register, nothing else has changed but the
two bits of the status register that the part keeps itself.
-/
namespace NorFlash

open Emulation (Chip)

/-- The bits of the status register that the part keeps itself. -/
def StatusBit.volatile : UInt8 :=
  writeInProgress ||| writeEnabled

namespace Part

/-- The first ID byte is that of the vendor, so the entry found is of the same vendor. -/
theorem TakenFor.manufacturer_eq {part entry : Part} (h : part.TakenFor entry) :
    entry.manufacturer = part.manufacturer := by
  obtain ⟨-, hlength, hprefix⟩ := identified_of_first h.identified
  obtain ⟨n, hn⟩ := Nat.exists_eq_succ_of_ne_zero hlength
  rw [id, hn, idBytes, List.take_succ_cons, idBytes, List.cons_prefix_cons] at hprefix
  exact hprefix.1

end Part

namespace Emulation.Chip

/-- Of a status read, only the busy flag can differ from the stored register. -/
theorem answer_readStatus_and (chip : Chip) {mask : UInt8}
    (hmask : StatusBit.writeInProgress &&& mask = 0) :
    chip.answer 0 .readStatus &&& mask = chip.status &&& mask := by
  unfold answer
  dsimp only
  split
  · rfl
  · rw [byte_or_and_distrib, hmask, UInt8.or_zero]

/-- The registers hold what they held before, apart from a bit of the configuration register and
the bits of the status register that the part keeps itself. -/
structure Spared (bit : UInt8) (before after : Chip) : Prop where
  config : after.config &&& ~~~bit = before.config &&& ~~~bit
  status : after.status &&& ~~~StatusBit.volatile = before.status &&& ~~~StatusBit.volatile

/-- The part is quiet, with these registers. -/
structure Holds (status config : UInt8) (chip : Chip) : Prop where
  quiet : chip.Quiet
  status_eq : chip.status = status
  config_eq : chip.config = config

end Emulation.Chip

namespace Driver

variable {status config : UInt8}

theorem ok_of_finish {β : Type} {succeeds : Prop} [Decidable succeeds] {d d' : Driver β}
    (h : finish succeeds d = .ok () d') : d = d' := by
  unfold finish at h
  split at h
  · cases h
    rfl
  · cases h

/-- The part at the bottom of the driver is quiet. -/
def Hushed (d : Driver Chip) : Prop :=
  d.bus.Quiet

theorem hushed_readStatus : Keeps Hushed readStatus := by
  rintro ⟨chip, state⟩ h
  exact .inl ⟨_, _, readStatus_eq h state, h.polled 1⟩

theorem hushed_writeStatus (value : UInt8) : Keeps Hushed (writeStatus value) := by
  refine .finish ?_
  rintro ⟨chip, state⟩ h
  exact ⟨_, _, inferInstance, write_status h state value [], (h.restatused value []).quiet.polled _⟩

/-- The addressing is set up without a change to the status and configuration registers. -/
theorem holds_setUpAddressing (part : Part) (g : Geometry) :
    Keeps (fun d : Driver Chip => d.bus.Holds status config) (setUpAddressing part g) := by
  apply Keeps.setUpAddressing
  · rintro ⟨chip, state⟩ ⟨hquiet, hstatus, hconfig⟩
    have hsend := @Command.send_eq chip (Bytes.ofList [Opcode.enterFourByte.byte]) (by simp) .empty
    have henter : (chip.transact (Bytes.toList (Bytes.ofList [Opcode.enterFourByte.byte]))
        (Bytes.toList .empty)).2 = { chip with fourByte := true } :=
      Chip.transact_enterFourByte hquiet
    rw [henter] at hsend
    exact .inl ⟨_, _, onBus_of_ok hsend state, ⟨hquiet.released, hquiet.unseen⟩, hstatus, hconfig⟩
  · intro d hd
    exact .inl ⟨(), _, rfl, hd⟩
  · rintro other ⟨chip, state⟩ hd
    exact .inl ⟨_, _, receive_bank hd.quiet state other, hd⟩
  · intro d bank hd
    exact hd

section Registers

variable {chip : Chip} (h : chip.Quiet) {state : DriverState} {d : Driver Chip}
include h

/-- Macronix: the status register has the bit. -/
theorem status_of_enableQuadBit
    (henable : enableQuadBit readStatus writeStatus StatusBit.quadEnable ⟨chip, state⟩ = .ok () d) :
    d.bus.Quiet ∧ d.bus.status &&& StatusBit.quadEnable ≠ 0 := by
  have hushed : Hushed ⟨chip, state⟩ := h
  obtain ⟨⟨held, known⟩, value, hquiet, hread, hset⟩ :=
    enableQuadBit_confirmed hushed_readStatus hushed_writeStatus hushed henable
  rw [readStatus_eq hquiet known] at hread
  cases hread
  rw [held.answer_readStatus_and (by decide)] at hset
  exact ⟨Chip.Quiet.polled hquiet 1, hset⟩

/-- Spansion and Winbond: the configuration register has the bit, and the rest is as it was. -/
theorem config_of_enableQuadBit
    (henable : enableQuadBit readConfig writeConfig ConfigBit.quadEnable ⟨chip, state⟩ =
      .ok () d) :
    d.bus.Quiet ∧ d.bus.config &&& ConfigBit.quadEnable ≠ 0 ∧
      chip.Spared ConfigBit.quadEnable d.bus := by
  obtain ⟨value, d₁, hfirst, hrest⟩ := ok_of_bind henable
  rw [readConfig_eq h state] at hfirst
  cases hfirst
  split at hrest
  case isTrue hset =>
    cases hrest
    exact ⟨h, hset, rfl, rfl⟩
  case isFalse hclear =>
    obtain ⟨_, d₂, hwritten, hconfirm⟩ := ok_of_bind hrest
    obtain ⟨status, d₁, hstatus, hwrite⟩ := ok_of_bind hwritten
    rw [readStatus_eq h state] at hstatus
    cases hstatus
    rw [write_status (h.polled 1)] at hwrite
    have hd₂ := ok_of_finish hwrite
    subst hd₂
    obtain ⟨answer, d₃, hattempt, hend⟩ := ok_of_bind hconfirm
    have hquiet := ((h.polled 1).restatused (chip.answer 0 .readStatus)
      [chip.config ||| ConfigBit.quadEnable]).quiet.polled
        (Poll.attempts state.settings.programTimeout)
    rw [attempt_of_ok (readConfig_eq hquiet state)] at hattempt
    cases hattempt
    dsimp only at hend
    split at hend
    case isFalse => cases hend
    case isTrue hset =>
      cases hend
      refine ⟨hquiet, hset, ?_, ?_⟩
      · change (chip.config ||| ConfigBit.quadEnable) &&& ~~~ConfigBit.quadEnable = _
        rw [byte_or_and_distrib, UInt8.and_not_self, UInt8.or_zero]
      · change (chip.answer 0 .readStatus &&& ~~~StatusBit.volatile) &&& ~~~StatusBit.volatile = _
        rw [UInt8.and_assoc, UInt8.and_self, chip.answer_readStatus_and (by decide)]

end Registers

/-- What a scan in a quad mode leaves in the registers of the part. -/
structure QuadEnabled (before after : Chip) : Prop where
  status : before.part.manufacturer = Manufacturer.macronix →
    after.status &&& StatusBit.quadEnable ≠ 0
  config : before.part.manufacturer = Manufacturer.spansion ∨
      before.part.manufacturer = Manufacturer.winbond →
    after.config &&& ConfigBit.quadEnable ≠ 0 ∧ before.Spared ConfigBit.quadEnable after

theorem quadEnabled_of_scan {chip : Chip} (hlisted : chip.part ∈ Part.table) (hquiet : chip.Quiet)
    {state : DriverState} (hquad : wantsQuad state.settings = true) {g : Geometry}
    {ready : Driver Chip} (h : scan ⟨chip, state⟩ = .ok g ready) :
    g.part.manufacturer = chip.part.manufacturer ∧ QuadEnabled chip ready.bus := by
  obtain ⟨entry, ht⟩ := Part.exists_takenFor hlisted
  obtain @⟨found, ⟨bus, known⟩, enabled, reached, hidentify, hclear, henable, haddress, hbus⟩ :=
    quadScan_of_scan hquad h
  rw [scanAttempts, identify_eq hquiet ht] at hidentify
  injection hidentify with hentry hfound
  have hvendor : g.part.manufacturer = chip.part.manufacturer := by
    rw [← hentry]
    exact ht.manufacturer_eq
  -- setting up the addressing leaves the registers alone
  have hlast (hquiet : enabled.bus.Quiet) :
      ready.bus.status = enabled.bus.status ∧ ready.bus.config = enabled.bus.config := by
    have hreached := (holds_setUpAddressing g.part g).of_ok ⟨hquiet, rfl, rfl⟩ haddress
    rw [hbus]
    exact ⟨hreached.status_eq, hreached.config_eq⟩
  refine ⟨hvendor, ?_, ?_⟩
  · intro hmacronix
    rw [← hvendor] at hmacronix
    have hprotected : powersUpProtected g.part = true := by simp [powersUpProtected, hmacronix]
    rw [if_pos hprotected] at hclear
    obtain ⟨outcome, hwrite⟩ := hclear
    have hfoundQuiet : Hushed found := hfound ▸ hquiet
    have hcleared : bus.Quiet := (hushed_writeStatus 0).attempt.of_ok hfoundQuiet hwrite
    rcases enableQuad_cases henable with ⟨-, hstatus⟩ | ⟨hother, -⟩ | hother
    · obtain ⟨henabled, hset⟩ := status_of_enableQuadBit hcleared hstatus
      rw [(hlast henabled).1]
      exact hset
    · rw [hmacronix] at hother
      exact absurd hother (by decide)
    · rw [hmacronix] at hother
      exact absurd hother (by decide)
  · intro hvendors
    rw [← hvendor] at hvendors
    have hopen : ¬ powersUpProtected g.part = true := by
      rcases hvendors with hvendors | hvendors <;> rw [powersUpProtected, hvendors] <;> decide
    rw [if_neg hopen, ← hfound] at hclear
    cases hclear
    rcases enableQuad_cases henable with ⟨hother, -⟩ | ⟨-, hconfig⟩ | hother
    · rw [hother] at hvendors
      exact absurd hvendors (by decide)
    · obtain ⟨henabled, hset, hspared⟩ := config_of_enableQuadBit hquiet hconfig
      obtain ⟨hstatusEq, hconfigEq⟩ := hlast henabled
      refine ⟨?_, ?_, ?_⟩
      · rw [hconfigEq]
        exact hset
      · rw [hconfigEq]
        exact hspared.config
      · rw [hstatusEq]
        exact hspared.status
    · rw [hother] at hvendors
      exact absurd hvendors (by decide)

end Driver

/-- An engine that has been started over a fresh controller stands for the part behind it. -/
theorem standsFor_of_startEngine {chip : Chip} (hreleased : chip.selected = false)
    {spi : SpiSettings} {engine : Controller.Engine Emulation.Board}
    (h : Emulation.startEngine (.create chip) spi = .ok engine) : StandsFor engine chip := by
  by_cases hline : spi.chipSelect < Controller.lines
  · obtain ⟨other, hother, hstands⟩ := startEngine_standsFor hreleased hline
    obtain rfl : engine = other := Except.ok.inj (h.symm.trans hother)
    exact hstands
  · have hlarge : Controller.lines ≤ spi.chipSelect := UInt8.not_lt.mp hline
    simp only [Emulation.startEngine, Controller.Engine.create, hlarge, ↓reduceIte,
      reduceCtorEq] at h

/-- A scan of the stack that succeeds is a scan of the part itself that does. -/
theorem Stack.core_of_scan {stack ready : Stack} (hstack : Driver.Alike StandsFor stack stack.core)
    {g : Geometry} (h : Driver.scan stack = .ok g ready) :
    Driver.scan stack.core = .ok g ready.core := by
  have hagree := Driver.simulates_scan busSimulation_standsFor hstack
  rw [h] at hagree
  generalize Driver.scan stack.core = r at hagree
  cases hagree with
  | ok states => rw [core_of_alike states]

open Driver in
/-- A scan in a quad mode that succeeds has enabled it. On any bus, the trace of the scan contains
the quad set-up: the vendor has a way to quad mode, and the last thing done in the set-up is to
read the register with the quad enable bit and find it set. On the emulated stack, from any
contents of the registers and any time that writes take, the bit is set in the part, and a write of
the configuration register has spared all else. -/
theorem quad_scan_enables :
    (∀ (β : Type) [SpiBus β] (d d' : Driver β) (g : Geometry),
      wantsQuad d.state.settings = true → scan d = .ok g d' →
      g.part ∈ Part.table ∧
      ∃ before start enabled reached, Replays d.bus before start.bus ∧
        enableQuad g.part start = .ok () enabled ∧
        setUpAddressing g.part g enabled = .ok () reached ∧ d'.bus = reached.bus ∧
        callsOf scan d = before ++ callsOf (enableQuad g.part) start ++
          callsOf (setUpAddressing g.part g) enabled ∧
        QuadConfirmed g.part.manufacturer (callsOf (enableQuad g.part) start)) ∧
    (∀ (chip : Chip) (spi : SpiSettings) (engine : Controller.Engine Emulation.Board)
      (state : DriverState) (g : Geometry) (ready : Stack),
      chip.part ∈ Part.table → chip.selected = false → chip.seen = .empty →
      Emulation.startEngine (.create chip) spi = .ok engine →
      wantsQuad state.settings = true → scan (⟨engine, state⟩ : Stack) = .ok g ready →
      g.part.manufacturer = chip.part.manufacturer ∧ QuadEnabled chip ready.chip) := by
  constructor
  · intro β _ d d' g hquad hscan
    obtain ⟨part, hpart, rfl, -⟩ := identified_of_scan hscan
    exact ⟨hpart, quad_confirmed hquad hscan⟩
  · intro chip spi engine state g ready hlisted hreleased hunseen hstart hquad hscan
    have hlike : Alike StandsFor (⟨engine, state⟩ : Stack) ⟨chip, state⟩ :=
      ⟨standsFor_of_startEngine hreleased hstart, rfl⟩
    have hcore := Stack.core_of_scan (Stack.alike_core hlike) hscan
    rw [Stack.core_of_alike hlike] at hcore
    exact quadEnabled_of_scan hlisted ⟨hreleased, hunseen⟩ hquad hcore

/-- A part with bits set in both registers, in the middle of a write. -/
def Emulation.Chip.locked : Chip where
  part := .w25q256
  memory := .empty
  pageSize := 256
  status := 0x9d
  config := 0x41
  bank := 0
  fourByte := false
  busyPolls := 1
  busy := 2
  selected := false
  seen := .empty

/-- A driver that is to read in a quad mode. -/
def DriverState.quadRead : DriverState where
  settings := { readMode := .quadOutputFast }

open Driver in
/-- The scan of the locked part goes through. -/
theorem quad_scan_enables_locked :
    ∃ engine g, ∃ ready : Stack, Chip.locked.part ∈ Part.table ∧
      Chip.locked.selected = false ∧ Chip.locked.seen = .empty ∧
      Emulation.startEngine (.create .locked) {} = .ok engine ∧
      wantsQuad DriverState.quadRead.settings = true ∧
      scan (⟨engine, .quadRead⟩ : Stack) = .ok g ready ∧ QuadEnabled .locked ready.chip ∧
      ∃ start : Stack, QuadConfirmed g.part.manufacturer (callsOf (enableQuad g.part) start) := by
  have hdone : (match Emulation.startEngine (.create .locked) {} with
      | .ok engine =>
        match scan (⟨engine, .quadRead⟩ : Stack) with
        | .ok _ _ => true
        | .error _ _ => false
      | .error _ => false) = true := by decide +kernel
  split at hdone
  case h_2 => cases hdone
  case h_1 engine hstart =>
    split at hdone
    case h_2 => cases hdone
    case h_1 g ready hscan =>
      obtain ⟨-, before, start, enabled, reached, -, -, -, -, -, hconfirmed⟩ :=
        quad_scan_enables.1 _ ⟨engine, .quadRead⟩ ready g rfl hscan
      have henabled := quad_scan_enables.2 .locked {} engine .quadRead g ready Part.w25q256_mem
        rfl rfl hstart rfl hscan
      exact ⟨engine, g, ready, Part.w25q256_mem, rfl, rfl, hstart, rfl, hscan, henabled.2, start,
        hconfirmed⟩

end NorFlash
