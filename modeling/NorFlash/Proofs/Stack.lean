import NorFlash.Emulation.Board
import NorFlash.Proofs.ArrayAccess
import NorFlash.Proofs.BringUp
import NorFlash.Proofs.RegisterEngine

/-!
The driver over the transfer engine over the emulated controller and part: how such a stack is
put together, the states that it reaches, and that in each of them the driver is attuned to the
part as long as the waits for bank writes succeed.
-/
namespace NorFlash

open Emulation (Chip SetupError)

/-- A driver and all that is below it. -/
abbrev Stack :=
  Driver (Controller.Engine Emulation.Board)

/-- The part at the bottom of a stack. -/
def Stack.chip (stack : Stack) : Chip :=
  stack.bus.hardware.controller.chip

/-- What a stack is put together from. -/
structure Setup where
  part : Part
  /-- The first bytes of the array. -/
  image : ByteArray
  spi : SpiSettings
  flash : FlashSettings
  busyPolls : Nat

namespace Setup

/-- A part of the table on its own, whose settings let all of it be reached. -/
structure Sound (setup : Setup) : Prop where
  listed : setup.part ∈ Part.table
  fits : setup.image.size ≤ setup.part.size
  line : setup.spi.chipSelect < Controller.lines
  single : setup.flash.wiring = .single
  addressable : setup.flash.addressing ≠ .threeByte ∨ setup.part.size ≤ Geometry.bankSize

/-- Neither timeout is shorter than the busy time of the part. -/
structure Patient (setup : Setup) : Prop where
  program : setup.busyPolls < Poll.attempts setup.flash.programTimeout
  erase : setup.busyPolls < Poll.attempts setup.flash.eraseTimeout

/-- The stack before its scan. -/
def assemble (setup : Setup) : Except SetupError Stack :=
  match (Chip.erased setup.part).load setup.image with
  | (.error cause, _) => .error cause
  | (.ok (), chip) =>
    match Emulation.startEngine (.create { chip with busyPolls := setup.busyPolls }) setup.spi with
    | .error cause => .error cause
    | .ok engine => .ok (.create engine setup.flash)

/-- A scan of the fresh stack succeeds, finds this layout and leaves this stack. -/
def Scans (setup : Setup) (g : Geometry) (ready : Stack) : Prop :=
  ∃ fresh, setup.assemble = .ok fresh ∧ Driver.scan fresh = .ok g ready

end Setup

/-- A call of the driver, with any arguments. -/
inductive Call where
  | read (offset length : Nat)
  | program (offset : Nat) (data : ByteArray)
  | erase (offset length : Nat)

/-- The driver after a call, whatever the call returned. -/
def Call.after {β : Type} [SpiBus β] : Call → Driver β → Driver β
  | read offset length, d => stateAfter (Driver.read offset length d)
  | program offset data, d => stateAfter (Driver.program offset data d)
  | erase offset length, d => stateAfter (Driver.erase offset length d)

/-- The stacks that calls lead to from a scan that found this layout. -/
inductive Setup.Reaches (setup : Setup) (g : Geometry) : Stack → Prop where
  | scanned {ready : Stack} (scans : setup.Scans g ready) : setup.Reaches g ready
  | called {stack : Stack} (call : Call) (before : setup.Reaches g stack) :
    setup.Reaches g (call.after stack)

namespace Stack

/-- The same driver over the part itself. -/
def core (stack : Stack) : Driver Chip :=
  ⟨stack.chip, stack.state⟩

variable {stack : Stack} {d : Driver Chip}

theorem core_of_alike (h : Driver.Alike StandsFor stack d) : stack.core = d := by
  obtain ⟨queue, -, hdrives⟩ := h.bus
  obtain ⟨bus, state⟩ := d
  have hchip : stack.chip = bus := hdrives.carries.part
  have hstate : stack.state = state := h.state
  rw [core, hchip, hstate]

theorem alike_core (h : Driver.Alike StandsFor stack d) :
    Driver.Alike StandsFor stack stack.core := by
  rwa [core_of_alike h]

section Lift

variable {α : Type} {x : Driver.Action (Controller.Engine Emulation.Board) α}
  {y : Driver.Action Chip α} (hxy : Simulates (Driver.Alike StandsFor) x y)
  (hstack : Driver.Alike StandsFor stack stack.core)
include hxy hstack

theorem ok_of_core {value : α} (h : y stack.core = .ok value d) :
    ∃ after : Stack, x stack = .ok value after ∧ Driver.Alike StandsFor after after.core ∧
      after.core = d := by
  have hagree := hxy hstack
  rw [h] at hagree
  generalize hx : x stack = r at hagree
  cases hagree with
  | ok states => exact ⟨_, rfl, alike_core states, core_of_alike states⟩

theorem error_of_core {cause : Error} (h : y stack.core = .error cause d) :
    ∃ after : Stack, x stack = .error cause after := by
  have hagree := hxy hstack
  rw [h] at hagree
  generalize hx : x stack = r at hagree
  cases hagree with
  | error states => exact ⟨_, rfl⟩

theorem alike_stateAfter : Driver.Alike StandsFor (stateAfter (x stack))
    (stateAfter (y stack.core)) := by
  have hagree := hxy hstack
  generalize x stack = r at hagree
  generalize y stack.core = r' at hagree
  cases hagree with
  | ok states => exact states
  | error states => exact states

end Lift

end Stack

/-- Every call goes the same way over the registers as over the part itself. -/
theorem Call.alike_after {stack : Stack} (h : Driver.Alike StandsFor stack stack.core)
    (call : Call) : Driver.Alike StandsFor (call.after stack) (call.after stack.core) := by
  cases call with
  | read offset length =>
    exact Stack.alike_stateAfter (Driver.simulates_read busSimulation_standsFor ..) h
  | program offset data =>
    exact Stack.alike_stateAfter (Driver.simulates_program busSimulation_standsFor ..) h
  | erase offset length =>
    exact Stack.alike_stateAfter (Driver.simulates_erase busSimulation_standsFor ..) h

theorem Call.core_after {stack : Stack} (h : Driver.Alike StandsFor stack stack.core)
    (call : Call) : Stack.core (call.after stack) = call.after stack.core :=
  Stack.core_of_alike (call.alike_after h)

theorem Call.attuned_after {g : Geometry} {settings : FlashSettings} {busyPolls : Nat}
    {d : Driver Chip} (h : Driver.Attuned g settings busyPolls d) (hg : g.Plain)
    (hsettle : settings.BanksSettle busyPolls) (call : Call) :
    Driver.Attuned g settings busyPolls (call.after d) := by
  cases call with
  | read offset length =>
    rcases Driver.read_cases h hg hsettle offset length with ⟨-, d', hread, hd', -⟩ | hread
    · rw [after, hread]
      exact hd'
    · rw [after, hread]
      exact h
  | program offset data =>
    obtain ⟨d', done, hafter, hd', -⟩ := Driver.program_cases h hg hsettle offset data
    rwa [after, hafter]
  | erase offset length =>
    obtain ⟨d', done, hafter, hd', -⟩ := Driver.erase_cases h hg hsettle offset length
    rwa [after, hafter]

namespace Setup

variable {setup : Setup}

/-- The part before the scan. -/
def freshChip (setup : Setup) : Chip :=
  { Chip.erased setup.part with
    memory := Bytes.overlay (Bytes.fill setup.part.size 0xff) 0 setup.image
    busyPolls := setup.busyPolls }

theorem Sound.size_memory (h : setup.Sound) : setup.freshChip.memory.size = setup.part.size := by
  have hfits := h.fits
  change (Bytes.overlay (Bytes.fill setup.part.size 0xff) 0 setup.image).size = _
  rw [Bytes.size_overlay (by rw [Bytes.size_fill]; omega), Bytes.size_fill]

/-- Putting a sound stack together cannot fail. -/
theorem Sound.assemble_ok (h : setup.Sound) :
    ∃ fresh : Stack, setup.assemble = .ok fresh ∧ Driver.Alike StandsFor fresh fresh.core ∧
      fresh.core = .create setup.freshChip setup.flash := by
  obtain ⟨engine, hstart, hengine⟩ :=
    @startEngine_standsFor setup.freshChip rfl setup.spi h.line
  have hload : (Chip.erased setup.part).load setup.image =
      (.ok (), (Chip.erased setup.part).mapMemory (Bytes.overlay · 0 setup.image)) := by
    have hsize : (Chip.erased setup.part).memory.size = setup.part.size := Bytes.size_fill ..
    rw [Chip.load, hsize, if_neg (Nat.not_lt.mpr h.fits)]
  have halike : Driver.Alike StandsFor (.create engine setup.flash)
      (.create setup.freshChip setup.flash) := ⟨hengine, rfl⟩
  refine ⟨.create engine setup.flash, ?_, Stack.alike_core halike, Stack.core_of_alike halike⟩
  rw [assemble, hload]
  change (match Emulation.startEngine (.create setup.freshChip) setup.spi with
    | .error cause => (Except.error cause : Except SetupError Stack)
    | .ok engine => .ok (.create engine setup.flash)) = _
  rw [hstart]

theorem Sound.suits (h : setup.Sound) {entry : Part} (ht : setup.part.TakenFor entry) :
    Driver.Suits setup.flash setup.freshChip (.derive entry setup.flash) where
  memory := by rw [h.size_memory, Geometry.size_derive ht h.single]
  page := (Geometry.pageSize_derive ht h.single).symm
  span := (Geometry.eraseSize_derive ht h.single).symm
  width := rfl
  firstBank := rfl
  threeByte := rfl
  addressable := by
    rw [Geometry.size_derive ht h.single]
    exact h.addressable

/-- The stack stands for a driver that is attuned to the part of the setup. -/
structure Tuned (setup : Setup) (g : Geometry) (stack : Stack) : Prop where
  alike : Driver.Alike StandsFor stack stack.core
  plain : g.Plain
  size_eq : g.size = setup.part.size
  width : setup.flash.addressing ≠ .fourByte → g.width = .three
  attuned : Driver.Attuned g setup.flash setup.busyPolls stack.core

/-- A call keeps the stack tuned when it keeps the driver attuned. -/
theorem Tuned.called {g : Geometry} {stack : Stack} (h : setup.Tuned g stack) {call : Call}
    (hcall : Driver.Attuned g setup.flash setup.busyPolls (call.after stack.core)) :
    setup.Tuned g (call.after stack) where
  alike := Stack.alike_core (call.alike_after h.alike)
  plain := h.plain
  size_eq := h.size_eq
  width := h.width
  attuned := by
    rw [call.core_after h.alike]
    exact hcall

section Access

variable {g : Geometry} {stack : Stack} (h : setup.Tuned g stack)
  (hsettle : setup.flash.BanksSettle setup.busyPolls)
include h

section Inside

include hsettle

theorem Tuned.read_inside {offset length : Nat} (hin : offset + length ≤ g.size) :
    ∃ after : Stack,
      Driver.read offset length stack =
        .ok (Bytes.slice stack.chip.memory offset length) after ∧
      setup.Tuned g after ∧ after.chip.memory = stack.chip.memory := by
  obtain ⟨d, hread, hd, hmemory⟩ := Driver.read_eq h.attuned h.plain hsettle hin
  obtain ⟨after, hafter, -, rfl⟩ := Stack.ok_of_core
    (Driver.simulates_read busSimulation_standsFor offset length) h.alike hread
  have htuned : setup.Tuned g (Call.after (.read offset length) stack) := h.called (by
    rw [Call.after, hread]
    exact hd)
  rw [Call.after, hafter] at htuned
  exact ⟨after, hafter, htuned, hmemory⟩

/-- A program that waits long enough clears bits in all of its range. -/
theorem Tuned.program_inside
    (hwaits : setup.busyPolls < Poll.attempts setup.flash.programTimeout) {offset : Nat}
    {data : ByteArray} (hin : offset + data.size ≤ g.size) :
    ∃ after : Stack, Driver.program offset data stack = .ok () after ∧ setup.Tuned g after ∧
      Rewrites (fun i byte => byte &&& Bytes.byteAt data (i - offset)) offset
        (offset + data.size) stack.chip.memory after.chip.memory := by
  obtain ⟨d, done, hprogram, hd, -, hall, hrewrites⟩ :=
    Driver.program_eq h.attuned h.plain hsettle hin
  rw [Driver.finish_of (.inr hwaits)] at hprogram
  rw [hall hwaits] at hrewrites
  obtain ⟨after, hafter, -, rfl⟩ := Stack.ok_of_core
    (Driver.simulates_program busSimulation_standsFor offset data) h.alike hprogram
  have htuned : setup.Tuned g (Call.after (.program offset data) stack) := h.called (by
    rw [Call.after, hprogram]
    exact hd)
  rw [Call.after, hafter] at htuned
  exact ⟨after, hafter, htuned, hrewrites⟩

/-- An erase that waits long enough sets all of its range. -/
theorem Tuned.erase_inside
    (hwaits : setup.busyPolls < Poll.attempts setup.flash.eraseTimeout) {offset length : Nat}
    (hoffset : offset % g.eraseSize = 0) (hlength : length % g.eraseSize = 0)
    (hin : offset + length ≤ g.size) :
    ∃ after : Stack, Driver.erase offset length stack = .ok () after ∧ setup.Tuned g after ∧
      Rewrites (fun _ _ => 0xff) offset (offset + length) stack.chip.memory
        after.chip.memory := by
  obtain ⟨d, done, herase, hd, -, hall, hrewrites⟩ :=
    Driver.erase_eq h.attuned h.plain hsettle hoffset hlength hin
  rw [Driver.finish_of (.inr hwaits)] at herase
  rw [hall hwaits] at hrewrites
  obtain ⟨after, hafter, -, rfl⟩ := Stack.ok_of_core
    (Driver.simulates_erase busSimulation_standsFor offset length) h.alike herase
  have htuned : setup.Tuned g (Call.after (.erase offset length) stack) := h.called (by
    rw [Call.after, herase]
    exact hd)
  rw [Call.after, hafter] at htuned
  exact ⟨after, hafter, htuned, hrewrites⟩

end Inside

theorem Tuned.program_outside {offset : Nat} {data : ByteArray}
    (hout : g.size < offset + data.size) :
    ∃ after : Stack, Driver.program offset data stack = .error .addressOutOfBounds after := by
  have hrefused : Driver.program offset data stack.core = .error .addressOutOfBounds stack.core :=
    (bind_of_ok (Driver.requireReady_eq h.attuned) _).trans
      (bind_of_error (Driver.requireInside_of_lt stack.core hout) _)
  exact Stack.error_of_core (Driver.simulates_program busSimulation_standsFor offset data) h.alike
    hrefused

theorem Tuned.erase_outside {offset length : Nat} (hoffset : offset % g.eraseSize = 0)
    (hlength : length % g.eraseSize = 0) (hout : g.size < offset + length) :
    ∃ after : Stack, Driver.erase offset length stack = .error .addressOutOfBounds after := by
  have hrefused :
      Driver.erase offset length stack.core = .error .addressOutOfBounds stack.core := by
    refine (bind_of_ok (Driver.requireReady_eq h.attuned) _).trans ?_
    rw [if_neg (by simp [hoffset, hlength])]
    exact bind_of_error (Driver.requireInside_of_lt stack.core hout) _
  exact Stack.error_of_core (Driver.simulates_erase busSimulation_standsFor offset length) h.alike
    hrefused

end Access

/-- A scan of a sound stack fails only where a quad mode is wanted. -/
theorem Sound.scan_cases (h : setup.Sound) {entry : Part} (ht : setup.part.TakenFor entry) :
    (∃ ready, setup.Scans (.derive entry setup.flash) ready ∧
      setup.Tuned (.derive entry setup.flash) ready ∧
      ready.chip.memory = setup.freshChip.memory ∧ ready.chip.bank = 0) ∨
    Driver.wantsQuad setup.flash ∧ ∀ g ready, ¬ setup.Scans g ready := by
  obtain ⟨fresh, hassemble, halike, hcore⟩ := h.assemble_ok
  have hsimulates := Driver.simulates_scan busSimulation_standsFor
  have hrest : setup.freshChip.AtRest := ⟨rfl, rfl, UInt8.zero_and⟩
  rcases Driver.scan_cases hrest (Nat.zero_le _) ht (h.suits ht) with
    ⟨d, hscan, hmemory, hbank, hattuned⟩ | ⟨hquad, cause, d, hscan⟩
  · rw [← hcore] at hscan
    obtain ⟨ready, hready, hlike, hcore'⟩ := Stack.ok_of_core hsimulates halike hscan
    rw [← hcore'] at hmemory hbank hattuned
    exact .inl ⟨ready, ⟨fresh, hassemble, hready⟩, ⟨hlike, Geometry.plain_derive ht h.single,
      Geometry.size_derive ht h.single, fun hnot => if_neg fun hfour => hnot hfour.1, hattuned⟩,
      hmemory, hbank⟩
  · rw [← hcore] at hscan
    obtain ⟨failed, hfailed⟩ := Stack.error_of_core hsimulates halike hscan
    refine .inr ⟨hquad, ?_⟩
    rintro g ready ⟨other, hother, hready⟩
    obtain rfl : fresh = other := Except.ok.inj (hassemble.symm.trans hother)
    cases hready.symm.trans hfailed

theorem Sound.exists_scans (h : setup.Sound) {entry : Part} (ht : setup.part.TakenFor entry)
    (hquad : Driver.wantsQuad setup.flash = false) :
    ∃ ready, setup.Scans (.derive entry setup.flash) ready ∧
      ready.chip.memory = setup.freshChip.memory := by
  rcases h.scan_cases ht with ⟨ready, hscans, -, hmemory, -⟩ | ⟨hwants, -⟩
  · exact ⟨ready, hscans, hmemory⟩
  · exact absurd (hquad.symm.trans hwants) (by decide)

/-- After its scan a stack is tuned, holds the array of the fresh part and is in the first bank. -/
theorem Sound.ready_of_scans (h : setup.Sound) {g : Geometry} {ready : Stack}
    (hscans : setup.Scans g ready) :
    setup.Tuned g ready ∧ ready.chip.memory = setup.freshChip.memory ∧ ready.chip.bank = 0 := by
  obtain ⟨entry, ht⟩ := Part.exists_takenFor h.listed
  rcases h.scan_cases ht with ⟨ready', hscans', htuned, hready⟩ | ⟨-, hnone⟩
  · obtain ⟨fresh, hassemble, hscan⟩ := hscans
    obtain ⟨other, hother, hscan'⟩ := hscans'
    obtain rfl : fresh = other := Except.ok.inj (hassemble.symm.trans hother)
    injection hscan.symm.trans hscan' with hg hsame
    rw [hg, hsame]
    exact ⟨htuned, hready⟩
  · exact absurd hscans (hnone g ready)

theorem Sound.tuned_of_scans (h : setup.Sound) {g : Geometry} {ready : Stack}
    (hscans : setup.Scans g ready) : setup.Tuned g ready ∧ ready.chip.bank = 0 := by
  obtain ⟨htuned, -, hbank⟩ := h.ready_of_scans hscans
  exact ⟨htuned, hbank⟩

theorem Patient.banksSettle (h : setup.Patient) : setup.flash.BanksSettle setup.busyPolls :=
  Nat.lt_of_le_of_lt (Nat.sub_le ..) h.program

/-- In every state that calls lead to, driver and part are attuned. -/
theorem Reaches.tuned {g : Geometry} {stack : Stack} (h : setup.Reaches g stack)
    (hsound : setup.Sound) (hsettle : setup.flash.BanksSettle setup.busyPolls) :
    setup.Tuned g stack := by
  induction h with
  | scanned scans => exact (hsound.tuned_of_scans scans).1
  | called call before ih => exact ih.called (call.attuned_after ih.attuned ih.plain hsettle)

/-- An erased part of two banks under the default SPI settings. -/
def twoBanks (flash : FlashSettings) (busyPolls : Nat) : Setup :=
  ⟨.w25q256, .empty, {}, flash, busyPolls⟩

theorem sound_twoBanks {flash : FlashSettings} (hsingle : flash.wiring = .single)
    (haddressing : flash.addressing ≠ .threeByte) (busyPolls : Nat) :
    (twoBanks flash busyPolls).Sound where
  listed := Part.w25q256_mem
  fits := Nat.zero_le _
  line := (by decide : (0 : UInt8) < Controller.lines)
  single := hsingle
  addressable := .inl haddressing

end Setup

end NorFlash
