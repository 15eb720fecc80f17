import NorFlash.Proofs.WriteCycle

/-!
When a driver and its part agree on what an address means, and that visiting a position keeps
them agreed. The part takes a new bank as soon as the write is released, the driver only after a
wait that succeeds, so all of this rests on the wait for a bank write never running out.
-/
namespace NorFlash

/-- A layout of a single die, as scans of such parts find it. -/
structure Geometry.Plain (g : Geometry) : Prop where
  single : g.wiring = .single
  erases : g.eraseCommand = .eraseSmallSector ∨ g.eraseCommand = .eraseSector
  eraseSize_pos : 0 < g.eraseSize
  eraseSize_le : g.eraseSize ≤ g.size
  size_lt : g.size < UInt32.size

theorem Geometry.Plain.bankOf_eq {g : Geometry} (hg : g.Plain) (address : Nat) :
    g.bankOf address = address / 0x1000000 := by
  rw [bankOf, bankSpan, hg.single]
  rfl

namespace FlashSettings

/-- The most busy polls that a program or an erase leaves when its wait runs out. -/
def leftover (settings : FlashSettings) (busyPolls : Nat) : Nat :=
  busyPolls - min (Poll.attempts settings.programTimeout) (Poll.attempts settings.eraseTimeout)

/-- Even after a wait that ran out, the wait for a bank write succeeds. -/
def BanksSettle (settings : FlashSettings) (busyPolls : Nat) : Prop :=
  settings.leftover busyPolls < Poll.attempts settings.programTimeout

instance (settings : FlashSettings) (busyPolls : Nat) :
    Decidable (settings.BanksSettle busyPolls) :=
  inferInstanceAs (Decidable (_ < _))

end FlashSettings

namespace Driver

open Emulation (Chip)

/-- The ways in which the commands of a driver reach all of the array. -/
inductive Routed (g : Geometry) (d : Driver Chip) : Prop where
  | banked (register : BankRegister) (bank : d.state.bank = some register)
    (writes : register.writeCommand = .writeBank ∨ register.writeCommand = .writeExtendedAddress)
    (current : register.current = d.bus.bank) (width : g.width = .three)
    (threeByte : d.bus.fourByte = false)
  | wide (bank : d.state.bank = none) (width : g.width = .four) (fourByte : d.bus.fourByte = true)
  | small (bank : d.state.bank = none) (width : g.width = .three)
    (threeByte : d.bus.fourByte = false) (first : d.bus.bank = 0)
    (size_le : g.size ≤ Geometry.bankSize)

/-- The driver has scanned its part and neither has lost track of the other since. -/
structure Attuned (g : Geometry) (settings : FlashSettings) (busyPolls : Nat)
    (d : Driver Chip) : Prop where
  rest : d.bus.AtRest
  scanned : d.state.lifecycle = .ready
  layout : d.state.geometry = some g
  chosen : d.state.settings = settings
  unlocked : d.state.lockCheck = none
  polls : d.bus.busyPolls = busyPolls
  busy_le : d.bus.busy ≤ settings.leftover busyPolls
  memory : d.bus.memory.size = g.size
  page : d.bus.pageSize = g.pageSize
  span : d.bus.eraseSpan g.eraseCommand = g.eraseSize
  routed : Routed g d

section SelectBank

variable {g : Geometry} {d : Driver Chip} {address : Nat}

theorem selectBank_of_none (h : d.state.bank = none) : selectBank g address d = .ok () d := by
  refine (bind_of_ok (getState_eq d) _).trans ?_
  dsimp only
  rw [h]
  rfl

theorem selectBank_of_current {register : BankRegister} (h : d.state.bank = some register)
    (hsame : g.bankOf address = register.current.toNat) : selectBank g address d = .ok () d := by
  refine (bind_of_ok (getState_eq d) _).trans ?_
  dsimp only
  rw [h]
  dsimp only
  rw [if_pos hsame]
  rfl

/-- A bank write, which takes effect on the part whether or not the wait succeeds. -/
theorem selectBank_of_ne {chip : Chip} {state : DriverState} (hrest : chip.AtRest)
    {register : BankRegister} (h : state.bank = some register)
    (hwrites : register.writeCommand = .writeBank ∨
      register.writeCommand = .writeExtendedAddress)
    (hother : g.bankOf address ≠ register.current.toNat) :
    selectBank g address ⟨chip, state⟩ =
      finish (chip.busy < Poll.attempts state.settings.programTimeout)
        ⟨(chip.rebanked (.ofNat (g.bankOf address))).polled
            (Poll.attempts state.settings.programTimeout),
          if chip.busy < Poll.attempts state.settings.programTimeout then
            { state with bank := some { register with current := .ofNat (g.bankOf address) } }
          else state⟩ := by
  have hwrite := write_bank hrest state hwrites (.ofNat (g.bankOf address))
  refine (bind_of_ok (getState_eq _) _).trans ?_
  dsimp only
  rw [h]
  dsimp only
  rw [if_neg hother]
  by_cases hready : chip.busy < Poll.attempts state.settings.programTimeout
  · rw [finish_of hready] at hwrite ⊢
    rw [if_pos hready]
    exact bind_of_ok hwrite _
  · rw [finish_of_not hready] at hwrite ⊢
    rw [if_neg hready]
    exact bind_of_error hwrite _

end SelectBank

theorem visit_of_single {β : Type} [SpiBus β] {g : Geometry} (h : g.wiring = .single)
    (position : Nat) :
    (visit g position : Action β Nat) = do
      selectBank g position
      return position := by
  have hplace : g.locate position = ⟨false, position⟩ := by simp [Geometry.locate, h]
  unfold visit
  simp [hplace, h]

section Visit

variable {g : Geometry} {settings : FlashSettings} {busyPolls : Nat} {d : Driver Chip}

theorem Routed.reaches (h : Routed g d) (hg : g.Plain) {position : Nat} (hin : position < g.size)
    (hbank : ∀ register, d.state.bank = some register →
      g.bankOf position = register.current.toNat) :
    d.bus.Reaches g.width position := by
  have hlt := hg.size_lt
  cases h with
  | banked register bank writes current width threeByte =>
    have hsame := hbank register bank
    rw [hg.bankOf_eq, current] at hsame
    rw [width]
    exact ⟨threeByte, hsame.symm, by omega⟩
  | wide bank width fourByte =>
    rw [width]
    exact ⟨fourByte, by omega⟩
  | small bank width threeByte first size_le =>
    rw [Geometry.bankSize] at size_le
    have hzero : position / 0x1000000 = 0 := Nat.div_eq_of_lt (by omega)
    rw [width]
    refine ⟨threeByte, ?_, by omega⟩
    rw [first, hzero]
    rfl

/-- A bank write whose wait succeeds brings driver and part to the same bank. -/
theorem Attuned.rebank (h : Attuned g settings busyPolls d)
    (hsettle : settings.BanksSettle busyPolls) {register : BankRegister}
    (hbank : d.state.bank = some register) {address : Nat}
    (hother : g.bankOf address ≠ register.current.toNat) :
    ∃ d', selectBank g address d = .ok () d' ∧ Attuned g settings busyPolls d' ∧
      d'.bus.memory = d.bus.memory ∧
      d'.state.bank = some { register with current := .ofNat (g.bankOf address) } := by
  obtain ⟨chip, state⟩ := d
  cases h.routed with
  | wide hnone => exact absurd (hbank.symm.trans hnone) (by simp)
  | small hnone => exact absurd (hbank.symm.trans hnone) (by simp)
  | banked known hknown writes current width threeByte =>
    obtain rfl : known = register := Option.some.inj (hknown.symm.trans hbank)
    have hready : chip.busy < Poll.attempts state.settings.programTimeout := by
      rw [h.chosen]
      exact Nat.lt_of_le_of_lt h.busy_le hsettle
    have hselect := selectBank_of_ne h.rest hbank writes hother
    rw [finish_of hready, if_pos hready] at hselect
    refine ⟨_, hselect, ?_, rfl, rfl⟩
    -- a bank write does not make the part busy again, so its wait only uses up what was left
    have hbusy : chip.busy - Poll.attempts state.settings.programTimeout ≤
        settings.leftover busyPolls :=
      Nat.le_trans (Nat.sub_le ..) h.busy_le
    exact ⟨(h.rest.rebanked _).polled _, h.scanned, h.layout, h.chosen, h.unlocked, h.polls, hbusy,
      h.memory, h.page, h.span, .banked _ rfl writes rfl width threeByte⟩

theorem selectBank_ok (h : Attuned g settings busyPolls d) (hg : g.Plain)
    (hsettle : settings.BanksSettle busyPolls) {address : Nat} (hin : address < g.size) :
    ∃ d', selectBank g address d = .ok () d' ∧ Attuned g settings busyPolls d' ∧
      d'.bus.memory = d.bus.memory ∧
      ∀ register, d'.state.bank = some register → g.bankOf address = register.current.toNat := by
  cases hbank : d.state.bank with
  | none => exact ⟨d, selectBank_of_none hbank, h, rfl, by simp [hbank]⟩
  | some register =>
    by_cases hsame : g.bankOf address = register.current.toNat
    · refine ⟨d, selectBank_of_current hbank hsame, h, rfl, fun known hknown => ?_⟩
      obtain rfl : register = known := Option.some.inj (hbank.symm.trans hknown)
      exact hsame
    · obtain ⟨d', hselect, hd', hmemory, hnew⟩ := h.rebank hsettle hbank hsame
      refine ⟨d', hselect, hd', hmemory, fun known hknown => ?_⟩
      obtain rfl := Option.some.inj (hnew.symm.trans hknown)
      have hlt := hg.size_lt
      have hbyte : g.bankOf address < UInt8.size := by
        rw [hg.bankOf_eq]
        unfold UInt32.size at hlt
        unfold UInt8.size
        omega
      exact (UInt8.toNat_ofNat_of_lt' hbyte).symm

/-- Visiting a position succeeds, keeps the array, and lets its address reach the part. -/
theorem visit_ok (h : Attuned g settings busyPolls d) (hg : g.Plain)
    (hsettle : settings.BanksSettle busyPolls) {position : Nat} (hin : position < g.size) :
    ∃ d', visit g position d = .ok position d' ∧ Attuned g settings busyPolls d' ∧
      d'.bus.memory = d.bus.memory ∧ d'.bus.Reaches g.width position := by
  obtain ⟨d', hselect, hd', hmemory, hbank⟩ := selectBank_ok h hg hsettle hin
  rw [visit_of_single hg.single]
  exact ⟨d', bind_of_ok hselect _, hd', hmemory, hd'.routed.reaches hg hin hbank⟩

end Visit

end Driver

end NorFlash
