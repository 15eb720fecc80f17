import Mathlib.Algebra.Group.Nat.Defs
import NorFlash.Proofs.DieRange

/-!
Pages, erase units, banks and dies of a derived layout. Of every part with sensible sectors, in
every wiring, they nest: each of them is a whole number of the next smaller one, so that no unit
which starts at a multiple of its size lies in two banks or on two dies.
-/
namespace NorFlash

/-- A part that a table may list: pages of 256 bytes, and at least one sector, of a power of two
between 4 KiB and 16 MiB. Twice its array is still addressed by words if it comes as a pair that
doubles both sectors and size. -/
structure Part.Regular (part : Part) : Prop where
  page : part.pageSize = 256
  sector : part.sectorSize.toNat.isPowerOfTwo
  sector_ge : 4096 ≤ part.sectorSize.toNat
  sector_le : part.sectorSize.toNat ≤ 0x1000000
  sectors : 1 ≤ part.sectors.toNat
  room : 4 * part.sectorSize.toNat * part.sectors.toNat < UInt32.size

section Words

/-- A word shifted to the left, if this loses none of its bits. -/
def shifted? (word : UInt32) (count : Nat) : Option UInt32 :=
  if word.toNat * 2 ^ count < UInt32.size then some (word <<< UInt32.ofNat count) else none

/-- A product of words, if it is a word. -/
def product? (a b : UInt32) : Option UInt32 :=
  if a.toNat * b.toNat < UInt32.size then some (a * b) else none

theorem toNat_shiftLeft_of_lt {word : UInt32} {count : Nat} (hcount : count < 32)
    (h : word.toNat * 2 ^ count < UInt32.size) :
    (word <<< UInt32.ofNat count).toNat = word.toNat * 2 ^ count := by
  have hsmall : (UInt32.ofNat count).toNat % 32 = count := by
    rw [UInt32.toNat_ofNat', Nat.mod_eq_of_lt (by omega : count < 2 ^ 32), Nat.mod_eq_of_lt hcount]
  rw [UInt32.toNat_shiftLeft, hsmall, Nat.shiftLeft_eq, Nat.mod_eq_of_lt h]

theorem shifted?_of_lt {word : UInt32} {count : Nat} (h : word.toNat * 2 ^ count < UInt32.size) :
    shifted? word count = some (word <<< UInt32.ofNat count) :=
  if_pos h

theorem toNat_mul_of_lt {a b : UInt32} (h : a.toNat * b.toNat < UInt32.size) :
    (a * b).toNat = a.toNat * b.toNat := by
  rw [UInt32.toNat_mul, Nat.mod_eq_of_lt h]

theorem product?_of_lt {a b : UInt32} (h : a.toNat * b.toNat < UInt32.size) :
    product? a b = some (a * b) :=
  if_pos h

end Words

namespace Geometry

/-- The layout by arithmetic that gives nothing where a word overflows. -/
def derive? (part : Part) (settings : FlashSettings) : Option Geometry := do
  let shift := settings.wiring.shift
  let page ← shifted? (pageSizeOf part) shift
  let sector ← shifted? part.sectorSize shift
  let die ← product? sector part.sectors
  let array ← shifted? die shift
  let all ← (if settings.wiring = .stacked then shifted? array 1 else some array)
  let small := settings.smallSectors && part.features.contains .smallSector
  let unit ← (if small then shifted? 4096 shift else some sector)
  return { derive part settings with
    pageSize := page.toNat
    eraseSize := unit.toNat
    size := all.toNat
    width := if settings.addressing = .fourByte ∧ bankSize < all.toNat then .four else .three }

end Geometry

theorem Wiring.shift_lt (wiring : Wiring) : wiring.shift < 32 := by
  cases wiring <;> decide

namespace Part.Regular

variable {part : Part} (h : part.Regular) (wiring : Wiring)
include h

theorem sectorSize_le_size : part.sectorSize.toNat ≤ part.size :=
  Nat.le_mul_of_pos_right _ h.sectors

theorem size_room : 4 * part.size < UInt32.size := by
  rw [Part.size, ← Nat.mul_assoc]
  exact h.room

theorem toNat_pageSizeOf : (Geometry.pageSizeOf part).toNat = 256 ∨
    (Geometry.pageSizeOf part).toNat = 512 := by
  unfold Geometry.pageSizeOf
  split
  · exact .inr rfl
  · rw [h.page]
    exact .inl rfl

theorem page_fits : (Geometry.pageSizeOf part).toNat * 2 ^ wiring.shift < UInt32.size := by
  rcases h.toNat_pageSizeOf with hpage | hpage <;> rw [hpage] <;> cases wiring <;> decide

theorem sector_fits : part.sectorSize.toNat * 2 ^ wiring.shift < UInt32.size := by
  have hroom := h.size_room
  have hsector := h.sectorSize_le_size
  cases wiring <;> simp only [Wiring.shift] <;> omega

theorem toNat_sector :
    (part.sectorSize <<< UInt32.ofNat wiring.shift).toNat =
      part.sectorSize.toNat * 2 ^ wiring.shift :=
  toNat_shiftLeft_of_lt wiring.shift_lt (h.sector_fits wiring)

theorem die_fits : (part.sectorSize <<< UInt32.ofNat wiring.shift).toNat * part.sectors.toNat <
    UInt32.size := by
  have hroom := h.size_room
  rw [h.toNat_sector, Nat.mul_right_comm, ← Part.size]
  cases wiring <;> simp only [Wiring.shift] <;> omega

theorem toNat_die :
    (part.sectorSize <<< UInt32.ofNat wiring.shift * part.sectors).toNat =
      part.size * 2 ^ wiring.shift := by
  rw [toNat_mul_of_lt (h.die_fits wiring), h.toNat_sector, Nat.mul_right_comm, Part.size]

theorem array_fits : (part.sectorSize <<< UInt32.ofNat wiring.shift * part.sectors).toNat *
    2 ^ wiring.shift < UInt32.size := by
  have hroom := h.size_room
  rw [h.toNat_die]
  cases wiring <;> simp only [Wiring.shift] <;> omega

theorem toNat_array :
    ((part.sectorSize <<< UInt32.ofNat wiring.shift * part.sectors) <<<
      UInt32.ofNat wiring.shift).toNat = part.size * 2 ^ wiring.shift * 2 ^ wiring.shift := by
  rw [toNat_shiftLeft_of_lt wiring.shift_lt (h.array_fits wiring), h.toNat_die]

theorem pair_fits :
    ((part.sectorSize <<< UInt32.ofNat Wiring.stacked.shift * part.sectors) <<<
      UInt32.ofNat Wiring.stacked.shift).toNat * 2 ^ 1 < UInt32.size := by
  have hroom := h.size_room
  rw [h.toNat_array]
  simp only [Wiring.shift]
  omega

end Part.Regular

namespace Geometry

variable {part : Part} (h : part.Regular) (settings : FlashSettings)
include h

/-- No word overflows while the layout of a regular part is derived. -/
theorem derive?_eq : derive? part settings = some (derive part settings) := by
  let sector := part.sectorSize <<< UInt32.ofNat settings.wiring.shift
  let array := (sector * part.sectors) <<< UInt32.ofNat settings.wiring.shift
  let small := settings.smallSectors && part.features.contains .smallSector
  have hall : (if settings.wiring = .stacked then shifted? array 1 else some array) =
      some (if settings.wiring = .stacked then array <<< 1 else array) := by
    split
    case isTrue hstacked =>
      refine shifted?_of_lt ?_
      dsimp only [array, sector]
      rw [hstacked]
      exact h.pair_fits
    case isFalse => rfl
  have hunit : (if small then shifted? 4096 settings.wiring.shift else some sector) =
      some (if small then 4096 <<< UInt32.ofNat settings.wiring.shift else sector) := by
    split
    · cases settings.wiring <;> rfl
    · rfl
  have herase : (if small then 4096 <<< UInt32.ofNat settings.wiring.shift else sector).toNat =
      if small then 4096 <<< settings.wiring.shift else sector.toNat := by
    split
    · cases settings.wiring <;> rfl
    · rfl
  simp only [derive?, shifted?_of_lt (h.page_fits settings.wiring),
    shifted?_of_lt (h.sector_fits settings.wiring), product?_of_lt (h.die_fits settings.wiring),
    shifted?_of_lt (h.array_fits settings.wiring), Option.bind_eq_bind, Option.bind_some]
  change ((if settings.wiring = .stacked then shifted? array 1 else some array).bind fun all =>
    (if small then shifted? 4096 settings.wiring.shift else some sector).bind fun unit => _) = _
  rw [hall, hunit, Option.bind_some, Option.bind_some, herase]
  rfl

theorem size_of_regular : (derive part settings).size = settings.wiring.factor * part.size := by
  have harray := h.toNat_array settings.wiring
  have hsize : (derive part settings).size =
      (if settings.wiring = .stacked then
        ((part.sectorSize <<< UInt32.ofNat settings.wiring.shift * part.sectors) <<<
          UInt32.ofNat settings.wiring.shift) <<< 1
      else (part.sectorSize <<< UInt32.ofNat settings.wiring.shift * part.sectors) <<<
          UInt32.ofNat settings.wiring.shift).toNat := rfl
  rw [hsize]
  cases hwiring : settings.wiring with
  | single =>
    rw [hwiring] at harray
    rw [if_neg (by decide), harray, Wiring.factor]
    simp [Wiring.shift]
  | stacked =>
    have hpair := toNat_shiftLeft_of_lt (by decide : 1 < 32) h.pair_fits
    rw [hwiring] at harray
    rw [harray] at hpair
    rw [if_pos rfl, Wiring.factor]
    refine hpair.trans ?_
    simp [Wiring.shift, Nat.mul_comm]
  | parallel =>
    rw [hwiring] at harray
    rw [if_neg (by decide), harray, Wiring.factor]
    simp only [Wiring.shift]
    omega

/-- A page is 256 or 512 bytes, of parallel dies twice as many. -/
theorem pageSize_of_regular : ∃ exponent, 8 ≤ exponent ∧ exponent ≤ 9 ∧
    (derive part settings).pageSize = 2 ^ exponent * 2 ^ settings.wiring.shift := by
  have hpage : (derive part settings).pageSize =
      (pageSizeOf part).toNat * 2 ^ settings.wiring.shift :=
    toNat_shiftLeft_of_lt settings.wiring.shift_lt (h.page_fits settings.wiring)
  rcases h.toNat_pageSizeOf with hsmall | hlarge
  · exact ⟨8, by decide, by decide,
      hpage.trans (congrArg (· * 2 ^ settings.wiring.shift) hsmall)⟩
  · exact ⟨9, by decide, by decide,
      hpage.trans (congrArg (· * 2 ^ settings.wiring.shift) hlarge)⟩

/-- An erase unit is a sector or 4 KiB of one, of parallel dies twice as much. -/
theorem eraseSize_of_regular : ∃ exponent, 12 ≤ exponent ∧ exponent ≤ 24 ∧
    2 ^ exponent ∣ part.sectorSize.toNat ∧
    (derive part settings).eraseSize = 2 ^ exponent * 2 ^ settings.wiring.shift := by
  obtain ⟨exponent, hsector⟩ := h.sector
  have hge : 12 ≤ exponent := (Nat.pow_le_pow_iff_right (by decide : 1 < 2)).mp
    (hsector ▸ h.sector_ge)
  have hle : exponent ≤ 24 := (Nat.pow_le_pow_iff_right (by decide : 1 < 2)).mp
    (hsector ▸ h.sector_le)
  have herase : (derive part settings).eraseSize =
      if settings.smallSectors && part.features.contains .smallSector then
        4096 <<< settings.wiring.shift
      else (part.sectorSize <<< UInt32.ofNat settings.wiring.shift).toNat := rfl
  rw [herase]
  split
  · refine ⟨12, Nat.le_refl _, by decide, ?_, Nat.shiftLeft_eq ..⟩
    rw [hsector]
    exact Nat.pow_dvd_pow 2 hge
  · refine ⟨exponent, hge, hle, hsector ▸ Nat.dvd_refl _, ?_⟩
    rw [h.toNat_sector, hsector]

omit h in
theorem bankSpan_derive :
    (derive part settings).bankSpan = 2 ^ 24 * 2 ^ settings.wiring.shift :=
  Nat.shiftLeft_eq ..

theorem pageSize_dvd_eraseSize :
    (derive part settings).pageSize ∣ (derive part settings).eraseSize := by
  obtain ⟨page, -, hpage, hpageSize⟩ := pageSize_of_regular h settings
  obtain ⟨unit, hunit, -, -, heraseSize⟩ := eraseSize_of_regular h settings
  rw [hpageSize, heraseSize]
  exact Nat.mul_dvd_mul_right (Nat.pow_dvd_pow 2 (by omega)) _

theorem eraseSize_dvd_bankSpan :
    (derive part settings).eraseSize ∣ (derive part settings).bankSpan := by
  obtain ⟨unit, -, hunit, -, heraseSize⟩ := eraseSize_of_regular h settings
  rw [heraseSize, bankSpan_derive]
  exact Nat.mul_dvd_mul_right (Nat.pow_dvd_pow 2 hunit) _

theorem eraseSize_dvd_size :
    (derive part settings).eraseSize ∣ (derive part settings).size := by
  obtain ⟨unit, -, -, hsector, heraseSize⟩ := eraseSize_of_regular h settings
  have hfactor : 2 ^ settings.wiring.shift ∣ settings.wiring.factor := by
    cases settings.wiring <;> decide
  rw [heraseSize, size_of_regular h, Nat.mul_comm]
  exact Nat.mul_dvd_mul hfactor (Nat.dvd_mul_right_of_dvd hsector _)

/-- Each die of a stacked pair is half of the whole. -/
theorem eraseSize_dvd_half (hstacked : settings.wiring = .stacked) :
    (derive part settings).eraseSize ∣ (derive part settings).size / 2 := by
  obtain ⟨unit, -, -, hsector, heraseSize⟩ := eraseSize_of_regular h settings
  have hhalf : 2 * part.size / 2 = part.size := Nat.mul_div_cancel_left _ (by decide)
  have hshift : Wiring.stacked.shift = 0 := rfl
  rw [heraseSize, size_of_regular h, hstacked, Wiring.factor, hhalf, hshift, Nat.pow_zero,
    Nat.mul_one]
  exact Nat.dvd_mul_right_of_dvd hsector _

theorem size_pos_of_regular : 0 < (derive part settings).size := by
  have hsector := h.sectorSize_le_size
  have hge := h.sector_ge
  have hfactor : 0 < settings.wiring.factor := by cases settings.wiring <;> decide
  rw [size_of_regular h]
  exact Nat.mul_pos hfactor (by omega)

omit h

/-- A range that lies inside the array, in one bank and on one die. -/
structure Undivided (g : Geometry) (start length : Nat) : Prop where
  inside : start + length ≤ g.size
  span {position : Nat} : start ≤ position → position < start + length →
    position / g.bankSpan = start / g.bankSpan
  die {position : Nat} : start ≤ position → position < start + length →
    (g.locate position).upper = (g.locate start).upper
  bank {position : Nat} : start ≤ position → position < start + length →
    g.bankOf (g.locate position).address = g.bankOf (g.locate start).address

/-- An aligned unit lies between two multiples of everything that it divides. -/
theorem div_eq_of_unit {unit container start position : Nat} (hdvd : unit ∣ container)
    (hstart : unit ∣ start) (hle : start ≤ position) (hlt : position < start + unit) :
    position / container = start / container := by
  obtain ⟨count, rfl⟩ := hdvd
  obtain ⟨index, rfl⟩ := hstart
  have hunit : 0 < unit := by omega
  have hposition : position / unit = index := by
    rw [Nat.div_eq_iff hunit]
    constructor
    · rw [Nat.mul_comm]; exact hle
    · rw [Nat.mul_comm]; omega
  rw [← Nat.div_div_eq_div_mul, ← Nat.div_div_eq_div_mul, hposition,
    Nat.mul_div_cancel_left _ hunit]

/-- Nor does it reach across one of them. -/
theorem le_iff_of_unit {unit bound start position : Nat} (hdvd : unit ∣ bound)
    (hstart : unit ∣ start) (hle : start ≤ position) (hlt : position < start + unit) :
    bound ≤ position ↔ bound ≤ start := by
  refine ⟨fun hbound => ?_, fun hbound => Nat.le_trans hbound hle⟩
  obtain ⟨count, rfl⟩ := hdvd
  obtain ⟨index, rfl⟩ := hstart
  have hcount : count < index + 1 := by
    apply Nat.lt_of_mul_lt_mul_left (a := unit)
    rw [Nat.mul_succ]
    omega
  exact Nat.mul_le_mul_left unit (by omega)

theorem undivided_of_unit {g : Geometry} {unit start : Nat} (hspan : unit ∣ g.bankSpan)
    (hsize : unit ∣ g.size) (hhalf : g.wiring = .stacked → unit ∣ g.size / 2)
    (hstart : unit ∣ start) (hin : start < g.size) : g.Undivided start unit where
  inside := by
    obtain ⟨last, rfl⟩ : ∃ last, unit = last + 1 := by
      apply Nat.exists_eq_add_one_of_ne_zero
      rintro rfl
      have hzero : g.size = 0 := Nat.eq_zero_of_zero_dvd hsize
      omega
    -- the last byte of the unit would be behind the end of the array only if the first one were
    have hlast := le_iff_of_unit hsize hstart (Nat.le_add_right start last) (by omega)
    omega
  span hle hlt := div_eq_of_unit hspan hstart hle hlt
  die hle hlt := by
    unfold locate
    cases hwiring : g.wiring with
    | single => rfl
    | parallel => rfl
    | stacked =>
      have hsame := le_iff_of_unit (hhalf hwiring) hstart hle hlt
      dsimp only
      by_cases hupper : g.size / 2 ≤ start
      · rw [if_pos hupper, if_pos (hsame.mpr hupper)]
      · rw [if_neg hupper, if_neg fun h => hupper (hsame.mp h)]
  bank {position} hle hlt := by
    unfold locate bankOf
    cases hwiring : g.wiring with
    | single => exact div_eq_of_unit hspan hstart hle hlt
    | parallel =>
      dsimp only
      rw [Nat.div_div_eq_div_mul, Nat.div_div_eq_div_mul]
      exact div_eq_of_unit (Nat.dvd_mul_left_of_dvd hspan 2) hstart hle hlt
    | stacked =>
      have hsame := le_iff_of_unit (hhalf hwiring) hstart hle hlt
      dsimp only
      by_cases hupper : g.size / 2 ≤ start
      · rw [if_pos hupper, if_pos (hsame.mpr hupper)]
        dsimp only
        exact div_eq_of_unit hspan (Nat.dvd_sub hstart (hhalf hwiring)) (by omega) (by omega)
      · rw [if_neg hupper, if_neg fun h => hupper (hsame.mp h)]
        exact div_eq_of_unit hspan hstart hle hlt

/-- Every unit of a layout lies inside its container. The layout of a regular part is derived
without an overflow; its page and erase unit are powers of two, a page divides an erase unit, and an
erase unit divides the bank, the whole array, and each of two stacked dies. So no aligned unit of
either kind that starts inside the array lies in two banks or on two dies. -/
theorem units_nest {part : Part} (h : part.Regular) (settings : FlashSettings) :
    let g := derive part settings
    derive? part settings = some g ∧
    g.pageSize.isPowerOfTwo ∧ g.eraseSize.isPowerOfTwo ∧ g.pageSize ∣ g.eraseSize ∧
    g.eraseSize ∣ g.bankSpan ∧ g.eraseSize ∣ g.size ∧
    (settings.wiring = .stacked → g.eraseSize ∣ g.size / 2) ∧ 0 < g.size ∧
    ∀ start < g.size, (g.eraseSize ∣ start → g.Undivided start g.eraseSize) ∧
      (g.pageSize ∣ start → g.Undivided start g.pageSize) := by
  intro g
  obtain ⟨page, -, -, hpage⟩ := pageSize_of_regular h settings
  obtain ⟨unit, -, -, -, hunit⟩ := eraseSize_of_regular h settings
  have hpages := pageSize_dvd_eraseSize h settings
  have hspan := eraseSize_dvd_bankSpan h settings
  have hsize := eraseSize_dvd_size h settings
  have hhalf := eraseSize_dvd_half h settings
  refine ⟨derive?_eq h settings, ⟨page + settings.wiring.shift, ?_⟩,
    ⟨unit + settings.wiring.shift, ?_⟩, hpages, hspan, hsize, hhalf, size_pos_of_regular h settings,
    fun start hin => ⟨fun hstart => ?_, fun hstart => ?_⟩⟩
  · rw [Nat.pow_add]
    exact hpage
  · rw [Nat.pow_add]
    exact hunit
  · exact undivided_of_unit hspan hsize hhalf hstart hin
  · exact undivided_of_unit (Nat.dvd_trans hpages hspan) (Nat.dvd_trans hpages hsize)
      (fun hstacked => Nat.dvd_trans hpages (hhalf hstacked)) hstart hin

/-- A part with sectors as large as a bank and pages of 512 bytes. -/
def largeSectors : Part :=
  .ofJedec "large sectors" 0x012018 0x4d00 0x1000000 63 .none

theorem regular_largeSectors : largeSectors.Regular where
  page := rfl
  sector := ⟨24, rfl⟩
  sector_ge := by decide
  sector_le := by decide
  sectors := by decide
  room := by decide

/-- The last sector of a pair of such dies lies in one bank and on the upper die. -/
theorem units_nest_largeSectors :
    largeSectors.Regular ∧
    let g := derive largeSectors { wiring := .stacked }
    derive? largeSectors { wiring := .stacked } = some g ∧
    g.pageSize = 512 ∧ g.eraseSize = 0x1000000 ∧ g.size = 0x7e000000 ∧
    g.Undivided 0x7d000000 0x1000000 := by
  have hnest := units_nest regular_largeSectors { wiring := .stacked }
  obtain ⟨hderive, -, -, -, -, -, -, -, hunits⟩ := hnest
  exact ⟨regular_largeSectors, hderive, rfl, rfl, rfl,
    (hunits 0x7d000000 (by decide)).1 (by decide)⟩

/-- A pair of dies with 128 such sectors is not addressed by words any more. -/
example : derive? { largeSectors with sectors := 128 } { wiring := .stacked } = none := by
  decide

end Geometry

end NorFlash
