import NorFlash.Driver.Scan
import NorFlash.Proofs.Routing

/-!
The entry under which a part of the table is identified. Some parts answer like an entry ahead of
them, but an entry that answers for a part has its sectors and its pages, so the layout derived
from the one fits the other.
-/
namespace NorFlash

/-- The first entry that the ID bytes of the part identify, and what it shares with the part. -/
structure Part.TakenFor (part entry : Part) : Prop where
  identified : findById? part.idBytes = some entry
  idBytes_length : part.idBytes.length = maxIdLength
  sectorSize : entry.sectorSize = part.sectorSize
  sectors : entry.sectors = part.sectors
  pageSize : (Geometry.derive entry {}).pageSize = (Geometry.derive part {}).pageSize
  sectorSize_pos : 0 < entry.sectorSize.toNat
  sectorSize_le : entry.sectorSize.toNat ≤ entry.size
  smallSector_le : 4096 ≤ entry.size
  size_lt : entry.size < UInt32.size

instance (part entry : Part) : Decidable (part.TakenFor entry) :=
  decidable_of_iff
    (Part.findById? part.idBytes = some entry ∧ part.idBytes.length = Part.maxIdLength ∧
      entry.sectorSize = part.sectorSize ∧ entry.sectors = part.sectors ∧
      (Geometry.derive entry {}).pageSize = (Geometry.derive part {}).pageSize ∧
      0 < entry.sectorSize.toNat ∧ entry.sectorSize.toNat ≤ entry.size ∧ 4096 ≤ entry.size ∧
      entry.size < UInt32.size)
    ⟨fun ⟨a, b, c, d, e, f, g, i, j⟩ => ⟨a, b, c, d, e, f, g, i, j⟩,
      fun ⟨a, b, c, d, e, f, g, i, j⟩ => ⟨a, b, c, d, e, f, g, i, j⟩⟩

theorem Part.table_identified :
    Part.table.all (fun part => (findById? part.idBytes).any fun entry =>
      decide (part.TakenFor entry)) = true := by
  decide +kernel

theorem Part.exists_takenFor {part : Part} (h : part ∈ Part.table) :
    ∃ entry, part.TakenFor entry := by
  have hpart := List.all_eq_true.mp table_identified part h
  cases hfound : findById? part.idBytes with
  | none => simp [hfound] at hpart
  | some entry =>
    rw [hfound] at hpart
    exact ⟨entry, of_decide_eq_true hpart⟩

/-- The part of Winbond with two banks. -/
def Part.w25q256 : Part :=
  winbondParts[12]

theorem Part.w25q256_mem : w25q256 ∈ table := by
  decide +kernel

theorem Part.findByName?_w25q256 : findByName? "w25q256" = some w25q256 := by
  decide +kernel

/-- It is identified as itself. -/
theorem Part.w25q256_takenFor : w25q256.TakenFor w25q256 := by
  decide +kernel

section SingleDie

variable {part entry : Part} (h : part.TakenFor entry) {settings : FlashSettings}
  (hsingle : settings.wiring = .single)
include h

theorem Part.TakenFor.size_eq : entry.size = part.size := by
  rw [size, size, h.sectorSize, h.sectors]

include hsingle

theorem Geometry.size_derive : (derive entry settings).size = part.size := by
  have hlt := h.size_lt
  have hderive : (derive entry settings).size = (entry.sectorSize * entry.sectors).toNat := by
    simp [derive, hsingle, Wiring.shift]
  rw [hderive, ← h.size_eq, UInt32.toNat_mul]
  exact Nat.mod_eq_of_lt hlt

theorem Geometry.pageSize_derive :
    (derive entry settings).pageSize = (derive part {}).pageSize := by
  rw [← h.pageSize]
  simp only [derive, hsingle]

theorem Geometry.eraseSize_derive :
    (derive entry settings).eraseSize =
      if (derive entry settings).eraseCommand = .eraseSmallSector then 4096
      else part.sectorSize.toNat := by
  rw [← h.sectorSize]
  simp only [derive, hsingle]
  split <;> simp [Wiring.shift]

theorem Geometry.plain_derive : (derive entry settings).Plain where
  single := hsingle
  erases := by
    simp only [derive]
    split
    · exact .inl rfl
    · exact .inr rfl
  eraseSize_pos := by
    have hpos := h.sectorSize_pos
    rw [h.sectorSize] at hpos
    rw [eraseSize_derive h hsingle]
    split <;> omega
  eraseSize_le := by
    have hsector := h.sectorSize_le
    have hsmall := h.smallSector_le
    rw [h.sectorSize] at hsector
    rw [eraseSize_derive h hsingle, size_derive h hsingle, ← h.size_eq]
    split <;> omega
  size_lt := by
    rw [size_derive h hsingle, ← h.size_eq]
    exact h.size_lt

end SingleDie

end NorFlash
