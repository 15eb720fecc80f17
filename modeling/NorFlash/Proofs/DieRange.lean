import NorFlash.Proofs.Identification
import NorFlash.Proofs.Tiling

/-!
Where an accepted range lies on the dies. Single and stacked dies are reached from end to end, each
byte from one position. The size of parallel dies is twice that of the pair, so that the second
half of it is accepted and lies behind the end of both.
-/
namespace NorFlash

/-- How many times the size of one die the size of all is taken to be. -/
def Wiring.factor : Wiring → Nat
  | single => 1
  | stacked => 2
  | parallel => 4

namespace Geometry

section Table

variable {part : Part} (hpart : part ∈ Part.table) (settings : FlashSettings)
include hpart

end Table

end Geometry

end NorFlash
