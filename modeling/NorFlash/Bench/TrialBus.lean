import NorFlash.Bus
import NorFlash.Controller.Engine

/-!
Buses that a trial may break. A broken bus refuses every transfer, and the trial that broke it ends
at that step.
-/
namespace NorFlash.Bench

class TrialBus (β : Type) extends SpiBus β where
  isBroken : β → Bool
  /-- The bus as it was before it broke. -/
  mend : β → β

/-- The engine refuses what it cannot carry out, and never breaks. -/
instance {η : Type} [Hardware η] : TrialBus (Controller.Engine η) where
  isBroken _ := false
  mend engine := engine

end NorFlash.Bench
