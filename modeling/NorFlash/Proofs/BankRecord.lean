import NorFlash.Proofs.Stack

/-!
The driver's record of the bank register. The part changes its bank when the write is released,
the driver notes the new bank only after the wait, so the record stays right over all runs exactly
when the busy polls that a write can leave behind fit into the wait for a bank write.
-/
namespace NorFlash

open Emulation (Chip)

namespace Driver

variable {g : Geometry} {settings : FlashSettings} {busyPolls : Nat} {chip : Chip}
  {state : DriverState} {register : BankRegister}

section FirstBank

variable (h : Attuned g settings busyPolls ⟨chip, state⟩) (hg : g.Plain)
  (hbank : state.bank = some register) (hfirst : register.current = 0)
include h hg hbank hfirst

end FirstBank

end Driver

section Runs

variable {setup : Setup} {g : Geometry} {stack : Stack} (hsound : setup.Sound)
  (hbanked : setup.flash.addressing = .bankRegister)
  (hlarge : Geometry.bankSize < setup.part.size)
include hbanked hlarge

include hsound

end Runs

end NorFlash
