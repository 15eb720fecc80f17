import NorFlash.Error

/-!
Waiting by polling: a fixed number of readiness checks with a fixed delay after each check that
fails. There is no interrupt and no cancellation, so a caller learns of a timeout only once the
budget is spent.
-/
namespace NorFlash.Poll

structure Budget where
  attempts : Nat
  /-- Microseconds between two checks. -/
  interval : UInt32
  deriving DecidableEq, Repr

/-- Ten checks for every millisecond, 100 µs apart; the number of checks is a 32-bit count that
saturates. -/
def Budget.ofMillis (timeout : UInt32) : Budget :=
  ⟨min (timeout.toNat * 10) 0xffffffff, 100⟩

inductive Outcome where
  /-- The condition held at this check, counted from one. -/
  | ready (check : Nat)
  | exhausted
  deriving DecidableEq, Repr

def Outcome.isReady : Outcome → Bool
  | ready _ => true
  | exhausted => false

variable {σ : Type}

/-- The checks numbered `check + 1` and later, of which `attempts` are left. -/
def untilReadyFrom (interval : UInt32) (ready : EStateM Error σ Bool) (wait : UInt32 → σ → σ) :
    (attempts check : Nat) → EStateM Error σ Outcome
  | 0, _ => pure .exhausted
  | attempts + 1, check => fun s =>
    match ready s with
    | .error e s => .error e s
    | .ok true s => .ok (.ready (check + 1)) s
    | .ok false s =>
      untilReadyFrom interval ready wait attempts (check + 1) (wait interval s)

/-- Checks until the condition holds, a check fails, or the budget is spent. A failure of the
check ends the wait and is passed on unchanged. -/
def untilReady (budget : Budget) (ready : EStateM Error σ Bool) (wait : UInt32 → σ → σ) :
    EStateM Error σ Outcome :=
  untilReadyFrom budget.interval ready wait budget.attempts 0

theorem untilReady_zero (interval : UInt32) (ready : EStateM Error σ Bool)
    (wait : UInt32 → σ → σ) (s : σ) :
    untilReady ⟨0, interval⟩ ready wait s = .ok .exhausted s :=
  rfl

end NorFlash.Poll
