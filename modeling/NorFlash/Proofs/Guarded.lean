import NorFlash.Proofs.WriteCycle

/-!
Steps whose divisions, differences and ranges are checked. Where a check fails there is nothing to
report and nobody to report it to: the program ends on the spot. A step passes where none of its
checks fails, and it then does what the same step without checks does.
-/
namespace NorFlash

/-- A quotient, if the divisor is not zero. -/
def quotient? (n divisor : Nat) : Option Nat :=
  if divisor = 0 then none else some (n / divisor)

/-- A difference, if it is not below zero. -/
def difference? (n less : Nat) : Option Nat :=
  if less ≤ n then some (n - less) else none

/-- The length of `[start, stop)`, if this is a range of `size` bytes. -/
def range? (start stop size : Nat) : Option Nat :=
  if start ≤ stop ∧ stop ≤ size then some (stop - start) else none

section Checks

variable {n divisor less start stop size : Nat}

theorem quotient?_of_pos (h : 0 < divisor) (n : Nat) : quotient? n divisor = some (n / divisor) :=
  if_neg (Nat.ne_of_gt h)

theorem quotient?_zero (n : Nat) : quotient? n 0 = none :=
  rfl

theorem difference?_of_le (h : less ≤ n) : difference? n less = some (n - less) :=
  if_pos h

theorem range?_of_le (hstart : start ≤ stop) (hstop : stop ≤ size) :
    range? start stop size = some (stop - start) :=
  if_pos ⟨hstart, hstop⟩

end Checks

/-- A step with checks. It gives nothing where one of them fails, and is not continued. -/
abbrev Guarded (ε σ α : Type) := OptionT (EStateM ε σ) α

namespace Guarded

variable {ε σ α κ : Type}

/-- A step with nothing to check. -/
def lift (step : EStateM ε σ α) : Guarded ε σ α :=
  OptionT.lift step

/-- The result of a check. -/
def demand (result : Option α) : Guarded ε σ α :=
  OptionT.mk (pure result)

/-- A step that tells by itself which of its checks fail. -/
def of (step : σ → EStateM.Result ε σ (Option α)) : Guarded ε σ α :=
  OptionT.mk step

/-- A check of the guarded step fails on the way from a state. -/
def Faults (guarded : Guarded ε σ α) (state : σ) : Prop :=
  ∃ after, guarded.run state = .ok none after

/-- From a state on no check fails, and the guarded step does what the step does. -/
def Passes (guarded : Guarded ε σ α) (step : EStateM ε σ α) (state : σ) : Prop :=
  guarded.run state = (some <$> step) state

@[simp] theorem run_of (step : σ → EStateM.Result ε σ (Option α)) (state : σ) :
    (of step).run state = step state :=
  rfl

theorem run_lift (step : EStateM ε σ α) : (lift step).run = some <$> step := by
  rw [map_eq_pure_bind]
  rfl

section Results

variable {step : EStateM ε σ α} {state after : σ}

theorem map_of_ok {value : α} (h : step state = .ok value after) (f : α → κ) :
    (f <$> step) state = .ok (f value) after := by
  change EStateM.map f step state = _
  rw [EStateM.map, h]

theorem map_of_error {cause : ε} (h : step state = .error cause after) (f : α → κ) :
    (f <$> step) state = .error cause after := by
  change EStateM.map f step state = _
  rw [EStateM.map, h]

variable {guarded : Guarded ε σ α} {f : α → Guarded ε σ κ}

theorem run_bind_of_ok {value : α} (h : guarded.run state = .ok (some value) after) :
    (guarded >>= f).run state = (f value).run after :=
  bind_of_ok h _

theorem run_bind_of_error {cause : ε} (h : guarded.run state = .error cause after) :
    (guarded >>= f).run state = .error cause after :=
  bind_of_error h _

end Results

namespace Passes

variable {guarded : Guarded ε σ α} {step : EStateM ε σ α} {state after : σ}

theorem ok (h : Passes guarded step state) {value : α} (hstep : step state = .ok value after) :
    guarded.run state = .ok (some value) after := by
  rw [h, map_of_ok hstep]

theorem error (h : Passes guarded step state) {cause : ε}
    (hstep : step state = .error cause after) : guarded.run state = .error cause after := by
  rw [h, map_of_error hstep]

theorem of_ok {value : α} (hguarded : guarded.run state = .ok (some value) after)
    (hstep : step state = .ok value after) : Passes guarded step state := by
  rw [Passes, hguarded, map_of_ok hstep]

theorem of_error {cause : ε} (hguarded : guarded.run state = .error cause after)
    (hstep : step state = .error cause after) : Passes guarded step state := by
  rw [Passes, hguarded, map_of_error hstep]

/-- Where a step passes no check fails. -/
theorem not_faults (h : Passes guarded step state) : ¬ guarded.Faults state := by
  rintro ⟨after, hfault⟩
  cases hstep : step state with
  | ok value between =>
    rw [h.ok hstep] at hfault
    cases hfault
  | error cause between =>
    rw [h.error hstep] at hfault
    cases hfault

/-- Two that go on as others do pass where those do. -/
theorem resume (h : Passes guarded step state) {guarded' : Guarded ε σ α} {step' : EStateM ε σ α}
    {state' : σ} (hguarded : guarded'.run state' = guarded.run state)
    (hstep : step' state' = step state) : Passes guarded' step' state' := by
  cases hresult : step state with
  | ok value after => exact .of_ok (hguarded.trans (h.ok hresult)) (hstep.trans hresult)
  | error cause after =>
    exact .of_error (hguarded.trans (h.error hresult)) (hstep.trans hresult)

protected theorem lift (step : EStateM ε σ α) (state : σ) : Passes (lift step) step state :=
  congrFun (run_lift step) state

protected theorem pure (value : α) (state : σ) :
    Passes (Pure.pure value : Guarded ε σ α) (Pure.pure value) state :=
  rfl

/-- What follows a step has to pass after the runs of it that succeed. -/
theorem bind (hfirst : Passes guarded step state) {rest : α → Guarded ε σ κ}
    {rest' : α → EStateM ε σ κ}
    (hrest : ∀ value after, step state = .ok value after →
      Passes (rest value) (rest' value) after) :
    Passes (guarded >>= rest) (step >>= rest') state := by
  cases hstep : step state with
  | error cause after =>
    exact .of_error (run_bind_of_error (hfirst.error hstep)) (bind_of_error hstep _)
  | ok value after =>
    exact (hrest value after hstep).resume (run_bind_of_ok (hfirst.ok hstep)) (bind_of_ok hstep _)

/-- A check that succeeds is as good as none. -/
theorem demand {result : Option κ} {value : κ} (hresult : result = some value)
    {rest : κ → Guarded ε σ α} (hrest : Passes (rest value) step state) :
    Passes (Guarded.demand result >>= rest) step state := by
  rw [hresult]
  exact hrest

theorem ite {c : Prop} [Decidable c] {guarded' : Guarded ε σ α} {step' : EStateM ε σ α}
    (hthen : c → Passes guarded step state) (helse : ¬ c → Passes guarded' step' state) :
    Passes (if c then guarded else guarded') (if c then step else step') state := by
  split
  case isTrue h => exact hthen h
  case isFalse h => exact helse h

end Passes

end Guarded

end NorFlash
