import NorFlash.Proofs.WriteCycle

/-!
What a wait by polling does to its target. Checks and delays take turns up to the first check that
holds or fails, or until the budget is spent; the same wait over a target that notes these calls
tells which ones were made.
-/
namespace NorFlash.Poll

/-- What a wait does to its target. -/
inductive Call where
  | check
  | delay (microseconds : UInt32)
  deriving DecidableEq, Repr

/-- This many checks, each followed by its delay. -/
def rounds (interval : UInt32) (checks : Nat) : List Call :=
  (List.replicate checks [.check, .delay interval]).flatten

theorem rounds_succ (interval : UInt32) (checks : Nat) :
    rounds interval (checks + 1) = .check :: .delay interval :: rounds interval checks := by
  simp [rounds, List.replicate_succ]

section Target

variable {σ : Type}

/-- The target after a call. A check may change it, whatever it answers. -/
def Call.after (ready : EStateM Error σ Bool) (wait : UInt32 → σ → σ) : Call → σ → σ
  | check, s => stateAfter (ready s)
  | delay microseconds, s => wait microseconds s

/-- The target after calls that are made in this order. -/
def afterCalls (ready : EStateM Error σ Bool) (wait : UInt32 → σ → σ) (calls : List Call) (s : σ) :
    σ :=
  calls.foldl (fun s call => call.after ready wait s) s

/-- What check number `check` answers, counted from one, if those before it did not end the wait. -/
def answerAt (ready : EStateM Error σ Bool) (wait : UInt32 → σ → σ) (interval : UInt32) (s : σ)
    (check : Nat) : Except Error Bool :=
  answerOf (ready (afterCalls ready wait (rounds interval (check - 1)) s))

variable (budget : Budget) (ready : EStateM Error σ Bool) (wait : UInt32 → σ → σ) (s : σ)

/-- This is the first check of the budget that holds or fails. -/
structure Decides (check : Nat) : Prop where
  pos : 1 ≤ check
  within : check ≤ budget.attempts
  undecided : ∀ earlier, 1 ≤ earlier → earlier < check →
    answerAt ready wait budget.interval s earlier = .ok false
  decided : answerAt ready wait budget.interval s check ≠ .ok false

/-- The least check that does not let the wait go on decides it. -/
theorem undecided_of_not_decides (h : ∀ check, ¬ Decides budget ready wait s check) (check : Nat)
    (hpos : 1 ≤ check) (hwithin : check ≤ budget.attempts) :
    answerAt ready wait budget.interval s check = .ok false := by
  induction check using Nat.strongRecOn with
  | _ check ih =>
    refine Classical.byContradiction fun hdecided => h check ⟨hpos, hwithin, ?_, hdecided⟩
    exact fun earlier hearlier hlt => ih earlier hlt hearlier (by omega)

section Rounds

variable {ready wait s}

theorem result_of_answerOf {value : Bool} (h : answerOf (ready s) = .ok value) :
    ready s = .ok value (stateAfter (ready s)) := by
  cases hready : ready s with
  | ok value' s' =>
    rw [hready] at h
    cases h
    rfl
  | error cause s' =>
    rw [hready] at h
    cases h

theorem result_of_answerOf_error {cause : Error} (h : answerOf (ready s) = .error cause) :
    ready s = .error cause (stateAfter (ready s)) := by
  cases hready : ready s with
  | ok value s' =>
    rw [hready] at h
    cases h
  | error cause' s' =>
    rw [hready] at h
    cases h
    rfl

/-- The wait after this many checks that let it go on. -/
theorem untilReadyFrom_of_undecided (interval : UInt32) (checks attempts check : Nat)
    (h : ∀ earlier, 1 ≤ earlier → earlier ≤ checks →
      answerAt ready wait interval s earlier = .ok false) :
    untilReadyFrom interval ready wait (checks + attempts) check s =
      untilReadyFrom interval ready wait attempts (check + checks)
        (afterCalls ready wait (rounds interval checks) s) := by
  induction checks generalizing check s with
  | zero => rw [Nat.zero_add]; rfl
  | succ checks ih =>
    have hfirst : ready s = .ok false (stateAfter (ready s)) :=
      result_of_answerOf (h 1 (Nat.le_refl 1) (by omega))
    have hrest := @ih (wait interval (stateAfter (ready s))) (check + 1) fun earlier hpos hle => by
      obtain ⟨earlier, rfl⟩ := Nat.exists_eq_add_of_le' hpos
      exact h (earlier + 1 + 1) (by omega) (by omega)
    rw [Nat.succ_add, untilReadyFrom_succ, hfirst]
    dsimp only
    rw [hrest, rounds_succ, Nat.add_assoc, Nat.add_comm 1]
    rfl

/-- A wait that goes on through all its checks runs out. -/
theorem untilReady_of_undecided {budget : Budget}
    (h : ∀ check, 1 ≤ check → check ≤ budget.attempts →
      answerAt ready wait budget.interval s check = .ok false) :
    untilReady budget ready wait s =
      .ok .exhausted (afterCalls ready wait (rounds budget.interval budget.attempts) s) :=
  untilReadyFrom_of_undecided budget.interval budget.attempts 0 0 h

/-- The check that decides a wait is the last call of it. -/
theorem Decides.untilReady_eq {budget : Budget} {check : Nat}
    (h : Decides budget ready wait s check) :
    untilReady budget ready wait s =
      match ready (afterCalls ready wait (rounds budget.interval (check - 1)) s) with
      | .error cause s => .error cause s
      | .ok _ s => .ok (.ready check) s := by
  obtain ⟨before, rfl⟩ := Nat.exists_eq_add_of_le' h.pos
  obtain ⟨left, hleft⟩ := Nat.exists_eq_add_of_le h.within
  have hundecided : ∀ earlier, 1 ≤ earlier → earlier ≤ before →
      answerAt ready wait budget.interval s earlier = .ok false :=
    fun earlier hpos hle => h.undecided earlier hpos (by omega)
  have hrest := untilReadyFrom_of_undecided budget.interval before (left + 1) 0 hundecided
  have hattempts : budget.attempts = before + (left + 1) := by omega
  have hdecided := h.decided
  rw [answerAt, Nat.add_sub_cancel] at hdecided
  rw [untilReady, hattempts, hrest, untilReadyFrom_succ, Nat.zero_add, Nat.add_sub_cancel]
  generalize ready (afterCalls ready wait (rounds budget.interval before) s) = r at hdecided ⊢
  cases r with
  | error cause s' => rfl
  | ok value s' =>
    cases value with
    | true => rfl
    | false => exact absurd rfl hdecided

end Rounds

/-- A target with the calls made on it so far. -/
structure Noted (σ : Type) where
  target : σ
  calls : List Call

/-- The check, noted. -/
def noteCheck (ready : EStateM Error σ Bool) : EStateM Error (Noted σ) Bool
  | ⟨s, calls⟩ =>
    match ready s with
    | .ok value s => .ok value ⟨s, calls ++ [.check]⟩
    | .error cause s => .error cause ⟨s, calls ++ [.check]⟩

/-- The delay, noted. -/
def noteDelay (wait : UInt32 → σ → σ) (microseconds : UInt32) : Noted σ → Noted σ
  | ⟨s, calls⟩ => ⟨wait microseconds s, calls ++ [.delay microseconds]⟩

/-- The calls that a wait makes, in their order and whatever its result. -/
def callsOf (budget : Budget) (ready : EStateM Error σ Bool) (wait : UInt32 → σ → σ) (s : σ) :
    List Call :=
  (stateAfter (untilReady budget (noteCheck ready) (noteDelay wait) ⟨s, []⟩)).calls

section Noting

variable {ready wait}

theorem answerOf_noteCheck (s : σ) (calls : List Call) :
    answerOf (noteCheck ready ⟨s, calls⟩) = answerOf (ready s) := by
  unfold noteCheck
  dsimp only
  cases ready s <;> rfl

theorem stateAfter_noteCheck (s : σ) (calls : List Call) :
    stateAfter (noteCheck ready ⟨s, calls⟩) = ⟨stateAfter (ready s), calls ++ [.check]⟩ := by
  unfold noteCheck
  dsimp only
  cases ready s <;> rfl

/-- Each call is noted, and does what it does without the note. -/
theorem afterCalls_noted (calls before : List Call) (s : σ) :
    afterCalls (noteCheck ready) (noteDelay wait) calls ⟨s, before⟩ =
      ⟨afterCalls ready wait calls s, before ++ calls⟩ := by
  induction calls generalizing s before with
  | nil => rw [List.append_nil]; rfl
  | cons call calls ih =>
    have hcall : call.after (noteCheck ready) (noteDelay wait) ⟨s, before⟩ =
        ⟨call.after ready wait s, before ++ [call]⟩ := by
      cases call with
      | check => exact stateAfter_noteCheck s before
      | delay microseconds => rfl
    have hrest := ih (before ++ [call]) (call.after ready wait s)
    rw [List.append_assoc] at hrest
    rw [← hcall] at hrest
    exact hrest

theorem answerAt_noted (interval : UInt32) (check : Nat) (s : σ) (before : List Call) :
    answerAt (noteCheck ready) (noteDelay wait) interval ⟨s, before⟩ check =
      answerAt ready wait interval s check := by
  rw [answerAt, afterCalls_noted, answerOf_noteCheck, answerAt]

theorem Decides.noted {budget : Budget} {check : Nat} (h : Decides budget ready wait s check)
    (before : List Call) :
    Decides budget (noteCheck ready) (noteDelay wait) ⟨s, before⟩ check where
  pos := h.pos
  within := h.within
  undecided earlier hpos hlt := by
    rw [answerAt_noted]
    exact h.undecided earlier hpos hlt
  decided := by
    rw [answerAt_noted]
    exact h.decided

theorem Decides.callsOf_eq {budget : Budget} {check : Nat}
    (h : Decides budget ready wait s check) :
    callsOf budget ready wait s = rounds budget.interval (check - 1) ++ [.check] := by
  have hrun := (h.noted s []).untilReady_eq
  rw [afterCalls_noted, List.nil_append] at hrun
  rw [callsOf, hrun, noteCheck]
  cases ready (afterCalls ready wait (rounds budget.interval (check - 1)) s) <;> rfl

theorem callsOf_of_undecided {budget : Budget}
    (h : ∀ check, 1 ≤ check → check ≤ budget.attempts →
      answerAt ready wait budget.interval s check = .ok false) :
    callsOf budget ready wait s = rounds budget.interval budget.attempts := by
  have hnoted : ∀ check, 1 ≤ check → check ≤ budget.attempts →
      answerAt (noteCheck ready) (noteDelay wait) budget.interval ⟨s, []⟩ check = .ok false := by
    intro check hpos hwithin
    rw [answerAt_noted]
    exact h check hpos hwithin
  have hrun := untilReady_of_undecided hnoted
  rw [callsOf, hrun, afterCalls_noted, stateAfter, List.nil_append]

end Noting

theorem afterCalls_append (calls more : List Call) :
    afterCalls ready wait (calls ++ more) s =
      afterCalls ready wait more (afterCalls ready wait calls s) :=
  List.foldl_append

/-- A wait spends its budget exactly. With a check that is the first to hold or to fail, this is
its last call: the checks before it have all had their delays, and the wait ends with its number or
with its failure. Without one, every check of the budget is made and followed by its delay, and the
wait runs out. The target is left as these calls leave it. -/
theorem untilReady_spends_budget :
    (∀ check, Decides budget ready wait s check →
      callsOf budget ready wait s = rounds budget.interval (check - 1) ++ [.check] ∧
      (answerAt ready wait budget.interval s check = .ok true →
        answerOf (untilReady budget ready wait s) = .ok (.ready check)) ∧
      ∀ cause, answerAt ready wait budget.interval s check = .error cause →
        answerOf (untilReady budget ready wait s) = .error cause) ∧
    ((∀ check, ¬ Decides budget ready wait s check) →
      callsOf budget ready wait s = rounds budget.interval budget.attempts ∧
      answerOf (untilReady budget ready wait s) = .ok .exhausted) ∧
    stateAfter (untilReady budget ready wait s) =
      afterCalls ready wait (callsOf budget ready wait s) s := by
  refine ⟨fun check h => ⟨h.callsOf_eq, fun hready => ?_, fun cause hfailed => ?_⟩, fun h => ?_, ?_⟩
  · rw [h.untilReady_eq, result_of_answerOf hready]
    rfl
  · rw [h.untilReady_eq, result_of_answerOf_error hfailed]
    rfl
  · have hundecided := undecided_of_not_decides budget ready wait s h
    rw [untilReady_of_undecided hundecided]
    exact ⟨callsOf_of_undecided s hundecided, rfl⟩
  · by_cases h : ∃ check, Decides budget ready wait s check
    · obtain ⟨check, h⟩ := h
      rw [h.callsOf_eq, h.untilReady_eq, afterCalls_append]
      change _ = stateAfter (ready (afterCalls ready wait (rounds budget.interval (check - 1)) s))
      cases ready (afterCalls ready wait (rounds budget.interval (check - 1)) s) <;> rfl
    · have hundecided := undecided_of_not_decides budget ready wait s (not_exists.mp h)
      rw [untilReady_of_undecided hundecided, callsOf_of_undecided s hundecided]
      rfl

end Target

/-- A check that counts the checks made and holds from the third on. -/
def thirdHolds : EStateM Error (Nat × Nat) Bool
  | (checks, waited) => .ok (3 ≤ checks + 1) (checks + 1, waited)

/-- A delay that adds up. -/
def waitLonger (microseconds : UInt32) : Nat × Nat → Nat × Nat
  | (checks, waited) => (checks, waited + microseconds.toNat)

/-- A budget of five checks is left at the third, and one of two checks runs out. -/
theorem untilReady_spends_budget_thirdHolds :
    Decides ⟨5, 100⟩ thirdHolds waitLonger (0, 0) 3 ∧
    callsOf ⟨5, 100⟩ thirdHolds waitLonger (0, 0) =
      [.check, .delay 100, .check, .delay 100, .check] ∧
    answerOf (untilReady ⟨5, 100⟩ thirdHolds waitLonger (0, 0)) = .ok (.ready 3) ∧
    stateAfter (untilReady ⟨5, 100⟩ thirdHolds waitLonger (0, 0)) = (3, 200) ∧
    (∀ check, ¬ Decides ⟨2, 100⟩ thirdHolds waitLonger (0, 0) check) ∧
    callsOf ⟨2, 100⟩ thirdHolds waitLonger (0, 0) =
      [.check, .delay 100, .check, .delay 100] ∧
    answerOf (untilReady ⟨2, 100⟩ thirdHolds waitLonger (0, 0)) = .ok .exhausted := by
  have hthird : Decides ⟨5, 100⟩ thirdHolds waitLonger (0, 0) 3 := by
    refine ⟨by decide, by decide, fun earlier hpos hlt => ?_, nofun⟩
    obtain rfl | rfl : earlier = 1 ∨ earlier = 2 := by omega
    · rfl
    · rfl
  have hnone (check : Nat) : ¬ Decides ⟨2, 100⟩ thirdHolds waitLonger (0, 0) check := by
    rintro ⟨hpos, hwithin, -, hdecided⟩
    have hle : check ≤ 2 := hwithin
    obtain rfl | rfl : check = 1 ∨ check = 2 := by omega
    · exact hdecided rfl
    · exact hdecided rfl
  obtain ⟨hdecides, -, hfinal⟩ :=
    untilReady_spends_budget ⟨5, 100⟩ thirdHolds waitLonger (0, 0)
  obtain ⟨-, hexhausts, -⟩ := untilReady_spends_budget ⟨2, 100⟩ thirdHolds waitLonger (0, 0)
  obtain ⟨hcalls, hready, -⟩ := hdecides 3 hthird
  rw [hcalls] at hfinal
  exact ⟨hthird, hcalls, hready rfl, hfinal, hnone, hexhausts hnone⟩

end NorFlash.Poll
