import Mathlib.Data.List.Basic

/-!
A loop that waits until a guard fails, with a condition of its own for falling
asleep, on a state that nobody else changes meanwhile. A condition that is met
lets the wait return at once and the guard is looked at again.
-/

namespace PiVccu

/-- The guard of the loop and the condition that its wait is called with. -/
structure WaitLoop (State : Type) where
  guard : State → Bool
  condition : State → Bool

namespace WaitLoop
variable {State Result : Type}

/-- At most `rounds` looks at the guard. `refused` is what a caller that must not
wait returns, `asleep` is a wait whose condition is not met and `behind` the code
behind the loop. -/
def run (loop : WaitLoop State) (refused : Option Result) (asleep : Result)
    (behind : State → Result) (state : State) : Nat → Option Result
  | 0 => none
  | rounds + 1 =>
      if loop.guard state then
        refused.or
          (if loop.condition state then loop.run refused asleep behind state rounds
          else some asleep)
      else some (behind state)

variable {loop : WaitLoop State} {refused : Option Result} {asleep : Result}
  {behind : State → Result} {state : State}

/-- A guard that holds while the condition is met: no number of rounds is enough. -/
theorem run_spins (holds : loop.guard state = true) (met : loop.condition state = true)
    (rounds : Nat) : loop.run none asleep behind state rounds = none := by
  induction rounds with
  | zero => rfl
  | succ rounds ih =>
      rw [run, if_pos holds, Option.none_or, if_pos met, ih]

theorem run_result {rounds : Nat} {result : Result}
    (left : loop.run refused asleep behind state rounds = some result) :
    result = if loop.guard state then refused.getD asleep else behind state := by
  induction rounds with
  | zero => cases left
  | succ rounds ih =>
      rw [run] at left
      by_cases holds : loop.guard state = true
      · rw [if_pos holds] at left ⊢
        cases refused with
        | some given =>
            cases left
            rfl
        | none =>
            by_cases met : loop.condition state = true
            · rw [Option.none_or, if_pos met, run_spins holds met] at left
              cases left
            · rw [Option.none_or, if_neg met] at left
              cases left
              rfl
      · rw [if_neg holds] at left ⊢
        cases left
        rfl

theorem run_ends_iff : (∃ rounds result, loop.run refused asleep behind state rounds = some result) ↔
    (refused = none → loop.condition state = true → loop.guard state = false) := by
  constructor
  · rintro ⟨rounds, result, left⟩ rfl met
    by_contra holds
    rw [run_spins (Bool.not_eq_false _ ▸ holds) met] at left
    cases left
  · intro ends
    by_cases holds : loop.guard state = true
    · cases refused with
      | some given => exact ⟨1, given, by rw [run, if_pos holds, Option.some_or]⟩
      | none =>
          have unmet : ¬ loop.condition state = true := by
            intro met
            rw [ends rfl met] at holds
            cases holds
          exact ⟨1, asleep, by rw [run, if_pos holds, Option.none_or, if_neg unmet]⟩
    · exact ⟨1, behind state, by rw [run, if_neg holds]⟩

end WaitLoop
end PiVccu
