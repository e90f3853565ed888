import Mathlib.Data.List.Basic

/-!
Transition systems given by a partial step function on labels. A run is
restricted by a condition on the state before each step and its label, so one
notion covers all runs, the runs without some events and the runs that avoid a
step in some states.
-/

namespace PiVccu.Transition

variable {State Label : Type}

/-- The states of the runs from `start` all of whose steps satisfy `admitted`. -/
inductive Reachable (step : State → Label → Option State) (admitted : State → Label → Prop)
    (start : State → Prop) : State → Prop where
  | start {state : State} (initial : start state) : Reachable step admitted start state
  | next {before after : State} (label : Label) (reached : Reachable step admitted start before)
      (allowed : admitted before label) (taken : step before label = some after) :
      Reachable step admitted start after

variable {step : State → Label → Option State} {admitted : State → Label → Prop}
  {start : State → Prop}

/-- What holds initially and is kept by every admitted step holds in every state
of an admitted run. -/
theorem Reachable.invariant {holds : State → Prop} (base : ∀ state, start state → holds state)
    (kept : ∀ before label after, holds before → admitted before label →
      step before label = some after → holds after)
    {state : State} (reached : Reachable step admitted start state) : holds state := by
  induction reached with
  | start initial => exact base _ initial
  | next label _ allowed taken ih => exact kept _ label _ ih allowed taken

/-- The state after a list of labels, if every one of them passes the guard and
can be taken. -/
def run (step : State → Label → Option State) (guard : State → Label → Bool) :
    State → List Label → Option State
  | state, [] => some state
  | state, label :: rest =>
      if guard state label then (step state label).bind fun next => run step guard next rest
      else none

theorem run_reachable {guard : State → Label → Bool}
    (sound : ∀ state label, guard state label = true → admitted state label) (labels : List Label)
    {before after : State} (reached : Reachable step admitted start before)
    (taken : run step guard before labels = some after) :
    Reachable step admitted start after := by
  induction labels generalizing before with
  | nil =>
      cases taken
      exact reached
  | cons label rest ih =>
      rw [run] at taken
      split at taken
      · rename_i passed
        obtain ⟨middle, one, others⟩ := Option.bind_eq_some_iff.mp taken
        exact ih (.next label reached (sound before label passed) one) others
      · cases taken

/-- Every step of the run with these labels satisfies `admitted`, as far as the
run goes. -/
def Meets (step : State → Label → Option State) (admitted : State → Label → Prop) :
    State → List Label → Prop
  | _, [] => True
  | state, label :: rest =>
      admitted state label ∧
        ∀ next, step state label = some next → Meets step admitted next rest

theorem meets_of_forall {labels : List Label}
    (all : ∀ state, ∀ label ∈ labels, admitted state label) (state : State) :
    Meets step admitted state labels := by
  induction labels generalizing state with
  | nil => trivial
  | cons label rest ih =>
      refine ⟨all state label List.mem_cons_self, fun next _ => ih ?_ next⟩
      exact fun state other member => all state other (List.mem_cons_of_mem _ member)

def runAll (step : State → Label → Option State) : State → List Label → Option State :=
  run step fun _ _ => true

@[simp] theorem runAll_nil (state : State) : runAll step state [] = some state := rfl

@[simp] theorem runAll_cons (state : State) (label : Label) (rest : List Label) :
    runAll step state (label :: rest) =
      (step state label).bind fun next => runAll step next rest := rfl

theorem runAll_append (state : State) (front back : List Label) :
    runAll step state (front ++ back) =
      (runAll step state front).bind fun middle => runAll step middle back := by
  induction front generalizing state with
  | nil => rfl
  | cons label rest ih =>
      rw [List.cons_append, runAll_cons, runAll_cons]
      cases step state label with
      | none => rfl
      | some next => exact ih next

theorem Meets.behind {state middle : State} {front back : List Label}
    (meets : Meets step admitted state (front ++ back))
    (ran : runAll step state front = some middle) : Meets step admitted middle back := by
  induction front generalizing state with
  | nil =>
      cases ran
      exact meets
  | cons label rest ih =>
      obtain ⟨next, one, others⟩ := Option.bind_eq_some_iff.mp ran
      exact ih (meets.2 next one) others

theorem runAll_kept {holds : State → Prop}
    (kept : ∀ state label next, holds state → step state label = some next → holds next)
    (labels : List Label) {state final : State} (valid : holds state)
    (ran : runAll step state labels = some final) : holds final := by
  induction labels generalizing state with
  | nil =>
      cases ran
      exact valid
  | cons label rest ih =>
      obtain ⟨next, one, others⟩ := Option.bind_eq_some_iff.mp ran
      exact ih (kept state label next valid one) others

/-- Where an invariant makes the admitted labels the ones that can be taken, a
run goes through exactly if all of its steps are admitted. -/
theorem runAll_iff_meets {holds : State → Prop}
    (taken : ∀ state label, holds state →
      ((∃ next, step state label = some next) ↔ admitted state label))
    (kept : ∀ state label next, holds state → step state label = some next → holds next)
    (labels : List Label) {state : State} (valid : holds state) :
    (∃ final, runAll step state labels = some final) ↔ Meets step admitted state labels := by
  induction labels generalizing state with
  | nil => exact iff_of_true ⟨state, rfl⟩ trivial
  | cons label rest ih =>
      rw [Meets, ← taken state label valid, runAll_cons]
      constructor
      · rintro ⟨final, ran⟩
        obtain ⟨next, one, others⟩ := Option.bind_eq_some_iff.mp ran
        refine ⟨⟨next, one⟩, ?_⟩
        intro other same
        cases one.symm.trans same
        exact (ih (kept state label next valid one)).mp ⟨final, others⟩
      · rintro ⟨⟨next, one⟩, later⟩
        rw [one]
        exact (ih (kept state label next valid one)).mpr (later next one)

def tally (step : State → Label → Option State) (weight : State → Label → State → Nat) :
    State → List Label → Nat
  | _, [] => 0
  | state, label :: rest =>
      match step state label with
      | none => 0
      | some next => weight state label next + tally step weight next rest

theorem tally_cons {weight : State → Label → State → Nat} {state next : State} {label : Label}
    (taken : step state label = some next) (rest : List Label) :
    tally step weight state (label :: rest) =
      weight state label next + tally step weight next rest := by
  rw [tally, taken]

theorem tally_append {weight : State → Label → State → Nat} {state middle : State}
    (front back : List Label) (ran : runAll step state front = some middle) :
    tally step weight state (front ++ back) =
      tally step weight state front + tally step weight middle back := by
  induction front generalizing state with
  | nil =>
      cases ran
      exact (Nat.zero_add _).symm
  | cons label rest ih =>
      obtain ⟨next, one, others⟩ := Option.bind_eq_some_iff.mp ran
      rw [List.cons_append, tally_cons one, tally_cons one, ih others, Nat.add_assoc]

/-- A measure that pays for the weight of every admitted step bounds the sum over
every admitted run. -/
theorem tally_le_measure {holds : State → Prop} {weight : State → Label → State → Nat}
    {measure : State → Nat}
    (kept : ∀ state label next, holds state → admitted state label →
      step state label = some next → holds next)
    (falls : ∀ state label next, holds state → admitted state label →
      step state label = some next → weight state label next + measure next ≤ measure state)
    (labels : List Label) {state final : State} (valid : holds state)
    (meets : Meets step admitted state labels) (ran : runAll step state labels = some final) :
    tally step weight state labels + measure final ≤ measure state := by
  induction labels generalizing state with
  | nil =>
      cases ran
      exact Nat.le_of_eq (Nat.zero_add _)
  | cons label rest ih =>
      obtain ⟨next, one, others⟩ := Option.bind_eq_some_iff.mp ran
      have here := falls state label next valid meets.1 one
      have there := ih (kept state label next valid meets.1 one) (meets.2 next one) others
      rw [tally_cons one]
      omega

theorem tally_eq_potential {holds : State → Prop} {weight : State → Label → State → Nat}
    {potential : State → Nat}
    (kept : ∀ state label next, holds state → admitted state label →
      step state label = some next → holds next)
    (rises : ∀ state label next, holds state → admitted state label →
      step state label = some next → potential state + weight state label next = potential next)
    (labels : List Label) {state final : State} (valid : holds state)
    (meets : Meets step admitted state labels) (ran : runAll step state labels = some final) :
    potential state + tally step weight state labels = potential final := by
  induction labels generalizing state with
  | nil =>
      cases ran
      rfl
  | cons label rest ih =>
      obtain ⟨next, one, others⟩ := Option.bind_eq_some_iff.mp ran
      have here := rises state label next valid meets.1 one
      have there := ih (kept state label next valid meets.1 one) (meets.2 next one) others
      rw [tally_cons one]
      omega

theorem runAll_admitted {holds : State → Prop}
    (kept : ∀ state label next, holds state → admitted state label →
      step state label = some next → holds next)
    (labels : List Label) {state final : State} (valid : holds state)
    (meets : Meets step admitted state labels) (ran : runAll step state labels = some final) :
    holds final := by
  induction labels generalizing state with
  | nil =>
      cases ran
      exact valid
  | cons label rest ih =>
      obtain ⟨next, one, others⟩ := Option.bind_eq_some_iff.mp ran
      exact ih (kept state label next valid meets.1 one) (meets.2 next one) others

/-- A measure that every admitted step lowers bounds the length of a run. -/
theorem runAll_bounded {holds : State → Prop} {measure : State → Nat}
    (kept : ∀ state label next, holds state → admitted state label →
      step state label = some next → holds next)
    (falls : ∀ state label next, holds state → admitted state label →
      step state label = some next → measure next < measure state)
    (labels : List Label) {state final : State} (valid : holds state)
    (meets : Meets step admitted state labels) (ran : runAll step state labels = some final) :
    labels.length + measure final ≤ measure state := by
  induction labels generalizing state with
  | nil =>
      cases ran
      exact Nat.le_of_eq (Nat.zero_add _)
  | cons label rest ih =>
      obtain ⟨next, one, others⟩ := Option.bind_eq_some_iff.mp ran
      have here := falls state label next valid meets.1 one
      have there := ih (kept state label next valid meets.1 one) (meets.2 next one) others
      rw [List.length_cons]
      omega

def Throughout (step : State → Label → Option State) (holds : State → Prop) :
    State → List Label → Prop
  | state, [] => holds state
  | state, label :: rest =>
      holds state ∧ ∀ next, step state label = some next → Throughout step holds next rest

theorem Throughout.here {holds : State → Prop} {state : State} {labels : List Label}
    (all : Throughout step holds state labels) : holds state := by
  cases labels with
  | nil => exact all
  | cons label rest => exact all.1

theorem Throughout.mono {holds weaker : State → Prop} (le : ∀ state, holds state → weaker state)
    {labels : List Label} {state : State} (all : Throughout step holds state labels) :
    Throughout step weaker state labels := by
  induction labels generalizing state with
  | nil => exact le state all
  | cons label rest ih => exact ⟨le state all.1, fun next taken => ih (all.2 next taken)⟩

theorem throughout_of_meets {holds : State → Prop}
    (kept : ∀ state label next, holds state → admitted state label →
      step state label = some next → holds next)
    (labels : List Label) {state : State} (valid : holds state)
    (meets : Meets step admitted state labels) : Throughout step holds state labels := by
  induction labels generalizing state with
  | nil => exact valid
  | cons label rest ih =>
      refine ⟨valid, ?_⟩
      intro next taken
      exact ih (kept state label next valid meets.1 taken) (meets.2 next taken)

/-- A property that a step keeps exactly if it is admitted holds throughout a run exactly if
all of its steps are admitted. -/
theorem throughout_iff_meets {valid holds : State → Prop}
    (sound : ∀ state label next, valid state → step state label = some next → valid next)
    (exactly : ∀ state label next, valid state → holds state → step state label = some next →
      (holds next ↔ admitted state label))
    (labels : List Label) {state final : State} (formed : valid state) (base : holds state)
    (ran : runAll step state labels = some final) :
    Throughout step holds state labels ↔ Meets step admitted state labels := by
  induction labels generalizing state with
  | nil => exact iff_of_true base trivial
  | cons label rest ih =>
      obtain ⟨next, one, others⟩ := Option.bind_eq_some_iff.mp ran
      have step := exactly state label next formed base one
      constructor
      · rintro ⟨-, later⟩
        have kept := (later next one).here
        refine ⟨step.mp kept, ?_⟩
        intro other same
        cases one.symm.trans same
        exact (ih (sound state label next formed one) kept others).mp (later next one)
      · rintro ⟨admitted, later⟩
        refine ⟨base, ?_⟩
        intro other same
        cases one.symm.trans same
        exact (ih (sound state label next formed one) (step.mpr admitted) others).mpr
          (later next one)

end PiVccu.Transition
