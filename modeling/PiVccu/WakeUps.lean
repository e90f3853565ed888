import PiVccu.Transition

/-!
Sleepers on wait queues. A waiter falls asleep while its condition is not met and is then in
some queues. A change of the state leaves wake-ups behind that are made later, and a wake-up
wakes everybody in its queue.
-/

namespace PiVccu.WakeUps
open Transition

/-- What the changes of a state do, with the queues they wake, where a waiter waits for which
condition, and in which states it is at its wait at all. -/
structure System (State Change Waiter Queue : Type) where
  change : State → Change → Option (State × List Queue)
  queues : Waiter → List Queue
  condition : Waiter → State → Bool
  present : Waiter → State → Bool

/-- A sleeper's entry is `true` when it has been woken. -/
structure Scene (State Waiter Queue : Type) where
  state : State
  sleepers : List (Waiter × Bool)
  due : List Queue

inductive Act (Change Waiter Queue : Type) where
  | change (change : Change)
  | wake (queue : Queue)
  | sleep (waiter : Waiter)
  | leave (index : Nat)

variable {State Change Waiter Queue : Type} [DecidableEq Queue]

def wakeAll (system : System State Change Waiter Queue) (queue : Queue)
    (sleepers : List (Waiter × Bool)) : List (Waiter × Bool) :=
  sleepers.map fun entry => (entry.1, entry.2 || decide (queue ∈ system.queues entry.1))

/-- A sleeper may leave at any time: it was woken, or a signal came. Whoever a change takes
away from its wait leaves with it. -/
def step (system : System State Change Waiter Queue) (scene : Scene State Waiter Queue) :
    Act Change Waiter Queue → Option (Scene State Waiter Queue)
  | .change change => (system.change scene.state change).map fun result =>
      { state := result.1
        sleepers := scene.sleepers.filter fun entry => system.present entry.1 result.1
        due := scene.due ++ result.2 }
  | .wake queue =>
      if queue ∈ scene.due then
        some { scene with
          sleepers := wakeAll system queue scene.sleepers, due := scene.due.erase queue }
      else none
  | .sleep waiter =>
      if system.present waiter scene.state && !system.condition waiter scene.state then
        some { scene with sleepers := (waiter, false) :: scene.sleepers }
      else none
  | .leave index =>
      if index < scene.sleepers.length then
        some { scene with sleepers := scene.sleepers.eraseIdx index }
      else none

variable {system : System State Change Waiter Queue} {scene next : Scene State Waiter Queue}

def Waits (system : System State Change Waiter Queue) (scene : Scene State Waiter Queue)
    (waiter : Waiter) : Prop :=
  (waiter, false) ∈ scene.sleepers ∧ ∀ queue ∈ system.queues waiter, queue ∉ scene.due

def AttendedTo (system : System State Change Waiter Queue) (waiter : Waiter)
    (scene : Scene State Waiter Queue) : Prop :=
  Waits system scene waiter → system.condition waiter scene.state = false

def Attended (system : System State Change Waiter Queue) (scene : Scene State Waiter Queue) :
    Prop :=
  ∀ waiter, AttendedTo system waiter scene

def Settled (system : System State Change Waiter Queue) (scene : Scene State Waiter Queue) :
    Prop :=
  ∀ entry ∈ scene.sleepers, system.present entry.1 scene.state = true

/-- A change meets the condition of a waiter and wakes none of its queues. -/
def Overlooks (system : System State Change Waiter Queue) (scene : Scene State Waiter Queue)
    (waiter : Waiter) : Act Change Waiter Queue → Prop
  | .change change => ∃ after wakes, system.change scene.state change = some (after, wakes) ∧
      Waits system scene waiter ∧ system.present waiter after = true ∧
      system.condition waiter after = true ∧ ∀ queue ∈ system.queues waiter, queue ∉ wakes
  | _ => False

omit [DecidableEq Queue] in
theorem mem_present {sleepers : List (Waiter × Bool)} {after : State} {entry : Waiter × Bool} :
    entry ∈ sleepers.filter (fun entry => system.present entry.1 after) ↔
      entry ∈ sleepers ∧ system.present entry.1 after = true := List.mem_filter

theorem attended_change {waiter : Waiter} {change : Change}
    (taken : step system scene (.change change) = some next) :
    AttendedTo system waiter next ↔ ¬ Overlooks system scene waiter (.change change) := by
  obtain ⟨⟨after, wakes⟩, changed, rfl⟩ := Option.map_eq_some_iff.mp taken
  constructor
  · rintro attended ⟨after', wakes', changed', waits, stays, met, apart⟩
    cases changed.symm.trans changed'
    have unmet : system.condition waiter after = false := by
      apply attended
      refine ⟨mem_present.mpr ⟨waits.1, stays⟩, ?_⟩
      intro queue member due
      rcases List.mem_append.mp due with before | new
      · exact waits.2 queue member before
      · exact apart queue member new
    rw [met] at unmet
    cases unmet
  · intro overlooked waits
    by_contra met
    obtain ⟨asleep, stays⟩ := mem_present.mp waits.1
    refine overlooked ⟨after, wakes, changed, ⟨asleep, ?_⟩, stays, ?_, ?_⟩
    · intro queue member due
      exact waits.2 queue member (List.mem_append_left _ due)
    · exact Bool.not_eq_false _ ▸ met
    · intro queue member new
      exact waits.2 queue member (List.mem_append_right _ new)

theorem waits_wake {queue : Queue} {waiter : Waiter}
    (waits : Waits system { scene with
      sleepers := wakeAll system queue scene.sleepers, due := scene.due.erase queue } waiter) :
    Waits system scene waiter := by
  obtain ⟨entry, asleep, same⟩ := List.mem_map.mp waits.1
  obtain ⟨rfl, unwoken⟩ := Prod.mk.inj same
  simp only [Bool.or_eq_false_iff, decide_eq_false_iff_not] at unwoken
  have shape : entry = (entry.1, false) := Prod.ext rfl unwoken.1
  refine ⟨shape ▸ asleep, ?_⟩
  intro other member due
  have apart : other ≠ queue := by
    rintro rfl
    exact unwoken.2 member
  exact waits.2 other member ((List.mem_erase_of_ne apart).mpr due)

theorem attendedTo_step_iff {waiter : Waiter} {act : Act Change Waiter Queue}
    (attended : AttendedTo system waiter scene) (taken : step system scene act = some next) :
    AttendedTo system waiter next ↔ ¬ Overlooks system scene waiter act := by
  cases act with
  | change change => exact attended_change taken
  | wake queue =>
      refine iff_of_true ?_ id
      rw [step] at taken
      split at taken
      · cases taken
        intro waits
        exact attended (waits_wake waits)
      · cases taken
  | sleep other =>
      refine iff_of_true ?_ id
      rw [step] at taken
      split at taken
      · rename_i allowed
        cases taken
        intro waits
        rcases List.mem_cons.mp waits.1 with same | before
        · cases same
          simpa using (Bool.and_eq_true_iff.mp allowed).2
        · exact attended ⟨before, waits.2⟩
      · cases taken
  | leave index =>
      refine iff_of_true ?_ id
      rw [step] at taken
      split at taken
      · cases taken
        intro waits
        exact attended ⟨List.mem_of_mem_eraseIdx waits.1, waits.2⟩
      · cases taken

theorem attended_step_iff {act : Act Change Waiter Queue} (attended : Attended system scene)
    (taken : step system scene act = some next) :
    Attended system next ↔ ¬ ∃ waiter, Overlooks system scene waiter act := by
  rw [not_exists]
  exact forall_congr' fun waiter => attendedTo_step_iff (attended waiter) taken

theorem settled_step {act : Act Change Waiter Queue} (settled : Settled system scene)
    (taken : step system scene act = some next) : Settled system next := by
  cases act with
  | change change =>
      obtain ⟨⟨after, wakes⟩, changed, rfl⟩ := Option.map_eq_some_iff.mp taken
      intro entry member
      exact (mem_present.mp member).2
  | wake queue =>
      rw [step] at taken
      split at taken
      · cases taken
        intro entry member
        obtain ⟨before, asleep, rfl⟩ := List.mem_map.mp member
        exact settled before asleep
      · cases taken
  | sleep waiter =>
      rw [step] at taken
      split at taken
      · rename_i allowed
        cases taken
        intro entry member
        rcases List.mem_cons.mp member with rfl | before
        · exact (Bool.and_eq_true_iff.mp allowed).1
        · exact settled entry before
      · cases taken
  | leave index =>
      rw [step] at taken
      split at taken
      · cases taken
        intro entry member
        exact settled entry (List.mem_of_mem_eraseIdx member)
      · cases taken

theorem state_step (valid : State → Prop) {act : Act Change Waiter Queue}
    (sound : ∀ change after wakes, act = .change change →
      system.change scene.state change = some (after, wakes) → valid after)
    (formed : valid scene.state) (taken : step system scene act = some next) :
    valid next.state := by
  cases act with
  | change change =>
      obtain ⟨⟨after, wakes⟩, changed, rfl⟩ := Option.map_eq_some_iff.mp taken
      exact sound change after wakes rfl changed
  | wake queue | sleep waiter | leave index =>
      rw [step] at taken
      split at taken
      all_goals cases taken
      exact formed

/-- Where an invariant of the state says which changes overlook a waiter, everybody is
attended throughout a run exactly if it has no such change. -/
theorem attended_throughout_iff {valid : State → Prop}
    {forsakes : Scene State Waiter Queue → Act Change Waiter Queue → Prop}
    (sound : ∀ state change after wakes, valid state →
      system.change state change = some (after, wakes) → valid after)
    (exactly : ∀ scene act next, valid scene.state → Settled system scene →
      Attended system scene → step system scene act = some next →
      ((∃ waiter, Overlooks system scene waiter act) ↔ forsakes scene act))
    (acts : List (Act Change Waiter Queue)) {final : Scene State Waiter Queue}
    (formed : valid scene.state) (settled : Settled system scene) (base : Attended system scene)
    (ran : runAll (step system) scene acts = some final) :
    Throughout (step system) (Attended system) scene acts ↔
      Meets (step system) (fun scene act => ¬ forsakes scene act) scene acts := by
  have kept : ∀ (scene : Scene State Waiter Queue) act next,
      valid scene.state ∧ Settled system scene → step system scene act = some next →
      valid next.state ∧ Settled system next := by
    rintro scene act next ⟨formed, settled⟩ taken
    refine ⟨state_step valid ?_ formed taken, settled_step settled taken⟩
    intro change after wakes _ changed
    exact sound scene.state change after wakes formed changed
  refine throughout_iff_meets kept ?_ acts ⟨formed, settled⟩ base ran
  rintro scene act next ⟨formed, settled⟩ attended taken
  rw [attended_step_iff attended taken, exactly scene act next formed settled attended taken]

end PiVccu.WakeUps
