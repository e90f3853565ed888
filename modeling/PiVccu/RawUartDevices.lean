import PiVccu.SlotTable
import PiVccu.Transition

/-!
The device numbers of `kernel/generic_raw_uart.c`. `generic_raw_uart_probe` takes a
free one from `active_devices` before it allocates and registers the instance,
`generic_raw_uart_remove` gives it back.
-/

namespace PiVccu.RawUartDevices
open SlotTable Transition

def maxDevices : Nat := 5
def enomem : Int := 12
def efault : Int := 14

/-- The outcomes of the calls that a probe makes: the errors of
`generic_raw_uart_probe_rtc_device`, `cdev_add` and `device_create`, which are 0 for
success, and whether `kzalloc` has returned memory. -/
structure ProbeOutcomes where
  rtc : Int
  allocated : Bool
  cdevAdd : Int
  deviceCreate : Int

structure Registry where
  activeDevices : List Bool
  instances : List Nat
  sized : activeDevices.length = maxDevices

theorem claim_length (slots : List Bool) : (claim slots).1.length = slots.length := by
  rcases claim_cases slots with ⟨full, -⟩ | ⟨index, found, -⟩
  · rw [full]
  · rw [found]
    exact List.length_set

namespace Registry

def claimed (registry : Registry) : Registry where
  activeDevices := (claim registry.activeDevices).1
  instances := registry.instances
  sized := (claim_length _).trans registry.sized

def devNo (registry : Registry) : Nat := (claim registry.activeDevices).2

/-- The failures behind the loop jump over one another's labels; none of these
touches `active_devices`. -/
def genericRawUartProbe (registry : Registry) (outcomes : ProbeOutcomes) :
    Registry × Except Int Nat :=
  if outcomes.rtc ≠ 0 then (registry, .error outcomes.rtc)
  else if registry.devNo ≥ maxDevices then (registry.claimed, .error (-efault))
  else if !outcomes.allocated then (registry.claimed, .error (-enomem))
  else if outcomes.cdevAdd ≠ 0 then (registry.claimed, .error outcomes.cdevAdd)
  else if outcomes.deviceCreate ≠ 0 then (registry.claimed, .error outcomes.deviceCreate)
  else
    ({ registry.claimed with instances := registry.instances ++ [registry.devNo] },
      .ok registry.devNo)

/-- The instance is named by its place in the list of the live ones. -/
def genericRawUartRemove (registry : Registry) (position : Nat) : Option Registry :=
  registry.instances[position]?.map fun devNumber =>
    { activeDevices := registry.activeDevices.set devNumber false
      instances := registry.instances.eraseIdx position
      sized := List.length_set.trans registry.sized }

end Registry

inductive Call where
  | probe (outcomes : ProbeOutcomes)
  | remove (position : Nat)

def step (registry : Registry) : Call → Option Registry
  | .probe outcomes => some (registry.genericRawUartProbe outcomes).1
  | .remove position => registry.genericRawUartRemove position

def loaded : Registry where
  activeDevices := List.replicate maxDevices false
  instances := []
  sized := List.length_replicate

/-- A probe that got a slot and fails behind it. -/
def Forgets (registry : Registry) : Call → Prop
  | .probe outcomes => outcomes.rtc = 0 ∧ false ∈ registry.activeDevices ∧
      (outcomes.allocated = false ∨ outcomes.cdevAdd ≠ 0 ∨ outcomes.deviceCreate ≠ 0)
  | .remove _ => False

def LacksSlot (registry : Registry) (outcomes : ProbeOutcomes) : Prop :=
  outcomes.rtc = 0 ∧ registry.devNo ≥ maxDevices

/-- The numbers in use are those of the live instances, and they are used up only
by five of these. -/
structure NumberLaw (registry : Registry) : Prop where
  active : ∀ index, registry.activeDevices[index]? = some true ↔ index ∈ registry.instances
  distinct : registry.instances.Nodup
  exhausted : ∀ outcomes, LacksSlot registry outcomes → registry.instances.length = maxDevices

theorem probe_cases (registry : Registry) (outcomes : ProbeOutcomes) :
    ((registry.genericRawUartProbe outcomes).1 = registry ∧ ¬ Forgets registry (.probe outcomes)) ∨
    ∃ index, registry.activeDevices[index]? = some false ∧
      (registry.genericRawUartProbe outcomes).1.activeDevices =
        registry.activeDevices.set index true ∧
      (Forgets registry (.probe outcomes) ∧
          (registry.genericRawUartProbe outcomes).1.instances = registry.instances ∨
        ¬ Forgets registry (.probe outcomes) ∧
          (registry.genericRawUartProbe outcomes).1.instances = registry.instances ++ [index]) := by
  unfold Registry.genericRawUartProbe Registry.claimed Registry.devNo Forgets
  by_cases rtc : outcomes.rtc = 0
  · rw [if_neg (not_not_intro rtc)]
    rcases claim_cases registry.activeDevices with ⟨full, all⟩ | ⟨index, found, free⟩
    · left
      have none : registry.activeDevices.length ≥ maxDevices := Nat.le_of_eq registry.sized.symm
      simp only [full, if_pos none, true_and]
      rintro ⟨-, member, -⟩
      cases all false member
    · -- The slot is taken before the steps that can still fail.
      right
      have inside : index < registry.activeDevices.length := (List.getElem?_eq_some_iff.mp free).1
      have room : ¬ index ≥ maxDevices := by
        rw [registry.sized] at inside
        exact Nat.not_le.mpr inside
      have member : false ∈ registry.activeDevices := List.mem_of_getElem? free
      refine ⟨index, free, ?_⟩
      simp only [found, if_neg room, rtc, member, true_and]
      split
      · rename_i missing
        exact ⟨rfl, .inl ⟨.inl (by simpa using missing), rfl⟩⟩
      · rename_i allocated
        split
        · rename_i refused
          exact ⟨rfl, .inl ⟨.inr (.inl refused), rfl⟩⟩
        · rename_i added
          split
          · rename_i refused
            exact ⟨rfl, .inl ⟨.inr (.inr refused), rfl⟩⟩
          · rename_i created
            refine ⟨rfl, .inr ⟨?_, rfl⟩⟩
            rintro (missing | refused | refused)
            · exact allocated (by simp [missing])
            · exact added refused
            · exact created refused
  · left
    rw [if_pos rtc]
    exact ⟨rfl, fun forgets => rtc forgets.1⟩

def Numbered (registry : Registry) : Prop := Exact registry.activeDevices registry.instances

theorem numbered_step {registry next : Registry} (numbered : Numbered registry) {call : Call}
    (taken : step registry call = some next) :
    Numbered next ∧ ¬ Forgets registry call ∨
      (∃ lost, Lost next.activeDevices next.instances lost) ∧ Forgets registry call := by
  cases call with
  | probe outcomes =>
      cases taken
      rcases probe_cases registry outcomes with ⟨same, kept⟩ |
        ⟨index, free, slots, ⟨forgets, owners⟩ | ⟨kept, owners⟩⟩
      · rw [same]
        exact .inl ⟨numbered, kept⟩
      · rw [slots, owners]
        exact .inr ⟨⟨index, numbered.forgotten free⟩, forgets⟩
      · rw [Numbered, slots, owners]
        exact .inl ⟨numbered.claimed free, kept⟩
  | remove position =>
      obtain ⟨devNumber, owned, rfl⟩ := Option.map_eq_some_iff.mp taken
      exact .inl ⟨numbered.released owned, id⟩

theorem lost_step {registry next : Registry} {lost : Nat}
    (gone : Lost registry.activeDevices registry.instances lost) {call : Call}
    (taken : step registry call = some next) : Lost next.activeDevices next.instances lost := by
  cases call with
  | probe outcomes =>
      cases taken
      rcases probe_cases registry outcomes with ⟨same, -⟩ |
        ⟨index, free, slots, ⟨-, owners⟩ | ⟨-, owners⟩⟩
      · rw [same]
        exact gone
      · rw [slots, owners]
        exact gone.taken index
      · rw [slots, owners]
        exact gone.claimed free
  | remove position =>
      obtain ⟨devNumber, owned, rfl⟩ := Option.map_eq_some_iff.mp taken
      exact gone.released owned

theorem numbered_run_iff (calls : List Call) {registry final : Registry}
    (numbered : Numbered registry) (ran : runAll step registry calls = some final) :
    Numbered final ↔ Meets step (fun registry call => ¬ Forgets registry call) registry calls := by
  induction calls generalizing registry with
  | nil =>
      cases ran
      exact iff_of_true numbered trivial
  | cons call rest ih =>
      obtain ⟨next, one, others⟩ := Option.bind_eq_some_iff.mp ran
      rw [Meets]
      rcases numbered_step numbered one with ⟨exact, kept⟩ | ⟨⟨lost, gone⟩, forgets⟩
      · rw [and_iff_right kept, ih exact others]
        constructor
        · intro later other same
          cases one.symm.trans same
          exact later
        · intro later
          exact later next one
      -- A slot that is lost once stays lost, whatever follows.
      · have last := runAll_kept (fun _ _ _ gone taken => lost_step gone taken) rest gone others
        exact iff_of_false last.not_exact fun kept => kept.1 forgets

theorem numberLaw_iff (registry : Registry) : NumberLaw registry ↔ Numbered registry := by
  constructor
  · intro law
    exact ⟨law.active, law.distinct⟩
  · intro numbered
    refine ⟨numbered.taken, numbered.distinct, ?_⟩
    rintro outcomes ⟨-, none⟩
    unfold Registry.devNo at none
    rcases claim_cases registry.activeDevices with ⟨-, all⟩ | ⟨index, found, free⟩
    · exact (numbered.full all).trans registry.sized
    · have inside : index < registry.activeDevices.length := (List.getElem?_eq_some_iff.mp free).1
      rw [found] at none
      rw [registry.sized] at inside
      exact absurd inside (Nat.not_lt.mpr none)

theorem loaded_numbered : Numbered loaded := by
  refine ⟨?_, List.nodup_nil⟩
  intro index
  simp [loaded, List.getElem?_replicate]

/-- The numbers are exact behind a sequence of calls exactly if no probe in it has
failed with a slot. -/
theorem device_numbers_exact_iff (calls : List Call) (final : Registry)
    (ran : runAll step loaded calls = some final) : NumberLaw final ↔
      Meets step (fun registry call => ¬ Forgets registry call) loaded calls := by
  rw [numberLaw_iff]
  exact numbered_run_iff calls loaded_numbered ran

def success : ProbeOutcomes := { rtc := 0, allocated := true, cdevAdd := 0, deviceCreate := 0 }

def outOfMemory : ProbeOutcomes := { success with allocated := false }

/-- Two devices; the first one is removed and its number is used again. -/
theorem device_numbers_exact_iff_reuse : ∃ final,
    runAll step loaded [.probe success, .probe success, .remove 0, .probe success] = some final ∧
      final.instances = [1, 0] ∧ NumberLaw final := by
  refine ⟨_, rfl, rfl, (device_numbers_exact_iff
    [.probe success, .probe success, .remove 0, .probe success] _ rfl).mpr ?_⟩
  simp [Meets, Forgets, step, success]

/-- Five probes that run out of memory: nobody is there and the next probe fails for
lack of a slot. -/
theorem failed_probes_exhaust : ∃ final,
    runAll step loaded (List.replicate 5 (.probe outOfMemory)) = some final ∧
      final.instances = [] ∧ LacksSlot final success ∧ ¬ NumberLaw final := by
  refine ⟨_, rfl, rfl, ⟨rfl, by decide⟩, ?_⟩
  intro law
  cases law.exhausted success ⟨rfl, by decide⟩

end PiVccu.RawUartDevices
