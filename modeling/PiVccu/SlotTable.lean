import Mathlib.Data.List.Dedup
import Mathlib.Data.List.NodupEquivFin
import Mathlib.Data.List.Range

/-!
A table of slots that are taken or free, and the list of the owners' slots. The
first free slot is claimed by a scan; a slot is lost when it is taken and nobody
owns it.
-/

namespace PiVccu.SlotTable

/-- The first free slot and the table with it taken; the length of the table if
there is none. -/
def claim : List Bool → List Bool × Nat
  | [] => ([], 0)
  | false :: rest => (true :: rest, 0)
  | true :: rest => (true :: (claim rest).1, (claim rest).2 + 1)

theorem claim_cases (slots : List Bool) :
    (claim slots = (slots, slots.length) ∧ ∀ slot ∈ slots, slot = true) ∨
      ∃ index, claim slots = (slots.set index true, index) ∧ slots[index]? = some false := by
  induction slots with
  | nil => exact .inl ⟨rfl, nofun⟩
  | cons slot rest ih =>
      cases slot with
      | false => exact .inr ⟨0, rfl, rfl⟩
      | true =>
          rw [claim]
          rcases ih with ⟨full, taken⟩ | ⟨index, found, free⟩
          · rw [full]
            exact .inl ⟨rfl, by simpa using taken⟩
          · rw [found]
            exact .inr ⟨index + 1, rfl, free⟩

/-- Exactly the owned slots are taken, each by one owner. -/
structure Exact (slots : List Bool) (owners : List Nat) : Prop where
  taken : ∀ index, slots[index]? = some true ↔ index ∈ owners
  distinct : owners.Nodup

section
variable {slots : List Bool} {owners : List Nat}

theorem Exact.inside (exact : Exact slots owners) {index : Nat} (owned : index ∈ owners) :
    index < slots.length :=
  (List.getElem?_eq_some_iff.mp ((exact.taken index).mpr owned)).1

theorem Exact.claimed (exact : Exact slots owners) {index : Nat}
    (free : slots[index]? = some false) : Exact (slots.set index true) (owners ++ [index]) := by
  have inside : index < slots.length := (List.getElem?_eq_some_iff.mp free).1
  have fresh : index ∉ owners := by
    intro owned
    rw [(exact.taken index).mpr owned] at free
    cases free
  constructor
  · intro other
    rw [List.mem_append, List.mem_singleton, ← exact.taken other]
    by_cases same : other = index
    · subst same
      simp [inside]
    · rw [List.getElem?_set_ne (Ne.symm same), or_iff_left same]
  · rw [List.nodup_append]
    refine ⟨exact.distinct, List.nodup_singleton _, ?_⟩
    intro owner owned other member same
    rw [List.mem_singleton] at member
    rw [same, member] at owned
    exact fresh owned

theorem Exact.released (exact : Exact slots owners) {position index : Nat}
    (owned : owners[position]? = some index) :
    Exact (slots.set index false) (owners.eraseIdx position) := by
  obtain ⟨within, rfl⟩ := List.getElem?_eq_some_iff.mp owned
  have inside := exact.inside (List.getElem_mem within)
  rw [← exact.distinct.erase_getElem position within]
  constructor
  · intro other
    rw [exact.distinct.mem_erase_iff, ← exact.taken other]
    by_cases same : other = owners[position]
    · subst same
      simp [inside]
    · rw [List.getElem?_set_ne (Ne.symm same), and_iff_right same]
  · exact exact.distinct.erase _

theorem Exact.full (exact : Exact slots owners) (all : ∀ slot ∈ slots, slot = true) :
    owners.length = slots.length := by
  -- Without repetition, the owners are the indices in some order.
  have same : owners.Perm (List.range slots.length) := by
    rw [List.perm_ext_iff_of_nodup exact.distinct List.nodup_range]
    intro index
    rw [List.mem_range]
    constructor
    · exact exact.inside
    · intro inside
      rw [← exact.taken index, List.getElem?_eq_getElem inside, all _ (List.getElem_mem inside)]
  rw [same.length_eq, List.length_range]

end

def Lost (slots : List Bool) (owners : List Nat) (index : Nat) : Prop :=
  slots[index]? = some true ∧ index ∉ owners

section
variable {slots : List Bool} {owners : List Nat} {lost : Nat}

theorem Lost.not_exact (gone : Lost slots owners lost) : ¬ Exact slots owners := by
  intro exact
  exact gone.2 ((exact.taken lost).mp gone.1)

theorem Lost.claimed (gone : Lost slots owners lost) {index : Nat}
    (free : slots[index]? = some false) : Lost (slots.set index true) (owners ++ [index]) lost := by
  have other : lost ≠ index := by
    rintro rfl
    rw [gone.1] at free
    cases free
  constructor
  · rw [List.getElem?_set_ne (Ne.symm other)]
    exact gone.1
  · rw [List.mem_append, List.mem_singleton, not_or]
    exact ⟨gone.2, other⟩

theorem Lost.taken (gone : Lost slots owners lost) (index : Nat) :
    Lost (slots.set index true) owners lost := by
  refine ⟨?_, gone.2⟩
  have inside : lost < slots.length := (List.getElem?_eq_some_iff.mp gone.1).1
  by_cases same : index = lost
  · subst same
    simp [inside]
  · rw [List.getElem?_set_ne same]
    exact gone.1

theorem Lost.released (gone : Lost slots owners lost) {position index : Nat}
    (owned : owners[position]? = some index) :
    Lost (slots.set index false) (owners.eraseIdx position) lost := by
  have other : lost ≠ index := by
    rintro rfl
    exact gone.2 (List.mem_of_getElem? owned)
  constructor
  · rw [List.getElem?_set_ne (Ne.symm other)]
    exact gone.1
  · intro member
    exact gone.2 (List.mem_of_mem_eraseIdx member)

theorem Exact.forgotten (exact : Exact slots owners) {index : Nat} (free : slots[index]? = some false) :
    Lost (slots.set index true) owners index := by
  have inside : index < slots.length := (List.getElem?_eq_some_iff.mp free).1
  refine ⟨by simp [inside], ?_⟩
  intro owned
  rw [(exact.taken index).mpr owned] at free
  cases free

end

end PiVccu.SlotTable
