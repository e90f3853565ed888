import Mathlib.Data.List.Basic

/-!
Copies from one place of a buffer to another. The size of a buffer is part of its
type. What a copy leaves in a target that overlaps its source depends on the order
in which a machine moves the cells, and C promises nothing there. So the order is a
parameter, given by the cell that each cell of the target comes from.
-/

namespace PiVccu.CopyWithin

variable {Cell : Type} {size : Nat}

/-- All cells of a range are cells of the buffer. An empty range has none, wherever
it starts. -/
def Inside (size start count : Nat) : Prop := ∀ offset < count, start + offset < size

instance (size start count : Nat) : Decidable (Inside size start count) :=
  inferInstanceAs (Decidable (∀ offset < count, start + offset < size))

theorem inside_iff (size start count : Nat) :
    Inside size start count ↔ (0 < count → start + count ≤ size) := by
  constructor
  · intro inside some
    have last := inside (count - 1) (by omega)
    omega
  · intro fits offset less
    have bound := fits (by omega)
    omega

structure Copy where
  target : Nat
  source : Nat
  count : Nat

structure Copy.Fits (copy : Copy) (size : Nat) : Prop where
  source : Inside size copy.source copy.count
  target : Inside size copy.target copy.count

instance (copy : Copy) (size : Nat) : Decidable (copy.Fits size) :=
  decidable_of_iff (Inside size copy.source copy.count ∧ Inside size copy.target copy.count)
    ⟨fun ⟨source, target⟩ => ⟨source, target⟩, fun fits => ⟨fits.source, fits.target⟩⟩

/-- A way to move cells: the old cell that each cell of the target holds afterwards.
It is a cell of the source, and the corresponding one if the ranges are apart. -/
structure Mover where
  origin : Copy → Nat → Nat
  within : ∀ (copy : Copy) (offset : Nat), offset < copy.count →
    copy.source ≤ origin copy offset ∧ origin copy offset < copy.source + copy.count
  apart : ∀ (copy : Copy) (offset : Nat), offset < copy.count →
    (copy.target + copy.count ≤ copy.source ∨ copy.source + copy.count ≤ copy.target) →
    origin copy offset = copy.source + offset

namespace Mover

def snapshot : Mover where
  origin copy offset := copy.source + offset
  within _ _ less := ⟨Nat.le_add_right _ _, Nat.add_lt_add_left less _⟩
  apart _ _ _ _ := rfl

def traced (mover : Mover) (copy : Copy) (index : Nat) : Nat :=
  if copy.target ≤ index ∧ index < copy.target + copy.count then
    mover.origin copy (index - copy.target)
  else index

theorem traced_before (mover : Mover) {copy : Copy} {index : Nat} (before : index < copy.target) :
    mover.traced copy index = index := by
  rw [traced, if_neg]
  omega

theorem traced_lt (mover : Mover) {copy : Copy} (fits : copy.Fits size) {index : Nat}
    (less : index < size) : mover.traced copy index < size := by
  rw [traced]
  split
  · rename_i target
    have offset : index - copy.target < copy.count := by omega
    have bounds := mover.within copy _ offset
    have last := (inside_iff _ _ _).mp fits.source (by omega)
    omega
  · exact less

def perform (mover : Mover) (memory : Vector Cell size) (copy : Copy) :
    Option (Vector Cell size) :=
  if fits : copy.Fits size then
    some (Vector.ofFn fun index =>
      memory.get ⟨mover.traced copy index, mover.traced_lt fits index.isLt⟩)
  else none

theorem perform_fits_iff (mover : Mover) (memory : Vector Cell size) (copy : Copy) :
    (∃ after, mover.perform memory copy = some after) ↔ copy.Fits size := by
  rw [perform]
  split
  · rename_i fits
    exact iff_of_true ⟨_, rfl⟩ fits
  · rename_i leaves
    exact iff_of_false nofun leaves

theorem perform_traced {mover : Mover} {memory after : Vector Cell size} {copy : Copy}
    (done : mover.perform memory copy = some after) {index : Nat} (less : index < size) :
    after[index]? = memory[mover.traced copy index]? := by
  rw [perform] at done
  split at done
  · rename_i fits
    cases done
    rw [Vector.getElem?_ofFn, dif_pos less, Vector.getElem?_eq_getElem (mover.traced_lt fits less)]
    rfl
  · cases done

theorem perform_before {mover : Mover} {memory after : Vector Cell size} {copy : Copy}
    (done : mover.perform memory copy = some after) {index : Nat} (less : index < size)
    (before : index < copy.target) : after[index] = memory[index] := by
  have moved := perform_traced done less
  rw [mover.traced_before before, Vector.getElem?_eq_getElem less,
    Vector.getElem?_eq_getElem less] at moved
  exact Option.some.inj moved

end Mover

def loadWithin (memory : Vector Cell size) (start count : Nat) : Option (List Cell) :=
  if Inside size start count then some ((memory.toList.drop start).take count) else none

end PiVccu.CopyWithin
