import Mathlib

/-!
Many processes, given by the list of their phases. What they hold together is the
sum of a weight over the phases; a step of one process changes the sum by the
difference of its two weights.
-/

namespace PiVccu.Census

variable {Phase : Type}

def total (weight : Phase → Nat) (phases : List Phase) : Nat := (phases.map weight).sum

@[simp] theorem total_cons (weight : Phase → Nat) (phase : Phase) (phases : List Phase) :
    total weight (phase :: phases) = weight phase + total weight phases := by
  simp [total]

theorem total_new (weight : Phase → Nat) (phases : List Phase) (phase : Phase) :
    total weight (phases ++ [phase]) = total weight phases + weight phase := by
  simp [total]

theorem total_set (weight : Phase → Nat) (phases : List Phase) (index : Nat) {before : Phase}
    (after : Phase) (found : phases[index]? = some before) :
    total weight (phases.set index after) + weight before =
      total weight phases + weight after := by
  induction phases generalizing index with
  | nil => cases found
  | cons first rest ih =>
      cases index with
      | zero =>
          cases found
          simp only [List.set_cons_zero, total_cons]
          omega
      | succ index =>
          have moved := ih index found
          simp only [List.set_cons_succ, total_cons]
          omega

theorem total_le {smaller larger : Phase → Nat} (phases : List Phase)
    (pointwise : ∀ phase, smaller phase ≤ larger phase) :
    total smaller phases ≤ total larger phases := by
  induction phases with
  | nil => exact Nat.le_refl 0
  | cons first rest ih =>
      rw [total_cons, total_cons]
      exact Nat.add_le_add (pointwise first) ih

theorem total_add (first second : Phase → Nat) (phases : List Phase) :
    total (fun phase => first phase + second phase) phases =
      total first phases + total second phases := by
  induction phases with
  | nil => rfl
  | cons head rest ih =>
      rw [total_cons, total_cons, total_cons, ih]
      omega

theorem le_total (weight : Phase → Nat) {phases : List Phase} {phase : Phase}
    (member : phase ∈ phases) : weight phase ≤ total weight phases := by
  induction phases with
  | nil => cases member
  | cons first rest ih =>
      rw [total_cons]
      rcases List.mem_cons.mp member with rfl | member
      · exact Nat.le_add_right _ _
      · exact Nat.le_trans (ih member) (Nat.le_add_left _ _)

/-- Where at most one process weighs anything, a process that does is the only one
that counts for a smaller weight. -/
theorem total_alone {weight bound : Phase → Nat} {phases : List Phase} {phase : Phase}
    (pointwise : ∀ phase, weight phase ≤ bound phase) (single : total bound phases ≤ 1)
    (member : phase ∈ phases) (full : bound phase = 1) : total weight phases = weight phase := by
  let rest : Phase → Nat := fun phase => bound phase - weight phase
  have split : total bound phases = total weight phases + total rest phases := by
    rw [← total_add]
    congr 1
    funext phase
    exact (Nat.add_sub_cancel' (pointwise phase)).symm
  have here := le_total weight member
  have there := le_total rest member
  have small := pointwise phase
  have remaining : rest phase = bound phase - weight phase := rfl
  omega

end PiVccu.Census
