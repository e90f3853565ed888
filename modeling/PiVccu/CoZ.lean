import Mathlib
import PiVccu.ChordTangent

/-!
Points of a curve `y ^ 2 = x ^ 3 - 3 * x + b` in coordinates with a common
denominator. A triple `(X, Y, Z)` stands for the affine point
`(X / Z ^ 2, Y / Z ^ 3)`; the lemmas say which group operation the co-Z addition
and the Jacobian doubling carry out.
-/

namespace PiVccu.CoZ
open WeierstrassCurve
open scoped ChordTangent

variable {F : Type*} [Field F]

def curve (b : F) : Affine F := ⟨0, 0, 0, -3, b⟩

variable {b : F}

def Represents (X Y Z : F) (point : (curve b).Point) : Prop :=
  Z ≠ 0 ∧ ∃ on : (curve b).Nonsingular (X / Z ^ 2) (Y / Z ^ 3), point = .some _ _ on

/-- The affine x-coordinate; the point at infinity has none. -/
def xCoord : (curve b).Point → Option F
  | .zero => none
  | .some x _ _ => some x

theorem equation_iff (x y : F) : (curve b).Equation x y ↔ y ^ 2 = x ^ 3 - 3 * x + b := by
  rw [Affine.equation_iff]
  simp only [curve, zero_mul, add_zero]
  constructor
  · intro same
    linear_combination same
  · intro same
    linear_combination same

theorem some_eq_some {x y x' y' : F} (on : (curve b).Nonsingular x y) (sameX : x = x')
    (sameY : y = y') :
    ∃ on' : (curve b).Nonsingular x' y', Affine.Point.some x y on = .some x' y' on' := by
  subst sameX sameY
  exact ⟨on, rfl⟩

theorem Represents.xCoord_eq {X Y Z : F} {point : (curve b).Point}
    (stands : Represents X Y Z point) : xCoord point = some (X / Z ^ 2) := by
  obtain ⟨-, on, rfl⟩ := stands
  rfl

theorem represents_affine {x y : F} (on : (curve b).Nonsingular x y) :
    Represents x y 1 (Affine.Point.some x y on : (curve b).Point) := by
  refine ⟨one_ne_zero, ?_⟩
  exact some_eq_some on (by simp) (by simp)

theorem Represents.scale {X Y Z : F} {point : (curve b).Point} (stands : Represents X Y Z point)
    {factor : F} (unit : factor ≠ 0) :
    Represents (X * factor ^ 2) (Y * factor ^ 3) (Z * factor) point := by
  obtain ⟨nonzero, on, rfl⟩ := stands
  refine ⟨mul_ne_zero nonzero unit, ?_⟩
  apply some_eq_some on
  · field_simp
  · field_simp

section Group
variable [DecidableEq F]

/-- Two points over one denominator. The sum has the denominator
`Z * (X₂ - X₁)`. -/
theorem Represents.add {X₁ Y₁ X₂ Y₂ Z : F} {left right : (curve b).Point}
    (standsLeft : Represents X₁ Y₁ Z left) (standsRight : Represents X₂ Y₂ Z right)
    (differ : X₁ ≠ X₂) {X₃ : F}
    (sumX : X₃ = (Y₂ - Y₁) ^ 2 - X₁ * (X₂ - X₁) ^ 2 - X₂ * (X₂ - X₁) ^ 2) :
    Represents X₃ ((Y₂ - Y₁) * (X₁ * (X₂ - X₁) ^ 2 - X₃) -
      Y₁ * (X₂ * (X₂ - X₁) ^ 2 - X₁ * (X₂ - X₁) ^ 2)) (Z * (X₂ - X₁)) (left + right) := by
  obtain ⟨nonzero, on, rfl⟩ := standsLeft
  obtain ⟨-, on', rfl⟩ := standsRight
  have apart : X₂ - X₁ ≠ 0 := sub_ne_zero.mpr differ.symm
  have apart' : X₁ - X₂ ≠ 0 := sub_ne_zero.mpr differ
  have affine : X₁ / Z ^ 2 ≠ X₂ / Z ^ 2 := by
    intro same
    exact differ ((div_left_inj' (pow_ne_zero 2 nonzero)).mp same)
  have slope : (curve b).slope (X₁ / Z ^ 2) (X₂ / Z ^ 2) (Y₁ / Z ^ 3) (Y₂ / Z ^ 3) =
      (Y₂ - Y₁) / (Z * (X₂ - X₁)) := by
    rw [Affine.slope_of_X_ne affine]
    have denominator : X₁ / Z ^ 2 - X₂ / Z ^ 2 ≠ 0 := sub_ne_zero.mpr affine
    rw [div_eq_div_iff denominator (mul_ne_zero nonzero apart)]
    field_simp
    ring
  refine ⟨mul_ne_zero nonzero apart, ?_⟩
  rw [Affine.Point.add_of_X_ne affine]
  apply some_eq_some
  · rw [slope, Affine.addX, sumX]
    simp only [curve]
    field_simp
    ring
  · rw [slope, Affine.addY, Affine.negAddY, Affine.negY, Affine.addX, sumX]
    simp only [curve]
    field_simp
    ring

theorem Represents.double {X Y Z : F} {point : (curve b).Point} (stands : Represents X Y Z point)
    (two : (2 : F) ≠ 0) (upper : Y ≠ 0) {A B X₃ : F} (sumA : A = X * Y ^ 2)
    (sumB : 2 * B = 3 * (X ^ 2 - Z ^ 4)) (sumX : X₃ = B ^ 2 - 2 * A) :
    Represents X₃ (B * (A - X₃) - Y ^ 4) (Y * Z) (point + point) := by
  obtain ⟨nonzero, on, rfl⟩ := stands
  have vertical : Y / Z ^ 3 ≠ (curve b).negY (X / Z ^ 2) (Y / Z ^ 3) := by
    simp only [Affine.negY, curve, zero_mul, sub_zero]
    intro same
    have doubled : 2 * (Y / Z ^ 3) = 0 := by linear_combination same
    exact mul_ne_zero two (div_ne_zero upper (pow_ne_zero 3 nonzero)) doubled
  have half : B = 3 * (X ^ 2 - Z ^ 4) / 2 := by
    rw [eq_div_iff two]
    linear_combination sumB
  have slope : (curve b).slope (X / Z ^ 2) (X / Z ^ 2) (Y / Z ^ 3) (Y / Z ^ 3) = B / (Y * Z) := by
    rw [Affine.slope_of_Y_ne rfl vertical]
    simp only [Affine.negY, curve, zero_mul, sub_zero, mul_zero, add_zero]
    have denominator : Y / Z ^ 3 - -(Y / Z ^ 3) ≠ 0 := by
      rw [sub_neg_eq_add, ← two_mul]
      exact mul_ne_zero two (div_ne_zero upper (pow_ne_zero 3 nonzero))
    rw [half, div_eq_div_iff denominator (mul_ne_zero upper nonzero)]
    field_simp
    ring
  refine ⟨mul_ne_zero upper nonzero, ?_⟩
  rw [Affine.Point.add_self_of_Y_ne vertical]
  apply some_eq_some
  · rw [slope, Affine.addX, sumX, sumA]
    simp only [curve]
    field_simp
    ring
  · rw [slope, Affine.addY, Affine.negAddY, Affine.negY, Affine.addX, sumX, sumA]
    simp only [curve]
    field_simp
    ring

end Group

section RootFree
variable (two : (2 : F) ≠ 0) (rootFree : ∀ x : F, x ^ 3 - 3 * x + b ≠ 0)

include rootFree in
theorem y_ne_zero {x y : F} (on : (curve b).Equation x y) : y ≠ 0 := by
  rintro rfl
  apply rootFree x
  have same := (equation_iff x 0).mp on
  linear_combination -same

include two rootFree in
theorem nonsingular_of_equation {x y : F} (on : (curve b).Equation x y) :
    (curve b).Nonsingular x y := by
  rw [Affine.nonsingular_iff]
  refine ⟨on, .inr ?_⟩
  simp only [curve, zero_mul, sub_zero]
  intro same
  have doubled : 2 * y = 0 := by linear_combination same
  exact mul_ne_zero two (y_ne_zero rootFree on) doubled

include rootFree in
theorem Represents.y_ne_zero {X Y Z : F} {point : (curve b).Point}
    (stands : Represents X Y Z point) : Y ≠ 0 := by
  obtain ⟨-, on, -⟩ := stands
  rintro rfl
  exact CoZ.y_ne_zero rootFree on.1 (zero_div _)

end RootFree

end PiVccu.CoZ
