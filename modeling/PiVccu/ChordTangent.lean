import Mathlib.Algebra.Field.Basic
import Mathlib.Data.Nat.Size
import Mathlib.Tactic.LinearCombination
import Mathlib.Tactic.Ring

/-!
Chords and tangents of cubics `y ^ 2 = x ^ 3 + a * x + b` in affine coordinates. The
formulas use neither `b` nor the equation, so they make sense for any two points; they fail
where the line is vertical. A triple `(X, Y, Z)` stands for `(X / Z ^ 2, Y / Z ^ 3)`, and
`Z = 0` for a vertical line that was met before.
-/

namespace PiVccu.ChordTangent

-- One constant for the numeral in the definitions of every module.
scoped instance atLeastTwo_three : Nat.AtLeastTwo 3 := ⟨by decide⟩

variable {F : Type*} [Field F]

/-- The third point of the line of that slope through `p` and a point over `x`, reflected. -/
def third (slope : F) (p : F × F) (x : F) : F × F :=
  (slope ^ 2 - p.1 - x, slope * (p.1 - (slope ^ 2 - p.1 - x)) - p.2)

section Lines
variable [DecidableEq F]

def chord (p q : F × F) : Option (F × F) :=
  if p.1 = q.1 then none else some (third ((q.2 - p.2) / (q.1 - p.1)) p q.1)

def tangent (a : F) (p : F × F) : Option (F × F) :=
  if p.2 = 0 then none else some (third ((3 * p.1 ^ 2 + a) / (2 * p.2)) p p.1)

/-- A doubling, and the addition of an entry if there is one. -/
def turn (a : F) (entry : Option (F × F)) (p : F × F) : Option (F × F) :=
  (tangent a p).bind fun doubled =>
    match entry with
    | none => some doubled
    | some point => chord point doubled

def doubleAndAdd (a : F) (entries : Nat → Option (F × F)) : Nat → F × F → Option (F × F)
  | 0, p => some p
  | bits + 1, p => (turn a (entries bits) p).bind (doubleAndAdd a entries bits)

def tableEntry {P : Type*} (g q sum : P) (u1 u2 i : Nat) : Option P :=
  match u1.testBit i, u2.testBit i with
  | false, false => none
  | true, false => some g
  | false, true => some q
  | true, true => some sum

/-- `u1 * g + u2 * q` by chords and tangents, both factors read together from the top. -/
def combination (a : F) (g q : F × F) (u1 u2 : Nat) : Option (F × F) :=
  (chord g q).bind fun sum =>
    let top := max (Nat.size u1) (Nat.size u2) - 1
    (tableEntry g q sum u1 u2 top).bind (doubleAndAdd a (tableEntry g q sum u1 u2) top)

theorem combination_one_two (a : F) {g q : F × F} (apart : g.1 ≠ q.1) (upper : q.2 ≠ 0)
    (differ : g.1 ≠ ((3 * q.1 ^ 2 + a) / (2 * q.2)) ^ 2 - q.1 - q.1) :
    combination a g q 1 2 ≠ none := by
  have joined : chord g q = some _ := if_neg apart
  have doubled : tangent a q = some _ := if_neg upper
  have added : chord g (third ((3 * q.1 ^ 2 + a) / (2 * q.2)) q q.1) = some _ := if_neg differ
  have top : max (Nat.size 1) (Nat.size 2) - 1 = 1 := by decide
  have entry : ∀ sum, tableEntry g q sum 1 2 1 = some q := fun _ => rfl
  have last : ∀ sum, tableEntry g q sum 1 2 0 = some g := fun _ => rfl
  rw [combination, joined, Option.bind_some, top]
  dsimp only
  rw [entry, Option.bind_some, doubleAndAdd, last, turn, doubled, Option.bind_some]
  dsimp only
  rw [added, Option.bind_some, doubleAndAdd]
  exact Option.some_ne_none _

end Lines

def Over (X Y Z : F) : Option (F × F) → Prop
  | none => Z = 0
  | some p => Z ≠ 0 ∧ X = p.1 * Z ^ 2 ∧ Y = p.2 * Z ^ 3

theorem over_one (x y : F) : Over x y 1 (some (x, y)) := by
  refine ⟨one_ne_zero, ?_, ?_⟩
  · rw [one_pow, mul_one]
  · rw [one_pow, mul_one]

section Formulas
variable [DecidableEq F] {X Y Z : F} {p : F × F}

/-- The tangent is vertical exactly where the new denominator is zero. -/
theorem Over.tangent {a B X₃ : F} (two : (2 : F) ≠ 0) (triple : Over X Y Z (some p))
    (half : 2 * B = 3 * X ^ 2 + a * Z ^ 4) (sum : X₃ = B ^ 2 - 2 * (X * Y ^ 2)) :
    Over X₃ (B * (X * Y ^ 2 - X₃) - Y ^ 4) (Y * Z) (tangent a p) := by
  obtain ⟨nonzero, rfl, rfl⟩ := triple
  by_cases vertical : p.2 = 0
  · rw [ChordTangent.tangent, if_pos vertical]
    show p.2 * Z ^ 3 * Z = 0
    rw [vertical, zero_mul, zero_mul]
  · rw [ChordTangent.tangent, if_neg vertical]
    generalize inclined : (3 * p.1 ^ 2 + a) / (2 * p.2) = slope
    rw [div_eq_iff (mul_ne_zero two vertical)] at inclined
    have scaled : B = slope * (p.2 * Z ^ 4) := by
      apply mul_left_cancel₀ two
      linear_combination half + Z ^ 4 * inclined
    refine ⟨mul_ne_zero (mul_ne_zero vertical (pow_ne_zero 3 nonzero)) nonzero, ?_, ?_⟩
    · rw [sum, scaled, third]
      ring
    · rw [sum, scaled, third]
      ring

theorem Over.chord {x y X₃ : F} {state : Option (F × F)} (triple : Over X Y Z state)
    (sum : X₃ = (Y - y * Z ^ 3) ^ 2 - x * Z ^ 2 * (X - x * Z ^ 2) ^ 2 -
      X * (X - x * Z ^ 2) ^ 2) :
    Over X₃ ((Y - y * Z ^ 3) * (x * Z ^ 2 * (X - x * Z ^ 2) ^ 2 - X₃) -
        y * Z ^ 3 * (X * (X - x * Z ^ 2) ^ 2 - x * Z ^ 2 * (X - x * Z ^ 2) ^ 2))
      (Z * (X - x * Z ^ 2)) (state.bind (chord (x, y))) := by
  cases state with
  | none =>
      have zero : Z = 0 := triple
      show Z * (X - x * Z ^ 2) = 0
      rw [zero, zero_mul]
  | some q =>
      obtain ⟨nonzero, rfl, rfl⟩ := triple
      rw [Option.bind_some]
      by_cases vertical : x = q.1
      · rw [ChordTangent.chord, if_pos vertical]
        show Z * (q.1 * Z ^ 2 - x * Z ^ 2) = 0
        rw [vertical, sub_self, mul_zero]
      · rw [ChordTangent.chord, if_neg vertical]
        have apart : q.1 - x ≠ 0 := sub_ne_zero.mpr (Ne.symm vertical)
        have denominator : Z * (q.1 * Z ^ 2 - x * Z ^ 2) = (q.1 - x) * Z ^ 3 := by ring
        generalize inclined : (q.2 - y) / (q.1 - x) = slope
        rw [div_eq_iff apart] at inclined
        have rise : q.2 * Z ^ 3 - y * Z ^ 3 = slope * (q.1 - x) * Z ^ 3 := by
          linear_combination Z ^ 3 * inclined
        rw [denominator]
        refine ⟨mul_ne_zero apart (pow_ne_zero 3 nonzero), ?_, ?_⟩
        · rw [sum, rise, third]
          ring
        · rw [sum, rise, third]
          ring

end Formulas

end PiVccu.ChordTangent
