import Mathlib.FieldTheory.Finite.Basic
import PiVccu.CoZ
import PiVccu.DevKey

/-!
The words of `kernel/devkey.inc` as elements of the prime field. Every operation
of the curve code keeps reduced words, and its result stands for the field
expression that its comments name.
-/

namespace PiVccu.DevKey
open Limbs Bigint

structure Stands (mod words : List UInt32) (element : ZMod (value mod)) : Prop where
  sized : words.length = mod.length
  reduced : value words < value mod
  cast : (value words : ZMod (value mod)) = element

/-- Words for an element of the field that need not be reduced, such as those of a key. -/
structure Denotes (mod words : List UInt32) (element : ZMod (value mod)) : Prop where
  sized : words.length = mod.length
  cast : (value words : ZMod (value mod)) = element

/-- What the curve code needs of `bigint_mod_mult_fast`. -/
def FastMult (mod : List UInt32) : Prop :=
  ∀ (fuel : Nat) (left right : List UInt32), 16 ≤ fuel → left.length = mod.length →
    right.length = mod.length → ∃ words, modMultFast fuel left right mod = some words ∧
      words.length = mod.length ∧ value words = value left * value right % value mod

section Operations
variable {mod left right : List UInt32} {a b : ZMod (value mod)}

theorem stands_of_words {words : List UInt32} (sized : words.length = mod.length)
    (reduced : value words < value mod) : Stands mod words (value words) :=
  ⟨sized, reduced, rfl⟩

theorem Stands.denotes {words : List UInt32} (stands : Stands mod words a) :
    Denotes mod words a := ⟨stands.sized, stands.cast⟩

theorem Stands.positive {words : List UInt32} (stands : Stands mod words a) : 0 < value mod :=
  Nat.zero_lt_of_lt stands.reduced

theorem Stands.val_eq {words : List UInt32} (stands : Stands mod words a) :
    a.val = value words := by
  rw [← stands.cast, ZMod.val_cast_of_lt stands.reduced]

theorem Stands.sub (standsLeft : Stands mod left a) (standsRight : Stands mod right b) :
    Stands mod (modSub left right mod) (a - b) := by
  obtain ⟨sized, difference⟩ := modSub_value standsLeft.sized standsRight.sized
    standsLeft.reduced standsRight.reduced
  refine ⟨sized, ?_, ?_⟩
  · rw [difference]
    exact Nat.mod_lt _ (Nat.zero_lt_of_lt standsLeft.reduced)
  · rw [difference, ZMod.natCast_mod, Nat.cast_add,
      Nat.cast_sub (Nat.le_of_lt standsRight.reduced), ZMod.natCast_self, standsLeft.cast,
      standsRight.cast, zero_sub, ← sub_eq_add_neg]

theorem Stands.add (standsLeft : Stands mod left a) (standsRight : Stands mod right b) :
    Stands mod (modAdd left right mod) (a + b) := by
  obtain ⟨sized, sum⟩ := modAdd_value standsLeft.sized standsRight.sized
    standsLeft.reduced standsRight.reduced
  refine ⟨sized, ?_, ?_⟩
  · rw [sum]
    exact Nat.mod_lt _ (Nat.zero_lt_of_lt standsLeft.reduced)
  · rw [sum, ZMod.natCast_mod, Nat.cast_add, standsLeft.cast, standsRight.cast]

/-- With a borrow `left` was below `right`, and so below the modulus. -/
theorem Denotes.sub (denotesLeft : Denotes mod left a) (standsRight : Stands mod right b) :
    Denotes mod (modSub left right mod) (a - b) := by
  have reduced := standsRight.reduced
  obtain ⟨length, difference⟩ :=
    modSub_raised denotesLeft.sized standsRight.sized (by omega)
  refine ⟨length, ?_⟩
  rw [difference, ← denotesLeft.cast, ← standsRight.cast]
  split
  · rename_i fits
    rw [Nat.cast_sub fits]
  · rw [Nat.cast_sub (by omega), Nat.cast_add, ZMod.natCast_self, add_zero]

/-- A sum of two numbers below `radix ^ size` and below the modulus is too large by at most
one modulus for its words. -/
theorem Denotes.add (denotesLeft : Denotes mod left a) (standsRight : Stands mod right b) :
    Denotes mod (modAdd left right mod) (a + b) := by
  have small := value_lt left
  have reduced := standsRight.reduced
  rw [denotesLeft.sized] at small
  obtain ⟨length, sum⟩ := modAdd_lowered denotesLeft.sized standsRight.sized (by omega)
  refine ⟨length, ?_⟩
  rw [sum, ← denotesLeft.cast, ← standsRight.cast]
  split
  · rename_i above
    rw [Nat.cast_sub above, ZMod.natCast_self, sub_zero, Nat.cast_add]
  · rw [Nat.cast_add]

theorem Denotes.mult (fast : FastMult mod) {fuel : Nat} (enough : 16 ≤ fuel)
    (positive : 0 < value mod) (denotesLeft : Denotes mod left a)
    (denotesRight : Denotes mod right b) :
    ∃ words, modMultFast fuel left right mod = some words ∧ Stands mod words (a * b) := by
  obtain ⟨words, run, sized, product⟩ :=
    fast fuel left right enough denotesLeft.sized denotesRight.sized
  refine ⟨words, run, sized, ?_, ?_⟩
  · rw [product]
    exact Nat.mod_lt _ positive
  · rw [product, ZMod.natCast_mod, Nat.cast_mul, denotesLeft.cast, denotesRight.cast]

theorem Stands.mult (fast : FastMult mod) {fuel : Nat} (enough : 16 ≤ fuel)
    (standsLeft : Stands mod left a) (standsRight : Stands mod right b) :
    ∃ words, modMultFast fuel left right mod = some words ∧ Stands mod words (a * b) :=
  standsLeft.denotes.mult fast enough standsLeft.positive standsRight.denotes

theorem Stands.eq_zero_iff {words : List UInt32} (stands : Stands mod words a) :
    a = 0 ↔ value words = 0 := by
  have positive : value mod ≠ 0 := Nat.ne_of_gt (Nat.zero_lt_of_lt stands.reduced)
  have : NeZero (value mod) := ⟨positive⟩
  rw [← ZMod.val_eq_zero, stands.val_eq]

theorem orTop_zero (words : List UInt32) : orTop words 0 = words := by
  rw [orTop]
  simp only [UInt32.or_zero]
  exact List.modify_id _ _

/-- The doubling's own way of halving agrees with the one of the inversion. -/
theorem halveX_eq {x : List UInt32} (sized : x.length = mod.length) :
    halveX x mod = modHalve x mod := by
  have parity : isEven x = true ↔ testBit x 0 = 0 := by
    cases x with
    | nil => decide
    | cons word rest =>
        rw [isEven, decide_eq_true_iff]
        rfl
  obtain ⟨-, bit, -⟩ := add_value sized
  by_cases even : testBit x 0 = 0
  · simp [halveX, modHalve, even, parity.mpr even]
  · have odd : isEven x = false := by
      rw [Bool.eq_false_iff]
      exact fun same => even (parity.mp same)
    rcases carry_cases bit with ⟨zero, -⟩ | ⟨one, carry⟩
    · simp [halveX, modHalve, even, odd, zero, orTop_zero]
    · have mask : (Bigint.add x mod).2 <<< 31 = 0x80000000 := by
        rw [UInt32.toNat_inj.mp (show _ = UInt32.toNat 1 from carry)]
        rfl
      simp [halveX, modHalve, even, odd, one, mask]

theorem Stands.halve (odd : value mod % 2 = 1) (stands : Stands mod left a) :
    ∃ half, Stands mod (halveX left mod) half ∧ 2 * half = a := by
  obtain ⟨sized, reduced, doubled⟩ := modHalve_value stands.sized stands.reduced odd
  rw [← halveX_eq stands.sized] at sized reduced doubled
  refine ⟨_, stands_of_words sized reduced, ?_⟩
  rw [← stands.cast]
  exact_mod_cast (ZMod.natCast_eq_natCast_iff _ _ _).mpr doubled

theorem Denotes.inv [Fact (value mod).Prime] (odd : value mod % 2 = 1) {fuel : Nat}
    (enough : 64 * mod.length ≤ fuel) (denotes : Denotes mod left a) (unit : a ≠ 0) :
    ∃ words, modInv fuel left mod = some words ∧ Stands mod words a⁻¹ := by
  have prime : (value mod).Prime := Fact.out
  have indivisible : ¬ value mod ∣ value left := by
    intro divides
    rw [← denotes.cast] at unit
    exact unit ((ZMod.natCast_eq_zero_iff _ _).mpr divides)
  have positive : 0 < value left := by
    rcases Nat.eq_zero_or_pos (value left) with zero | positive
    · exact absurd (zero ▸ dvd_zero _) indivisible
    · exact positive
  have coprime : Nat.Coprime (value left) (value mod) :=
    ((Nat.Prime.coprime_iff_not_dvd prime).mpr indivisible).symm
  obtain ⟨words, run, sized, reduced, inverse⟩ :=
    modInv_value denotes.sized odd positive prime.one_lt coprime enough
  refine ⟨words, run, sized, reduced, ?_⟩
  apply eq_inv_of_mul_eq_one_left
  rw [← denotes.cast]
  exact_mod_cast (ZMod.natCast_eq_natCast_iff _ _ _).mpr inverse

end Operations

section Formulas
variable {mod : List UInt32} (fast : FastMult mod) {fuel : Nat} (enough : 16 ≤ fuel)

include fast enough in
theorem xyczAdd_stands {p1 p2 : EccPoint} {X₁ Y₁ X₂ Y₂ X₃ : ZMod (value mod)}
    (x1 : Stands mod p1.x X₁) (y1 : Stands mod p1.y Y₁) (x2 : Denotes mod p2.x X₂)
    (y2 : Denotes mod p2.y Y₂)
    (sumX : X₃ = (Y₂ - Y₁) ^ 2 - X₁ * (X₂ - X₁) ^ 2 - X₂ * (X₂ - X₁) ^ 2) :
    ∃ scaled sum, xyczAdd fuel p1 p2 mod = some (scaled, sum) ∧ Stands mod sum.x X₃ ∧
      Stands mod sum.y ((Y₂ - Y₁) * (X₁ * (X₂ - X₁) ^ 2 - X₃) -
        Y₁ * (X₂ * (X₂ - X₁) ^ 2 - X₁ * (X₂ - X₁) ^ 2)) := by
  have positive := x1.positive
  obtain ⟨square, run1, standsSquare⟩ := (x2.sub x1).mult fast enough positive (x2.sub x1)
  obtain ⟨scaledX, run2, standsX⟩ := x1.mult fast enough standsSquare
  obtain ⟨scaledX', run3, standsX'⟩ := x2.mult fast enough positive standsSquare.denotes
  obtain ⟨slope, run4, standsSlope⟩ := (y2.sub y1).mult fast enough positive (y2.sub y1)
  have result := (standsSlope.sub standsX).sub standsX'
  obtain ⟨scaledY, run5, standsY⟩ := y1.mult fast enough (standsX'.sub standsX)
  obtain ⟨product, run6, standsProduct⟩ :=
    (y2.sub y1).mult fast enough positive (standsX.sub result).denotes
  have resultY := standsProduct.sub standsY
  have sameX : X₃ = (Y₂ - Y₁) * (Y₂ - Y₁) - X₁ * ((X₂ - X₁) * (X₂ - X₁)) -
      X₂ * ((X₂ - X₁) * (X₂ - X₁)) := by
    rw [sumX]
    ring
  refine ⟨⟨scaledX, scaledY⟩,
    ⟨modSub (modSub slope scaledX mod) scaledX' mod, modSub product scaledY mod⟩, ?_, ?_, ?_⟩
  · simp only [xyczAdd, run1, run2, run3, run4, run5, run6, Option.bind_eq_bind, Option.bind_some]
  · rw [sameX]
    exact result
  · rw [← sameX] at resultY
    convert resultY using 1
    ring

include fast enough in
theorem applyZ_stands {p : EccPoint} {z : List UInt32} {X Y Z : ZMod (value mod)}
    (x : Denotes mod p.x X) (y : Denotes mod p.y Y) (standsZ : Stands mod z Z) :
    ∃ point, applyZ fuel p z mod = some point ∧ Stands mod point.x (X * Z ^ 2) ∧
      Stands mod point.y (Y * Z ^ 3) := by
  have positive := standsZ.positive
  obtain ⟨square, run1, standsSquare⟩ := standsZ.mult fast enough standsZ
  obtain ⟨scaledX, run2, standsX⟩ := x.mult fast enough positive standsSquare.denotes
  obtain ⟨cube, run3, standsCube⟩ := standsSquare.mult fast enough standsZ
  obtain ⟨scaledY, run4, standsY⟩ := y.mult fast enough positive standsCube.denotes
  refine ⟨⟨scaledX, scaledY⟩, ?_, ?_, ?_⟩
  · simp only [applyZ, run1, run2, run3, run4, Option.bind_eq_bind, Option.bind_some]
  · convert standsX using 1
    ring
  · convert standsY using 1
    ring

include fast enough in
theorem pointDoubleJacobian_stands (odd : value mod % 2 = 1) {p : EccPoint} {z : List UInt32}
    {X Y Z : ZMod (value mod)} (x : Denotes mod p.x X) (y : Denotes mod p.y Y)
    (standsZ : Stands mod z Z) (nonzero : Z ≠ 0) :
    ∃ doubled z' A B X₃, pointDoubleJacobian fuel p z mod = some (doubled, z') ∧
      A = X * Y ^ 2 ∧ 2 * B = 3 * (X ^ 2 - Z ^ 4) ∧ X₃ = B ^ 2 - 2 * A ∧
      Stands mod doubled.x X₃ ∧ Stands mod doubled.y (B * (A - X₃) - Y ^ 4) ∧
      Stands mod z' (Y * Z) := by
  have started : isZero z = false := by
    rw [Bool.eq_false_iff]
    exact fun zero => nonzero (standsZ.eq_zero_iff.mpr ((isZero_iff z).mp zero))
  have positive := standsZ.positive
  obtain ⟨y2, run1, standsY2⟩ := y.mult fast enough positive y
  obtain ⟨a, run2, standsA⟩ := x.mult fast enough positive standsY2.denotes
  obtain ⟨y4, run3, standsY4⟩ := standsY2.mult fast enough standsY2
  obtain ⟨z', run4, standsZ'⟩ := y.mult fast enough positive standsZ.denotes
  obtain ⟨z2, run5, standsZ2⟩ := standsZ.mult fast enough standsZ
  -- Three times `(X + Z ^ 2) * (X - Z ^ 2)`, halved.
  have sum := x.add standsZ2
  have difference := sum.sub (standsZ2.add standsZ2)
  obtain ⟨product, run6, standsProduct⟩ := sum.mult fast enough positive difference
  obtain ⟨B, standsB, half⟩ := (standsProduct.add (standsProduct.add standsProduct)).halve odd
  obtain ⟨b2, run7, standsB2⟩ := standsB.mult fast enough standsB
  have resultX := (standsB2.sub standsA).sub standsA
  obtain ⟨b3, run8, standsB3⟩ := standsB.mult fast enough (standsA.sub resultX)
  have resultY := standsB3.sub standsY4
  refine ⟨⟨modSub (modSub b2 a mod) a mod, modSub b3 y4 mod⟩, z', X * (Y * Y), B,
    B * B - X * (Y * Y) - X * (Y * Y), ?_, by ring, ?_, by ring, resultX, ?_, standsZ'⟩
  · simp only [pointDoubleJacobian, started, run1, run2, run3, run4, run5, run6, run7, run8,
      Option.bind_eq_bind, Option.bind_some]
    rfl
  · rw [half]
    ring
  · convert resultY using 1
    ring

end Formulas

end PiVccu.DevKey
