import Mathlib.Data.List.Prime
import Mathlib.FieldTheory.Finite.Basic
import Mathlib.NumberTheory.LucasPrimality
import Mathlib.Tactic.LinearCombination

/-!
Two facts about prime fields with certificates that the kernel computes: that a
number is prime, by Lucas's test, and that `x ^ 3 - 3 * x + b` has no root modulo
a prime. Both rest on powers by squaring.
-/

namespace PiVccu.FieldCertificates

section Squaring
variable {α : Type*} (mul : α → α → α) (one base : α)

def power : Nat → Nat → α
  | 0, _ => one
  | bits + 1, exponent =>
      let half := power bits (exponent / 2)
      let square := mul half half
      if exponent % 2 = 1 then mul square base else square

theorem eval_power {M : Type*} [Monoid M] {eval : α → M} (evalOne : eval one = 1)
    (evalMul : ∀ left right, eval (mul left right) = eval left * eval right)
    (bits exponent : Nat) (enough : exponent < 2 ^ bits) :
    eval (power mul one base bits exponent) = eval base ^ exponent := by
  induction bits generalizing exponent with
  | zero =>
      have empty : exponent = 0 := by
        rw [pow_zero] at enough
        omega
      rw [empty, pow_zero, power, evalOne]
  | succ bits ih =>
      rw [pow_succ] at enough
      have half := ih (exponent / 2) (by omega)
      rw [power]
      split
      · rename_i odd
        rw [evalMul, evalMul, half, ← pow_add, ← pow_succ]
        congr 1
        omega
      · rw [evalMul, half, ← pow_add]
        congr 1
        omega

end Squaring

section Lucas

def powerMod (p base bits exponent : Nat) : Nat :=
  power (fun left right => left * right % p) 1 base bits exponent

theorem powerMod_cast (p base bits exponent : Nat) (enough : exponent < 2 ^ bits) :
    (powerMod p base bits exponent : ZMod p) = (base : ZMod p) ^ exponent := by
  apply eval_power (fun left right => left * right % p) 1 base Nat.cast_one _ bits exponent enough
  intro left right
  rw [ZMod.natCast_mod, Nat.cast_mul]

/-- `base` has the order `p - 1`, the product of `factors`. -/
structure Lucas (p base bits : Nat) (factors : List Nat) : Prop where
  large : 1 < p
  width : p < 2 ^ bits
  product : factors.prod = p - 1
  whole : powerMod p base bits (p - 1) = 1
  parts : ∀ q ∈ factors, powerMod p base bits ((p - 1) / q) % p ≠ 1

instance (p base bits : Nat) (factors : List Nat) : Decidable (Lucas p base bits factors) :=
  decidable_of_iff (1 < p ∧ p < 2 ^ bits ∧ factors.prod = p - 1 ∧
      powerMod p base bits (p - 1) = 1 ∧
        ∀ q ∈ factors, powerMod p base bits ((p - 1) / q) % p ≠ 1)
    ⟨fun ⟨large, width, product, whole, parts⟩ => ⟨large, width, product, whole, parts⟩,
      fun test => ⟨test.large, test.width, test.product, test.whole, test.parts⟩⟩

theorem prime_of_lucas {p : Nat} (base bits : Nat) (factors : List Nat)
    (primes : ∀ q ∈ factors, q.Prime) (test : Lucas p base bits factors) : p.Prime := by
  have width := test.width
  apply lucas_primality p base
  · rw [← powerMod_cast p base bits (p - 1) (by omega), test.whole, Nat.cast_one]
  · intro q prime divides one
    have member : q ∈ factors := by
      rw [← test.product] at divides
      obtain ⟨factor, inside, covers⟩ := (Prime.dvd_prod_iff prime.prime).mp divides
      rwa [(Nat.prime_dvd_prime_iff_eq prime (primes factor inside)).mp covers]
    have fits : (p - 1) / q < 2 ^ bits := Nat.lt_of_le_of_lt (Nat.div_le_self _ _) (by omega)
    rw [← powerMod_cast p base bits _ fits] at one
    have congruent := (ZMod.natCast_eq_natCast_iff' _ 1 p).mp (one.trans Nat.cast_one.symm)
    exact test.parts q member (congruent.trans (Nat.mod_eq_of_lt test.large))

end Lucas

section Cubic

/-- `c0 + c1 * X + c2 * X ^ 2`. -/
structure Residue where
  c0 : Nat
  c1 : Nat
  c2 : Nat
deriving DecidableEq

/-- Multiplication with `X ^ 3 = 3 * X + k`, coefficients modulo `p`. -/
def Residue.mul (p k : Nat) (left right : Residue) : Residue :=
  let d3 := left.c1 * right.c2 + left.c2 * right.c1
  let d4 := left.c2 * right.c2
  ⟨(left.c0 * right.c0 + k * d3) % p,
    (left.c0 * right.c1 + left.c1 * right.c0 + 3 * d3 + k * d4) % p,
    (left.c0 * right.c2 + left.c1 * right.c1 + left.c2 * right.c0 + 3 * d4) % p⟩

def frobenius (p k bits : Nat) : Residue :=
  let residue := power (Residue.mul p k) ⟨1, 0, 0⟩ ⟨0, 1, 0⟩ bits p
  ⟨residue.c0, (residue.c1 + (p - 1)) % p, residue.c2⟩

variable {p k : Nat}

def Residue.eval (x : ZMod p) (residue : Residue) : ZMod p :=
  residue.c0 + residue.c1 * x + residue.c2 * x ^ 2

theorem Residue.eval_mul {x : ZMod p} (root : x ^ 3 = 3 * x + k) (left right : Residue) :
    (Residue.mul p k left right).eval x = left.eval x * right.eval x := by
  simp only [Residue.eval, Residue.mul, ZMod.natCast_mod]
  push_cast
  linear_combination (-(left.c1 * right.c2 + left.c2 * right.c1 : ZMod p) -
    left.c2 * right.c2 * x) * root

/-- A root satisfies `x ^ p = x`, so an inverse of `X ^ p - X` excludes roots. -/
theorem no_root [Fact p.Prime] {b : ZMod p} (k bits : Nat) (opposite : b + k = 0)
    (enough : p < 2 ^ bits) (inverse : Residue)
    (certificate : Residue.mul p k inverse (frobenius p k bits) = ⟨1, 0, 0⟩) :
    ∀ x : ZMod p, x ^ 3 - 3 * x + b ≠ 0 := by
  intro x zero
  have root : x ^ 3 = 3 * x + k := by linear_combination zero - opposite
  have reached : (power (Residue.mul p k) ⟨1, 0, 0⟩ ⟨0, 1, 0⟩ bits p).eval x = x ^ p := by
    have computed := eval_power (Residue.mul p k) ⟨1, 0, 0⟩ ⟨0, 1, 0⟩
      (show Residue.eval x ⟨1, 0, 0⟩ = 1 by simp [Residue.eval]) (Residue.eval_mul root) bits p
      enough
    rwa [show Residue.eval x ⟨0, 1, 0⟩ = x by simp [Residue.eval]] at computed
  have fixed : (frobenius p k bits).eval x = 0 := by
    have one : ((p - 1 : Nat) : ZMod p) = -1 := by
      rw [Nat.cast_sub (Fact.out : p.Prime).one_le]
      simp
    rw [ZMod.pow_card] at reached
    simp only [Residue.eval] at reached
    simp only [Residue.eval, frobenius, ZMod.natCast_mod, Nat.cast_add, one]
    linear_combination reached
  have unit := congrArg (Residue.eval x) certificate
  rw [Residue.eval_mul root, fixed, mul_zero] at unit
  simp [Residue.eval] at unit

end Cubic

end PiVccu.FieldCertificates
