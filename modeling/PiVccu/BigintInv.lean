import Mathlib.Data.Int.GCD
import Mathlib.Data.Nat.ModEq
import Mathlib.Data.Nat.Prime.Basic
import PiVccu.BigintMult

/-!
`bigint_mod_inv` of `kernel/devkey.inc`: the binary inversion that halves `a`
and `b` and keeps `u * in` congruent to `a` and `v * in` to `b`. Its loop has no
bound of its own, so the model runs it with fuel and gives `none` when that is
used up.
-/

namespace PiVccu.Bigint
open Limbs

/-- Half of `words` modulo an odd `mod`: `mod` is added to an odd number, and the
carry of that addition comes back as the top bit. -/
def modHalve (words mod : List UInt32) : List UInt32 :=
  let sum := if !isEven words then add words mod else (words, 0)
  let shifted := rshift sum.1
  if sum.2 ≠ 0 then orTop shifted 0x80000000 else shifted

def invSub (left right mod : List UInt32) : List UInt32 :=
  let raised := if cmp left right < 0 then (add left mod).1 else left
  (sub raised right).1

structure InvState where
  a : List UInt32
  b : List UInt32
  u : List UInt32
  v : List UInt32

/-- The body of the loop; `order` is the comparison of `a` with `b`. -/
def modInvStep (mod : List UInt32) (order : Int) (state : InvState) : InvState :=
  if isEven state.a then
    { state with a := rshift state.a, u := modHalve state.u mod }
  else if isEven state.b then
    { state with b := rshift state.b, v := modHalve state.v mod }
  else if order > 0 then
    { state with
      a := rshift (sub state.a state.b).1
      u := modHalve (invSub state.u state.v mod) mod }
  else
    { state with
      b := rshift (sub state.b state.a).1
      v := modHalve (invSub state.v state.u mod) mod }

def modInvLoop (mod : List UInt32) : Nat → InvState → Option (List UInt32)
  | 0, _ => none
  | fuel + 1, state =>
      let order := cmp state.a state.b
      if order ≠ 0 then modInvLoop mod fuel (modInvStep mod order state) else some state.u

def modInv (fuel : Nat) (input mod : List UInt32) : Option (List UInt32) :=
  modInvLoop mod fuel
    ⟨input, mod, (List.replicate mod.length 0).set 0 1, List.replicate mod.length 0⟩

section Halve
variable {words mod : List UInt32} (sized : words.length = mod.length)
  (reduced : value words < value mod) (odd : value mod % 2 = 1)

include sized reduced odd in
theorem modHalve_value :
    (modHalve words mod).length = mod.length ∧ value (modHalve words mod) < value mod ∧
      2 * value (modHalve words mod) ≡ value words [MOD value mod] := by
  obtain ⟨size, width⟩ : ∃ size, mod.length = size + 1 := by
    cases mod with
    | nil => simp at odd
    | cons word rest => exact ⟨rest.length, rfl⟩
  have weight : radix ^ mod.length = 2 * (radix ^ size * 2 ^ 31) := by
    rw [width, pow_succ, radix_eq]
    omega
  by_cases even : value words % 2 = 0
  · have shape : modHalve words mod = rshift words := by
      simp [modHalve, (isEven_iff words).mpr even]
    obtain ⟨length, half⟩ := rshift_value words
    rw [shape, half]
    refine ⟨length.trans sized, by omega, ?_⟩
    rw [show 2 * (value words / 2) = value words by omega]
  · have parity : isEven words = false := by
      rw [Bool.eq_false_iff]
      exact fun same => even ((isEven_iff words).mp same)
    obtain ⟨length, bit, sum⟩ := add_value sized
    obtain ⟨lengthR, half⟩ := rshift_value (add words mod).1
    have small := value_lt (add words mod).1
    rw [length, sized, weight] at small
    rw [sized, weight] at sum
    -- Either way the result is half of the sum with its carry.
    have doubled : (modHalve words mod).length = mod.length ∧
        2 * value (modHalve words mod) = value words + value mod := by
      rcases carry_cases bit with ⟨zero, carry⟩ | ⟨one, carry⟩
      · have shape : modHalve words mod = rshift (add words mod).1 := by
          simp [modHalve, parity, zero]
        rw [shape, half, lengthR, length]
        rw [carry] at sum
        exact ⟨sized, by omega⟩
      · have shape : modHalve words mod = orTop (rshift (add words mod).1) 0x80000000 := by
          simp [modHalve, parity, one]
        have top := orTop_value 0x80000000 size (lengthR.trans (length.trans (sized.trans width)))
          (by decide) (by rw [half]; omega)
        rw [shape, top, half, orTop_length, lengthR, length]
        rw [carry] at sum
        refine ⟨sized, ?_⟩
        rw [show UInt32.toNat 0x80000000 = 2 ^ 31 from rfl]
        omega
    refine ⟨doubled.1, by omega, ?_⟩
    rw [doubled.2]
    exact Nat.add_modEq_right

end Halve

theorem cmp_neg_iff {left right : List UInt32} (sized : left.length = right.length) :
    cmp left right < 0 ↔ value left < value right := by
  rw [← not_iff_not, Int.not_lt, Nat.not_lt]
  exact cmp_nonneg_iff sized

theorem invSub_value {left right mod : List UInt32} (sizeLeft : left.length = mod.length)
    (sizeRight : right.length = mod.length) (reducedLeft : value left < value mod)
    (reducedRight : value right < value mod) :
    (invSub left right mod).length = mod.length ∧ value (invSub left right mod) < value mod ∧
      value (invSub left right mod) + value right ≡ value left [MOD value mod] := by
  have order := cmp_neg_iff (sizeLeft.trans sizeRight.symm)
  have bounded := value_lt mod
  have sized := sizeLeft.trans sizeRight.symm
  by_cases less : value left < value right
  · have shape : invSub left right mod = (sub (add left mod).1 right).1 := by
      rw [invSub, if_pos (order.mpr less)]
    obtain ⟨length, raised⟩ := add_sub_exact sizeLeft sized (by omega)
      (by rw [sizeLeft]; omega)
    rw [shape]
    refine ⟨length.trans sizeLeft, by omega, ?_⟩
    rw [raised]
    exact Nat.add_modEq_right
  · have shape : invSub left right mod = (sub left right).1 := by
      rw [invSub, if_neg fun same => less (order.mp same)]
    obtain ⟨length, -, exactly⟩ := sub_exact sized (Nat.le_of_not_lt less)
    rw [shape]
    refine ⟨length.trans sizeLeft, by omega, ?_⟩
    rw [exactly]

/-- The loop's invariant: `u` and `v` carry `in` to `a` and to `b`. -/
structure Inverting (input mod : List UInt32) (state : InvState) : Prop where
  sizeA : state.a.length = mod.length
  sizeB : state.b.length = mod.length
  sizeU : state.u.length = mod.length
  sizeV : state.v.length = mod.length
  positiveA : 0 < value state.a
  positiveB : 0 < value state.b
  reducedU : value state.u < value mod
  reducedV : value state.v < value mod
  congruentA : value state.u * value input ≡ value state.a [MOD value mod]
  congruentB : value state.v * value input ≡ value state.b [MOD value mod]
  coprime : Nat.Coprime (value state.a) (value state.b)

theorem half_congruent {modulus half u input a : Nat} (odd : modulus % 2 = 1)
    (halved : 2 * half ≡ u [MOD modulus]) (carried : u * input ≡ 2 * a [MOD modulus]) :
    half * input ≡ a [MOD modulus] := by
  have coprime : Nat.gcd modulus 2 = 1 :=
    Nat.coprime_two_right.mpr (Nat.odd_iff.mpr odd)
  refine Nat.ModEq.cancel_left_of_coprime coprime ?_
  calc 2 * (half * input) = 2 * half * input := by ring
    _ ≡ u * input [MOD modulus] := halved.mul_right input
    _ ≡ 2 * a [MOD modulus] := carried

theorem sub_congruent {modulus difference u v input a b : Nat}
    (subtracted : difference + v ≡ u [MOD modulus]) (carriedA : u * input ≡ a [MOD modulus])
    (carriedB : v * input ≡ b [MOD modulus]) (order : b ≤ a) :
    difference * input ≡ a - b [MOD modulus] := by
  refine Nat.ModEq.add_right_cancel carriedB ?_
  calc difference * input + v * input = (difference + v) * input := by ring
    _ ≡ u * input [MOD modulus] := subtracted.mul_right input
    _ ≡ a [MOD modulus] := carriedA
    _ = a - b + b := (Nat.sub_add_cancel order).symm

section Step
variable {input mod : List UInt32} {state : InvState}

theorem Inverting.swap (invariant : Inverting input mod state) :
    Inverting input mod ⟨state.b, state.a, state.v, state.u⟩ where
  sizeA := invariant.sizeB
  sizeB := invariant.sizeA
  sizeU := invariant.sizeV
  sizeV := invariant.sizeU
  positiveA := invariant.positiveB
  positiveB := invariant.positiveA
  reducedU := invariant.reducedV
  reducedV := invariant.reducedU
  congruentA := invariant.congruentB
  congruentB := invariant.congruentA
  coprime := invariant.coprime.symm

theorem Inverting.halveEven (odd : value mod % 2 = 1) (invariant : Inverting input mod state)
    (even : value state.a % 2 = 0) :
    Inverting input mod { state with a := rshift state.a, u := modHalve state.u mod } ∧
      2 * value (rshift state.a) = value state.a := by
  obtain ⟨length, half⟩ := rshift_value state.a
  obtain ⟨lengthU, reduced, halved⟩ := modHalve_value invariant.sizeU invariant.reducedU odd
  have positive := invariant.positiveA
  have doubled : 2 * value (rshift state.a) = value state.a := by omega
  refine ⟨{
    sizeA := length.trans invariant.sizeA
    sizeB := invariant.sizeB
    sizeU := lengthU
    sizeV := invariant.sizeV
    positiveA := by
      show 0 < value (rshift state.a)
      omega
    positiveB := invariant.positiveB
    reducedU := reduced
    reducedV := invariant.reducedV
    congruentA := half_congruent odd halved (by rw [doubled]; exact invariant.congruentA)
    congruentB := invariant.congruentB
    coprime := Nat.Coprime.coprime_dvd_left ⟨2, by rw [Nat.mul_comm]; exact doubled.symm⟩
      invariant.coprime }, doubled⟩

theorem Inverting.subOdd (odd : value mod % 2 = 1) (invariant : Inverting input mod state)
    (oddA : value state.a % 2 = 1) (oddB : value state.b % 2 = 1)
    (order : value state.b < value state.a) :
    Inverting input mod { state with
      a := rshift (sub state.a state.b).1
      u := modHalve (invSub state.u state.v mod) mod } ∧
      2 * value (rshift (sub state.a state.b).1) < value state.a := by
  obtain ⟨length, -, plain⟩ :=
    sub_exact (invariant.sizeA.trans invariant.sizeB.symm) (Nat.le_of_lt order)
  obtain ⟨lengthR, half⟩ := rshift_value (sub state.a state.b).1
  obtain ⟨lengthD, reducedD, subtracted⟩ := invSub_value invariant.sizeU invariant.sizeV
    invariant.reducedU invariant.reducedV
  obtain ⟨lengthU, reduced, halved⟩ := modHalve_value lengthD reducedD odd
  have positive := invariant.positiveB
  have doubled : 2 * value (rshift (sub state.a state.b).1) = value state.a - value state.b := by
    omega
  have carried := sub_congruent subtracted invariant.congruentA invariant.congruentB
    (Nat.le_of_lt order)
  have coprime : Nat.Coprime (value state.a - value state.b) (value state.b) :=
    (Nat.coprime_sub_self_left (Nat.le_of_lt order)).mpr invariant.coprime
  refine ⟨{
    sizeA := lengthR.trans (length.trans invariant.sizeA)
    sizeB := invariant.sizeB
    sizeU := lengthU
    sizeV := invariant.sizeV
    positiveA := by
      show 0 < value (rshift (sub state.a state.b).1)
      omega
    positiveB := invariant.positiveB
    reducedU := reduced
    reducedV := invariant.reducedV
    congruentA := half_congruent odd halved (by rw [doubled]; exact carried)
    congruentB := invariant.congruentB
    coprime := Nat.Coprime.coprime_dvd_left ⟨2, by rw [Nat.mul_comm]; exact doubled.symm⟩
      coprime }, by omega⟩

/-- Every round keeps the invariant and halves the product of `a` and `b`. -/
theorem modInvStep_invariant (odd : value mod % 2 = 1) (invariant : Inverting input mod state)
    (differ : cmp state.a state.b ≠ 0) :
    Inverting input mod (modInvStep mod (cmp state.a state.b) state) ∧
      2 * (value (modInvStep mod (cmp state.a state.b) state).a *
        value (modInvStep mod (cmp state.a state.b) state).b) ≤
          value state.a * value state.b := by
  have order := cmp_value (invariant.sizeA.trans invariant.sizeB.symm)
  unfold modInvStep
  by_cases evenA : value state.a % 2 = 0
  · rw [if_pos ((isEven_iff _).mpr evenA)]
    obtain ⟨next, doubled⟩ := invariant.halveEven odd evenA
    refine ⟨next, ?_⟩
    rw [← Nat.mul_assoc, doubled]
  · rw [if_neg fun same => evenA ((isEven_iff _).mp same)]
    by_cases evenB : value state.b % 2 = 0
    · rw [if_pos ((isEven_iff _).mpr evenB)]
      obtain ⟨next, doubled⟩ := invariant.swap.halveEven odd evenB
      refine ⟨next.swap, ?_⟩
      rw [Nat.mul_left_comm, doubled]
    · rw [if_neg fun same => evenB ((isEven_iff _).mp same)]
      by_cases above : value state.b < value state.a
      · rw [if_pos (by rw [order, if_pos above]; decide)]
        obtain ⟨next, smaller⟩ := invariant.subOdd odd (by omega) (by omega) above
        refine ⟨next, ?_⟩
        rw [← Nat.mul_assoc]
        exact Nat.mul_le_mul_right _ (Nat.le_of_lt smaller)
      · have below : value state.a < value state.b := by
          rcases Nat.lt_trichotomy (value state.a) (value state.b) with less | same | more
          · exact less
          · exact absurd (by simp [order, same]) differ
          · exact absurd more above
        rw [if_neg (by rw [order, if_neg above, if_pos below]; decide)]
        obtain ⟨next, smaller⟩ := invariant.swap.subOdd odd
          (show value state.b % 2 = 1 by omega) (show value state.a % 2 = 1 by omega) below
        refine ⟨next.swap, ?_⟩
        rw [Nat.mul_left_comm]
        exact Nat.mul_le_mul_left _ (Nat.le_of_lt smaller)

/-- The loop ends within as many rounds as the product of `a` and `b` has bits,
with both of them at one. -/
theorem modInvLoop_value (odd : value mod % 2 = 1) {fuel : Nat}
    (invariant : Inverting input mod state)
    (enough : value state.a * value state.b < 2 ^ fuel) :
    ∃ u, modInvLoop mod fuel state = some u ∧ u.length = mod.length ∧ value u < value mod ∧
      value u * value input ≡ 1 [MOD value mod] := by
  induction fuel generalizing state with
  | zero =>
      have positive := Nat.mul_pos invariant.positiveA invariant.positiveB
      rw [pow_zero] at enough
      omega
  | succ fuel ih =>
      rw [modInvLoop]
      by_cases differ : cmp state.a state.b ≠ 0
      · rw [if_pos differ]
        obtain ⟨next, halved⟩ := modInvStep_invariant odd invariant differ
        rw [pow_succ] at enough
        exact ih next (by omega)
      · rw [if_neg differ]
        have order := cmp_value (invariant.sizeA.trans invariant.sizeB.symm)
        rw [not_not.mp differ] at order
        have same : value state.a = value state.b := by
          split at order
          · cases order
          · split at order
            · cases order
            · omega
        have one : value state.a = 1 := by
          have coprime := invariant.coprime
          rwa [← same, Nat.coprime_self] at coprime
        refine ⟨state.u, rfl, invariant.sizeU, invariant.reducedU, ?_⟩
        have congruent := invariant.congruentA
        rwa [one] at congruent

end Step

theorem modInv_value {input mod : List UInt32} {fuel : Nat} (sized : input.length = mod.length)
    (odd : value mod % 2 = 1) (positive : 0 < value input) (large : 1 < value mod)
    (coprime : Nat.Coprime (value input) (value mod)) (enough : 64 * mod.length ≤ fuel) :
    ∃ u, modInv fuel input mod = some u ∧ u.length = mod.length ∧ value u < value mod ∧
      value u * value input ≡ 1 [MOD value mod] := by
  have one : value ((List.replicate mod.length 0).set 0 1) = 1 := by
    apply value_set_one
    omega
  have start : Inverting input mod ⟨input, mod, (List.replicate mod.length 0).set 0 1,
      List.replicate mod.length 0⟩ := {
    sizeA := sized
    sizeB := rfl
    sizeU := by simp
    sizeV := by simp
    positiveA := positive
    positiveB := by
      show 0 < value mod
      omega
    reducedU := by
      show value _ < value mod
      rw [one]
      omega
    reducedV := by
      show value _ < value mod
      rw [value_replicate_zero]
      omega
    congruentA := by
      show value _ * value input ≡ value input [MOD value mod]
      rw [one, Nat.one_mul]
    congruentB := by
      show value _ * value input ≡ value mod [MOD value mod]
      rw [value_replicate_zero, Nat.zero_mul]
      exact (Nat.modEq_zero_iff_dvd.mpr (dvd_refl _)).symm
    coprime := coprime }
  apply modInvLoop_value odd start
  have bound := value_lt mod
  have boundInput := value_lt input
  rw [radix, ← pow_mul] at bound boundInput
  rw [sized] at boundInput
  -- Each round halves the product of `a` and `b`, which has twice the bits of the modulus.
  calc value input * value mod < 2 ^ (32 * mod.length) * 2 ^ (32 * mod.length) :=
        Nat.mul_lt_mul'' boundInput bound
    _ = 2 ^ (64 * mod.length) := by
        rw [← pow_add]
        congr 1
        omega
    _ ≤ 2 ^ fuel := Nat.pow_le_pow_right Nat.two_pos enough

theorem modInvLoop_more {mod words : List UInt32} {fuel : Nat} (more : Nat) {state : InvState}
    (run : modInvLoop mod fuel state = some words) :
    modInvLoop mod (fuel + more) state = some words := by
  induction fuel generalizing state with
  | zero => cases run
  | succ fuel ih =>
      rw [Nat.succ_add, modInvLoop]
      rw [modInvLoop] at run
      split at run
      · rename_i differ
        rw [if_pos differ]
        exact ih run
      · rename_i same
        rwa [if_neg same]

/-- The loop ends, and what it leaves in `u` is the inverse. -/
theorem inversion_ends {input mod : List UInt32} (sized : input.length = mod.length)
    (odd : value mod % 2 = 1) (positive : 0 < value input) (reduced : value input < value mod)
    (coprime : Nat.gcd (value input) (value mod) = 1) :
    ∃ res, (∀ fuel, 64 * mod.length ≤ fuel → modInv fuel input mod = some res) ∧
      res.length = mod.length ∧ value res < value mod ∧
      value res * value input % value mod = 1 := by
  obtain ⟨res, run, length, below, inverse⟩ :=
    modInv_value sized odd positive (by omega) coprime (Nat.le_refl _)
  refine ⟨res, fun fuel enough => ?_, length, below, ?_⟩
  · obtain ⟨more, rfl⟩ := Nat.exists_eq_add_of_le enough
    exact modInvLoop_more more run
  · rw [inverse, Nat.mod_eq_of_lt (by omega)]

/-- The modulus 2 ^ 64 - 1 uses all bits of its words. -/
theorem inversion_ends_full : ∃ res,
    (∀ fuel, 128 ≤ fuel → modInv fuel [2, 0] [0xffffffff, 0xffffffff] = some res) ∧
      res.length = 2 ∧ value res < 0xffffffffffffffff ∧
      value res * 2 % 0xffffffffffffffff = 1 := by
  have sized : [(2 : UInt32), 0].length = [(0xffffffff : UInt32), 0xffffffff].length := rfl
  exact inversion_ends sized (by decide) (by decide) (by decide) (by decide)

end PiVccu.Bigint
