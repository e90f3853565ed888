import Mathlib.Data.Nat.Bitwise
import Mathlib.Tactic.LinearCombination
import PiVccu.Limbs

/-!
The linear `bigint_*` functions of `kernel/devkey.inc`: comparison, shifts,
addition and subtraction with carry over arrays of 32-bit words, and the modular
addition and subtraction built on them. An array of `size` words is a list of
that length; every function reads its operands before it writes the same index,
so a result that shares its array with an operand makes no difference.
-/

namespace PiVccu.Bigint
open Limbs

def isZero : List UInt32 → Bool
  | [] => true
  | word :: rest => if word ≠ 0 then false else isZero rest

def testBit (words : List UInt32) (bit : Nat) : UInt32 :=
  words.getD (bit / 32) 0 &&& ((1 : UInt32) <<< UInt32.ofNat (bit % 32))

def cmp : List UInt32 → List UInt32 → Int
  | left :: lefts, right :: rights =>
      let upper := cmp lefts rights
      if upper ≠ 0 then upper
      else if left > right then 1
      else if right > left then -1
      else 0
  | _, _ => 0

def lshiftLoop : List UInt32 → UInt32 → List UInt32 × UInt32
  | [], carry => ([], carry)
  | word :: rest, carry =>
      let shifted := lshiftLoop rest (word >>> 31)
      (((word <<< 1) ||| carry) :: shifted.1, shifted.2)

def lshift (words : List UInt32) : List UInt32 × UInt32 := lshiftLoop words 0

/-- The loop of `bigint_rshift`: the carry comes down from the next word. -/
def rshiftLoop : List UInt32 → List UInt32 × UInt32
  | [] => ([], 0)
  | word :: rest =>
      let shifted := rshiftLoop rest
      (((word >>> 1) ||| shifted.2) :: shifted.1, word <<< 31)

def rshift (words : List UInt32) : List UInt32 := (rshiftLoop words).1

def addLoop : List UInt32 → List UInt32 → UInt32 → List UInt32 × UInt32
  | left :: lefts, right :: rights, carry =>
      let sum := left + right + carry
      let rest := addLoop lefts rights (if sum ≠ left then (if sum < left then 1 else 0) else carry)
      (sum :: rest.1, rest.2)
  | _, _, carry => ([], carry)

def add (left right : List UInt32) : List UInt32 × UInt32 := addLoop left right 0

def subLoop : List UInt32 → List UInt32 → UInt32 → List UInt32 × UInt32
  | left :: lefts, right :: rights, borrow =>
      let diff := left - right - borrow
      let rest := subLoop lefts rights
        (if diff ≠ left then (if diff > left then 1 else 0) else borrow)
      (diff :: rest.1, rest.2)
  | _, _, borrow => ([], borrow)

def sub (left right : List UInt32) : List UInt32 × UInt32 := subLoop left right 0

def isEven (words : List UInt32) : Bool := (words.headD 0 &&& 1) = 0

def modAdd (left right mod : List UInt32) : List UInt32 :=
  let sum := add left right
  if sum.2 ≠ 0 ∨ cmp sum.1 mod ≥ 0 then (sub sum.1 mod).1 else sum.1

def modSub (left right mod : List UInt32) : List UInt32 :=
  let diff := sub left right
  if diff.2 ≠ 0 then (add diff.1 mod).1 else diff.1

theorem word_zero_iff (word : UInt32) : word = 0 ↔ word.toNat = 0 := by
  rw [← UInt32.toNat_inj]
  rfl

theorem isZero_iff (words : List UInt32) : isZero words = true ↔ value words = 0 := by
  induction words with
  | nil => simp [isZero]
  | cons word rest ih =>
      have positive := radix_pos
      by_cases zero : word = 0
      · subst zero
        simp [isZero, ih]
        omega
      · have nonzero : word.toNat ≠ 0 := fun same => zero ((word_zero_iff word).mpr same)
        simp [isZero, zero, nonzero]

theorem testBit_ne_zero_iff (words : List UInt32) (i : Nat) :
    testBit words i ≠ 0 ↔ value words / 2 ^ i % 2 = 1 := by
  have mask : ((1 : UInt32) <<< UInt32.ofNat (i % 32)).toNat = 2 ^ (i % 32) := by
    have shift : i % 32 % 2 ^ 32 % 32 = i % 32 := by omega
    rw [UInt32.toNat_shiftLeft, UInt32.toNat_ofNat', shift, Nat.shiftLeft_eq, UInt32.toNat_one,
      Nat.one_mul]
    exact Nat.mod_eq_of_lt (Nat.pow_lt_pow_right (by decide) (by omega))
  have word : (words.getD (i / 32) 0).toNat = value words / 2 ^ (32 * (i / 32)) % 2 ^ 32 := by
    rw [pow_mul]
    exact digit_eq words (i / 32)
  have position : i % 32 + 32 * (i / 32) = i := Nat.mod_add_div i 32
  have bit : (words.getD (i / 32) 0).toNat.testBit (i % 32) = (value words).testBit i := by
    rw [word, Nat.testBit_mod_two_pow, Nat.testBit_div_two_pow, position]
    simp [Nat.mod_lt]
  rw [ne_eq, word_zero_iff, testBit, UInt32.toNat_and, mask, Nat.and_two_pow, bit,
    Nat.testBit_eq_decide_div_mod_eq]
  by_cases one : value words / 2 ^ i % 2 = 1
  · simp [one]
  · simp [one]

theorem cmp_value {left right : List UInt32} (sized : left.length = right.length) :
    cmp left right = if value left > value right then 1
      else if value right > value left then -1 else 0 := by
  induction left generalizing right with
  | nil =>
      cases right with
      | nil => rfl
      | cons => cases sized
  | cons word rest ih =>
      cases right with
      | nil => cases sized
      | cons word' rest' =>
          have upper := ih (Nat.succ.inj sized)
          have low := word_lt word
          have low' := word_lt word'
          rw [radix_eq] at low low'
          simp only [cmp, upper, value_cons, radix_eq, gt_iff_lt, UInt32.lt_iff_toNat_lt]
          by_cases above : value rest' < value rest
          · have outcome : word'.toNat + 4294967296 * value rest' <
                word.toNat + 4294967296 * value rest := by omega
            simp [above, outcome]
          · by_cases below : value rest < value rest'
            · have outcome : word.toNat + 4294967296 * value rest <
                  word'.toNat + 4294967296 * value rest' := by omega
              have reverse : ¬ word'.toNat + 4294967296 * value rest' <
                  word.toNat + 4294967296 * value rest := by omega
              simp [above, below, outcome, reverse]
            · have same : value rest = value rest' := by omega
              simp [same]

/-- The carry test of `bigint_add`: an unchanged word keeps the carry. -/
theorem add_word (left right carry : UInt32) (bit : carry.toNat ≤ 1) :
    (if left + right + carry ≠ left then (if left + right + carry < left then 1 else 0)
        else carry : UInt32).toNat ≤ 1 ∧
      (left + right + carry).toNat + radix *
        (if left + right + carry ≠ left then (if left + right + carry < left then 1 else 0)
          else carry : UInt32).toNat = left.toNat + right.toNat + carry.toNat := by
  have sum : (left + right + carry).toNat = (left.toNat + right.toNat + carry.toNat) % radix := by
    simp [UInt32.toNat_add, radix]
  have boundLeft := word_lt left
  have boundRight := word_lt right
  rw [radix_eq] at sum boundLeft boundRight ⊢
  by_cases same : left + right + carry = left
  · have words := congrArg UInt32.toNat same
    simp only [same, ne_eq, not_true_eq_false, ↓reduceIte]
    omega
  · have words : (left + right + carry).toNat ≠ left.toNat :=
      fun equal => same (UInt32.toNat_inj.mp equal)
    by_cases less : left + right + carry < left
    · have order := UInt32.lt_iff_toNat_lt.mp less
      simp only [ne_eq, same, not_false_eq_true, less, ↓reduceIte, UInt32.toNat_one]
      omega
    · have order : ¬ (left + right + carry).toNat < left.toNat :=
        fun smaller => less (UInt32.lt_iff_toNat_lt.mpr smaller)
      simp only [ne_eq, same, not_false_eq_true, less, ↓reduceIte, UInt32.toNat_zero]
      omega

theorem sub_word (left right borrow : UInt32) (bit : borrow.toNat ≤ 1) :
    (if left - right - borrow ≠ left then (if left - right - borrow > left then 1 else 0)
        else borrow : UInt32).toNat ≤ 1 ∧
      (left - right - borrow).toNat + right.toNat + borrow.toNat = left.toNat + radix *
        (if left - right - borrow ≠ left then (if left - right - borrow > left then 1 else 0)
          else borrow : UInt32).toNat := by
  have boundLeft := word_lt left
  have boundRight := word_lt right
  rw [radix_eq] at boundLeft boundRight ⊢
  have difference : (left - right - borrow).toNat =
      (left.toNat + 2 * 4294967296 - right.toNat - borrow.toNat) % 4294967296 := by
    simp only [UInt32.toNat_sub]
    omega
  by_cases same : left - right - borrow = left
  · have words := congrArg UInt32.toNat same
    simp only [same, ne_eq, not_true_eq_false, ↓reduceIte]
    omega
  · have words : (left - right - borrow).toNat ≠ left.toNat :=
      fun equal => same (UInt32.toNat_inj.mp equal)
    by_cases more : left - right - borrow > left
    · have order := UInt32.lt_iff_toNat_lt.mp more
      simp only [ne_eq, same, not_false_eq_true, more, ↓reduceIte, UInt32.toNat_one]
      omega
    · have order : ¬ left.toNat < (left - right - borrow).toNat :=
        fun larger => more (UInt32.lt_iff_toNat_lt.mpr larger)
      simp only [ne_eq, same, not_false_eq_true, more, ↓reduceIte, UInt32.toNat_zero]
      omega

theorem addLoop_value {left right : List UInt32} (sized : left.length = right.length)
    (carry : UInt32) (bit : carry.toNat ≤ 1) :
    (addLoop left right carry).1.length = left.length ∧
      (addLoop left right carry).2.toNat ≤ 1 ∧
      value (addLoop left right carry).1 + radix ^ left.length *
        (addLoop left right carry).2.toNat = value left + value right + carry.toNat := by
  induction left generalizing right carry with
  | nil =>
      cases right with
      | nil => simpa [addLoop] using bit
      | cons => cases sized
  | cons word rest ih =>
      cases right with
      | nil => cases sized
      | cons word' rest' =>
          obtain ⟨next, low⟩ := add_word word word' carry bit
          obtain ⟨length, last, high⟩ := ih (Nat.succ.inj sized) _ next
          simp only [addLoop, List.length_cons, value_cons]
          refine ⟨by rw [length], last, ?_⟩
          rw [pow_succ]
          linear_combination low + radix * high

theorem subLoop_value {left right : List UInt32} (sized : left.length = right.length)
    (borrow : UInt32) (bit : borrow.toNat ≤ 1) :
    (subLoop left right borrow).1.length = left.length ∧
      (subLoop left right borrow).2.toNat ≤ 1 ∧
      value (subLoop left right borrow).1 + value right + borrow.toNat =
        value left + radix ^ left.length * (subLoop left right borrow).2.toNat := by
  induction left generalizing right borrow with
  | nil =>
      cases right with
      | nil => simpa [subLoop] using bit
      | cons => cases sized
  | cons word rest ih =>
      cases right with
      | nil => cases sized
      | cons word' rest' =>
          obtain ⟨next, low⟩ := sub_word word word' borrow bit
          obtain ⟨length, last, high⟩ := ih (Nat.succ.inj sized) _ next
          simp only [subLoop, List.length_cons, value_cons]
          refine ⟨by rw [length], last, ?_⟩
          rw [pow_succ]
          linear_combination low + radix * high

theorem add_value {left right : List UInt32} (sized : left.length = right.length) :
    (add left right).1.length = left.length ∧ (add left right).2.toNat ≤ 1 ∧
      value (add left right).1 + radix ^ left.length * (add left right).2.toNat =
        value left + value right :=
  addLoop_value sized 0 (Nat.zero_le 1)

theorem sub_value {left right : List UInt32} (sized : left.length = right.length) :
    (sub left right).1.length = left.length ∧ (sub left right).2.toNat ≤ 1 ∧
      value (sub left right).1 + value right =
        value left + radix ^ left.length * (sub left right).2.toNat :=
  subLoop_value sized 0 (Nat.zero_le 1)

theorem or_bits (high low : UInt32) (shift : Nat)
    (aligned : high.toNat % 2 ^ shift = 0) (small : low.toNat < 2 ^ shift) :
    (high ||| low).toNat = high.toNat + low.toNat := by
  rw [UInt32.toNat_or, ← Nat.div_add_mod high.toNat (2 ^ shift), aligned, Nat.add_zero,
    Nat.mul_comm, ← Nat.shiftLeft_eq]
  exact (Nat.shiftLeft_add_eq_or_of_lt small _).symm

theorem lshift_word (word carry : UInt32) (bit : carry.toNat ≤ 1) :
    (word >>> 31).toNat ≤ 1 ∧
      ((word <<< 1) ||| carry).toNat + radix * (word >>> 31).toNat =
        2 * word.toNat + carry.toNat := by
  have bound := word_lt word
  have up : (word <<< 1).toNat = word.toNat * 2 % radix := by
    simp [UInt32.toNat_shiftLeft, Nat.shiftLeft_eq, radix]
  have down : (word >>> 31).toNat = word.toNat / 2 ^ 31 := by
    simp [UInt32.toNat_shiftRight, Nat.shiftRight_eq_div_pow]
  rw [radix_eq] at bound up ⊢
  rw [or_bits (word <<< 1) carry 1 (by omega) (by omega), up, down]
  omega

theorem lshiftLoop_value (words : List UInt32) (carry : UInt32) (bit : carry.toNat ≤ 1) :
    (lshiftLoop words carry).1.length = words.length ∧ (lshiftLoop words carry).2.toNat ≤ 1 ∧
      value (lshiftLoop words carry).1 + radix ^ words.length * (lshiftLoop words carry).2.toNat =
        2 * value words + carry.toNat := by
  induction words generalizing carry with
  | nil => simpa [lshiftLoop] using bit
  | cons word rest ih =>
      obtain ⟨next, low⟩ := lshift_word word carry bit
      obtain ⟨length, last, high⟩ := ih _ next
      simp only [lshiftLoop, List.length_cons, value_cons]
      refine ⟨by rw [length], last, ?_⟩
      rw [pow_succ]
      linear_combination low + radix * high

theorem lshift_value (words : List UInt32) :
    (lshift words).1.length = words.length ∧ (lshift words).2.toNat ≤ 1 ∧
      value (lshift words).1 + radix ^ words.length * (lshift words).2.toNat = 2 * value words :=
  lshiftLoop_value words 0 (Nat.zero_le 1)

theorem word_shiftLeft_31 (word : UInt32) : (word <<< 31).toNat = 2 ^ 31 * (word.toNat % 2) := by
  have shifted : (word <<< 31).toNat = word.toNat * 2 ^ 31 % 2 ^ 32 := by
    simp [UInt32.toNat_shiftLeft, Nat.shiftLeft_eq]
  rw [shifted]
  omega

theorem rshift_word (word carry : UInt32) (aligned : carry.toNat % 2 ^ 31 = 0) :
    ((word >>> 1) ||| carry).toNat = word.toNat / 2 + carry.toNat := by
  have bound := word_lt word
  rw [radix_eq] at bound
  have down : (word >>> 1).toNat = word.toNat / 2 := by
    simp [UInt32.toNat_shiftRight, Nat.shiftRight_eq_div_pow]
  rw [UInt32.or_comm, or_bits carry (word >>> 1) 31 aligned (by omega), down]
  omega

theorem rshiftLoop_value (words : List UInt32) :
    (rshiftLoop words).1.length = words.length ∧ value (rshiftLoop words).1 = value words / 2 ∧
      (rshiftLoop words).2.toNat = 2 ^ 31 * (value words % 2) := by
  induction words with
  | nil => simp [rshiftLoop]
  | cons word rest ih =>
      obtain ⟨length, shifted, carry⟩ := ih
      have low := rshift_word word (rshiftLoop rest).2 (by rw [carry]; omega)
      simp only [rshiftLoop, List.length_cons, value_cons, length, low, shifted, carry,
        word_shiftLeft_31, radix_eq, true_and]
      constructor
      · omega
      · omega

theorem rshift_value (words : List UInt32) :
    (rshift words).length = words.length ∧ value (rshift words) = value words / 2 :=
  ⟨(rshiftLoop_value words).1, (rshiftLoop_value words).2.1⟩

theorem isEven_iff (words : List UInt32) : isEven words = true ↔ value words % 2 = 0 := by
  have low : ∀ word : UInt32, word &&& 1 = 0 ↔ word.toNat % 2 = 0 := by
    intro word
    rw [word_zero_iff, UInt32.toNat_and, UInt32.toNat_one, Nat.and_one_is_mod]
  cases words with
  | nil => decide
  | cons word rest =>
      simp only [isEven, List.headD_cons, decide_eq_true_eq, low, value_cons, radix_eq]
      omega

theorem carry_cases {carry : UInt32} (bit : carry.toNat ≤ 1) :
    carry = 0 ∧ carry.toNat = 0 ∨ carry ≠ 0 ∧ carry.toNat = 1 := by
  rcases Nat.le_one_iff_eq_zero_or_eq_one.mp bit with zero | one
  · exact .inl ⟨(word_zero_iff carry).mpr zero, zero⟩
  · refine .inr ⟨?_, one⟩
    rintro rfl
    cases one

theorem cmp_nonneg_iff {left right : List UInt32} (sized : left.length = right.length) :
    cmp left right ≥ 0 ↔ value right ≤ value left := by
  rw [cmp_value sized]
  split
  · constructor <;> omega
  · split <;> constructor <;> omega

section Exact
variable {left right mod : List UInt32}

theorem sub_exact (sized : left.length = right.length) (fits : value right ≤ value left) :
    (sub left right).1.length = left.length ∧ (sub left right).2 = 0 ∧
      value (sub left right).1 + value right = value left := by
  obtain ⟨length, bit, difference⟩ := sub_value sized
  have small := value_lt (sub left right).1
  rw [length] at small
  rcases carry_cases bit with ⟨zero, borrow⟩ | ⟨-, borrow⟩
  · rw [borrow] at difference
    exact ⟨length, zero, difference⟩
  · rw [borrow] at difference
    omega

theorem sub_borrows (sized : left.length = right.length) (less : value left < value right) :
    (sub left right).1.length = left.length ∧ (sub left right).2 ≠ 0 ∧
      value (sub left right).1 + value right = value left + radix ^ left.length := by
  obtain ⟨length, bit, difference⟩ := sub_value sized
  rcases carry_cases bit with ⟨-, borrow⟩ | ⟨one, borrow⟩
  · rw [borrow] at difference
    omega
  · rw [borrow, Nat.mul_one] at difference
    exact ⟨length, one, difference⟩

/-- The carry of an addition and the borrow of the subtraction behind it cancel. -/
theorem add_sub_exact {middle : List UInt32} (sizeM : left.length = middle.length)
    (sizeR : left.length = right.length) (low : value right ≤ value left + value middle)
    (high : value left + value middle < value right + radix ^ left.length) :
    (sub (add left middle).1 right).1.length = left.length ∧
      value (sub (add left middle).1 right).1 + value right = value left + value middle := by
  obtain ⟨length, bit, sum⟩ := add_value sizeM
  have sized := length.trans sizeR
  rcases carry_cases bit with ⟨-, carry⟩ | ⟨-, carry⟩
  · rw [carry] at sum
    obtain ⟨length', -, difference⟩ := sub_exact sized (by omega)
    exact ⟨length'.trans length, by omega⟩
  · rw [carry] at sum
    obtain ⟨length', -, difference⟩ := sub_borrows sized (by omega)
    rw [length] at difference
    exact ⟨length'.trans length, by omega⟩

theorem modAdd_lowered (sizeL : left.length = mod.length) (sizeR : right.length = mod.length)
    (high : value left + value right < value mod + radix ^ mod.length) :
    (modAdd left right mod).length = mod.length ∧ value (modAdd left right mod) =
      if value mod ≤ value left + value right then value left + value right - value mod
      else value left + value right := by
  obtain ⟨length, bit, sum⟩ := add_value (sizeL.trans sizeR.symm)
  rw [sizeL] at length sum
  have order := cmp_nonneg_iff length
  have bounded := value_lt mod
  -- The carry and the comparison together test the exact sum.
  have lowers : ((add left right).2 ≠ 0 ∨ cmp (add left right).1 mod ≥ 0) ↔
      value mod ≤ value left + value right := by
    rw [order]
    rcases carry_cases bit with ⟨zero, carry⟩ | ⟨one, carry⟩
    · rw [carry] at sum
      rw [or_iff_right (not_not_intro zero)]
      omega
    · rw [carry] at sum
      exact iff_of_true (.inl one) (by omega)
  by_cases above : value mod ≤ value left + value right
  · obtain ⟨length', exactly⟩ := add_sub_exact (sizeL.trans sizeR.symm) sizeL above
      (by rw [sizeL]; exact high)
    rw [modAdd, if_pos (lowers.mpr above), if_pos above]
    exact ⟨length'.trans sizeL, by omega⟩
  · rw [modAdd, if_neg (fun lowered => above (lowers.mp lowered)), if_neg above]
    rcases carry_cases bit with ⟨-, carry⟩ | ⟨-, carry⟩
    · rw [carry] at sum
      exact ⟨length, sum⟩
    · rw [carry] at sum
      omega

theorem modSub_raised (sizeL : left.length = mod.length) (sizeR : right.length = mod.length)
    (low : value right ≤ value left + value mod) :
    (modSub left right mod).length = mod.length ∧ value (modSub left right mod) =
      if value right ≤ value left then value left - value right
      else value left + value mod - value right := by
  have sized := sizeL.trans sizeR.symm
  by_cases fits : value right ≤ value left
  · obtain ⟨length, zero, difference⟩ := sub_exact sized fits
    rw [if_pos fits, modSub, if_neg (not_not_intro zero)]
    exact ⟨length.trans sizeL, by omega⟩
  · obtain ⟨length, one, difference⟩ := sub_borrows sized (Nat.lt_of_not_le fits)
    obtain ⟨length', bit, sum⟩ := add_value (length.trans sizeL)
    rw [if_neg fits, modSub, if_pos one]
    rw [length] at sum
    have small := value_lt mod
    have small' := value_lt (add (sub left right).1 mod).1
    rw [length', length, sizeL] at small'
    rw [sizeL] at difference sum
    refine ⟨length'.trans (length.trans sizeL), ?_⟩
    rcases carry_cases bit with ⟨-, carry⟩ | ⟨-, carry⟩
    · rw [carry] at sum
      omega
    · rw [carry] at sum
      omega

end Exact

section Modular
variable {left right mod : List UInt32} (sizeLeft : left.length = mod.length)
  (sizeRight : right.length = mod.length) (reducedLeft : value left < value mod)
  (reducedRight : value right < value mod)

include sizeLeft sizeRight reducedLeft reducedRight in
theorem modAdd_value :
    (modAdd left right mod).length = mod.length ∧
      value (modAdd left right mod) = (value left + value right) % value mod := by
  have bounded := value_lt mod
  obtain ⟨length, sum⟩ := modAdd_lowered sizeLeft sizeRight (by omega)
  refine ⟨length, ?_⟩
  rw [sum]
  split
  · rename_i above
    rw [Nat.mod_eq_sub_mod above, Nat.mod_eq_of_lt (by omega)]
  · exact (Nat.mod_eq_of_lt (by omega)).symm

include sizeLeft sizeRight reducedLeft reducedRight in
theorem modSub_value :
    (modSub left right mod).length = mod.length ∧
      value (modSub left right mod) = (value left + (value mod - value right)) % value mod := by
  obtain ⟨length, difference⟩ := modSub_raised sizeLeft sizeRight (by omega)
  refine ⟨length, ?_⟩
  rw [difference]
  split
  · rw [Nat.mod_eq_sub_mod (by omega), Nat.mod_eq_of_lt (by omega)]
    omega
  · rw [Nat.mod_eq_of_lt (by omega)]
    omega

end Modular

end PiVccu.Bigint
