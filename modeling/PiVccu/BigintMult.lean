import Mathlib.Data.Nat.Size
import PiVccu.Bigint

/-!
`bigint_mult` and `bigint_mod_mult` of `kernel/devkey.inc`. A product is built
column by column in an accumulator of 96 bits; the remainder comes from
subtracting the modulus at every shift. The 16-word temporaries are lists of
`2 * size` words, and a read or a write outside an array gives `none`.
-/

namespace PiVccu.Bigint
open Limbs

/-- The accumulator of `bigint_mult`: 64 bits in `r01`, the bits above in `r2`. -/
structure Accumulator where
  r01 : UInt64
  r2 : UInt32

def Accumulator.total (acc : Accumulator) : Nat := acc.r01.toNat + 2 ^ 64 * acc.r2.toNat

def multTerm (left right : List UInt32) (k : Nat) (acc : Accumulator) (i : Nat) :
    Option Accumulator := do
  let l ← left[i]?
  let r ← right[k - i]?
  let product := l.toUInt64 * r.toUInt64
  let r01 := acc.r01 + product
  some ⟨r01, acc.r2 + if r01 < product then 1 else 0⟩

def multIndices (size k : Nat) : List Nat :=
  let min := if k < size then 0 else k + 1 - size
  List.range' min (Nat.min (k + 1) size - min)

def multColumn (left right : List UInt32) (k : Nat) (acc : Accumulator) : Option Accumulator :=
  (multIndices left.length k).foldlM (multTerm left right k) acc

/-- The outer loop, with the number of columns left; the word after the last
column is what remains in `r01`. -/
def multLoop (left right : List UInt32) : Nat → Nat → UInt64 → Option (List UInt32)
  | 0, _, r01 => some [r01.toUInt32]
  | columns + 1, k, r01 => do
      let acc ← multColumn left right k ⟨r01, 0⟩
      let rest ← multLoop left right columns (k + 1)
        ((acc.r01 >>> 32) ||| (acc.r2.toUInt64 <<< 32))
      some (acc.r01.toUInt32 :: rest)

def mult (left right : List UInt32) : Option (List UInt32) :=
  multLoop left right (left.length * 2 - 1) 0 0

def numDwords : List UInt32 → Nat
  | [] => 0
  | word :: rest =>
      let upper := numDwords rest
      if upper ≠ 0 then upper + 1 else if word = 0 then 0 else 1

theorem shiftRight_lt {tmp : UInt32} (nonzero : tmp ≠ 0) : (tmp >>> 1).toNat < tmp.toNat := by
  have positive : tmp.toNat ≠ 0 := fun zero => nonzero ((word_zero_iff tmp).mpr zero)
  have half : (tmp >>> 1).toNat = tmp.toNat / 2 := by
    simp [UInt32.toNat_shiftRight, Nat.shiftRight_eq_div_pow]
  omega

/-- The loop of `bigint_num_bits` over the most significant word. -/
def wordBits (tmp : UInt32) : Nat :=
  if nonzero : tmp ≠ 0 then wordBits (tmp >>> 1) + 1 else 0
termination_by tmp.toNat
decreasing_by exact shiftRight_lt nonzero

def numBits (words : List UInt32) : Nat :=
  let dwords := numDwords words
  if dwords = 0 then 0 else (dwords - 1) * 32 + wordBits (words.getD (dwords - 1) 0)

/-- `words[size - 1] |= mask`. -/
def orTop (words : List UInt32) (mask : UInt32) : List UInt32 :=
  words.modify (words.length - 1) (· ||| mask)

def place (array : List UInt32) (offset : Nat) (words : List UInt32) : Option (List UInt32) :=
  if offset + words.length ≤ array.length then
    some (array.take offset ++ words ++ array.drop (offset + words.length))
  else none

def shiftWords (bitShift : Nat) : List UInt32 → UInt32 → List UInt32
  | [], _ => []
  | word :: rest, carry =>
      ((word <<< UInt32.ofNat bitShift) ||| carry) ::
        shiftWords bitShift rest (word >>> UInt32.ofNat (32 - bitShift))

def rshiftDouble (size : Nat) (modM : List UInt32) : List UInt32 :=
  orTop (rshift (modM.take size)) (modM.getD size 0 <<< 31) ++ rshift (modM.drop size)

/-- The loop of `bigint_mod_mult` over `shift`. The argument `v` is `v[i]`; the
difference is written to `v[1 - i]`, and `i` changes when there was no borrow. -/
def modMultLoop (size : Nat) : Nat → List UInt32 → List UInt32 → List UInt32
  | 0, v, _ => v
  | rounds + 1, v, modM =>
      let diff := sub v modM
      modMultLoop size rounds (if diff.2 = 0 then diff.1 else v) (rshiftDouble size modM)

def shiftedMod (mod : List UInt32) (shift : Nat) : Option (List UInt32) :=
  let dwordShift := shift / 32
  let bitShift := shift % 32
  let cleared := List.replicate (2 * mod.length) 0
  if bitShift > 0 then place cleared dwordShift (shiftWords bitShift mod 0)
  else place cleared dwordShift mod

def modMult (left right mod : List UInt32) : Option (List UInt32) := do
  let size := mod.length
  let shift := 32 * 2 * size - numBits mod
  let product ← mult left right
  let modM ← shiftedMod mod shift
  some ((modMultLoop size (shift + 1) product modM).take size)

theorem product_toNat (left right : UInt32) :
    (left.toUInt64 * right.toUInt64).toNat = left.toNat * right.toNat := by
  have low := left.toNat_lt
  have low' := right.toNat_lt
  rw [UInt64.toNat_mul, UInt32.toNat_toUInt64, UInt32.toNat_toUInt64]
  apply Nat.mod_eq_of_lt
  nlinarith

/-- The carry test of the accumulator, while `r2` has room. -/
theorem accumulate_total (acc : Accumulator) (product : UInt64)
    (room : acc.r2.toNat + 1 < 2 ^ 32) :
    (acc.r2 + if acc.r01 + product < product then 1 else 0).toNat ≤ acc.r2.toNat + 1 ∧
      Accumulator.total ⟨acc.r01 + product,
        acc.r2 + if acc.r01 + product < product then 1 else 0⟩ = acc.total + product.toNat := by
  have low := acc.r01.toNat_lt
  have low' := product.toNat_lt
  have sum : (acc.r01 + product).toNat = (acc.r01.toNat + product.toNat) % 2 ^ 64 :=
    UInt64.toNat_add _ _
  simp only [Accumulator.total]
  by_cases wrapped : acc.r01 + product < product
  · have order := UInt64.lt_iff_toNat_lt.mp wrapped
    simp only [wrapped, ↓reduceIte, UInt32.toNat_add, UInt32.toNat_one]
    omega
  · have order : ¬ (acc.r01 + product).toNat < product.toNat :=
      fun smaller => wrapped (UInt64.lt_iff_toNat_lt.mpr smaller)
    simp only [wrapped, ↓reduceIte, UInt32.toNat_add, UInt32.toNat_zero]
    omega

theorem multTerm_eq {left right : List UInt32} {k i : Nat} (acc : Accumulator)
    (inLeft : i < left.length) (inRight : k - i < right.length)
    (room : acc.r2.toNat + 1 < 2 ^ 32) :
    ∃ next, multTerm left right k acc i = some next ∧ next.r2.toNat ≤ acc.r2.toNat + 1 ∧
      next.total = acc.total + digit left i * digit right (k - i) := by
  have readLeft : left[i]? = some left[i] := List.getElem?_eq_getElem inLeft
  have readRight : right[k - i]? = some right[k - i] := List.getElem?_eq_getElem inRight
  obtain ⟨small, total⟩ := accumulate_total acc (left[i].toUInt64 * right[k - i].toUInt64) room
  refine ⟨⟨acc.r01 + left[i].toUInt64 * right[k - i].toUInt64, _⟩, ?_, small, ?_⟩
  · simp only [multTerm, readLeft, readRight, Option.bind_eq_bind, Option.bind_some]
  · rw [total, product_toNat, digit, digit, List.getD_eq_getElem?_getD, readLeft,
      List.getD_eq_getElem?_getD, readRight]
    rfl

/-- Every term is added, and `r2` counts at most one carry for each. -/
theorem multTerms_eq {left right : List UInt32} {k : Nat} (indices : List Nat) (acc : Accumulator)
    (inside : ∀ i ∈ indices, i < left.length ∧ k - i < right.length)
    (room : acc.r2.toNat + indices.length < 2 ^ 32) :
    ∃ next, indices.foldlM (multTerm left right k) acc = some next ∧
      next.r2.toNat ≤ acc.r2.toNat + indices.length ∧
      next.total = acc.total + (indices.map fun i => digit left i * digit right (k - i)).sum := by
  induction indices generalizing acc with
  | nil => exact ⟨acc, rfl, Nat.le_refl _, rfl⟩
  | cons i rest ih =>
      rw [List.length_cons] at room
      have bounds := inside i List.mem_cons_self
      obtain ⟨middle, step, small, total⟩ :=
        multTerm_eq acc bounds.1 bounds.2 (by omega)
      obtain ⟨next, run, small', total'⟩ :=
        ih middle (fun j member => inside j (List.mem_cons_of_mem i member)) (by omega)
      refine ⟨next, ?_, ?_, ?_⟩
      · rw [List.foldlM_cons, step]
        exact run
      · rw [List.length_cons]
        omega
      · rw [List.map_cons, List.sum_cons, total', total, Nat.add_assoc]

section Product
variable {left right : List UInt32} (sized : left.length = right.length)

include sized in
theorem multIndices_inside {k i : Nat} (member : i ∈ multIndices left.length k) :
    i < left.length ∧ k - i < right.length := by
  unfold multIndices at member
  simp only [List.mem_range'_1, Nat.min_def] at member
  split at member <;> split at member <;> omega

theorem multIndices_length_le (size k : Nat) : (multIndices size k).length ≤ size := by
  unfold multIndices
  simp only [List.length_range', Nat.min_def]
  split <;> split <;> omega

include sized in
theorem multIndices_sum (k : Nat) :
    ((multIndices left.length k).map fun i => digit left i * digit right (k - i)).sum =
      column left right k := by
  have support : (multIndices left.length k).toFinset ⊆ Finset.range (k + 1) := by
    intro i member
    rw [List.mem_toFinset] at member
    unfold multIndices at member
    simp only [List.mem_range'_1, Nat.min_def] at member
    rw [Finset.mem_range]
    split at member <;> split at member <;> omega
  have distinct : (multIndices left.length k).Nodup := List.nodup_range'
  rw [← List.sum_toFinset _ distinct, column]
  apply Finset.sum_subset support
  intro i low outside
  rw [Finset.mem_range] at low
  rw [List.mem_toFinset] at outside
  unfold multIndices at outside
  simp only [List.mem_range'_1, Nat.min_def] at outside
  by_cases inLeft : i < left.length
  · have above : right.length ≤ k - i := by
      split at outside <;> split at outside <;> omega
    rw [digit_above above, Nat.mul_zero]
  · rw [digit_above (Nat.le_of_not_lt inLeft), Nat.zero_mul]

include sized in
theorem multColumn_eq (k : Nat) (r01 : UInt64) (room : left.length < 2 ^ 32) :
    ∃ acc, multColumn left right k ⟨r01, 0⟩ = some acc ∧
      acc.total = r01.toNat + column left right k := by
  have short := multIndices_length_le left.length k
  obtain ⟨acc, run, -, total⟩ := multTerms_eq (multIndices left.length k) ⟨r01, 0⟩
    (fun i member => multIndices_inside sized member) (by simp only [UInt32.toNat_zero]; omega)
  refine ⟨acc, run, ?_⟩
  rw [total, multIndices_sum sized]
  rfl

end Product

theorem accumulator_shift (acc : Accumulator) :
    acc.r01.toUInt32.toNat = acc.total % radix ∧
      ((acc.r01 >>> 32) ||| (acc.r2.toUInt64 <<< 32)).toNat = acc.total / radix := by
  have low := acc.r01.toNat_lt
  have high := acc.r2.toNat_lt
  have down : (acc.r01 >>> 32).toNat = acc.r01.toNat / 2 ^ 32 := by
    simp [UInt64.toNat_shiftRight, Nat.shiftRight_eq_div_pow]
  have up : (acc.r2.toUInt64 <<< 32).toNat = acc.r2.toNat * 2 ^ 32 := by
    rw [UInt64.toNat_shiftLeft, Nat.shiftLeft_eq, UInt32.toNat_toUInt64]
    exact Nat.mod_eq_of_lt (by rw [show UInt64.toNat 32 % 64 = 32 from rfl]; omega)
  constructor
  · rw [UInt64.toNat_toUInt32, Accumulator.total, radix]
    omega
  · rw [UInt64.toNat_or, Nat.or_comm, up, ← Nat.shiftLeft_eq,
      ← Nat.shiftLeft_add_eq_or_of_lt (by omega), Nat.shiftLeft_eq, down, Accumulator.total,
      radix]
    omega

theorem multLoop_eq {left right : List UInt32} (sized : left.length = right.length)
    (room : left.length < 2 ^ 32) (columns k : Nat) (r01 : UInt64) :
    ∃ words, multLoop left right columns k r01 = some words ∧ words.length = columns + 1 ∧
      value words = (r01.toNat + ∑ j ∈ Finset.range columns,
        radix ^ j * column left right (k + j)) % radix ^ (columns + 1) := by
  induction columns generalizing k r01 with
  | zero =>
      refine ⟨_, rfl, rfl, ?_⟩
      simp [UInt64.toNat_toUInt32, radix]
  | succ columns ih =>
      obtain ⟨acc, run, total⟩ := multColumn_eq sized k r01 room
      obtain ⟨low, high⟩ := accumulator_shift acc
      obtain ⟨rest, run', length, value'⟩ :=
        ih (k + 1) ((acc.r01 >>> 32) ||| (acc.r2.toUInt64 <<< 32))
      refine ⟨acc.r01.toUInt32 :: rest, ?_, by rw [List.length_cons, length], ?_⟩
      · simp only [multLoop, run, Option.bind_eq_bind, Option.bind_some, run']
      · have later : ∑ j ∈ Finset.range (columns + 1), radix ^ j * column left right (k + j) =
            radix * ∑ j ∈ Finset.range columns, radix ^ j * column left right (k + 1 + j) +
              column left right k := by
          rw [Finset.sum_range_succ', Finset.mul_sum, pow_zero, one_mul, Nat.add_zero]
          congr 1
          refine Finset.sum_congr rfl fun j _ => ?_
          rw [pow_succ, Nat.add_right_comm k 1 j, Nat.add_assoc k j 1]
          ring
        have regroup : r01.toNat + (radix * ∑ j ∈ Finset.range columns,
            radix ^ j * column left right (k + 1 + j) + column left right k) =
              acc.total + radix * ∑ j ∈ Finset.range columns,
                radix ^ j * column left right (k + 1 + j) := by
          rw [total]
          omega
        rw [value_cons, value', low, high, later, regroup, pow_succ' radix (columns + 1),
          Nat.mod_mul, Nat.add_mul_mod_self_left, Nat.add_mul_div_left _ _ radix_pos]

theorem mult_value {left right : List UInt32} (sized : left.length = right.length)
    (nonempty : 0 < left.length) (room : left.length < 2 ^ 32) :
    ∃ words, mult left right = some words ∧ words.length = 2 * left.length ∧
      value words = value left * value right := by
  obtain ⟨words, run, length, total⟩ :=
    multLoop_eq sized room (left.length * 2 - 1) 0 0
  refine ⟨words, run, by omega, ?_⟩
  have terms := mul_eq_columns left right (left.length * 2 - 1) (by omega)
  simp only [Nat.zero_add, UInt64.toNat_zero] at total
  rw [total, ← terms, show left.length * 2 - 1 + 1 = left.length + right.length by omega, pow_add]
  exact Nat.mod_eq_of_lt (Nat.mul_lt_mul'' (value_lt left) (value_lt right))

theorem numDwords_eq_zero_iff (words : List UInt32) : numDwords words = 0 ↔ value words = 0 := by
  induction words with
  | nil => simp [numDwords]
  | cons word rest ih =>
      have positive := radix_pos
      by_cases upper : numDwords rest = 0
      · by_cases zero : word = 0
        · simp [numDwords, upper, zero, ih.mp upper]
        · have nonzero : word.toNat ≠ 0 := fun same => zero ((word_zero_iff word).mpr same)
          simp [numDwords, upper, zero, nonzero]
      · have nonzero : value rest ≠ 0 := fun same => upper (ih.mpr same)
        simp [numDwords, upper]
        omega

theorem size_add_shift (low high bits : Nat) (small : low < 2 ^ bits) (nonzero : high ≠ 0) :
    Nat.size (low + 2 ^ bits * high) = Nat.size high + bits := by
  apply Nat.le_antisymm
  · apply Nat.size_le.mpr
    have above : high + 1 ≤ 2 ^ Nat.size high := Nat.lt_size_self high
    calc low + 2 ^ bits * high < 2 ^ bits * (high + 1) := by rw [Nat.mul_succ]; omega
      _ ≤ 2 ^ bits * 2 ^ Nat.size high := Nat.mul_le_mul_left _ above
      _ = 2 ^ (Nat.size high + bits) := by rw [pow_add, Nat.mul_comm]
  · obtain ⟨size, count⟩ : ∃ size, Nat.size high = size + 1 :=
      Nat.exists_eq_succ_of_ne_zero fun zero => nonzero (Nat.size_eq_zero.mp zero)
    have below : 2 ^ size ≤ high := Nat.lt_size.mp (by omega)
    have reached : 2 ^ (size + bits) ≤ low + 2 ^ bits * high := by
      rw [pow_add, Nat.mul_comm]
      exact Nat.le_trans (Nat.mul_le_mul_left _ below) (Nat.le_add_left _ _)
    have strict := Nat.lt_size.mpr reached
    omega

theorem wordBits_eq (tmp : UInt32) : wordBits tmp = Nat.size tmp.toNat := by
  induction tmp using wordBits.induct with
  | case1 tmp nonzero ih =>
      have half : (tmp >>> 1).toNat = tmp.toNat / 2 := by
        simp [UInt32.toNat_shiftRight, Nat.shiftRight_eq_div_pow]
      have positive : tmp.toNat ≠ 0 := fun zero => nonzero ((word_zero_iff tmp).mpr zero)
      rw [wordBits, dif_pos nonzero, ih, half]
      by_cases one : tmp.toNat / 2 = 0
      · rw [show tmp.toNat = 1 by omega]
        decide
      · rw [← size_add_shift (tmp.toNat % 2) _ 1 (by omega) one]
        congr 1
        omega
  | case2 tmp zero =>
      rw [wordBits, dif_neg zero, not_not.mp zero]
      rfl

theorem numBits_eq (words : List UInt32) : numBits words = Nat.size (value words) := by
  induction words with
  | nil => rfl
  | cons word rest ih =>
      have zero := numDwords_eq_zero_iff rest
      by_cases upper : numDwords rest = 0
      · by_cases empty : word = 0
        · simp [numBits, numDwords, upper, empty, zero.mp upper, Nat.size_zero]
        · simp [numBits, numDwords, upper, empty, zero.mp upper, wordBits_eq]
      · have high : value rest ≠ 0 := fun same => upper (zero.mpr same)
        rw [value_cons, radix, size_add_shift _ _ 32 word.toNat_lt high, ← ih]
        obtain ⟨dwords, count⟩ : ∃ dwords, numDwords rest = dwords + 1 :=
          Nat.exists_eq_succ_of_ne_zero upper
        simp [numBits, numDwords, count]
        omega

@[simp] theorem orTop_length (words : List UInt32) (mask : UInt32) :
    (orTop words mask).length = words.length := List.length_modify _ _ _

theorem orTop_value {words : List UInt32} (mask : UInt32) (size : Nat)
    (sized : words.length = size + 1) (aligned : mask.toNat % 2 ^ 31 = 0)
    (free : value words < 2 ^ 31 * radix ^ size) :
    value (orTop words mask) = value words + radix ^ size * mask.toNat := by
  induction size generalizing words with
  | zero =>
      obtain ⟨word, rfl⟩ := List.length_eq_one_iff.mp sized
      simp only [value_cons, value_nil, Nat.mul_zero, Nat.add_zero, pow_zero, Nat.mul_one] at free
      have top : (word ||| mask).toNat = word.toNat + mask.toNat := by
        rw [UInt32.or_comm, or_bits mask word 31 aligned free, Nat.add_comm]
      simp [orTop, top]
  | succ size ih =>
      obtain ⟨word, rest, rfl⟩ := List.exists_cons_of_length_eq_add_one sized
      rw [List.length_cons, Nat.add_right_cancel_iff] at sized
      rw [value_cons, pow_succ radix] at free
      have positive := radix_pos
      have upper := ih sized (by nlinarith)
      have below : orTop (word :: rest) mask = word :: orTop rest mask := by
        rw [orTop, orTop, List.length_cons, sized]
        rfl
      rw [below, value_cons, value_cons, upper, pow_succ]
      ring

theorem value_take (words : List UInt32) (count : Nat) (short : count ≤ words.length) :
    value (words.take count) = value words % radix ^ count := by
  have split := value_append (words.take count) (words.drop count)
  rw [List.take_append_drop, List.length_take, Nat.min_eq_left short] at split
  have small := value_lt (words.take count)
  rw [List.length_take, Nat.min_eq_left short] at small
  rw [split, Nat.add_mul_mod_self_left, Nat.mod_eq_of_lt small]

theorem split_halves {modM : List UInt32} {size : Nat} (sized : modM.length = 2 * (size + 1)) :
    ∃ low word rest, modM = low ++ word :: rest ∧ low.length = size + 1 ∧
      (word :: rest).length = size + 1 := by
  have lowSize : (modM.take (size + 1)).length = size + 1 := by
    rw [List.length_take]
    omega
  have highSize : (modM.drop (size + 1)).length = size + 1 := by
    rw [List.length_drop]
    omega
  obtain ⟨word, rest, high⟩ : ∃ word rest, modM.drop (size + 1) = word :: rest :=
    List.exists_cons_of_length_pos (by omega)
  refine ⟨modM.take (size + 1), word, rest, ?_, lowSize, high ▸ highSize⟩
  rw [← high, List.take_append_drop]

theorem rshiftDouble_append {low rest : List UInt32} {word : UInt32} {size : Nat}
    (lowSize : low.length = size) : rshiftDouble size (low ++ word :: rest) =
      orTop (rshift low) (word <<< 31) ++ rshift (word :: rest) := by
  rw [rshiftDouble, List.take_left' lowSize, List.drop_left' lowSize,
    List.getD_eq_getElem?_getD, List.getElem?_append_right (by omega), lowSize, Nat.sub_self]
  rfl

theorem rshiftDouble_value {modM : List UInt32} {size : Nat}
    (sized : modM.length = 2 * (size + 1)) :
    (rshiftDouble (size + 1) modM).length = modM.length ∧
      value (rshiftDouble (size + 1) modM) = value modM / 2 := by
  obtain ⟨low, word, rest, rfl, lowSize, -⟩ := split_halves sized
  obtain ⟨lowLength, lowHalf⟩ := rshift_value low
  obtain ⟨highLength, highHalf⟩ := rshift_value (word :: rest)
  have shape : rshiftDouble (size + 1) (low ++ word :: rest) =
      orTop (rshift low) (word <<< 31) ++ rshift (word :: rest) := rshiftDouble_append lowSize
  have mask := word_shiftLeft_31 word
  have bound := value_lt low
  rw [lowSize, pow_succ, radix_eq] at bound
  have top := orTop_value (word <<< 31) size (lowLength.trans lowSize)
    (by rw [mask]; exact Nat.mul_mod_right _ _) (by rw [lowHalf, radix_eq]; omega)
  have parity : value (word :: rest) % 2 = word.toNat % 2 := by
    rw [value_cons, radix_eq]
    omega
  refine ⟨?_, ?_⟩
  · rw [shape, List.length_append, orTop_length, lowLength, highLength, List.length_append]
  · -- A word of the upper half is worth twice the mask's bit.
    have weight : radix ^ (size + 1) = 2 * (radix ^ size * 2 ^ 31) := by
      rw [pow_succ, radix_eq]
      omega
    calc value (rshiftDouble (size + 1) (low ++ word :: rest))
        = value low / 2 + radix ^ size * 2 ^ 31 *
            (value (word :: rest) % 2 + 2 * (value (word :: rest) / 2)) := by
          rw [shape, value_append, top, orTop_length, lowLength, lowHalf, highHalf, lowSize, mask,
            ← parity, weight]
          ring
      _ = (value low + 2 * (radix ^ size * 2 ^ 31 * value (word :: rest))) / 2 := by
          rw [Nat.mod_add_div, Nat.add_mul_div_left _ _ Nat.two_pos]
      _ = value (low ++ word :: rest) / 2 := by
          rw [value_append, lowSize, weight, Nat.mul_assoc 2]

theorem modMultRound {v modM : List UInt32} (sized : v.length = modM.length)
    (below : value v < 2 * value modM) :
    (if (sub v modM).2 = 0 then (sub v modM).1 else v).length = v.length ∧
      value (if (sub v modM).2 = 0 then (sub v modM).1 else v) = value v % value modM := by
  by_cases fits : value modM ≤ value v
  · obtain ⟨length, zero, difference⟩ := sub_exact sized fits
    rw [if_pos zero]
    refine ⟨length, ?_⟩
    rw [Nat.mod_eq_sub_mod fits, Nat.mod_eq_of_lt (by omega)]
    omega
  · obtain ⟨-, one, -⟩ := sub_borrows sized (Nat.lt_of_not_le fits)
    rw [if_neg one]
    exact ⟨rfl, (Nat.mod_eq_of_lt (Nat.lt_of_not_le fits)).symm⟩

/-- `mod_m` stays the modulus times a power of two, and `v[i]` below twice `mod_m`. -/
theorem modMultLoop_value {v modM : List UInt32} {size rounds modulus : Nat}
    (sizeV : v.length = 2 * (size + 1)) (sizeM : modM.length = 2 * (size + 1))
    (shifted : value modM = modulus * 2 ^ rounds) (below : value v < 2 * value modM) :
    (modMultLoop (size + 1) (rounds + 1) v modM).length = v.length ∧
      value (modMultLoop (size + 1) (rounds + 1) v modM) = value v % modulus := by
  induction rounds generalizing v modM with
  | zero =>
      obtain ⟨length, remainder⟩ := modMultRound (sizeV.trans sizeM.symm) below
      rw [shifted, pow_zero, Nat.mul_one] at remainder
      exact ⟨length, remainder⟩
  | succ rounds ih =>
      obtain ⟨length, remainder⟩ := modMultRound (sizeV.trans sizeM.symm) below
      obtain ⟨lengthM, half⟩ := rshiftDouble_value sizeM
      have halved : value (rshiftDouble (size + 1) modM) = modulus * 2 ^ rounds := by
        rw [half, shifted, pow_succ, ← Nat.mul_assoc, Nat.mul_div_cancel _ Nat.two_pos]
      have doubled : value modM = 2 * value (rshiftDouble (size + 1) modM) := by
        rw [halved, shifted, pow_succ]
        ring
      have next := ih (length.trans sizeV) (lengthM.trans sizeM) halved (by
        rw [remainder, ← doubled]
        exact Nat.mod_lt _ (by omega))
      rw [modMultLoop]
      refine ⟨next.1.trans length, next.2.trans ?_⟩
      rw [remainder, shifted, Nat.mod_mul_right_mod]

@[simp] theorem shiftWords_length (bitShift : Nat) (words : List UInt32) (carry : UInt32) :
    (shiftWords bitShift words carry).length = words.length := by
  induction words generalizing carry with
  | nil => rfl
  | cons word rest ih => simp [shiftWords, ih]

theorem shift_word (word carry : UInt32) {bitShift : Nat} (low : 0 < bitShift)
    (high : bitShift < 32) (small : carry.toNat < 2 ^ bitShift) :
    (word >>> UInt32.ofNat (32 - bitShift)).toNat < 2 ^ bitShift ∧
      ((word <<< UInt32.ofNat bitShift) ||| carry).toNat +
        radix * (word >>> UInt32.ofNat (32 - bitShift)).toNat =
          word.toNat * 2 ^ bitShift + carry.toNat := by
  have weight : radix = 2 ^ (32 - bitShift) * 2 ^ bitShift := by
    rw [← pow_add, Nat.sub_add_cancel (Nat.le_of_lt high)]
    rfl
  have bound : word.toNat < 2 ^ (32 - bitShift) * 2 ^ bitShift := weight ▸ word_lt word
  have up : (word <<< UInt32.ofNat bitShift).toNat =
      word.toNat % 2 ^ (32 - bitShift) * 2 ^ bitShift := by
    have shift : bitShift % 2 ^ 32 % 32 = bitShift := by omega
    rw [UInt32.toNat_shiftLeft, UInt32.toNat_ofNat', shift, Nat.shiftLeft_eq,
      show 2 ^ 32 = 2 ^ (32 - bitShift) * 2 ^ bitShift from weight, Nat.mul_mod_mul_right]
  have down : (word >>> UInt32.ofNat (32 - bitShift)).toNat =
      word.toNat / 2 ^ (32 - bitShift) := by
    have shift : (32 - bitShift) % 2 ^ 32 % 32 = 32 - bitShift := by omega
    rw [UInt32.toNat_shiftRight, UInt32.toNat_ofNat', shift, Nat.shiftRight_eq_div_pow]
  rw [or_bits _ carry bitShift (by rw [up]; exact Nat.mul_mod_left _ _) small, up, down]
  constructor
  · exact Nat.div_lt_of_lt_mul bound
  · calc word.toNat % 2 ^ (32 - bitShift) * 2 ^ bitShift + carry.toNat +
          radix * (word.toNat / 2 ^ (32 - bitShift))
        = (word.toNat % 2 ^ (32 - bitShift) +
            2 ^ (32 - bitShift) * (word.toNat / 2 ^ (32 - bitShift))) * 2 ^ bitShift +
              carry.toNat := by
          rw [weight]
          ring
      _ = word.toNat * 2 ^ bitShift + carry.toNat := by rw [Nat.mod_add_div]

theorem shiftWords_value {bitShift : Nat} (words : List UInt32) (carry : UInt32)
    (low : 0 < bitShift) (high : bitShift < 32) (small : carry.toNat < 2 ^ bitShift) :
    value (shiftWords bitShift words carry) =
      (value words * 2 ^ bitShift + carry.toNat) % radix ^ words.length := by
  induction words generalizing carry with
  | nil => simp [shiftWords, Nat.mod_one]
  | cons word rest ih =>
      obtain ⟨next, words⟩ := shift_word word carry low high small
      have first := word_lt ((word <<< UInt32.ofNat bitShift) ||| carry)
      rw [shiftWords, value_cons, ih _ next, List.length_cons, pow_succ', Nat.mod_mul]
      have total : value (word :: rest) * 2 ^ bitShift + carry.toNat =
          ((word <<< UInt32.ofNat bitShift) ||| carry).toNat + radix *
            (value rest * 2 ^ bitShift + (word >>> UInt32.ofNat (32 - bitShift)).toNat) := by
        rw [value_cons]
        linarith
      rw [total, Nat.add_mul_mod_self_left, Nat.mod_eq_of_lt first,
        Nat.add_mul_div_left _ _ radix_pos, Nat.div_eq_of_lt first, Nat.zero_add]

theorem place_high {words : List UInt32} {size : Nat} (sized : words.length = size) :
    place (List.replicate (2 * size) 0) size words = some (List.replicate size 0 ++ words) := by
  have fits : size + words.length ≤ (List.replicate (2 * size) (0 : UInt32)).length := by
    rw [List.length_replicate]
    omega
  have full : (List.replicate (2 * size) (0 : UInt32)).length ≤ size + words.length := by
    rw [List.length_replicate]
    omega
  rw [place, if_pos fits, List.drop_eq_nil_of_le full, List.take_replicate,
    Nat.min_eq_left (by omega), List.append_nil]

theorem shiftedMod_value {mod : List UInt32} {size : Nat} (sized : mod.length = size + 1)
    (top : radix ^ size ≤ value mod) :
    ∃ modM, shiftedMod mod (32 * 2 * mod.length - numBits mod) = some modM ∧
      modM.length = 2 * (size + 1) ∧
      value modM = value mod * 2 ^ (32 * 2 * mod.length - numBits mod) ∧
      radix ^ (2 * (size + 1)) ≤ 2 * value modM := by
  have bound := value_lt mod
  rw [sized, radix, ← pow_mul] at bound
  rw [radix, ← pow_mul] at top
  have bits := numBits_eq mod
  have least : 32 * size < numBits mod := by
    rw [bits]
    exact Nat.lt_size.mpr top
  have most : numBits mod ≤ 32 * (size + 1) := by
    rw [bits]
    exact Nat.size_le.mpr bound
  have above : value mod < 2 ^ numBits mod := by
    rw [bits]
    exact Nat.lt_size_self _
  have below : 2 ^ (numBits mod - 1) ≤ value mod := Nat.lt_size.mp (by omega)
  -- The free bits of the top word; the words below `mod` come on top of them.
  obtain ⟨free, width⟩ : ∃ free, numBits mod + free = 32 * (size + 1) :=
    ⟨32 * (size + 1) - numBits mod, by omega⟩
  have shift : 32 * 2 * mod.length - numBits mod = free + 32 * (size + 1) := by omega
  have dwords : (free + 32 * (size + 1)) / 32 = size + 1 := by omega
  have rest : (free + 32 * (size + 1)) % 32 = free := by omega
  obtain ⟨words, placed, length, exponent⟩ : ∃ words,
      shiftedMod mod (free + 32 * (size + 1)) =
          place (List.replicate (2 * (size + 1)) 0) (size + 1) words ∧
        words.length = size + 1 ∧ value words = value mod * 2 ^ free := by
    rw [shiftedMod, dwords, rest, sized]
    -- A modulus that uses its top bit is copied without a shift.
    by_cases moved : 0 < free
    · refine ⟨shiftWords free mod 0, if_pos moved, by rw [shiftWords_length, sized], ?_⟩
      rw [shiftWords_value mod 0 moved (by omega) (Nat.two_pow_pos free), sized, UInt32.toNat_zero,
        Nat.add_zero]
      apply Nat.mod_eq_of_lt
      rw [radix, ← pow_mul, ← width, pow_add]
      exact Nat.mul_lt_mul_of_pos_right above (Nat.two_pow_pos free)
    · refine ⟨mod, if_neg moved, sized, ?_⟩
      rw [Nat.eq_zero_of_not_pos moved, pow_zero, Nat.mul_one]
  have total : value (List.replicate (size + 1) 0 ++ words) =
      value mod * 2 ^ (free + 32 * (size + 1)) := by
    rw [value_append, value_replicate_zero, List.length_replicate, exponent, radix, ← pow_mul,
      pow_add]
    ring
  refine ⟨List.replicate (size + 1) 0 ++ words, ?_, ?_, ?_, ?_⟩
  · rw [shift, placed, place_high length]
  · rw [List.length_append, List.length_replicate, length]
    omega
  · rw [total, shift]
  · rw [total, radix, ← pow_mul]
    calc 2 ^ (32 * (2 * (size + 1)))
        = 2 * (2 ^ (numBits mod - 1) * 2 ^ (free + 32 * (size + 1))) := by
          rw [← pow_add, ← pow_succ']
          congr 1
          omega
      _ ≤ 2 * (value mod * 2 ^ (free + 32 * (size + 1))) :=
          Nat.mul_le_mul_left 2 (Nat.mul_le_mul_right _ below)

/-- The remainder of the exact product, for operands that need not be reduced. -/
theorem modMult_value {left right mod : List UInt32} {size : Nat} (sized : mod.length = size + 1)
    (sizeLeft : left.length = mod.length) (sizeRight : right.length = mod.length)
    (room : mod.length < 2 ^ 32) (top : radix ^ size ≤ value mod) :
    ∃ words, modMult left right mod = some words ∧ words.length = mod.length ∧
      value words = value left * value right % value mod := by
  obtain ⟨product, run, length, total⟩ :=
    mult_value (sizeLeft.trans sizeRight.symm) (by omega) (by omega)
  obtain ⟨modM, shifted, lengthM, exponent, high⟩ := shiftedMod_value sized top
  have small := value_lt product
  rw [length, sizeLeft, sized] at small
  obtain ⟨lengthV, remainder⟩ := modMultLoop_value (v := product) (by omega) lengthM exponent
    (Nat.lt_of_lt_of_le small high)
  have positive : 0 < value mod := Nat.lt_of_lt_of_le (pow_pos radix_pos size) top
  refine ⟨(modMultLoop (size + 1) (32 * 2 * mod.length - numBits mod + 1) product modM).take
    mod.length, ?_, ?_, ?_⟩
  · rw [modMult, run]
    simp only [shifted, Option.bind_eq_bind, Option.bind_some]
    rw [sized]
  · rw [List.length_take, lengthV]
    omega
  · rw [value_take _ _ (by omega), remainder, total]
    apply Nat.mod_eq_of_lt
    exact Nat.lt_trans (Nat.mod_lt _ positive) (value_lt mod)

end PiVccu.Bigint
