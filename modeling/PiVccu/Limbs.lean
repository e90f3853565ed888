import Mathlib.Algebra.BigOperators.Intervals
import Mathlib.Algebra.BigOperators.Ring.Finset
import Mathlib.Data.Nat.Digits.Lemmas
import Mathlib.Tactic.Linarith
import Mathlib.Tactic.Ring

/-!
Numbers as little-endian lists of 32-bit words. The value is the one of
Mathlib's digit lists in base `radix`; the lemmas follow the words from the low
end, as the loops over such numbers do.
-/

namespace PiVccu.Limbs

def radix : Nat := 2 ^ 32

def value (words : List UInt32) : Nat := Nat.ofDigits radix (words.map UInt32.toNat)

theorem radix_eq : radix = 4294967296 := rfl

theorem radix_pos : 0 < radix := by decide

theorem word_lt (word : UInt32) : word.toNat < radix := word.toNat_lt

@[simp] theorem value_nil : value [] = 0 := rfl

@[simp] theorem value_cons (word : UInt32) (words : List UInt32) :
    value (word :: words) = word.toNat + radix * value words := by
  rw [value, List.map_cons, Nat.ofDigits_cons]
  rfl

theorem value_append (low high : List UInt32) :
    value (low ++ high) = value low + radix ^ low.length * value high := by
  rw [value, List.map_append, Nat.ofDigits_append, List.length_map]
  rfl

theorem value_lt (words : List UInt32) : value words < radix ^ words.length := by
  have bounded := Nat.ofDigits_lt_base_pow_length (b := radix) (l := words.map UInt32.toNat)
    (by decide) (by
      intro digit member
      obtain ⟨word, -, rfl⟩ := List.mem_map.mp member
      exact word_lt word)
  rwa [List.length_map] at bounded

theorem value_inj {left right : List UInt32} (sized : left.length = right.length)
    (same : value left = value right) : left = right := by
  have bounded : ∀ words : List UInt32, ∀ digit ∈ words.map UInt32.toNat, digit < radix := by
    intro words digit member
    obtain ⟨word, -, rfl⟩ := List.mem_map.mp member
    exact word_lt word
  have digits := Nat.ofDigits_inj_of_len_eq (show 1 < radix by decide)
    (by rw [List.length_map, List.length_map, sized]) (bounded left) (bounded right) same
  exact (List.map_injective_iff.mpr fun _ _ => UInt32.toNat_inj.mp) digits

@[simp] theorem value_replicate_zero (count : Nat) : value (List.replicate count 0) = 0 := by
  induction count with
  | zero => rfl
  | succ count ih =>
      rw [List.replicate_succ, value_cons, ih]
      rfl

theorem value_set_one {words : List UInt32} (positive : 0 < value words) :
    value ((List.replicate words.length 0).set 0 1) = 1 := by
  cases words with
  | nil => cases positive
  | cons word rest =>
      rw [List.length_cons, List.replicate_succ, List.set_cons_zero, value_cons,
        value_replicate_zero]
      rfl

def digit (words : List UInt32) (index : Nat) : Nat := (words.getD index 0).toNat

@[simp] theorem digit_nil (index : Nat) : digit [] index = 0 := rfl

@[simp] theorem digit_cons_zero (word : UInt32) (words : List UInt32) :
    digit (word :: words) 0 = word.toNat := rfl

@[simp] theorem digit_cons_succ (word : UInt32) (words : List UInt32) (index : Nat) :
    digit (word :: words) (index + 1) = digit words index := rfl

theorem digit_above {words : List UInt32} {index : Nat} (above : words.length ≤ index) :
    digit words index = 0 := by
  rw [digit, List.getD_eq_getElem?_getD, List.getElem?_eq_none above]
  rfl

theorem digit_eq (words : List UInt32) (index : Nat) :
    digit words index = value words / radix ^ index % radix := by
  induction index generalizing words with
  | zero =>
      cases words with
      | nil => rfl
      | cons word rest =>
          have small := word_lt word
          rw [digit_cons_zero, value_cons, pow_zero, Nat.div_one, Nat.add_mul_mod_self_left,
            Nat.mod_eq_of_lt small]
  | succ index ih =>
      cases words with
      | nil => simp
      | cons word rest =>
          have small := word_lt word
          rw [digit_cons_succ, ih, value_cons, pow_succ', ← Nat.div_div_eq_div_mul,
            Nat.add_mul_div_left _ _ radix_pos, Nat.div_eq_of_lt small, Nat.zero_add]

theorem value_eq_sum (words : List UInt32) (count : Nat) (covered : words.length ≤ count) :
    value words = ∑ index ∈ Finset.range count, radix ^ index * digit words index := by
  induction words generalizing count with
  | nil => simp
  | cons word rest ih =>
      cases count with
      | zero => simp at covered
      | succ count =>
          rw [value_cons, ih count (Nat.le_of_succ_le_succ covered), Finset.sum_range_succ']
          simp only [digit_cons_succ, digit_cons_zero, pow_succ, pow_zero, one_mul, Finset.mul_sum]
          rw [Nat.add_comm]
          congr 1
          exact Finset.sum_congr rfl fun index _ => by ring

def column (left right : List UInt32) (k : Nat) : Nat :=
  ∑ index ∈ Finset.range (k + 1), digit left index * digit right (k - index)

theorem column_cons_succ (word : UInt32) (left right : List UInt32) (k : Nat) :
    column (word :: left) right (k + 1) = column left right k + word.toNat * digit right (k + 1) := by
  rw [column, Finset.sum_range_succ']
  simp only [digit_cons_succ, digit_cons_zero, Nat.add_sub_add_right, Nat.sub_zero]
  rfl

theorem mul_eq_columns (left right : List UInt32) (count : Nat)
    (covered : left.length + right.length ≤ count + 1) :
    value left * value right = ∑ k ∈ Finset.range count, radix ^ k * column left right k := by
  induction left generalizing count with
  | nil => simp [column]
  | cons word rest ih =>
      cases count with
      | zero =>
          have empty : right = [] := List.eq_nil_of_length_eq_zero (by simp at covered; omega)
          simp [empty]
      | succ count =>
          have smaller : rest.length + right.length ≤ count + 1 := by simp at covered; omega
          have low : column (word :: rest) right 0 = word.toNat * digit right 0 := by simp [column]
          -- The first word meets all of `right`, the rest stand one place higher.
          calc value (word :: rest) * value right
              = radix * (value rest * value right) + word.toNat * value right := by
                rw [value_cons]
                ring
            _ = radix * ∑ k ∈ Finset.range count, radix ^ k * column rest right k +
                  word.toNat * ∑ k ∈ Finset.range (count + 1), radix ^ k * digit right k := by
                rw [ih count smaller, value_eq_sum right (count + 1) (by omega)]
            _ = ∑ k ∈ Finset.range (count + 1), radix ^ k * column (word :: rest) right k := by
                rw [Finset.sum_range_succ', Finset.sum_range_succ' _ count]
                simp only [column_cons_succ, low, mul_add, Finset.sum_add_distrib, Finset.mul_sum]
                rw [← Nat.add_assoc]
                congr 1
                · congr 1
                  · exact Finset.sum_congr rfl fun k _ => by ring
                  · exact Finset.sum_congr rfl fun k _ => by ring
                · ring

end PiVccu.Limbs
