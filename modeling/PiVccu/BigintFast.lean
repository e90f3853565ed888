import Mathlib.Tactic.LinearCombination
import Mathlib.Tactic.Positivity
import Mathlib.Tactic.Zify
import PiVccu.BigintMult

/-!
`bigint_mod_mult_fast_128` and `bigint_mod_mult_fast_256` of `kernel/devkey.inc`:
the product is taken apart into bytes, the upper half is folded back in shifted
copies, and a last loop brings the result below the modulus. The words are read
little-endian.
-/

namespace PiVccu.Bigint
open Limbs

def wordByte (word : UInt32) (index : Nat) : UInt8 :=
  (word >>> UInt32.ofNat (8 * index)).toUInt8

def byte (words : List UInt32) (index : Nat) : UInt8 :=
  wordByte (words.getD (index / 4) 0) (index % 4)

def wordOfBytes (b0 b1 b2 b3 : UInt8) : UInt32 :=
  b0.toUInt32 ||| (b1.toUInt32 <<< 8) ||| (b2.toUInt32 <<< 16) ||| (b3.toUInt32 <<< 24)

def wordsOfBytes : List UInt8 → List UInt32
  | b0 :: b1 :: b2 :: b3 :: rest => wordOfBytes b0 b1 b2 b3 :: wordsOfBytes rest
  | _ => []

/-- `res` with the `int carry` beside it. -/
structure Wide where
  res : List UInt32
  carry : Int

def Wide.add (wide : Wide) (tmp : List UInt8) : Wide :=
  let sum := Bigint.add wide.res (wordsOfBytes tmp)
  ⟨sum.1, wide.carry + sum.2.toNat⟩

def Wide.sub (wide : Wide) (tmp : List UInt8) : Wide :=
  let diff := Bigint.sub wide.res (wordsOfBytes tmp)
  ⟨diff.1, wide.carry - diff.2.toNat⟩

/-- `while (carry || above) carry -= bigint_sub(res, res, mod)`. -/
def reduceDown (mod : List UInt32) (above : List UInt32 → Bool) :
    Nat → Wide → Option (List UInt32)
  | 0, _ => none
  | fuel + 1, wide =>
      if wide.carry ≠ 0 ∨ above wide.res then
        let diff := Bigint.sub wide.res mod
        reduceDown mod above fuel ⟨diff.1, wide.carry - diff.2.toNat⟩
      else some wide.res

/-- `do carry += bigint_add(res, res, mod) while (carry < 0)`. -/
def reduceUp (mod : List UInt32) : Nat → Wide → Option (List UInt32)
  | 0, _ => none
  | fuel + 1, wide =>
      let sum := Bigint.add wide.res mod
      let carry := wide.carry + sum.2.toNat
      if carry < 0 then reduceUp mod fuel ⟨sum.1, carry⟩ else some sum.1

/-- The six contents of `tmp` that `bigint_mod_mult_fast_128` adds to `res`. -/
def tmp128 (product : Nat → UInt8) : List (List UInt8) := [
  [
    product 16, product 17, product 18, product 19,
    product 20, product 21, product 22, product 23,
    product 24, product 25, product 26, product 27,
    (product 28 &&& (1 : UInt8)) ||| (product 16 <<< 1), (product 16 >>> 7) ||| (product 17 <<< 1),
    (product 17 >>> 7) ||| (product 18 <<< 1), (product 18 >>> 7) ||| (product 19 <<< 1)],
  [
    (product 19 >>> 7) ||| (product 20 <<< 1), (product 20 >>> 7) ||| (product 21 <<< 1),
    (product 21 >>> 7) ||| (product 22 <<< 1), (product 22 >>> 7) ||| (product 23 <<< 1),
    (product 23 >>> 7) ||| (product 24 <<< 1), (product 24 >>> 7) ||| (product 25 <<< 1),
    (product 25 >>> 7) ||| (product 26 <<< 1), (product 26 >>> 7) ||| (product 27 <<< 1),
    (product 27 >>> 7) ||| (product 28 <<< 1), (product 28 >>> 7) ||| (product 29 <<< 1),
    (product 29 >>> 7) ||| (product 30 <<< 1), (product 30 >>> 7) ||| (product 31 <<< 1),
    (product 31 >>> 7) ||| ((product 19 &&& (0x80 : UInt8)) >>> 6) ||| (product 20 <<< 2),
    (product 20 >>> 6) ||| (product 21 <<< 2),
    (product 21 >>> 6) ||| (product 22 <<< 2), (product 22 >>> 6) ||| (product 23 <<< 2)],
  [
    (product 23 >>> 6) ||| (product 24 <<< 2), (product 24 >>> 6) ||| (product 25 <<< 2),
    (product 25 >>> 6) ||| (product 26 <<< 2), (product 26 >>> 6) ||| (product 27 <<< 2),
    (product 27 >>> 6) ||| (product 28 <<< 2), (product 28 >>> 6) ||| (product 29 <<< 2),
    (product 29 >>> 6) ||| (product 30 <<< 2), (product 30 >>> 6) ||| (product 31 <<< 2),
    product 31 >>> 6, 0, 0, 0,
    ((product 23 &&& (0xc0 : UInt8)) >>> 5) ||| (product 24 <<< 3),
    (product 24 >>> 5) ||| (product 25 <<< 3),
    (product 25 >>> 5) ||| (product 26 <<< 3), (product 26 >>> 5) ||| (product 27 <<< 3)],
  [
    (product 27 >>> 5) ||| (product 28 <<< 3), (product 28 >>> 5) ||| (product 29 <<< 3),
    (product 29 >>> 5) ||| (product 30 <<< 3), (product 30 >>> 5) ||| (product 31 <<< 3),
    product 31 >>> 5, 0, 0, 0, 0, 0, 0, 0,
    ((product 27 &&& (0xe0 : UInt8)) >>> 4) ||| (product 28 <<< 4),
    (product 28 >>> 4) ||| (product 29 <<< 4),
    (product 29 >>> 4) ||| (product 30 <<< 4), (product 30 >>> 4) ||| (product 31 <<< 4)],
  [
    product 31 >>> 4, 0, 0, 0, 0, 0, 0, 0, 0, 0, 0, 0,
    product 28 &&& (0xfe : UInt8), product 29, product 30, product 31],
  [0, 0, 0, 0, 0, 0, 0, 0, 0, 0, 0, 0, (product 31 &&& (0xf0 : UInt8)) >>> 3, 0, 0, 0]]

def modMultFast128 (fuel : Nat) (left right mod : List UInt32) : Option (List UInt32) := do
  let words ← mult left right
  let wide := (tmp128 (byte words)).foldl Wide.add ⟨words.take 4, 0⟩
  reduceDown mod (fun res => cmp res mod ≥ 0) fuel wide

def copyBytes (product : Nat → UInt8) (start count : Nat) : List UInt8 :=
  (List.range' start count).map product

def Wide.addDouble (wide : Wide) (tmp : List UInt8) : Wide × List UInt32 :=
  let doubled := lshift (wordsOfBytes tmp)
  let sum := Bigint.add wide.res doubled.1
  (⟨sum.1, wide.carry + doubled.2.toNat + sum.2.toNat⟩, doubled.1)

def zeroBytes (count : Nat) : List UInt8 := List.replicate count 0

/-- The two contents of `tmp` that are doubled; the first twelve bytes of the
second one are what the first one left there. -/
def tmp256Double (product : Nat → UInt8) (wide : Wide) : Wide :=
  let first := wide.addDouble (zeroBytes 12 ++ copyBytes product 44 20)
  (first.1.addDouble (copyBytes (byte first.2) 0 12 ++ copyBytes product 48 16 ++ zeroBytes 4)).1

def tmp256Add (product : Nat → UInt8) : List (List UInt8) := [
  copyBytes product 32 12 ++ zeroBytes 12 ++ copyBytes product 56 8,
  copyBytes product 36 12 ++ copyBytes product 52 12 ++ copyBytes product 52 4 ++
    copyBytes product 32 4]

def tmp256Sub (product : Nat → UInt8) : List (List UInt8) := [
  copyBytes product 44 12 ++ zeroBytes 12 ++ copyBytes product 32 4 ++ copyBytes product 40 4,
  copyBytes product 48 16 ++ zeroBytes 8 ++ copyBytes product 36 4 ++ copyBytes product 44 4,
  copyBytes product 52 12 ++ copyBytes product 32 12 ++ zeroBytes 4 ++ copyBytes product 48 4,
  copyBytes product 56 8 ++ zeroBytes 4 ++ copyBytes product 36 12 ++ zeroBytes 4 ++
    copyBytes product 52 4]

def modMultFast256 (fuel : Nat) (left right mod : List UInt32) : Option (List UInt32) := do
  let words ← mult left right
  let wide := tmp256Double (byte words) ⟨words.take 8, 0⟩
  let wide := (tmp256Add (byte words)).foldl Wide.add wide
  let wide := (tmp256Sub (byte words)).foldl Wide.sub wide
  if wide.carry < 0 then reduceUp mod fuel wide
  else reduceDown mod (fun res => cmp mod res ≠ 1) fuel wide

def modMultFast (fuel : Nat) (left right mod : List UInt32) : Option (List UInt32) :=
  if mod.length = 4 then modMultFast128 fuel left right mod
  else if mod.length = 8 then modMultFast256 fuel left right mod
  else none

/-- The number that `res` stands for with its carry. -/
def Wide.total (size : Nat) (wide : Wide) : Int := wide.carry * radix ^ size + value wide.res

theorem Wide.add_total {wide : Wide} {tmp : List UInt8} {size : Nat}
    (sized : wide.res.length = size) (sizeTmp : (wordsOfBytes tmp).length = size) :
    (wide.add tmp).res.length = size ∧
      (wide.add tmp).total size = wide.total size + value (wordsOfBytes tmp) := by
  obtain ⟨length, -, sum⟩ := add_value (sized.trans sizeTmp.symm)
  rw [sized] at sum
  refine ⟨length.trans sized, ?_⟩
  simp only [Wide.total, Wide.add]
  zify at sum
  linear_combination sum

theorem Wide.sub_total {wide : Wide} {tmp : List UInt8} {size : Nat}
    (sized : wide.res.length = size) (sizeTmp : (wordsOfBytes tmp).length = size) :
    (wide.sub tmp).res.length = size ∧
      (wide.sub tmp).total size = wide.total size - value (wordsOfBytes tmp) := by
  obtain ⟨length, -, difference⟩ := sub_value (sized.trans sizeTmp.symm)
  rw [sized] at difference
  refine ⟨length.trans sized, ?_⟩
  simp only [Wide.total, Wide.sub]
  zify at difference
  linear_combination difference

theorem Wide.addDouble_total {wide : Wide} {tmp : List UInt8} {size : Nat}
    (sized : wide.res.length = size) (sizeTmp : (wordsOfBytes tmp).length = size) :
    (wide.addDouble tmp).1.res.length = size ∧
      (wide.addDouble tmp).1.total size = wide.total size + 2 * value (wordsOfBytes tmp) := by
  obtain ⟨lengthD, -, doubled⟩ := lshift_value (wordsOfBytes tmp)
  obtain ⟨length, -, sum⟩ := add_value (sized.trans (lengthD.trans sizeTmp).symm)
  rw [sizeTmp] at doubled
  rw [sized] at sum
  refine ⟨length.trans sized, ?_⟩
  simp only [Wide.total, Wide.addDouble]
  zify at sum doubled
  linear_combination sum + doubled

theorem Wide.carry_nonneg_iff {wide : Wide} {size : Nat} (sized : wide.res.length = size) :
    0 ≤ wide.carry ↔ 0 ≤ wide.total size := by
  have weight : (0 : Int) < radix ^ size := by
    have positive := radix_pos
    positivity
  have small : (value wide.res : Int) < radix ^ size := by
    exact_mod_cast sized ▸ value_lt wide.res
  rw [Wide.total]
  constructor
  · intro nonneg
    exact add_nonneg (mul_nonneg nonneg (le_of_lt weight)) (Int.natCast_nonneg _)
  · intro nonneg
    by_contra negative
    have whole : wide.carry * (radix : Int) ^ size ≤ -1 * radix ^ size :=
      mul_le_mul_of_nonneg_right (by omega) (le_of_lt weight)
    omega

theorem wordsOfBytes_length (bytes : List UInt8) :
    (wordsOfBytes bytes).length = bytes.length / 4 := by
  induction bytes using wordsOfBytes.induct with
  | case1 b0 b1 b2 b3 rest ih =>
      simp only [wordsOfBytes, List.length_cons, ih]
      omega
  | case2 bytes short =>
      match bytes, short with
      | [], _ => rfl
      | [b0], _ => simp [wordsOfBytes]
      | [b0, b1], _ => simp [wordsOfBytes]
      | [b0, b1, b2], _ => simp [wordsOfBytes]
      | b0 :: b1 :: b2 :: b3 :: rest, short => exact absurd rfl (short b0 b1 b2 b3 rest)

theorem foldl_add_total (tmps : List (List UInt8)) {wide : Wide} {size : Nat}
    (sized : wide.res.length = size) (sizes : ∀ tmp ∈ tmps, (wordsOfBytes tmp).length = size) :
    (tmps.foldl Wide.add wide).res.length = size ∧
      (tmps.foldl Wide.add wide).total size =
        wide.total size + ((tmps.map fun tmp => value (wordsOfBytes tmp)).sum : Nat) := by
  induction tmps generalizing wide with
  | nil => simp [sized]
  | cons tmp rest ih =>
      obtain ⟨length, total⟩ := Wide.add_total sized (sizes tmp List.mem_cons_self)
      obtain ⟨length', total'⟩ :=
        ih length fun other member => sizes other (List.mem_cons_of_mem tmp member)
      refine ⟨length', ?_⟩
      rw [List.foldl_cons, total', total, List.map_cons, List.sum_cons, Nat.cast_add, add_assoc]

theorem foldl_sub_total (tmps : List (List UInt8)) {wide : Wide} {size : Nat}
    (sized : wide.res.length = size) (sizes : ∀ tmp ∈ tmps, (wordsOfBytes tmp).length = size) :
    (tmps.foldl Wide.sub wide).res.length = size ∧
      (tmps.foldl Wide.sub wide).total size =
        wide.total size - ((tmps.map fun tmp => value (wordsOfBytes tmp)).sum : Nat) := by
  induction tmps generalizing wide with
  | nil => simp [sized]
  | cons tmp rest ih =>
      obtain ⟨length, total⟩ := Wide.sub_total sized (sizes tmp List.mem_cons_self)
      obtain ⟨length', total'⟩ :=
        ih length fun other member => sizes other (List.mem_cons_of_mem tmp member)
      refine ⟨length', ?_⟩
      rw [List.foldl_cons, total', total, List.map_cons, List.sum_cons, Nat.cast_add, sub_sub]

section Reduce
variable {mod : List UInt32} {size : Nat} (sized : mod.length = size)

include sized in
/-- One subtraction of the modulus, with its borrow taken from the carry. -/
theorem Wide.lower_total {wide : Wide} (sizeRes : wide.res.length = size) :
    (Bigint.sub wide.res mod).1.length = size ∧
      (Wide.mk (Bigint.sub wide.res mod).1
        (wide.carry - (Bigint.sub wide.res mod).2.toNat)).total size =
          wide.total size - value mod := by
  obtain ⟨length, -, difference⟩ := sub_value (sizeRes.trans sized.symm)
  rw [sizeRes] at length difference
  refine ⟨length, ?_⟩
  simp only [Wide.total]
  zify at difference
  linear_combination difference

include sized in
theorem Wide.raise_total {wide : Wide} (sizeRes : wide.res.length = size) :
    (Bigint.add wide.res mod).1.length = size ∧
      (Wide.mk (Bigint.add wide.res mod).1
        (wide.carry + (Bigint.add wide.res mod).2.toNat)).total size =
          wide.total size + value mod := by
  obtain ⟨length, -, sum⟩ := add_value (sizeRes.trans sized.symm)
  rw [sizeRes] at length sum
  refine ⟨length, ?_⟩
  simp only [Wide.total]
  zify at sum
  linear_combination sum

include sized in
theorem reduceDown_value (above : List UInt32 → Bool)
    (tests : ∀ res : List UInt32, res.length = size → (above res = true ↔ value mod ≤ value res))
    (fuel : Nat) {wide : Wide} (sizeRes : wide.res.length = size) (carry : 0 ≤ wide.carry)
    (enough : wide.total size < fuel * value mod) :
    ∃ res, reduceDown mod above fuel wide = some res ∧ res.length = size ∧
      (value res : Int) = wide.total size % value mod := by
  have bound : (value mod : Int) < radix ^ size := by
    exact_mod_cast sized ▸ value_lt mod
  induction fuel generalizing wide with
  | zero =>
      have low := (Wide.carry_nonneg_iff sizeRes).mp carry
      rw [Nat.cast_zero, zero_mul] at enough
      omega
  | succ fuel ih =>
      rw [reduceDown]
      by_cases loops : wide.carry ≠ 0 ∨ above wide.res = true
      · rw [if_pos loops]
        obtain ⟨length, next⟩ := Wide.lower_total sized sizeRes
        -- Whichever test holds, the total is at least the modulus.
        have high : (value mod : Int) ≤ wide.total size := by
          rw [Wide.total]
          rcases loops with nonzero | larger
          · have one : 1 ≤ wide.carry := by omega
            have whole : (radix : Int) ^ size ≤ wide.carry * radix ^ size :=
              le_mul_of_one_le_left (by positivity) one
            omega
          · have order := (tests wide.res sizeRes).mp larger
            have part : 0 ≤ wide.carry * (radix : Int) ^ size := mul_nonneg carry (by positivity)
            omega
        have carry' := (Wide.carry_nonneg_iff length).mpr (next ▸ Int.sub_nonneg.mpr high)
        obtain ⟨res, run, length', remainder⟩ := ih length carry' (by
          rw [next]
          push_cast at enough
          linarith)
        refine ⟨res, run, length', ?_⟩
        rw [remainder, next, Int.sub_emod_right]
      · rw [if_neg loops]
        rw [not_or, not_not] at loops
        refine ⟨wide.res, rfl, sizeRes, ?_⟩
        have order : ¬ value mod ≤ value wide.res :=
          fun larger => loops.2 ((tests wide.res sizeRes).mpr larger)
        rw [Wide.total, loops.1, zero_mul, zero_add]
        exact (Int.emod_eq_of_lt (Int.natCast_nonneg _) (by omega)).symm

include sized in
theorem reduceUp_value (fuel : Nat) {wide : Wide} (sizeRes : wide.res.length = size)
    (carry : wide.carry < 0) (enough : -wide.total size ≤ fuel * value mod) :
    ∃ res, reduceUp mod fuel wide = some res ∧ res.length = size ∧
      (value res : Int) = wide.total size % value mod := by
  have bound : (value mod : Int) < radix ^ size := by
    exact_mod_cast sized ▸ value_lt mod
  induction fuel generalizing wide with
  | zero =>
      have low : ¬ 0 ≤ wide.total size :=
        fun nonneg => absurd ((Wide.carry_nonneg_iff sizeRes).mpr nonneg) (by omega)
      rw [Nat.cast_zero, zero_mul] at enough
      omega
  | succ fuel ih =>
      rw [reduceUp]
      have low : ¬ 0 ≤ wide.total size :=
        fun nonneg => absurd ((Wide.carry_nonneg_iff sizeRes).mpr nonneg) (by omega)
      obtain ⟨length, next⟩ := Wide.raise_total sized sizeRes
      by_cases again : wide.carry + (add wide.res mod).2.toNat < 0
      · rw [if_pos again]
        obtain ⟨res, run, length', remainder⟩ := ih length again (by
          rw [next]
          push_cast at enough
          linarith)
        refine ⟨res, run, length', ?_⟩
        rw [remainder, next, Int.add_emod_right]
      · rw [if_neg again]
        refine ⟨_, rfl, length, ?_⟩
        have carry' : 0 ≤ wide.carry + (add wide.res mod).2.toNat := Int.not_lt.mp again
        have reduced : (Wide.mk (add wide.res mod).1
            (wide.carry + (add wide.res mod).2.toNat)).total size < value mod := by
          rw [next]
          omega
        -- The first total that is not negative is below the modulus, so its carry is zero.
        have plain : wide.carry + (add wide.res mod).2.toNat = 0 := by
          by_contra nonzero
          have one : 1 ≤ wide.carry + ((add wide.res mod).2.toNat : Int) := by omega
          have whole : (radix : Int) ^ size ≤
              (wide.carry + (add wide.res mod).2.toNat) * radix ^ size :=
            le_mul_of_one_le_left (by positivity) one
          simp only [Wide.total] at reduced
          omega
        rw [← Int.add_emod_right, ← next]
        simp only [Wide.total, plain, zero_mul, zero_add] at reduced ⊢
        exact (Int.emod_eq_of_lt (Int.natCast_nonneg _) reduced).symm

end Reduce

theorem byte_shiftLeft (b : UInt8) (shift : UInt32) (inside : shift.toNat ≤ 24) :
    (b.toUInt32 <<< shift).toNat = 2 ^ shift.toNat * b.toNat := by
  have bound := b.toNat_lt
  have weight : 2 ^ shift.toNat ≤ 2 ^ 24 := Nat.pow_le_pow_right (by decide) inside
  rw [UInt32.toNat_shiftLeft, Nat.mod_eq_of_lt (by omega : shift.toNat < 32), Nat.shiftLeft_eq,
    UInt8.toNat_toUInt32, Nat.mul_comm]
  apply Nat.mod_eq_of_lt
  calc 2 ^ shift.toNat * b.toNat ≤ 2 ^ 24 * b.toNat := Nat.mul_le_mul_right _ weight
    _ < 2 ^ 32 := by omega

theorem wordOfBytes_toNat (b0 b1 b2 b3 : UInt8) :
    (wordOfBytes b0 b1 b2 b3).toNat =
      b0.toNat + 2 ^ 8 * b1.toNat + 2 ^ 16 * b2.toNat + 2 ^ 24 * b3.toNat := by
  have bound0 := b0.toNat_lt
  have bound1 := b1.toNat_lt
  have bound2 := b2.toNat_lt
  have bound3 := b3.toNat_lt
  have at8 : (b1.toUInt32 <<< 8).toNat = 2 ^ 8 * b1.toNat := byte_shiftLeft b1 8 (by decide)
  have at16 : (b2.toUInt32 <<< 16).toNat = 2 ^ 16 * b2.toNat := byte_shiftLeft b2 16 (by decide)
  have at24 : (b3.toUInt32 <<< 24).toNat = 2 ^ 24 * b3.toNat := byte_shiftLeft b3 24 (by decide)
  have low : b0.toUInt32.toNat = b0.toNat := UInt8.toNat_toUInt32 b0
  have two : (b0.toUInt32 ||| (b1.toUInt32 <<< 8)).toNat = b0.toNat + 2 ^ 8 * b1.toNat := by
    rw [UInt32.or_comm, or_bits _ _ 8 (by omega) (by omega), at8, low, Nat.add_comm]
  have three : (b0.toUInt32 ||| (b1.toUInt32 <<< 8) ||| (b2.toUInt32 <<< 16)).toNat =
      b0.toNat + 2 ^ 8 * b1.toNat + 2 ^ 16 * b2.toNat := by
    rw [UInt32.or_comm, or_bits _ _ 16 (by omega) (by omega), at16, two, Nat.add_comm]
  rw [wordOfBytes, UInt32.or_comm, or_bits _ _ 24 (by omega) (by omega), at24, three, Nat.add_comm]

theorem wordByte_toNat (word : UInt32) {index : Nat} (small : index < 4) :
    (wordByte word index).toNat = word.toNat / 2 ^ (8 * index) % 2 ^ 8 := by
  have shift : 8 * index % 2 ^ 32 % 32 = 8 * index := by omega
  rw [wordByte, UInt32.toNat_toUInt8, UInt32.toNat_shiftRight, UInt32.toNat_ofNat', shift,
    Nat.shiftRight_eq_div_pow]

theorem wordOfBytes_wordByte (word : UInt32) :
    wordOfBytes (wordByte word 0) (wordByte word 1) (wordByte word 2) (wordByte word 3) = word := by
  have bound := word.toNat_lt
  apply UInt32.toNat_inj.mp
  rw [wordOfBytes_toNat, wordByte_toNat word (by decide), wordByte_toNat word (by decide),
    wordByte_toNat word (by decide), wordByte_toNat word (by decide)]
  omega

theorem top_bits (word : UInt32) {down : UInt8} (high : down.toNat < 8) :
    (wordByte word 3 >>> down).toNat = word.toNat / 2 ^ (24 + down.toNat) := by
  have bound := word.toNat_lt
  rw [UInt8.toNat_shiftRight, Nat.mod_eq_of_lt high, Nat.shiftRight_eq_div_pow,
    wordByte_toNat word (by decide), pow_add, ← Nat.div_div_eq_div_mul, Nat.mod_eq_of_lt (by omega)]

section Shifted
variable (up down : UInt8) (width : up.toNat + down.toNat = 8) (low : 0 < up.toNat)
  (high : 0 < down.toNat)

include width low high in
theorem or_bytes (carry current : UInt8) (small : carry.toNat < 2 ^ up.toNat) :
    (carry ||| (current <<< up)).toNat + 2 ^ 8 * (current >>> down).toNat =
        carry.toNat + 2 ^ up.toNat * current.toNat ∧
      (current >>> down).toNat < 2 ^ up.toNat := by
  have weight : 2 ^ 8 = 2 ^ down.toNat * 2 ^ up.toNat := by
    rw [← pow_add, Nat.add_comm, width]
  have bound : current.toNat < 2 ^ down.toNat * 2 ^ up.toNat := weight ▸ current.toNat_lt
  have shifted : (current <<< up).toNat = current.toNat % 2 ^ down.toNat * 2 ^ up.toNat := by
    rw [UInt8.toNat_shiftLeft, Nat.mod_eq_of_lt (by omega : up.toNat < 8), Nat.shiftLeft_eq, weight,
      Nat.mul_mod_mul_right]
  have dropped : (current >>> down).toNat = current.toNat / 2 ^ down.toNat := by
    rw [UInt8.toNat_shiftRight, Nat.mod_eq_of_lt (by omega : down.toNat < 8),
      Nat.shiftRight_eq_div_pow]
  have joined : (carry ||| (current <<< up)).toNat =
      carry.toNat + current.toNat % 2 ^ down.toNat * 2 ^ up.toNat := by
    rw [UInt8.or_comm, UInt8.toNat_or, shifted, ← Nat.shiftLeft_eq,
      ← Nat.shiftLeft_add_eq_or_of_lt small, Nat.shiftLeft_eq, Nat.add_comm]
  constructor
  · calc (carry ||| (current <<< up)).toNat + 2 ^ 8 * (current >>> down).toNat
        = carry.toNat + 2 ^ up.toNat * (current.toNat % 2 ^ down.toNat +
            2 ^ down.toNat * (current.toNat / 2 ^ down.toNat)) := by
          rw [joined, dropped, weight]
          ring
      _ = carry.toNat + 2 ^ up.toNat * current.toNat := by rw [Nat.mod_add_div]
  · rw [dropped]
    exact Nat.div_lt_of_lt_mul bound

include width low high in
theorem shifted_word (carry : UInt8) (word : UInt32) (small : carry.toNat < 2 ^ up.toNat) :
    (wordOfBytes (carry ||| (wordByte word 0 <<< up))
        ((wordByte word 0 >>> down) ||| (wordByte word 1 <<< up))
        ((wordByte word 1 >>> down) ||| (wordByte word 2 <<< up))
        ((wordByte word 2 >>> down) ||| (wordByte word 3 <<< up))).toNat +
      radix * (word.toNat / 2 ^ (24 + down.toNat)) =
        carry.toNat + 2 ^ up.toNat * word.toNat := by
  obtain ⟨first, small0⟩ := or_bytes up down width low high carry (wordByte word 0) small
  obtain ⟨second, small1⟩ := or_bytes up down width low high _ (wordByte word 1) small0
  obtain ⟨third, small2⟩ := or_bytes up down width low high _ (wordByte word 2) small1
  obtain ⟨fourth, -⟩ := or_bytes up down width low high _ (wordByte word 3) small2
  have whole := wordOfBytes_toNat (wordByte word 0) (wordByte word 1) (wordByte word 2)
    (wordByte word 3)
  rw [wordOfBytes_wordByte] at whole
  rw [wordOfBytes_toNat, radix_eq, ← top_bits word (show down.toNat < 8 by omega), whole]
  linear_combination first + 2 ^ 8 * second + 2 ^ 16 * third + 2 ^ 24 * fourth

end Shifted

theorem mask_upper : ∀ b < 2 ^ 8, (b &&& 0x80) >>> 6 = 2 * (b / 2 ^ 7) ∧
    (b &&& 0xc0) >>> 5 = 2 * (b / 2 ^ 6) ∧ (b &&& 0xe0) >>> 4 = 2 * (b / 2 ^ 5) ∧
      (b &&& 0xf0) >>> 3 = 2 * (b / 2 ^ 4) ∧ (b &&& 0xfe) = 2 * (b / 2) := by
  decide +kernel

theorem masked_top (word : UInt32) :
    ((wordByte word 3 &&& 0x80) >>> 6).toNat = 2 * (word.toNat / 2 ^ 31) ∧
      ((wordByte word 3 &&& 0xc0) >>> 5).toNat = 2 * (word.toNat / 2 ^ 30) ∧
      ((wordByte word 3 &&& 0xe0) >>> 4).toNat = 2 * (word.toNat / 2 ^ 29) ∧
      ((wordByte word 3 &&& 0xf0) >>> 3).toNat = 2 * (word.toNat / 2 ^ 28) := by
  have bound := word.toNat_lt
  have top : (wordByte word 3).toNat = word.toNat / 2 ^ 24 := by
    rw [wordByte_toNat word (by decide), Nat.mod_eq_of_lt (by omega)]
  obtain ⟨mask80, maskC0, maskE0, maskF0, -⟩ :=
    mask_upper (wordByte word 3).toNat (wordByte word 3).toNat_lt
  rw [top, Nat.div_div_eq_div_mul, ← pow_add] at mask80 maskC0 maskE0 maskF0
  simp only [UInt8.toNat_shiftRight, UInt8.toNat_and, top]
  exact ⟨mask80, maskC0, maskE0, maskF0⟩

theorem cleared_word (word : UInt32) :
    (wordOfBytes (wordByte word 0 &&& 0xfe) (wordByte word 1) (wordByte word 2)
      (wordByte word 3)).toNat + word.toNat % 2 = word.toNat := by
  have bound := word.toNat_lt
  have masked : (wordByte word 0 &&& 0xfe).toNat = 2 * ((wordByte word 0).toNat / 2) := by
    rw [UInt8.toNat_and]
    exact (mask_upper _ (wordByte word 0).toNat_lt).2.2.2.2
  rw [wordOfBytes_toNat, masked, wordByte_toNat word (by decide), wordByte_toNat word (by decide),
    wordByte_toNat word (by decide), wordByte_toNat word (by decide)]
  omega

/-- Modulus of `curve_128`, with `2 ^ 128 = 2 ^ 97 + 1` modulo it. -/
def prime128 : Nat := 2 ^ 128 - 2 ^ 97 - 1

theorem wordOfBytes_low (b : UInt8) : (wordOfBytes b 0 0 0).toNat = b.toNat := by
  rw [wordOfBytes_toNat]
  simp only [UInt8.toNat_zero, Nat.mul_zero, Nat.add_zero]

/-- What the six additions fold back is the upper half of the product. -/
theorem tmp128_value (l0 l1 l2 l3 h0 h1 h2 h3 : UInt32) :
    ∃ multiple, ((tmp128 (byte [l0, l1, l2, l3, h0, h1, h2, h3])).map fun tmp =>
      value (wordsOfBytes tmp)).sum + prime128 * multiple =
        radix ^ 4 * value [h0, h1, h2, h3] := by
  have bound := h3.toNat_lt
  have top7 : ∀ word, (wordByte word 3 >>> 7).toNat = word.toNat / 2 ^ 31 :=
    fun word => top_bits word (by decide)
  have top6 : ∀ word, (wordByte word 3 >>> 6).toNat = word.toNat / 2 ^ 30 :=
    fun word => top_bits word (by decide)
  have top5 : ∀ word, (wordByte word 3 >>> 5).toNat = word.toNat / 2 ^ 29 :=
    fun word => top_bits word (by decide)
  have top4 : ∀ word, (wordByte word 3 >>> 4).toNat = word.toNat / 2 ^ 28 :=
    fun word => top_bits word (by decide)
  have small : ∀ word : UInt32, word.toNat / 2 ^ 31 < 2 ^ 1 ∧ word.toNat / 2 ^ 30 < 2 ^ 2 ∧
      word.toNat / 2 ^ 29 < 2 ^ 3 ∧ word.toNat / 2 ^ 28 < 2 ^ 4 := by
    intro word
    have inside := word.toNat_lt
    omega
  have shift1 : ∀ (carry : UInt8) (word : UInt32), carry.toNat < 2 ^ 1 → _ :=
    fun carry word => shifted_word 1 7 rfl (by decide) (by decide) carry word
  have shift2 : ∀ (carry : UInt8) (word : UInt32), carry.toNat < 2 ^ 2 → _ :=
    fun carry word => shifted_word 2 6 rfl (by decide) (by decide) carry word
  have shift3 : ∀ (carry : UInt8) (word : UInt32), carry.toNat < 2 ^ 3 → _ :=
    fun carry word => shifted_word 3 5 rfl (by decide) (by decide) carry word
  have shift4 : ∀ (carry : UInt8) (word : UInt32), carry.toNat < 2 ^ 4 → _ :=
    fun carry word => shifted_word 4 4 rfl (by decide) (by decide) carry word
  have low : (wordByte h3 0 &&& 1).toNat = h3.toNat % 2 := by
    rw [UInt8.toNat_and, UInt8.toNat_one, Nat.and_one_is_mod, wordByte_toNat h3 (by decide)]
    omega
  have mixed : ((wordByte h3 3 >>> 7) ||| ((wordByte h0 3 &&& 0x80) >>> 6)).toNat =
      h3.toNat / 2 ^ 31 + 2 * (h0.toNat / 2 ^ 31) := by
    have joined := Nat.shiftLeft_add_eq_or_of_lt (small h3).1 (h0.toNat / 2 ^ 31)
    rw [Nat.shiftLeft_eq, pow_one] at joined
    rw [UInt8.or_comm, UInt8.toNat_or, (masked_top h0).1, top7, Nat.mul_comm, ← joined,
      Nat.add_comm]
  -- One equation for each word that is shifted with bits of its neighbour.
  have a1 := shift1 _ h0 (by rw [low]; omega)
  have a2 := shift1 _ h1 (by rw [top7 h0]; exact (small h0).1)
  have a3 := shift1 _ h2 (by rw [top7 h1]; exact (small h1).1)
  have a4 := shift1 _ h3 (by rw [top7 h2]; exact (small h2).1)
  have a5 := shift2 _ h1 (by
    rw [mixed]
    have one := (small h3).1
    have one' := (small h0).1
    omega)
  have a6 := shift2 _ h2 (by rw [top6 h1]; exact (small h1).2.1)
  have a7 := shift2 _ h3 (by rw [top6 h2]; exact (small h2).2.1)
  have a8 := shift3 _ h2 (by
    rw [(masked_top h1).2.1]
    have one := (small h1).2.1
    omega)
  have a9 := shift3 _ h3 (by rw [top5 h2]; exact (small h2).2.2.1)
  have a10 := shift4 _ h3 (by
    rw [(masked_top h2).2.2.1]
    have one := (small h2).2.2.1
    omega)
  have a11 := cleared_word h3
  rw [low] at a1
  rw [top7 h0] at a2
  rw [top7 h1] at a3
  rw [top7 h2] at a4
  rw [mixed] at a5
  rw [top6 h1] at a6
  rw [top6 h2] at a7
  rw [(masked_top h1).2.1] at a8
  rw [top5 h2] at a9
  rw [(masked_top h2).2.2.1] at a10
  simp only [UInt8.reduceToNat, Nat.reduceAdd] at a1 a2 a3 a4 a5 a6 a7 a8 a9 a10
  refine ⟨value [h0, h1, h2, h3] + (h0.toNat / 2 ^ 31 + 2 * value [h1, h2, h3]) +
    (h1.toNat / 2 ^ 30 + 2 ^ 2 * value [h2, h3]) + (h2.toNat / 2 ^ 29 + 2 ^ 3 * value [h3]) +
    h3.toNat / 2 ^ 28, ?_⟩
  simp only [tmp128, byte, Nat.reduceDiv, Nat.reduceMod, List.getD_cons_succ, List.getD_cons_zero,
    wordsOfBytes, List.map_cons, List.map_nil, List.sum_cons, List.sum_nil, value_cons, value_nil,
    wordOfBytes_wordByte, wordOfBytes_low, top6, top5, top4, (masked_top h3).2.2.2,
    UInt8.toNat_zero, radix_eq] at *
  -- The weight of an equation is the place of its word in the summand.
  rw [prime128]
  linear_combination 2 ^ 96 * (a1 + a5 + a8 + a10 + a11) + a2 + a6 + a9 + 2 ^ 32 * (a3 + a7) +
    2 ^ 64 * a4

theorem tmp128_length (product : Nat → UInt8) :
    ∀ tmp ∈ tmp128 product, (wordsOfBytes tmp).length = 4 := by
  simp [tmp128, wordsOfBytes]

theorem sum_values_le (tmps : List (List UInt8)) {size : Nat}
    (sizes : ∀ tmp ∈ tmps, (wordsOfBytes tmp).length = size) :
    (tmps.map fun tmp => value (wordsOfBytes tmp)).sum ≤ tmps.length * radix ^ size := by
  have each := List.sum_le_card_nsmul (tmps.map fun tmp => value (wordsOfBytes tmp)) (radix ^ size)
    (by
      intro total member
      obtain ⟨tmp, inside, rfl⟩ := List.mem_map.mp member
      rw [← sizes tmp inside]
      exact Nat.le_of_lt (value_lt _))
  rwa [List.length_map, smul_eq_mul] at each

theorem wide128_total {words : List UInt32} (sized : words.length = 8) :
    ((tmp128 (byte words)).foldl Wide.add ⟨words.take 4, 0⟩).res.length = 4 ∧
      ∃ total multiple : Nat,
        ((tmp128 (byte words)).foldl Wide.add ⟨words.take 4, 0⟩).total 4 = total ∧
          total < 7 * radix ^ 4 ∧ total + prime128 * multiple = value words := by
  obtain ⟨l0, l1, l2, l3, h0, h1, h2, h3, rfl⟩ : ∃ l0 l1 l2 l3 h0 h1 h2 h3 : UInt32,
      words = [l0, l1, l2, l3, h0, h1, h2, h3] := by
    match words, sized with
    | [l0, l1, l2, l3, h0, h1, h2, h3], _ => exact ⟨l0, l1, l2, l3, h0, h1, h2, h3, rfl⟩
  have sizes := tmp128_length (byte [l0, l1, l2, l3, h0, h1, h2, h3])
  have bounded := sum_values_le _ sizes
  obtain ⟨multiple, folded⟩ := tmp128_value l0 l1 l2 l3 h0 h1 h2 h3
  obtain ⟨length, sum⟩ := foldl_add_total _
    (show (Wide.mk [l0, l1, l2, l3] 0).res.length = 4 from rfl) sizes
  generalize ((tmp128 (byte [l0, l1, l2, l3, h0, h1, h2, h3])).map fun tmp =>
    value (wordsOfBytes tmp)).sum = added at bounded folded sum
  refine ⟨length, value [l0, l1, l2, l3] + added, multiple, sum.trans ?_, ?_, ?_⟩
  · simp [Wide.total]
  · have low : value [l0, l1, l2, l3] < radix ^ 4 := value_lt [l0, l1, l2, l3]
    rw [show (tmp128 (byte [l0, l1, l2, l3, h0, h1, h2, h3])).length = 6 from rfl] at bounded
    omega
  · rw [Nat.add_assoc, folded]
    exact (value_append [l0, l1, l2, l3] [h0, h1, h2, h3]).symm

theorem modMultFast128_value {left right mod : List UInt32} {fuel : Nat}
    (sizeLeft : left.length = 4) (sizeRight : right.length = 4) (sizeMod : mod.length = 4)
    (modulus : value mod = prime128) (enough : 16 ≤ fuel) :
    ∃ words, modMultFast128 fuel left right mod = some words ∧ words.length = 4 ∧
      value words = value left * value right % value mod := by
  obtain ⟨product, run, length, exactly⟩ :=
    mult_value (sizeLeft.trans sizeRight.symm) (by omega) (by omega)
  obtain ⟨sizeRes, total, multiple, sum, bounded, folded⟩ :=
    wide128_total (length.trans (by rw [sizeLeft]))
  have fits : total < fuel * value mod :=
    calc total < 7 * radix ^ 4 := bounded
      _ ≤ 16 * prime128 := by decide
      _ ≤ fuel * value mod := by rw [modulus]; exact Nat.mul_le_mul_right _ enough
  have tests : ∀ res : List UInt32, res.length = 4 →
      (decide (cmp res mod ≥ 0) = true ↔ value mod ≤ value res) := by
    intro res sized
    rw [decide_eq_true_iff]
    exact cmp_nonneg_iff (sized.trans sizeMod.symm)
  obtain ⟨res, reduced, lengthRes, remainder⟩ := reduceDown_value sizeMod
    (fun res => cmp res mod ≥ 0) tests fuel sizeRes
    ((Wide.carry_nonneg_iff sizeRes).mpr (by rw [sum]; exact Int.natCast_nonneg _))
    (by rw [sum]; exact_mod_cast fits)
  refine ⟨res, ?_, lengthRes, ?_⟩
  · simp only [modMultFast128, run, Option.bind_eq_bind, Option.bind_some]
    exact reduced
  · rw [sum] at remainder
    rw [← exactly, ← folded, ← modulus, Nat.add_mul_mod_self_left]
    exact_mod_cast remainder

def prime256 : Nat := 2 ^ 256 - 2 ^ 224 + 2 ^ 192 + 2 ^ 96 - 1

section Words
variable (w0 w1 w2 w3 w4 w5 w6 w7 w8 w9 w10 w11 w12 w13 w14 w15 : UInt32)

theorem wordOfBytes_zero : wordOfBytes 0 0 0 0 = 0 := by decide

theorem doubled_low (rest : List UInt32) :
    copyBytes (byte (lshift (0 :: 0 :: 0 :: rest)).1) 0 12 = zeroBytes 12 := by
  have shifted : (lshift (0 :: 0 :: 0 :: rest)).1 = 0 :: 0 :: 0 :: (lshift rest).1 := by
    simp [lshift, lshiftLoop]
  have zero : ∀ index, wordByte 0 index = 0 := by simp [wordByte]
  simp [shifted, copyBytes, List.range', byte, zero, zeroBytes, List.replicate]

theorem tmp256Double_total {wide : Wide} (sized : wide.res.length = 8) :
    let words := [w0, w1, w2, w3, w4, w5, w6, w7, w8, w9, w10, w11, w12, w13, w14, w15]
    (tmp256Double (byte words) wide).res.length = 8 ∧
      (tmp256Double (byte words) wide).total 8 = wide.total 8 +
        2 * value [0, 0, 0, w11, w12, w13, w14, w15] +
        2 * value [0, 0, 0, w12, w13, w14, w15, 0] := by
  intro words
  have first : wordsOfBytes (zeroBytes 12 ++ copyBytes (byte words) 44 20) =
      [0, 0, 0, w11, w12, w13, w14, w15] := by
    simp [words, zeroBytes, copyBytes, List.range', byte, wordsOfBytes, wordOfBytes_wordByte,
      wordOfBytes_zero]
  have second : wordsOfBytes (zeroBytes 12 ++ copyBytes (byte words) 48 16 ++ zeroBytes 4) =
      [0, 0, 0, w12, w13, w14, w15, 0] := by
    simp [words, zeroBytes, copyBytes, List.range', byte, wordsOfBytes, wordOfBytes_wordByte,
      wordOfBytes_zero]
  have kept : (wide.addDouble (zeroBytes 12 ++ copyBytes (byte words) 44 20)).2 =
      (lshift [0, 0, 0, w11, w12, w13, w14, w15]).1 := by
    rw [Wide.addDouble, first]
  obtain ⟨length, total⟩ := Wide.addDouble_total sized
    (show (wordsOfBytes (zeroBytes 12 ++ copyBytes (byte words) 44 20)).length = 8 by rw [first]; rfl)
  obtain ⟨length', total'⟩ := Wide.addDouble_total length
    (show (wordsOfBytes (zeroBytes 12 ++ copyBytes (byte words) 48 16 ++ zeroBytes 4)).length = 8 by
      rw [second]; rfl)
  rw [tmp256Double, kept, doubled_low]
  refine ⟨length', ?_⟩
  rw [total', total, first, second]

theorem tmp256Add_words :
    (tmp256Add (byte [w0, w1, w2, w3, w4, w5, w6, w7, w8, w9, w10, w11, w12, w13, w14, w15])).map
      wordsOfBytes = [[w8, w9, w10, 0, 0, 0, w14, w15],
        [w9, w10, w11, w13, w14, w15, w13, w8]] := by
  simp [tmp256Add, zeroBytes, copyBytes, List.range', byte, wordsOfBytes, wordOfBytes_wordByte,
    wordOfBytes_zero]

theorem tmp256Sub_words :
    (tmp256Sub (byte [w0, w1, w2, w3, w4, w5, w6, w7, w8, w9, w10, w11, w12, w13, w14, w15])).map
      wordsOfBytes = [[w11, w12, w13, 0, 0, 0, w8, w10], [w12, w13, w14, w15, 0, 0, w9, w11],
        [w13, w14, w15, w8, w9, w10, 0, w12], [w14, w15, 0, w9, w10, w11, 0, w13]] := by
  simp [tmp256Sub, zeroBytes, copyBytes, List.range', byte, wordsOfBytes, wordOfBytes_wordByte,
    wordOfBytes_zero]

/-- The prime's words: what is doubled, added and subtracted differs from the
upper half of the product by a multiple of the modulus. -/
theorem tmp256_value :
    ∃ multiple : Int, 2 * (value [0, 0, 0, w11, w12, w13, w14, w15] : Int) +
        2 * value [0, 0, 0, w12, w13, w14, w15, 0] +
        (value [w8, w9, w10, 0, 0, 0, w14, w15] + value [w9, w10, w11, w13, w14, w15, w13, w8]) -
        (value [w11, w12, w13, 0, 0, 0, w8, w10] + value [w12, w13, w14, w15, 0, 0, w9, w11] +
          value [w13, w14, w15, w8, w9, w10, 0, w12] + value [w14, w15, 0, w9, w10, w11, 0, w13]) +
        prime256 * multiple =
      radix ^ 8 * value [w8, w9, w10, w11, w12, w13, w14, w15] := by
  refine ⟨w8.toNat + (1 + radix) * w9.toNat + (radix + radix ^ 2) * w10.toNat +
    (-1 + radix ^ 2 + radix ^ 3) * w11.toNat + (-1 - radix + radix ^ 3 + radix ^ 4) * w12.toNat +
    (-1 - radix - radix ^ 2 + radix ^ 4 + radix ^ 5) * w13.toNat +
    (-1 - radix - radix ^ 2 - radix ^ 3 + radix ^ 5 + radix ^ 6) * w14.toNat +
    (-radix - radix ^ 2 - radix ^ 3 - radix ^ 4 + radix ^ 6 + radix ^ 7) * w15.toNat, ?_⟩
  simp only [value_cons, value_nil, radix_eq, prime256, UInt32.toNat_zero]
  push_cast
  ring

end Words

theorem sizes_of_words {tmps : List (List UInt8)} {arrays : List (List UInt32)} {size : Nat}
    (words : tmps.map wordsOfBytes = arrays) (sizes : ∀ array ∈ arrays, array.length = size) :
    ∀ tmp ∈ tmps, (wordsOfBytes tmp).length = size := by
  intro tmp member
  exact sizes _ (words ▸ List.mem_map_of_mem member)

theorem wide256_total {words : List UInt32} (sized : words.length = 16) :
    let wide := (tmp256Sub (byte words)).foldl Wide.sub ((tmp256Add (byte words)).foldl Wide.add
      (tmp256Double (byte words) ⟨words.take 8, 0⟩))
    wide.res.length = 8 ∧ -(4 * radix ^ 8) < wide.total 8 ∧ wide.total 8 < 7 * radix ^ 8 ∧
      ∃ multiple : Int, wide.total 8 + prime256 * multiple = value words := by
  obtain ⟨w0, w1, w2, w3, w4, w5, w6, w7, w8, w9, w10, w11, w12, w13, w14, w15, rfl⟩ :
      ∃ w0 w1 w2 w3 w4 w5 w6 w7 w8 w9 w10 w11 w12 w13 w14 w15 : UInt32,
        words = [w0, w1, w2, w3, w4, w5, w6, w7, w8, w9, w10, w11, w12, w13, w14, w15] := by
    match words, sized with
    | [w0, w1, w2, w3, w4, w5, w6, w7, w8, w9, w10, w11, w12, w13, w14, w15], _ =>
      exact ⟨w0, w1, w2, w3, w4, w5, w6, w7, w8, w9, w10, w11, w12, w13, w14, w15, rfl⟩
  intro wide
  have added := tmp256Add_words w0 w1 w2 w3 w4 w5 w6 w7 w8 w9 w10 w11 w12 w13 w14 w15
  have removed := tmp256Sub_words w0 w1 w2 w3 w4 w5 w6 w7 w8 w9 w10 w11 w12 w13 w14 w15
  obtain ⟨length, double⟩ := tmp256Double_total w0 w1 w2 w3 w4 w5 w6 w7 w8 w9 w10 w11 w12 w13 w14 w15
    (show (Wide.mk [w0, w1, w2, w3, w4, w5, w6, w7] 0).res.length = 8 from rfl)
  obtain ⟨length', sum⟩ := foldl_add_total _ length (sizes_of_words added (by simp))
  obtain ⟨length'', difference⟩ := foldl_sub_total _ length' (sizes_of_words removed (by simp))
  have start : Wide.total 8 ⟨[w0, w1, w2, w3, w4, w5, w6, w7], 0⟩ =
      value [w0, w1, w2, w3, w4, w5, w6, w7] := by
    simp [Wide.total]
  have mapped : ∀ tmps : List (List UInt8), (tmps.map fun tmp => value (wordsOfBytes tmp)) =
      (tmps.map wordsOfBytes).map value := by
    intro tmps
    rw [List.map_map]
    rfl
  rw [mapped, added] at sum
  rw [mapped, removed] at difference
  rw [double, start] at sum
  rw [sum] at difference
  obtain ⟨multiple, folded⟩ := tmp256_value w8 w9 w10 w11 w12 w13 w14 w15
  simp only [List.map_cons, List.map_nil, List.sum_cons, List.sum_nil, Nat.add_zero,
    Nat.cast_add] at difference
  -- Seven summands at most, and four subtrahends.
  have bound : ∀ words : List UInt32, words.length = 8 → (value words : Int) < radix ^ 8 := by
    intro words eight
    exact_mod_cast eight ▸ value_lt words
  refine ⟨length'', ?_, ?_, multiple, ?_⟩
  · rw [show wide.total 8 = _ from difference]
    have b1 := bound [w11, w12, w13, 0, 0, 0, w8, w10] rfl
    have b2 := bound [w12, w13, w14, w15, 0, 0, w9, w11] rfl
    have b3 := bound [w13, w14, w15, w8, w9, w10, 0, w12] rfl
    have b4 := bound [w14, w15, 0, w9, w10, w11, 0, w13] rfl
    omega
  · rw [show wide.total 8 = _ from difference]
    have b0 := bound [w0, w1, w2, w3, w4, w5, w6, w7] rfl
    have b1 := bound [0, 0, 0, w11, w12, w13, w14, w15] rfl
    have b2 := bound [0, 0, 0, w12, w13, w14, w15, 0] rfl
    have b3 := bound [w8, w9, w10, 0, 0, 0, w14, w15] rfl
    have b4 := bound [w9, w10, w11, w13, w14, w15, w13, w8] rfl
    omega
  · have split : value [w0, w1, w2, w3, w4, w5, w6, w7, w8, w9, w10, w11, w12, w13, w14, w15] =
        value [w0, w1, w2, w3, w4, w5, w6, w7] +
          radix ^ 8 * value [w8, w9, w10, w11, w12, w13, w14, w15] :=
      value_append [w0, w1, w2, w3, w4, w5, w6, w7] [w8, w9, w10, w11, w12, w13, w14, w15]
    rw [show wide.total 8 = _ from difference]
    zify at split
    linear_combination folded - split

theorem modMultFast256_value {left right mod : List UInt32} {fuel : Nat}
    (sizeLeft : left.length = 8) (sizeRight : right.length = 8) (sizeMod : mod.length = 8)
    (modulus : value mod = prime256) (enough : 16 ≤ fuel) :
    ∃ words, modMultFast256 fuel left right mod = some words ∧ words.length = 8 ∧
      value words = value left * value right % value mod := by
  obtain ⟨product, run, length, exactly⟩ :=
    mult_value (sizeLeft.trans sizeRight.symm) (by omega) (by omega)
  obtain ⟨sizeRes, low, high, multiple, folded⟩ :=
    wide256_total (length.trans (by rw [sizeLeft]))
  have fits : (7 * radix ^ 8 : Int) ≤ fuel * value mod := by
    have least : 7 * radix ^ 8 ≤ 16 * prime256 := by decide
    rw [modulus]
    exact_mod_cast Nat.le_trans least (Nat.mul_le_mul_right _ enough)
  have tests : ∀ res : List UInt32, res.length = 8 →
      (decide (cmp mod res ≠ 1) = true ↔ value mod ≤ value res) := by
    intro res sized
    rw [decide_eq_true_iff, cmp_value (sizeMod.trans sized.symm)]
    split
    · constructor <;> intro contrary <;> omega
    · split <;> constructor <;> intro <;> omega
  simp only [modMultFast256, run, Option.bind_eq_bind, Option.bind_some]
  generalize (tmp256Sub (byte product)).foldl Wide.sub ((tmp256Add (byte product)).foldl Wide.add
    (tmp256Double (byte product) ⟨product.take 8, 0⟩)) = wide at sizeRes low high folded ⊢
  have congruent : ∀ res : List UInt32, (value res : Int) = wide.total 8 % value mod →
      value res = value left * value right % value mod := by
    intro res remainder
    zify
    rw [remainder, ← Nat.cast_mul, ← exactly, ← folded, ← modulus, Int.add_mul_emod_self_left]
  -- The subtrahends may outweigh the summands.
  by_cases negative : wide.carry < 0
  · rw [if_pos negative]
    obtain ⟨res, raised, lengthRes, remainder⟩ := reduceUp_value sizeMod fuel sizeRes
      negative (by omega)
    exact ⟨res, raised, lengthRes, congruent res remainder⟩
  · rw [if_neg negative]
    obtain ⟨res, lowered, lengthRes, remainder⟩ := reduceDown_value sizeMod
      (fun res => cmp mod res ≠ 1) tests fuel sizeRes (Int.not_lt.mp negative) (by omega)
    exact ⟨res, lowered, lengthRes, congruent res remainder⟩

end PiVccu.Bigint
