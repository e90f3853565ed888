import Mathlib.Data.List.Induction
import PiVccu.BigintMemory

/-!
`bigint_mod_mult` of `kernel/devkey.inc` in memory: the shift-and-subtract loop that
changes between `tmp` and `product`, with the multiple of the modulus shifted down in
two halves.
-/

namespace PiVccu.BigintMemory
open ArrayMemory Bigint Limbs

def rshiftFrom (carry : UInt32) : List UInt32 → List UInt32 × UInt32
  | [] => ([], carry)
  | word :: rest =>
      let shifted := rshiftFrom carry rest
      (((word >>> 1) ||| shifted.2) :: shifted.1, word <<< 31)

theorem rshiftFrom_zero (words : List UInt32) : rshiftFrom 0 words = rshiftLoop words := by
  induction words with
  | nil => rfl
  | cons word rest ih => rw [rshiftFrom, rshiftLoop, ih]

theorem rshiftFrom_append (carry word : UInt32) (words : List UInt32) :
    rshiftFrom carry (words ++ [word]) =
      ((rshiftFrom (word <<< 31) words).1 ++ [(word >>> 1) ||| carry],
        (rshiftFrom (word <<< 31) words).2) := by
  induction words with
  | nil => simp only [List.nil_append, rshiftFrom]
  | cons first rest ih =>
      rw [List.cons_append, rshiftFrom, ih]
      simp only [rshiftFrom, List.cons_append]

theorem rshiftDown_eq (words : List UInt32) {memory : Words} {bi : WordArray}
    {front back : List UInt32} (carry : UInt32) (shape : memory bi = front ++ (words ++ back)) :
    rshiftDown bi front.length words.length carry memory =
      some (Function.update memory bi (front ++ ((rshiftFrom carry words).1 ++ back))) := by
  induction words using List.reverseRecOn generalizing memory back carry with
  | nil => rw [List.length_nil, rshiftDown, rshiftFrom, ← shape, Function.update_eq_self]
  | append_singleton words word ih =>
      have position : front.length + words.length = (front ++ words).length :=
        List.length_append.symm
      have split : memory bi = (front ++ words) ++ word :: back := by
        rw [shape]
        simp
      -- The last word goes first and hands its lowest bit down.
      have loaded : load memory bi (front.length + words.length) = some word := by
        rw [load, split, position, List.getElem?_append_right (Nat.le_refl _), Nat.sub_self]
        rfl
      have inside : front.length + words.length < (memory bi).length := by
        rw [split]
        simp only [List.length_append, List.length_cons]
        omega
      have stored : store memory bi (front.length + words.length) ((word >>> 1) ||| carry) =
          some (Function.update memory bi
            (front ++ (words ++ ((word >>> 1) ||| carry) :: back))) := by
        rw [store, if_pos inside, split, position, List.set_append_right _ _ (Nat.le_refl _),
          Nat.sub_self, List.set_cons_zero, List.append_assoc]
      have next := ih (word <<< 31)
        (Function.update_self bi (front ++ (words ++ ((word >>> 1) ||| carry) :: back)) memory)
      rw [Function.update_idem] at next
      rw [List.length_append, List.length_singleton, rshiftDown]
      simp only [loaded, stored, Option.bind_eq_bind, Option.bind_some]
      rw [next, rshiftFrom_append]
      simp

theorem bigintRshift_eq {memory : Words} {bi : WordArray} {front words back : List UInt32}
    (shape : memory bi = front ++ (words ++ back)) :
    bigintRshift memory bi front.length words.length =
      some (Function.update memory bi (front ++ (rshift words ++ back))) := by
  rw [bigintRshift, rshiftDown_eq words 0 shape, rshiftFrom_zero]
  rfl

theorem set_orTop {words : List UInt32} {size : Nat} (sized : words.length = size + 1)
    (mask : UInt32) : words[size]? = some (words.getD size 0) ∧
      words.set size (words.getD size 0 ||| mask) = orTop words mask := by
  have inside : size < words.length := by omega
  have read : words.getD size 0 = words[size] := by
    rw [List.getD_eq_getElem?_getD, List.getElem?_eq_getElem inside, Option.getD_some]
  constructor
  · rw [read, List.getElem?_eq_getElem inside]
  · rw [orTop, show words.length - 1 = size by omega, List.modify_eq_set,
      List.getElem?_eq_getElem inside, Option.getD_some, read]

section Halve
variable {memory : Words} {live rest : List UInt32} {size : Nat}

theorem halveModM_eq (shape : memory .modM = live ++ rest)
    (sized : live.length = 2 * (size + 1)) :
    halveModM memory (size + 1) =
      some (Function.update memory .modM (rshiftDouble (size + 1) live ++ rest)) := by
  obtain ⟨low, word, words, rfl, lowSize, highSize⟩ := split_halves sized
  have shifted : (rshift low).length = size + 1 := (rshift_value low).1.trans lowSize
  have topSize : (orTop (rshift low) (word <<< 31)).length = size + 1 := by
    rw [orTop_length, shifted]
  have lowShape : memory .modM = [] ++ (low ++ (word :: words ++ rest)) := by
    rw [shape, List.append_assoc, List.nil_append]
  have first : bigintRshift memory .modM 0 (size + 1) =
      some (Function.update memory .modM (rshift low ++ (word :: words ++ rest))) := by
    have moved := bigintRshift_eq lowShape
    rwa [lowSize] at moved
  -- The lowest bit of the upper half becomes the top bit of the lower one.
  obtain ⟨read, orred⟩ := set_orTop shifted (word <<< 31)
  have loadLow : load (Function.update memory .modM (rshift low ++ (word :: words ++ rest)))
      .modM size = some ((rshift low).getD size 0) := by
    rw [load, Function.update_self, List.getElem?_append_left (by omega), read]
  have loadHigh : load (Function.update memory .modM (rshift low ++ (word :: words ++ rest)))
      .modM (size + 1) = some word := by
    rw [load, Function.update_self, List.getElem?_append_right (by omega), shifted, Nat.sub_self]
    rfl
  have stored : store (Function.update memory .modM (rshift low ++ (word :: words ++ rest)))
      .modM size ((rshift low).getD size 0 ||| (word <<< 31)) =
        some (Function.update memory .modM
          (orTop (rshift low) (word <<< 31) ++ (word :: words ++ rest))) := by
    have inside : size < (rshift low ++ (word :: words ++ rest)).length := by
      rw [List.length_append]
      omega
    rw [store, Function.update_self, if_pos inside, List.set_append_left _ _ (by omega), orred,
      Function.update_idem]
  have last : bigintRshift (Function.update memory .modM
        (orTop (rshift low) (word <<< 31) ++ (word :: words ++ rest))) .modM (size + 1) (size + 1) =
      some (Function.update memory .modM
        (orTop (rshift low) (word <<< 31) ++ (rshift (word :: words) ++ rest))) := by
    have moved := bigintRshift_eq (Function.update_self WordArray.modM
      (orTop (rshift low) (word <<< 31) ++ (word :: words ++ rest)) memory)
    rwa [topSize, highSize, Function.update_idem] at moved
  rw [halveModM, first]
  simp only [Option.bind_eq_bind, Option.bind_some, Nat.add_sub_cancel, loadLow, loadHigh, stored,
    last]
  rw [rshiftDouble_append lowSize, List.append_assoc]

end Halve

/-- `v[i]` and `mod_m` begin with the numbers of the list function; what is behind them
does not matter. -/
structure Reducing (memory : Words) (i : Bool) (size : Nat) (v modM : List UInt32) : Prop where
  current : ∃ rest, memory (pingPong i) = v ++ rest
  multiple : ∃ rest, memory .modM = modM ++ rest
  sizeV : v.length = 2 * size
  sizeM : modM.length = 2 * size
  room : 2 * size ≤ (memory (pingPong (!i))).length

theorem pingPong_ne (i : Bool) : pingPong i ≠ pingPong (!i) ∧ pingPong i ≠ .modM ∧
    ∀ name, pingPong i ≠ .caller name := by
  cases i <;> simp [pingPong]

theorem Reducing.round {memory : Words} {i : Bool} {size : Nat} {v modM : List UInt32}
    (reducing : Reducing memory i (size + 1) v modM) :
    ∃ memory' i', reduceRound (size + 1) i memory = some (memory', i') ∧
      Reducing memory' i' (size + 1) (if (sub v modM).2 = 0 then (sub v modM).1 else v)
        (rshiftDouble (size + 1) modM) ∧
      ∀ name, memory' (.caller name) = memory (.caller name) := by
  obtain ⟨⟨restV, current⟩, ⟨restM, multiple⟩, sizeV, sizeM, room⟩ := reducing
  obtain ⟨apart, notM, -⟩ := pingPong_ne i
  obtain ⟨-, otherM, otherCaller⟩ := pingPong_ne (!i)
  have sizeD : (sub v modM).1.length = 2 * (size + 1) :=
    (sub_value (sizeV.trans sizeM.symm)).1.trans sizeV
  have readV : (memory (pingPong i)).take ((size + 1) * 2) = v := by
    rw [current, List.take_left' (by omega)]
  have readM : (memory .modM).take ((size + 1) * 2) = modM := by
    rw [multiple, List.take_left' (by omega)]
  have subtracted : bigintSub memory (pingPong (!i)) (pingPong i) .modM ((size + 1) * 2) =
      some (written memory (pingPong (!i)) 0 (sub v modM).1, (sub v modM).2) := by
    rw [bigintSub_eq (by omega) (by rw [current, List.length_append]; omega)
      (by rw [multiple, List.length_append]; omega), readV, readM]
  have shape : written memory (pingPong (!i)) 0 (sub v modM).1 .modM = modM ++ restM := by
    rw [written_other _ _ _ otherM.symm, multiple]
  have lengths := written_length memory (pingPong (!i))
    (show 0 + (sub v modM).1.length ≤ _ by omega)
  have halved := halveModM_eq shape sizeM
  refine ⟨_, _, by rw [reduceRound, subtracted, Option.bind_eq_bind, Option.bind_some, halved]; rfl,
    ?_, ?_⟩
  · have next : ∃ rest, Function.update (written memory (pingPong (!i)) 0 (sub v modM).1) .modM
        (rshiftDouble (size + 1) modM ++ restM) .modM = rshiftDouble (size + 1) modM ++ rest :=
      ⟨restM, Function.update_self _ _ _⟩
    have sizeM' := (rshiftDouble_value sizeM).1.trans sizeM
    by_cases borrow : (sub v modM).2 = 0
    · -- No borrow: the difference is the new `v[i]`.
      have turn : (!(i ^^ decide ((sub v modM).2 ≠ 0))) = !i := by simp [borrow]
      rw [turn, if_pos borrow]
      refine ⟨⟨(memory (pingPong (!i))).drop (0 + (sub v modM).1.length), ?_⟩, next, sizeD, sizeM',
        ?_⟩
      · rw [Function.update_of_ne otherM, written_self, List.take_zero, List.nil_append]
      · rw [Bool.not_not, Function.update_of_ne notM, lengths, current, List.length_append]
        omega
    · -- A borrow: `v[i]` stays, and the next round writes over the difference.
      have stay : (!(i ^^ decide ((sub v modM).2 ≠ 0))) = i := by simp [borrow]
      rw [stay, if_neg borrow]
      refine ⟨⟨restV, ?_⟩, next, sizeV, sizeM', ?_⟩
      · rw [Function.update_of_ne notM, written_other _ _ _ apart, current]
      · rw [Function.update_of_ne otherM, lengths]
        exact room
  · intro name
    rw [Function.update_of_ne (by simp), written_other _ _ _ (otherCaller name).symm]

theorem Reducing.rounds (rounds : Nat) {memory : Words} {i : Bool} {size : Nat}
    {v modM : List UInt32} (reducing : Reducing memory i (size + 1) v modM) :
    ∃ memory' i', reduceRounds (size + 1) rounds i memory = some (memory', i') ∧
      (∃ rest, memory' (pingPong i') = modMultLoop (size + 1) rounds v modM ++ rest) ∧
      (modMultLoop (size + 1) rounds v modM).length = 2 * (size + 1) ∧
      ∀ name, memory' (.caller name) = memory (.caller name) := by
  induction rounds generalizing memory i v modM with
  | zero => exact ⟨memory, i, rfl, reducing.current, reducing.sizeV, fun _ => rfl⟩
  | succ rounds ih =>
      obtain ⟨middle, j, first, next, callers⟩ := reducing.round
      obtain ⟨last, k, rest, current, length, callers'⟩ := ih next
      refine ⟨last, k, ?_, current, length, fun name => (callers' name).trans (callers name)⟩
      rw [reduceRounds, first]
      exact rest

theorem written_place {memory : Words} {ptr : WordArray} {array words placed rest : List UInt32}
    {offset : Nat} (shape : memory ptr = array ++ rest)
    (fits : place array offset words = some placed) :
    offset + words.length ≤ (memory ptr).length ∧
      written memory ptr offset words = Function.update memory ptr (placed ++ rest) := by
  unfold place at fits
  split at fits
  next inside =>
    cases fits
    rw [shape, List.length_append]
    refine ⟨by omega, ?_⟩
    rw [written, shape, List.take_append_of_le_length (by omega),
      List.drop_append_of_le_length inside]
    simp
  next => cases fits

/-- The operands of a call have `size` words, the temporaries 16. -/
structure Sized (memory : Words) (operands : List Nat) (size : Nat) : Prop where
  caller : ∀ name ∈ operands, (memory (.caller name)).length = size
  product : (memory .product).length = temporaryWords
  modM : (memory .modM).length = temporaryWords
  tmp : (memory .tmp).length = temporaryWords

theorem written_whole {memory : Words} {ptr : WordArray} {words : List UInt32}
    (sized : (memory ptr).length = words.length) :
    written memory ptr 0 words = Function.update memory ptr words := by
  rw [written, List.take_zero, List.nil_append, Nat.zero_add,
    List.drop_eq_nil_of_le (Nat.le_of_eq sized), List.append_nil]

theorem written_caller {memory reduced : Words} {res : Nat} {words : List UInt32}
    (unchanged : ∀ name, reduced (.caller name) = memory (.caller name))
    (sized : (memory (.caller res)).length = words.length) (name : Nat) :
    written reduced (.caller res) 0 words (.caller name) =
      Function.update memory (.caller res) words (.caller name) := by
  rw [written_whole (by rw [unchanged, sized])]
  by_cases same : name = res
  · subst same
    rw [Function.update_self, Function.update_self]
  · have apart : WordArray.caller name ≠ .caller res := fun equal =>
      same (WordArray.caller.inj equal)
    rw [Function.update_of_ne apart, Function.update_of_ne apart, unchanged]

section ModMult
variable {memory : Words} {size : Nat}

theorem shiftedMod_eq (mod : Nat) (sized : (memory (.caller mod)).length = size)
    {shift : Nat} {modM rest : List UInt32}
    (shape : memory .modM = List.replicate (2 * size) 0 ++ rest)
    (shifted : shiftedMod (memory (.caller mod)) shift = some modM) :
    (if shift % 32 > 0 then
        (fill (wordRead (shiftWord (shift % 32)) (.caller mod)) .modM (shift / 32) size 0 0
          memory).map Prod.fst
      else bigintSet memory .modM (shift / 32) (.caller mod) size) =
    some (Function.update memory .modM (modM ++ rest)) := by
  have whole : (memory (.caller mod)).take size = memory (.caller mod) :=
    List.take_of_length_le (by omega)
  rw [shiftedMod, sized] at shifted
  by_cases moved : shift % 32 > 0
  · rw [if_pos moved] at shifted ⊢
    obtain ⟨inside, same⟩ := written_place shape shifted
    have collected : collect (wordRead (shiftWord (shift % 32)) (.caller mod) memory) size 0 0 =
        some (wordLoop (shiftWord (shift % 32)) ((memory (.caller mod)).take size) 0) :=
      collect_source (Nat.le_of_eq sized.symm) (shiftWord (shift % 32)) 0
    rw [whole] at collected
    rw [shiftWords_length, sized] at inside
    have source : WordArray.caller mod ≠ .modM := WordArray.noConfusion
    rw [fill_eq (stable_apart memory _ source _) collected inside, Option.map_some,
      wordLoop_shift, same]
  · rw [if_neg moved] at shifted ⊢
    obtain ⟨inside, same⟩ := written_place shape shifted
    rw [sized] at inside
    rw [bigintSet_eq (Nat.le_of_eq sized.symm) WordArray.noConfusion inside, whole, same]

theorem prepareModM_eq {left right mod : Nat}
    (sizes : Sized memory [left, right, mod] (size + 1)) (room : size + 1 ≤ 8) {shift : Nat}
    {product modM : List UInt32}
    (multiplied : mult (memory (.caller left)) (memory (.caller right)) = some product)
    (sizeP : product.length = 2 * (size + 1))
    (shifted : shiftedMod (memory (.caller mod)) shift = some modM)
    (sizeM : modM.length = 2 * (size + 1)) :
    ∃ memory', prepareModM memory (.caller left) (.caller right) (.caller mod) (size + 1) shift =
        some memory' ∧
      Reducing memory' true (size + 1) product modM ∧
      ∀ name, memory' (.caller name) = memory (.caller name) := by
  have sizeLeft := sizes.caller left (by simp)
  have sizeMod := sizes.caller mod (by simp)
  have roomP := sizes.product
  have roomM := sizes.modM
  have roomT := sizes.tmp
  rw [temporaryWords] at roomP roomM roomT
  have first : bigintMult memory .product (.caller left) (.caller right) (size + 1) =
      some (written memory .product 0 product) :=
    bigintMult_eq WordArray.noConfusion WordArray.noConfusion sizeLeft (Nat.succ_pos size)
      (by omega) multiplied
  have second : bigintClear (written memory .product 0 product) .modM ((size + 1) * 2) =
      some (written (written memory .product 0 product) .modM 0
        (List.replicate ((size + 1) * 2) 0)) :=
    bigintClear_eq (by rw [written_other _ _ _ WordArray.noConfusion]; omega)
  generalize cleared : written (written memory .product 0 product) .modM 0
    (List.replicate ((size + 1) * 2) 0) = middle at second
  -- Only `product` and `mod_m` have changed.
  have frame : ∀ ptr, ptr ≠ .product → ptr ≠ .modM → middle ptr = memory ptr :=
    fun ptr notP notM => by rw [← cleared, written_other _ _ _ notM, written_other _ _ _ notP]
  have zeroed : ∃ rest, middle .modM = List.replicate (2 * (size + 1)) 0 ++ rest :=
    ⟨_, by rw [← cleared, written_self, List.take_zero, List.nil_append, Nat.mul_comm]⟩
  obtain ⟨rest, shape⟩ := zeroed
  have modulus : middle (.caller mod) = memory (.caller mod) :=
    frame _ WordArray.noConfusion WordArray.noConfusion
  have third := shiftedMod_eq mod (modulus ▸ sizeMod) shape (modulus ▸ shifted)
  refine ⟨Function.update middle .modM (modM ++ rest), ?_, ⟨?_, ?_, sizeP, sizeM, ?_⟩, ?_⟩
  · rw [prepareModM, first]
    simp only [second, Option.bind_eq_bind, Option.bind_some]
    exact third
  · refine ⟨(memory .product).drop (0 + product.length), ?_⟩
    rw [pingPong, if_pos rfl, Function.update_of_ne WordArray.noConfusion, ← cleared,
      written_other _ _ _ WordArray.noConfusion, written_self, List.take_zero, List.nil_append]
  · exact ⟨rest, Function.update_self _ _ _⟩
  · rw [show pingPong (!true) = .tmp from rfl, Function.update_of_ne WordArray.noConfusion,
      frame _ WordArray.noConfusion WordArray.noConfusion]
    omega
  · intro name
    rw [Function.update_of_ne WordArray.noConfusion,
      frame _ WordArray.noConfusion WordArray.noConfusion]

theorem bigintModMult_eq {res left right mod : Nat}
    (sizes : Sized memory [res, left, right, mod] (size + 1)) (room : size + 1 ≤ 8)
    (top : radix ^ size ≤ value (memory (.caller mod))) :
    ∃ words memory', modMult (memory (.caller left)) (memory (.caller right))
        (memory (.caller mod)) = some words ∧
      bigintModMult memory (.caller res) (.caller left) (.caller right) (.caller mod) (size + 1) =
        some memory' ∧
      ∀ name, memory' (.caller name) = Function.update memory (.caller res) words (.caller name) := by
  have sizeRes := sizes.caller res (by simp)
  have sizeLeft := sizes.caller left (by simp)
  have sizeRight := sizes.caller right (by simp)
  have sizeMod := sizes.caller mod (by simp)
  have operands : Sized memory [left, right, mod] (size + 1) :=
    ⟨fun name member => sizes.caller name (List.mem_cons_of_mem res member), sizes.product,
      sizes.modM, sizes.tmp⟩
  have modulus : (memory (.caller mod)).take (size + 1) = memory (.caller mod) :=
    List.take_of_length_le (by omega)
  obtain ⟨product, multiplied, sizeP, -⟩ :=
    mult_value (sizeLeft.trans sizeRight.symm) (by omega) (by omega)
  obtain ⟨modM, shifted, sizeM, -, -⟩ := shiftedMod_value sizeMod top
  rw [sizeLeft] at sizeP
  rw [sizeMod] at shifted
  obtain ⟨middle, prepared, reducing, callers⟩ :=
    prepareModM_eq operands room multiplied sizeP shifted sizeM
  obtain ⟨reduced, i, looped, ⟨rest, current⟩, length, callers'⟩ :=
    reducing.rounds (32 * 2 * (size + 1) - numBits (memory (.caller mod)) + 1)
  have unchanged : ∀ name, reduced (.caller name) = memory (.caller name) :=
    fun name => (callers' name).trans (callers name)
  -- The remainder is copied out last, so that `res` may be any of the operands.
  have copied : bigintSet reduced (.caller res) 0 (pingPong i) (size + 1) =
      some (written reduced (.caller res) 0 ((reduced (pingPong i)).take (size + 1))) :=
    bigintSet_eq (by rw [current, List.length_append]; omega) ((pingPong_ne i).2.2 res)
      (by rw [unchanged, sizeRes]; omega)
  rw [current, List.take_append_of_le_length (by omega)] at copied
  have fits : ((modMultLoop (size + 1) (32 * 2 * (size + 1) - numBits (memory (.caller mod)) + 1)
      product modM).take (size + 1)).length = size + 1 := by
    rw [List.length_take]
    omega
  have listed : modMult (memory (.caller left)) (memory (.caller right)) (memory (.caller mod)) =
      some ((modMultLoop (size + 1) (32 * 2 * (size + 1) - numBits (memory (.caller mod)) + 1)
        product modM).take (size + 1)) := by
    rw [modMult, multiplied, sizeMod]
    simp only [Option.bind_eq_bind, Option.bind_some, shifted]
  generalize (modMultLoop _ _ product modM).take (size + 1) = words at copied fits listed
  refine ⟨words, written reduced (.caller res) 0 words, listed, ?_, ?_⟩
  · rw [bigintModMult, modulus]
    simp only [prepared, looped, Option.bind_eq_bind, Option.bind_some]
    exact copied
  · exact written_caller unchanged (sizeRes.trans fits.symm)

end ModMult

theorem top_word {words : List UInt32} {index : Nat} (nonzero : words.getD index 0 ≠ 0) :
    radix ^ index ≤ value words := by
  have place := digit_eq words index
  by_contra below
  rw [Nat.div_eq_of_lt (Nat.lt_of_not_le below), Nat.zero_mod] at place
  exact nonzero ((word_zero_iff _).mpr place)

section Plain
variable {memory : Words} {res left right mod size : Nat}

/-- Up to any point of the inner loop the accumulator has the exact sum. -/
theorem accumulator_exact (most : size ≤ 8)
    (sizeLeft : (memory (.caller left)).length = size)
    (sizeRight : (memory (.caller right)).length = size) (k count : Nat) (r01 : UInt64) :
    ∃ acc, ((multIndices size k).take count).foldlM
        (multTermAt memory (.caller left) (.caller right) k) ⟨r01, 0⟩ = some acc ∧
      acc.total = r01.toNat + (((multIndices size k).take count).map fun i =>
        digit (memory (.caller left)) i * digit (memory (.caller right)) (k - i)).sum := by
  have short := multIndices_length_le size k
  have shorter := List.length_take_le' count (multIndices size k)
  have inside : ∀ i ∈ (multIndices size k).take count,
      i < (memory (.caller left)).length ∧ k - i < (memory (.caller right)).length :=
    fun i member => multIndices_inside (sizeLeft.trans sizeRight.symm)
      (by rw [sizeLeft]; exact List.mem_of_mem_take member)
  obtain ⟨acc, run, -, total⟩ := multTerms_eq ((multIndices size k).take count) ⟨r01, 0⟩ inside
    (by rw [UInt32.toNat_zero]; omega)
  exact ⟨acc, run, total⟩

/-- The exact product in an array apart from the operands, the remainder in `res`, no index
outside of an array and no other array of the caller changed. -/
theorem plain_mod_mult (positive : 0 < size) (most : size ≤ 8)
    (sizes : Sized memory [res, left, right, mod] size)
    (top : (memory (.caller mod)).getD (size - 1) 0 ≠ 0) :
    (∀ k count r01, ∃ acc, ((multIndices size k).take count).foldlM
        (multTermAt memory (.caller left) (.caller right) k) ⟨r01, 0⟩ = some acc ∧
      acc.total = r01.toNat + (((multIndices size k).take count).map fun i =>
        digit (memory (.caller left)) i * digit (memory (.caller right)) (k - i)).sum) ∧
    (∀ target, target ≠ .caller left → target ≠ .caller right →
      2 * size ≤ (memory target).length →
      ∃ words, bigintMult memory target (.caller left) (.caller right) size =
          some (written memory target 0 words) ∧ words.length = 2 * size ∧
        value words = value (memory (.caller left)) * value (memory (.caller right))) ∧
    ∃ memory', bigintModMult memory (.caller res) (.caller left) (.caller right) (.caller mod)
        size = some memory' ∧
      (memory' (.caller res)).length = size ∧
      value (memory' (.caller res)) =
        value (memory (.caller left)) * value (memory (.caller right)) %
          value (memory (.caller mod)) ∧
      ∀ name, name ≠ res → memory' (.caller name) = memory (.caller name) := by
  obtain ⟨size, rfl⟩ := Nat.exists_eq_succ_of_ne_zero (Nat.ne_of_gt positive)
  have sizeLeft := sizes.caller left (by simp)
  have sizeRight := sizes.caller right (by simp)
  have sizeMod := sizes.caller mod (by simp)
  refine ⟨accumulator_exact most sizeLeft sizeRight, ?_, ?_⟩
  · intro target apartLeft apartRight room
    obtain ⟨words, run, length, product⟩ :=
      mult_value (sizeLeft.trans sizeRight.symm) (by omega) (by omega)
    rw [sizeLeft] at length
    exact ⟨words, bigintMult_eq apartLeft.symm apartRight.symm sizeLeft positive room run, length,
      product⟩
  · have high : radix ^ size ≤ value (memory (.caller mod)) := top_word top
    obtain ⟨words, memory', listed, run, callers⟩ := bigintModMult_eq sizes most high
    obtain ⟨words', listed', length, remainder⟩ := modMult_value sizeMod
      (sizeLeft.trans sizeMod.symm) (sizeRight.trans sizeMod.symm) (by omega) high
    cases listed.symm.trans listed'
    refine ⟨memory', run, ?_, ?_, ?_⟩
    · rw [callers, Function.update_self, length, sizeMod]
    · rw [callers, Function.update_self, remainder]
    · intro name other
      rw [callers, Function.update_of_ne (fun same => other (WordArray.caller.inj same))]

def twoWords : Words
  | .caller 0 => [0xffffffff, 0xffffffff]
  | .caller _ => [5, 1]
  | _ => List.replicate 16 7

/-- The square modulo `2 ^ 32 + 5`, into the array of the operand. -/
theorem plain_mod_mult_two :
    ∃ memory', bigintModMult twoWords (.caller 0) (.caller 0) (.caller 0) (.caller 1) 2 =
        some memory' ∧
      value (memory' (.caller 0)) = (2 ^ 64 - 1) * (2 ^ 64 - 1) % (2 ^ 32 + 5) := by
  have sizes : Sized twoWords [0, 0, 0, 1] 2 := ⟨by decide, rfl, rfl, rfl⟩
  obtain ⟨-, -, memory', run, -, remainder, -⟩ :=
    plain_mod_mult (by decide) (by decide) sizes (by decide)
  exact ⟨memory', run, remainder⟩

end Plain

end PiVccu.BigintMemory
