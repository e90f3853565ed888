import PiVccu.BigintFast
import PiVccu.BigintModMult
import PiVccu.DevKey

/-!
`bigint_mod_mult_fast` of `kernel/devkey.inc` in memory, where `res` may be one of the
operands: `product` and `tmp` are arrays of the function, everything else is computed in
`res`. It gives the words of the plain `bigint_mod_mult`.
-/

namespace PiVccu.BigintMemory
open ArrayMemory Bigint Limbs
open ByteBuffer (getElem?_drop_cons)

def bigintCmp (memory : Words) (left right : WordArray) : Nat → Option Int
  | 0 => some 0
  | i + 1 => do
      let l ← load memory left i
      let r ← load memory right i
      if l > r then some 1 else if r > l then some (-1) else bigintCmp memory left right i

def assignTmp (memory : Words) (offset : Nat) (bytes : List UInt8) : Option Words :=
  let words := wordsOfBytes bytes
  (fill (fun _ i _ => words[i]?.map fun word => (word, ())) .tmp offset words.length 0 ()
    memory).map Prod.fst

/-- `carry += bigint_add(res, res, tmp)` -/
def addTmp (res : WordArray) (size : Nat) (state : Words × Int) (bytes : List UInt8) :
    Option (Words × Int) := do
  let memory ← assignTmp state.1 0 bytes
  let sum ← bigintAdd memory res res .tmp size
  some (sum.1, state.2 + sum.2.toNat)

def subTmp (res : WordArray) (size : Nat) (state : Words × Int) (bytes : List UInt8) :
    Option (Words × Int) := do
  let memory ← assignTmp state.1 0 bytes
  let diff ← bigintSub memory res res .tmp size
  some (diff.1, state.2 - diff.2.toNat)

/-- `carry += bigint_lshift(tmp)` and `carry += bigint_add(res, res, tmp)`; what is in front
of `offset` stays in `tmp`. -/
def addDoubleTmp (res : WordArray) (size offset : Nat) (state : Words × Int)
    (bytes : List UInt8) : Option (Words × Int) := do
  let memory ← assignTmp state.1 offset bytes
  let doubled ← bigintLshift memory .tmp size
  let sum ← bigintAdd doubled.1 res res .tmp size
  some (sum.1, state.2 + doubled.2.toNat + sum.2.toNat)

def carryOr (above : Words → Option Bool) (state : Words × Int) : Option Bool :=
  if state.2 ≠ 0 then some true else above state.1

def reduceDownIn (res mod : WordArray) (size : Nat) (above : Words → Option Bool) :
    Nat → Words × Int → Option Words
  | 0, _ => none
  | fuel + 1, state => do
      let loops ← carryOr above state
      if loops then
        let diff ← bigintSub state.1 res res mod size
        reduceDownIn res mod size above fuel (diff.1, state.2 - diff.2.toNat)
      else some state.1

def reduceUpIn (res mod : WordArray) (size : Nat) : Nat → Words × Int → Option Words
  | 0, _ => none
  | fuel + 1, state => do
      let sum ← bigintAdd state.1 res res mod size
      let carry := state.2 + sum.2.toNat
      if carry < 0 then reduceUpIn res mod size fuel (sum.1, carry) else some sum.1

/-- Nothing writes to `product` behind `bigint_mult`. -/
def bigintModMultFast128 (fuel : Nat) (memory : Words) (res left right mod : WordArray) :
    Option Words := do
  let memory ← bigintMult memory .product left right 4
  let product := byte (memory .product)
  let memory ← bigintSet memory res 0 .product 4
  let state ← (tmp128 product).foldlM (addTmp res 4) (memory, 0)
  reduceDownIn res mod 4
    (fun memory => (bigintCmp memory res mod 4).map fun order => decide (order ≥ 0)) fuel state

def bigintModMultFast256 (fuel : Nat) (memory : Words) (res left right mod : WordArray) :
    Option Words := do
  let memory ← bigintMult memory .product left right 8
  let product := byte (memory .product)
  let memory ← bigintSet memory res 0 .product 8
  let state ← addDoubleTmp res 8 0 (memory, 0) (zeroBytes 12 ++ copyBytes product 44 20)
  -- The zeros of the first words are still there, doubled.
  let state ← addDoubleTmp res 8 3 state (copyBytes product 48 16 ++ zeroBytes 4)
  let state ← (tmp256Add product).foldlM (addTmp res 8) state
  let state ← (tmp256Sub product).foldlM (subTmp res 8) state
  if state.2 < 0 then reduceUpIn res mod 8 fuel state
  else
    reduceDownIn res mod 8
      (fun memory => (bigintCmp memory mod res 8).map fun order => decide (order ≠ 1)) fuel state

/-- The `switch` over `size` has no default. -/
def bigintModMultFast (fuel : Nat) (memory : Words) (res left right mod : WordArray)
    (size : Nat) : Option Words :=
  if size = 4 then bigintModMultFast128 fuel memory res left right mod
  else if size = 8 then bigintModMultFast256 fuel memory res left right mod
  else some memory

theorem cmp_append_word {lefts rights : List UInt32} (sized : lefts.length = rights.length)
    (left right : UInt32) :
    Bigint.cmp (lefts ++ [left]) (rights ++ [right]) =
      if left > right then 1 else if right > left then -1 else Bigint.cmp lefts rights := by
  induction lefts generalizing rights with
  | nil =>
      cases rights with
      | nil => simp [Bigint.cmp]
      | cons => cases sized
  | cons first lefts ih =>
      cases rights with
      | nil => cases sized
      | cons first' rights =>
          simp only [List.cons_append, Bigint.cmp, ih (Nat.succ.inj sized)]
          by_cases more : left > right
          · simp [more]
          · by_cases less : right > left
            · simp [more, less]
            · simp [more, less]

theorem bigintCmp_eq {memory : Words} {left right : WordArray} {size : Nat}
    (roomLeft : size ≤ (memory left).length) (roomRight : size ≤ (memory right).length) :
    bigintCmp memory left right size =
      some (Bigint.cmp ((memory left).take size) ((memory right).take size)) := by
  induction size with
  | zero => rfl
  | succ size ih =>
      have readLeft : load memory left size = some (memory left)[size] :=
        List.getElem?_eq_getElem roomLeft
      have readRight : load memory right size = some (memory right)[size] :=
        List.getElem?_eq_getElem roomRight
      have sized : ((memory left).take size).length = ((memory right).take size).length := by
        rw [List.length_take_of_le (by omega), List.length_take_of_le (by omega)]
      rw [bigintCmp, readLeft, readRight, ← List.take_concat_get' _ size roomLeft,
        ← List.take_concat_get' _ size roomRight, cmp_append_word sized]
      simp only [Option.bind_eq_bind, Option.bind_some, ih (by omega) (by omega)]
      split <;> [rfl; split <;> rfl]

theorem collect_words {words : List UInt32} (rest : List UInt32) (index : Nat)
    (shape : words.drop index = rest) :
    collect (fun i _ => words[i]?.map fun word => (word, ())) rest.length index () =
      some (rest, ()) := by
  induction rest generalizing index with
  | nil => rfl
  | cons word rest ih =>
      obtain ⟨first, next⟩ := getElem?_drop_cons shape
      simp only [List.length_cons, collect, first, Option.map_some, Option.bind_eq_bind,
        Option.bind_some, ih (index + 1) next]
      rfl

theorem assignTmp_eq {memory : Words} {offset : Nat} {bytes : List UInt8}
    (room : offset + (wordsOfBytes bytes).length ≤ (memory .tmp).length) :
    assignTmp memory offset bytes = some (written memory .tmp offset (wordsOfBytes bytes)) := by
  have stable : Stable (fun (_ : Words) i (_ : Unit) =>
      (wordsOfBytes bytes)[i]?.map fun word => (word, ())) .tmp offset memory := fun _ _ _ => rfl
  rw [assignTmp, fill_eq stable (collect_words (wordsOfBytes bytes) 0 rfl) room]
  rfl

/-- The memory of a run that has changed `res`, next to the list and the carry that it has
for it. -/
structure Tracks (start : Words) (res size : Nat) (state : Words × Int) (wide : Wide) : Prop where
  callers : ∀ name,
    state.1 (.caller name) = Function.update start (.caller res) wide.res (.caller name)
  tmp : (state.1 .tmp).length = size
  carry : state.2 = wide.carry
  sized : wide.res.length = size

section Tracking
variable {start : Words} {res size : Nat} {state : Words × Int} {wide : Wide}
  (tracks : Tracks start res size state wide)

include tracks in
theorem Tracks.read : state.1 (.caller res) = wide.res := by
  rw [tracks.callers, Function.update_self]

include tracks in
theorem Tracks.write {words : List UInt32} (sized : words.length = size) (carry : Int) :
    Tracks start res size (written state.1 (.caller res) 0 words, carry) ⟨words, carry⟩ := by
  refine ⟨?_, ?_, rfl, sized⟩
  · intro name
    have same : (Function.update start (.caller res) wide.res (.caller res)).length =
        words.length := by rw [Function.update_self, tracks.sized, sized]
    have changed := written_caller tracks.callers same name
    rwa [Function.update_idem] at changed
  · have other : written state.1 (.caller res) 0 words .tmp = state.1 .tmp :=
      written_other _ _ _ WordArray.noConfusion
    exact (congrArg List.length other).trans tracks.tmp

include tracks in
theorem Tracks.assign {words : List UInt32} (sized : words.length = size) :
    Tracks start res size (Function.update state.1 .tmp words, state.2) wide := by
  refine ⟨?_, ?_, tracks.carry, tracks.sized⟩
  · intro name
    have other : Function.update state.1 .tmp words (.caller name) = state.1 (.caller name) :=
      Function.update_of_ne WordArray.noConfusion _ _
    exact other.trans (tracks.callers name)
  · have self : Function.update state.1 .tmp words .tmp = words := Function.update_self _ _ _
    exact (congrArg List.length self).trans sized

include tracks in
theorem Tracks.bigintAdd_eq {source : WordArray} {words : List UInt32}
    (content : state.1 source = words) (sized : words.length = size) :
    bigintAdd state.1 (.caller res) (.caller res) source size =
      some (written state.1 (.caller res) 0 (add wide.res words).1, (add wide.res words).2) := by
  have inside : (state.1 (.caller res)).length = size := by rw [tracks.read, tracks.sized]
  rw [BigintMemory.bigintAdd_eq (Nat.le_of_eq inside.symm) (Nat.le_of_eq inside.symm)
    (by rw [content, sized]), content, tracks.read, List.take_of_length_le (by rw [tracks.sized]),
    List.take_of_length_le (by rw [sized])]

include tracks in
theorem Tracks.bigintSub_eq {source : WordArray} {words : List UInt32}
    (content : state.1 source = words) (sized : words.length = size) :
    bigintSub state.1 (.caller res) (.caller res) source size =
      some (written state.1 (.caller res) 0 (sub wide.res words).1, (sub wide.res words).2) := by
  have inside : (state.1 (.caller res)).length = size := by rw [tracks.read, tracks.sized]
  rw [BigintMemory.bigintSub_eq (Nat.le_of_eq inside.symm) (Nat.le_of_eq inside.symm)
    (by rw [content, sized]), content, tracks.read, List.take_of_length_le (by rw [tracks.sized]),
    List.take_of_length_le (by rw [sized])]

include tracks in
theorem Tracks.assignTmp_whole {bytes : List UInt8}
    (sized : (wordsOfBytes bytes).length = size) :
    assignTmp state.1 0 bytes = some (Function.update state.1 .tmp (wordsOfBytes bytes)) := by
  have same := tracks.tmp.trans sized.symm
  rw [assignTmp_eq (by rw [same, Nat.zero_add]), written_whole same]

include tracks in
theorem Tracks.add {bytes : List UInt8} (sized : (wordsOfBytes bytes).length = size) :
    ∃ state', addTmp (.caller res) size state bytes = some state' ∧
      Tracks start res size state' (wide.add bytes) := by
  have assigned := tracks.assign sized
  have summed := assigned.bigintAdd_eq (Function.update_self _ _ _) sized
  obtain ⟨length, -, -⟩ := add_value (tracks.sized.trans sized.symm)
  refine ⟨_, ?_, assigned.write (length.trans tracks.sized) _⟩
  simp only [addTmp, tracks.assignTmp_whole sized, summed, Option.bind_eq_bind, Option.bind_some]
  rw [tracks.carry]

include tracks in
theorem Tracks.sub {bytes : List UInt8} (sized : (wordsOfBytes bytes).length = size) :
    ∃ state', subTmp (.caller res) size state bytes = some state' ∧
      Tracks start res size state' (wide.sub bytes) := by
  have assigned := tracks.assign sized
  have subtracted := assigned.bigintSub_eq (Function.update_self _ _ _) sized
  obtain ⟨length, -, -⟩ := sub_value (tracks.sized.trans sized.symm)
  refine ⟨_, ?_, assigned.write (length.trans tracks.sized) _⟩
  simp only [subTmp, tracks.assignTmp_whole sized, subtracted, Option.bind_eq_bind,
    Option.bind_some]
  rw [tracks.carry]

include tracks in
theorem Tracks.addDouble {offset : Nat} {bytes content : List UInt8}
    (whole : (state.1 .tmp).take offset ++ wordsOfBytes bytes = wordsOfBytes content)
    (sized : (wordsOfBytes content).length = size) (front : offset ≤ size) :
    ∃ state', addDoubleTmp (.caller res) size offset state bytes = some state' ∧
      state'.1 .tmp = (wide.addDouble content).2 ∧
      Tracks start res size state' (wide.addDouble content).1 := by
  have lengths := congrArg List.length whole
  rw [List.length_append, List.length_take_of_le (by rw [tracks.tmp]; exact front), sized]
    at lengths
  have assigned : assignTmp state.1 offset bytes =
      some (Function.update state.1 .tmp (wordsOfBytes content)) := by
    rw [assignTmp_eq (by rw [tracks.tmp, lengths]), written,
      List.drop_eq_nil_of_le (by rw [tracks.tmp, lengths]), List.append_nil, whole]
  obtain ⟨lengthD, -, -⟩ := lshift_value (wordsOfBytes content)
  rw [sized] at lengthD
  have doubled : bigintLshift (Function.update state.1 .tmp (wordsOfBytes content)) .tmp size =
      some (Function.update state.1 .tmp (lshift (wordsOfBytes content)).1,
        (lshift (wordsOfBytes content)).2) := by
    rw [bigintLshift_eq (by rw [Function.update_self, sized]), Function.update_self,
      List.take_of_length_le (Nat.le_of_eq sized),
      written_whole (by rw [Function.update_self, sized, lengthD]), Function.update_idem]
  have shifted := tracks.assign lengthD
  have summed := shifted.bigintAdd_eq (Function.update_self _ _ _) lengthD
  obtain ⟨length, -, -⟩ := add_value (tracks.sized.trans lengthD.symm)
  refine ⟨_, ?_, ?_, shifted.write (length.trans tracks.sized) _⟩
  · simp only [addDoubleTmp, assigned, doubled, summed, Option.bind_eq_bind, Option.bind_some]
    rw [tracks.carry]
  · have apart : WordArray.tmp ≠ .caller res := WordArray.noConfusion
    have kept : ∀ words, written (Function.update state.1 .tmp (lshift (wordsOfBytes content)).1)
        (.caller res) 0 words .tmp = (lshift (wordsOfBytes content)).1 := by
      intro words
      rw [written_other _ _ _ apart, Function.update_self]
    exact kept (Bigint.add wide.res (lshift (wordsOfBytes content)).1).1

end Tracking

section Runs
variable {start : Words} {res size : Nat}

theorem Tracks.foldl {run : Words × Int → List UInt8 → Option (Words × Int)}
    {next : Wide → List UInt8 → Wide}
    (step : ∀ {state wide bytes}, Tracks start res size state wide →
      (wordsOfBytes bytes).length = size →
        ∃ state', run state bytes = some state' ∧ Tracks start res size state' (next wide bytes))
    (tmps : List (List UInt8)) {state : Words × Int} {wide : Wide}
    (tracks : Tracks start res size state wide)
    (sizes : ∀ tmp ∈ tmps, (wordsOfBytes tmp).length = size) :
    ∃ state', tmps.foldlM run state = some state' ∧
      Tracks start res size state' (tmps.foldl next wide) := by
  induction tmps generalizing state wide with
  | nil => exact ⟨state, rfl, tracks⟩
  | cons tmp rest ih =>
      obtain ⟨middle, first, later⟩ := step tracks (sizes tmp List.mem_cons_self)
      obtain ⟨last, ran, final⟩ :=
        ih later fun other member => sizes other (List.mem_cons_of_mem tmp member)
      refine ⟨last, ?_, final⟩
      rw [List.foldlM_cons, first]
      exact ran

variable {mod : Nat} (apart : res ≠ mod) (sizeMod : (start (.caller mod)).length = size)

include apart in
theorem Tracks.modulus {state : Words × Int} {wide : Wide}
    (tracks : Tracks start res size state wide) :
    state.1 (.caller mod) = start (.caller mod) := by
  rw [tracks.callers, Function.update_of_ne (fun same => apart (WordArray.caller.inj same).symm)]

include apart sizeMod in
theorem Tracks.cmp_modulus {state : Words × Int} {wide : Wide}
    (tracks : Tracks start res size state wide) :
    bigintCmp state.1 (.caller res) (.caller mod) size =
        some (Bigint.cmp wide.res (start (.caller mod))) ∧
      bigintCmp state.1 (.caller mod) (.caller res) size =
        some (Bigint.cmp (start (.caller mod)) wide.res) := by
  have modulus := tracks.modulus apart
  have roomRes : size ≤ (state.1 (.caller res)).length := by rw [tracks.read, tracks.sized]
  have roomMod : size ≤ (state.1 (.caller mod)).length := by rw [modulus, sizeMod]
  rw [bigintCmp_eq roomRes roomMod, bigintCmp_eq roomMod roomRes, tracks.read, modulus,
    List.take_of_length_le (Nat.le_of_eq tracks.sized),
    List.take_of_length_le (Nat.le_of_eq sizeMod)]
  exact ⟨rfl, rfl⟩

include apart sizeMod in
theorem Tracks.reduceDown (aboveIn : Words → Option Bool) {above : List UInt32 → Bool}
    (tests : ∀ state wide, Tracks start res size state wide →
      aboveIn state.1 = some (above wide.res))
    (fuel : Nat) {state : Words × Int} {wide : Wide} (tracks : Tracks start res size state wide)
    {words : List UInt32}
    (reduced : Bigint.reduceDown (start (.caller mod)) above fuel wide = some words) :
    ∃ memory', reduceDownIn (.caller res) (.caller mod) size aboveIn fuel state = some memory' ∧
      ∀ name, memory' (.caller name) = Function.update start (.caller res) words (.caller name) := by
  induction fuel generalizing state wide with
  | zero => cases reduced
  | succ fuel ih =>
      have test : carryOr aboveIn state = some (decide (wide.carry ≠ 0 ∨ above wide.res)) := by
        rw [carryOr, tests state wide tracks, tracks.carry]
        by_cases zero : wide.carry = 0 <;> simp [zero]
      rw [Bigint.reduceDown] at reduced
      rw [reduceDownIn, test]
      -- Both loops test the same carry and the same order.
      by_cases loops : wide.carry ≠ 0 ∨ above wide.res = true
      · rw [if_pos loops] at reduced
        obtain ⟨length, -, -⟩ := sub_value (tracks.sized.trans sizeMod.symm)
        have next := tracks.write (length.trans tracks.sized)
          (wide.carry - (Bigint.sub wide.res (start (.caller mod))).2.toNat)
        obtain ⟨memory', run, final⟩ := ih next reduced
        refine ⟨memory', ?_, final⟩
        simp only [Option.bind_eq_bind, Option.bind_some, loops, decide_true, ↓reduceIte,
          tracks.bigintSub_eq (tracks.modulus apart) sizeMod]
        rw [tracks.carry]
        exact run
      · rw [if_neg loops] at reduced
        cases reduced
        refine ⟨state.1, ?_, tracks.callers⟩
        simp only [Option.bind_eq_bind, Option.bind_some, loops, decide_false, Bool.false_eq_true,
          ↓reduceIte]

include apart sizeMod in
theorem Tracks.reduceUp (fuel : Nat) {state : Words × Int} {wide : Wide}
    (tracks : Tracks start res size state wide) {words : List UInt32}
    (reduced : Bigint.reduceUp (start (.caller mod)) fuel wide = some words) :
    ∃ memory', reduceUpIn (.caller res) (.caller mod) size fuel state = some memory' ∧
      ∀ name, memory' (.caller name) = Function.update start (.caller res) words (.caller name) := by
  induction fuel generalizing state wide with
  | zero => cases reduced
  | succ fuel ih =>
      obtain ⟨length, -, -⟩ := add_value (tracks.sized.trans sizeMod.symm)
      have next := tracks.write (length.trans tracks.sized)
        (wide.carry + (Bigint.add wide.res (start (.caller mod))).2.toNat)
      rw [Bigint.reduceUp] at reduced
      rw [reduceUpIn, tracks.bigintAdd_eq (tracks.modulus apart) sizeMod]
      simp only [Option.bind_eq_bind, Option.bind_some, tracks.carry]
      by_cases again :
          wide.carry + ((Bigint.add wide.res (start (.caller mod))).2.toNat : Int) < 0
      · rw [if_pos again] at reduced ⊢
        exact ih next reduced
      · rw [if_neg again] at reduced ⊢
        cases reduced
        exact ⟨_, rfl, next.callers⟩

end Runs

/-- The operands of a call have `size` words, `product` and `tmp` are the arrays of
`bigint_mod_mult_fast`. -/
structure FastSized (memory : Words) (operands : List Nat) (size : Nat) : Prop where
  caller : ∀ name ∈ operands, (memory (.caller name)).length = size
  product : (memory .product).length = 2 * size
  tmp : (memory .tmp).length = size

section Fast
variable {memory : Words} {res left right mod size : Nat}

theorem fast_start (sizes : FastSized memory [res, left, right, mod] size) (positive : 0 < size)
    {product : List UInt32}
    (multiplied : mult (memory (.caller left)) (memory (.caller right)) = some product)
    (sized : product.length = 2 * size) :
    ∃ memory₁ memory₂,
      bigintMult memory .product (.caller left) (.caller right) size = some memory₁ ∧
      memory₁ .product = product ∧
      bigintSet memory₁ (.caller res) 0 .product size = some memory₂ ∧
      Tracks memory res size (memory₂, 0) ⟨product.take size, 0⟩ := by
  have sizeRes := sizes.caller res (by simp)
  have sizeLeft := sizes.caller left (by simp)
  have room := sizes.product
  have first : bigintMult memory .product (.caller left) (.caller right) size =
      some (written memory .product 0 product) :=
    bigintMult_eq WordArray.noConfusion WordArray.noConfusion sizeLeft positive
      (Nat.le_of_eq room.symm) multiplied
  rw [written_whole (room.trans sized.symm)] at first
  have content : Function.update memory .product product .product = product :=
    Function.update_self _ _ _
  have callers : ∀ name,
      Function.update memory .product product (.caller name) = memory (.caller name) :=
    fun name => Function.update_of_ne WordArray.noConfusion _ _
  have temporary : Function.update memory .product product .tmp = memory .tmp :=
    Function.update_of_ne WordArray.noConfusion _ _
  have started : Tracks memory res size (Function.update memory .product product, 0)
      ⟨memory (.caller res), 0⟩ := by
    refine ⟨?_, (congrArg List.length temporary).trans sizes.tmp, rfl, sizeRes⟩
    intro name
    rw [Function.update_eq_self]
    exact callers name
  -- `res` is written for the first time here, when both operands have been read.
  have second : bigintSet (Function.update memory .product product) (.caller res) 0 .product size =
      some (written (Function.update memory .product product) (.caller res) 0
        ((Function.update memory .product product .product).take size)) :=
    bigintSet_eq (by rw [content, sized]; omega) WordArray.noConfusion
      (by rw [callers, sizeRes]; omega)
  rw [content] at second
  exact ⟨_, _, first, content, second,
    started.write (List.length_take_of_le (by omega)) 0⟩

theorem bigintModMultFast128_eq (sizes : FastSized memory [res, left, right, mod] 4)
    (apart : res ≠ mod) {fuel : Nat} {words : List UInt32}
    (listed : modMultFast128 fuel (memory (.caller left)) (memory (.caller right))
      (memory (.caller mod)) = some words) :
    ∃ memory', bigintModMultFast128 fuel memory (.caller res) (.caller left) (.caller right)
        (.caller mod) = some memory' ∧
      ∀ name, memory' (.caller name) = Function.update memory (.caller res) words (.caller name) := by
  have sizeLeft := sizes.caller left (by simp)
  have sizeMod := sizes.caller mod (by simp)
  obtain ⟨product, multiplied, sizeP, -⟩ :=
    mult_value (sizeLeft.trans (sizes.caller right (by simp)).symm) (by omega) (by omega)
  rw [sizeLeft] at sizeP
  obtain ⟨memory₁, memory₂, first, content, second, started⟩ :=
    fast_start sizes (by decide) multiplied sizeP
  rw [modMultFast128, multiplied] at listed
  obtain ⟨state, added, tracks⟩ := started.foldl (fun tracks => tracks.add) _ (tmp128_length (byte product))
  have tests : ∀ state wide, Tracks memory res 4 state wide →
      (bigintCmp state.1 (.caller res) (.caller mod) 4).map (fun order => decide (order ≥ 0)) =
        some (decide (Bigint.cmp wide.res (memory (.caller mod)) ≥ 0)) := by
    intro state wide tracks
    rw [(tracks.cmp_modulus apart sizeMod).1]
    rfl
  obtain ⟨memory', run, final⟩ := tracks.reduceDown apart sizeMod (fun memory =>
    (bigintCmp memory (.caller res) (.caller mod) 4).map fun order => decide (order ≥ 0)) tests
    fuel listed
  refine ⟨memory', ?_, final⟩
  simp only [bigintModMultFast128, first, content, second, added, Option.bind_eq_bind,
    Option.bind_some]
  exact run

theorem kept_bytes {words : List UInt32} (sized : words.length = 8) (rest : List UInt8) :
    words.take 3 ++ wordsOfBytes rest =
      wordsOfBytes (copyBytes (byte words) 0 12 ++ rest) := by
  match words, sized with
  | [w0, w1, w2, w3, w4, w5, w6, w7], _ =>
    simp [copyBytes, List.range', byte, wordsOfBytes, wordOfBytes_wordByte]

theorem bigintModMultFast256_eq (sizes : FastSized memory [res, left, right, mod] 8)
    (apart : res ≠ mod) {fuel : Nat} {words : List UInt32}
    (listed : modMultFast256 fuel (memory (.caller left)) (memory (.caller right))
      (memory (.caller mod)) = some words) :
    ∃ memory', bigintModMultFast256 fuel memory (.caller res) (.caller left) (.caller right)
        (.caller mod) = some memory' ∧
      ∀ name, memory' (.caller name) = Function.update memory (.caller res) words (.caller name) := by
  have sizeLeft := sizes.caller left (by simp)
  have sizeMod := sizes.caller mod (by simp)
  obtain ⟨product, multiplied, sizeP, -⟩ :=
    mult_value (sizeLeft.trans (sizes.caller right (by simp)).symm) (by omega) (by omega)
  rw [sizeLeft] at sizeP
  obtain ⟨memory₁, memory₂, first, content, second, started⟩ :=
    fast_start sizes (by decide) multiplied sizeP
  rw [modMultFast256, multiplied] at listed
  have lengths : ∀ bytes : List UInt8, bytes.length = 32 → (wordsOfBytes bytes).length = 8 := by
    intro bytes length
    rw [wordsOfBytes_length, length]
  have whole : (memory₂ .tmp).take 0 ++
      wordsOfBytes (zeroBytes 12 ++ copyBytes (byte product) 44 20) =
        wordsOfBytes (zeroBytes 12 ++ copyBytes (byte product) 44 20) := rfl
  obtain ⟨state₁, double₁, kept, tracks₁⟩ := started.addDouble whole
    (lengths _ (by simp [zeroBytes, copyBytes])) (by decide)
  obtain ⟨state₂, double₂, -, tracks₂⟩ := tracks₁.addDouble
    (kept_bytes tracks₁.tmp (copyBytes (byte product) 48 16 ++ zeroBytes 4))
    (lengths _ (by simp [zeroBytes, copyBytes])) (by decide)
  -- The two doubled contents are those of the list function.
  have doubled : Tracks memory res 8 state₂ (tmp256Double (byte product) ⟨product.take 8, 0⟩) := by
    rw [kept, ← List.append_assoc] at tracks₂
    exact tracks₂
  obtain ⟨state₃, added, tracks₃⟩ := doubled.foldl (fun tracks => tracks.add) (tmp256Add (byte product))
    (by simp [tmp256Add, zeroBytes, copyBytes, wordsOfBytes_length])
  obtain ⟨state₄, removed, tracks₄⟩ := tracks₃.foldl (fun tracks => tracks.sub) (tmp256Sub (byte product))
    (by simp [tmp256Sub, zeroBytes, copyBytes, wordsOfBytes_length])
  have tests : ∀ state wide, Tracks memory res 8 state wide →
      (bigintCmp state.1 (.caller mod) (.caller res) 8).map (fun order => decide (order ≠ 1)) =
        some (decide (Bigint.cmp (memory (.caller mod)) wide.res ≠ 1)) := by
    intro state wide tracks
    rw [(tracks.cmp_modulus apart sizeMod).2]
    rfl
  simp only [bigintModMultFast256, first, content, second, double₁, double₂, added, removed,
    Option.bind_eq_bind, Option.bind_some, tracks₄.carry]
  simp only [Option.bind_eq_bind, Option.bind_some] at listed
  split at listed
  next negative =>
    rw [if_pos negative]
    exact tracks₄.reduceUp apart sizeMod fuel listed
  next nonneg =>
    rw [if_neg nonneg]
    exact tracks₄.reduceDown apart sizeMod (fun memory =>
      (bigintCmp memory (.caller mod) (.caller res) 8).map fun order => decide (order ≠ 1)) tests
      fuel listed

end Fast

section Agreement
variable {fast plain : Words} {res left right mod size : Nat}

theorem bigintModMultFast_eq (apart : res ≠ mod)
    (sizesFast : FastSized fast [res, left, right, mod] size)
    (curve : size = 4 ∧ fast (.caller mod) = DevKey.curve128.p ∨
      size = 8 ∧ fast (.caller mod) = DevKey.curve256.p) {fuel : Nat} (enough : 16 ≤ fuel) :
    ∃ words fast', bigintModMultFast fuel fast (.caller res) (.caller left) (.caller right)
        (.caller mod) size = some fast' ∧
      (∀ name, fast' (.caller name) = Function.update fast (.caller res) words (.caller name)) ∧
      words.length = size ∧ value words =
        value (fast (.caller left)) * value (fast (.caller right)) %
          value (fast (.caller mod)) := by
  have sizeLeft := sizesFast.caller left (by simp)
  have sizeRight := sizesFast.caller right (by simp)
  have sizeMod := sizesFast.caller mod (by simp)
  rcases curve with ⟨rfl, prime⟩ | ⟨rfl, prime⟩
  · obtain ⟨words, listed, length, remainder⟩ := modMultFast128_value sizeLeft sizeRight sizeMod
      (by rw [prime]; rfl) enough
    obtain ⟨fast', run, callers⟩ := bigintModMultFast128_eq sizesFast apart listed
    exact ⟨words, fast', run, callers, length, remainder⟩
  · obtain ⟨words, listed, length, remainder⟩ := modMultFast256_value sizeLeft sizeRight sizeMod
      (by rw [prime]; rfl) enough
    obtain ⟨fast', run, callers⟩ := bigintModMultFast256_eq sizesFast apart listed
    exact ⟨words, fast', run, callers, length, remainder⟩

/-- Both multiplications end with the same arrays of the caller, whatever the temporaries
hold and whether or not `res` is one of the operands. -/
theorem fast_as_plain (apart : res ≠ mod)
    (curve : size = 4 ∧ fast (.caller mod) = DevKey.curve128.p ∨
      size = 8 ∧ fast (.caller mod) = DevKey.curve256.p)
    (sizesFast : FastSized fast [res, left, right, mod] size)
    (sizesPlain : Sized plain [res, left, right, mod] size)
    (same : ∀ name, plain (.caller name) = fast (.caller name)) :
    ∃ plain', bigintModMult plain (.caller res) (.caller left) (.caller right) (.caller mod) size =
        some plain' ∧
      ∀ fuel, 16 ≤ fuel → ∃ fast', bigintModMultFast fuel fast (.caller res) (.caller left)
          (.caller right) (.caller mod) size = some fast' ∧
        ∀ name, fast' (.caller name) = plain' (.caller name) := by
  have sizeMod := sizesPlain.caller mod (by simp)
  obtain ⟨below, rfl⟩ : ∃ below, size = below + 1 := by
    rcases curve with ⟨rfl, -⟩ | ⟨rfl, -⟩
    · exact ⟨3, rfl⟩
    · exact ⟨7, rfl⟩
  have bounds : below + 1 ≤ 8 ∧ radix ^ below ≤ value (plain (.caller mod)) := by
    rw [same]
    rcases curve with ⟨four, prime⟩ | ⟨eight, prime⟩
    · rw [prime, Nat.succ.inj four]
      decide
    · rw [prime, Nat.succ.inj eight]
      decide
  obtain ⟨words, plain', listed, run, callers⟩ := bigintModMult_eq sizesPlain bounds.1 bounds.2
  obtain ⟨words', listed', length, remainder⟩ := modMult_value sizeMod
    ((sizesPlain.caller left (by simp)).trans sizeMod.symm)
    ((sizesPlain.caller right (by simp)).trans sizeMod.symm) (by omega) bounds.2
  cases listed.symm.trans listed'
  refine ⟨plain', run, ?_⟩
  intro fuel enough
  obtain ⟨words', fast', run', callers', length', remainder'⟩ :=
    bigintModMultFast_eq apart sizesFast curve enough
  rw [← same, ← same, ← same, ← remainder] at remainder'
  -- Two remainders of the same number, in as many words.
  have equal : words' = words := value_inj (by rw [length', length, sizeMod]) remainder'
  refine ⟨fast', run', ?_⟩
  intro name
  rw [callers', callers, equal]
  by_cases result : name = res
  · rw [result, Function.update_self, Function.update_self]
  · have other : WordArray.caller name ≠ .caller res := fun equal =>
      result (WordArray.caller.inj equal)
    rw [Function.update_of_ne other, Function.update_of_ne other, same]

def fullWords (product tmp : Nat) : Words
  | .caller 0 => List.replicate 8 0xffffffff
  | .caller _ => DevKey.curve256.p
  | .product => List.replicate product 7
  | .modM => List.replicate 16 7
  | .tmp => List.replicate tmp 7

/-- The square of an operand that is not reduced, into its own array. -/
theorem fast_as_plain_full :
    ∃ plain', bigintModMult (fullWords 16 16) (.caller 0) (.caller 0) (.caller 0) (.caller 1) 8 =
        some plain' ∧
      ∀ fuel, 16 ≤ fuel → ∃ fast', bigintModMultFast fuel (fullWords 16 8) (.caller 0)
          (.caller 0) (.caller 0) (.caller 1) 8 = some fast' ∧
        ∀ name, fast' (.caller name) = plain' (.caller name) :=
  fast_as_plain (by decide) (.inr ⟨rfl, rfl⟩) ⟨by decide, rfl, rfl⟩ ⟨by decide, rfl, rfl, rfl⟩
    (by
      intro name
      cases name <;> rfl)

end Agreement

end PiVccu.BigintMemory
