import PiVccu.ArrayMemory
import PiVccu.BigintMult
import PiVccu.ByteBuffer

/-!
The loops of `kernel/devkey.inc` over arrays in memory: every operand is a pointer, a
result may be one of its operands, and the temporaries of `bigint_mod_mult` are arrays
of 16 words whose old contents are unknown. A read or a write outside of an array
gives `none`.
-/

namespace PiVccu.BigintMemory
open ArrayMemory Bigint Limbs
open ByteBuffer (getElem?_drop_cons)

/-- `2 * ECC_MAX_SIZE` -/
def temporaryWords : Nat := 16

/-- The arrays of the caller and the three temporaries. -/
inductive WordArray where
  | caller (name : Nat)
  | product
  | modM
  | tmp
deriving DecidableEq

abbrev Words := Memory WordArray UInt32

section Loops
variable {State : Type}

def pairRead (word : UInt32 → UInt32 → State → UInt32 × State) (left right : WordArray)
    (memory : Words) (i : Nat) (carry : State) : Option (UInt32 × State) := do
  let l ← load memory left i
  let r ← load memory right i
  some (word l r carry)

def wordRead (word : UInt32 → State → UInt32 × State) (source : WordArray)
    (memory : Words) (i : Nat) (carry : State) : Option (UInt32 × State) := do
  let temp ← load memory source i
  some (word temp carry)

end Loops

def addWord (left right carry : UInt32) : UInt32 × UInt32 :=
  let sum := left + right + carry
  (sum, if sum ≠ left then (if sum < left then 1 else 0) else carry)

def bigintAdd (memory : Words) (res left right : WordArray) (size : Nat) :
    Option (Words × UInt32) :=
  fill (pairRead addWord left right) res 0 size 0 0 memory

def subWord (left right borrow : UInt32) : UInt32 × UInt32 :=
  let diff := left - right - borrow
  (diff, if diff ≠ left then (if diff > left then 1 else 0) else borrow)

def bigintSub (memory : Words) (res left right : WordArray) (size : Nat) :
    Option (Words × UInt32) :=
  fill (pairRead subWord left right) res 0 size 0 0 memory

def lshiftWord (temp carry : UInt32) : UInt32 × UInt32 := ((temp <<< 1) ||| carry, temp >>> 31)

def bigintLshift (memory : Words) (bi : WordArray) (size : Nat) : Option (Words × UInt32) :=
  fill (wordRead lshiftWord bi) bi 0 size 0 0 memory

def bigintSet (memory : Words) (dest : WordArray) (offset : Nat) (src : WordArray) (size : Nat) :
    Option Words :=
  (fill (wordRead (fun word _ => (word, ())) src) dest offset size 0 () memory).map Prod.fst

def bigintClear (memory : Words) (bi : WordArray) (size : Nat) : Option Words :=
  (fill (fun _ _ _ => some (0, ())) bi 0 size 0 () memory).map Prod.fst

def rshiftDown (bi : WordArray) (offset : Nat) : Nat → UInt32 → Words → Option Words
  | 0, _, memory => some memory
  | size + 1, carry, memory => do
      let temp ← load memory bi (offset + size)
      let memory ← store memory bi (offset + size) ((temp >>> 1) ||| carry)
      rshiftDown bi offset size (temp <<< 31) memory

def bigintRshift (memory : Words) (bi : WordArray) (offset size : Nat) : Option Words :=
  rshiftDown bi offset size 0 memory

def multTermAt (memory : Words) (left right : WordArray) (k : Nat) (acc : Accumulator) (i : Nat) :
    Option Accumulator := do
  let l ← load memory left i
  let r ← load memory right (k - i)
  let product := l.toUInt64 * r.toUInt64
  let r01 := acc.r01 + product
  some ⟨r01, acc.r2 + if r01 < product then 1 else 0⟩

/-- The word of column `k`, and what `r01` has for the next one. -/
def columnRead (left right : WordArray) (size : Nat) (memory : Words) (k : Nat) (r01 : UInt64) :
    Option (UInt32 × UInt64) := do
  let acc ← (multIndices size k).foldlM (multTermAt memory left right k) ⟨r01, 0⟩
  some (acc.r01.toUInt32, (acc.r01 >>> 32) ||| (acc.r2.toUInt64 <<< 32))

def bigintMult (memory : Words) (res left right : WordArray) (size : Nat) : Option Words := do
  let columns ← fill (columnRead left right size) res 0 (size * 2 - 1) 0 0 memory
  -- What is left of the accumulator is the last word.
  store columns.1 res (size * 2 - 1) columns.2.toUInt32

/-- The loop that shifts `mod` into `mod_m`. -/
def shiftWord (bitShift : Nat) (word carry : UInt32) : UInt32 × UInt32 :=
  ((word <<< UInt32.ofNat bitShift) ||| carry, word >>> UInt32.ofNat (32 - bitShift))

/-- `v[i]` -/
def pingPong (i : Bool) : WordArray := if i then .product else .tmp

def halveModM (memory : Words) (size : Nat) : Option Words := do
  let memory ← bigintRshift memory .modM 0 size
  let low ← load memory .modM (size - 1)
  let high ← load memory .modM size
  let memory ← store memory .modM (size - 1) (low ||| (high <<< 31))
  bigintRshift memory .modM size size

/-- The body of the loop over `shift`. The loop over `j` in it is that of `bigint_sub`,
from `v[i]` to `v[1 - i]`. -/
def reduceRound (size : Nat) (i : Bool) (memory : Words) : Option (Words × Bool) := do
  let diff ← bigintSub memory (pingPong (!i)) (pingPong i) .modM (size * 2)
  let memory ← halveModM diff.1 size
  -- `v[i]` becomes the difference where there was no borrow.
  some (memory, !(i ^^ (diff.2 ≠ 0)))

def reduceRounds (size : Nat) : Nat → Bool → Words → Option (Words × Bool)
  | 0, i, memory => some (memory, i)
  | rounds + 1, i, memory => do
      let next ← reduceRound size i memory
      reduceRounds size rounds next.2 next.1

/-- The statements of `bigint_mod_mult` in front of the loop over `shift`. -/
def prepareModM (memory : Words) (left right mod : WordArray) (size shift : Nat) :
    Option Words := do
  let dwordShift := shift / 32
  let bitShift := shift % 32
  let memory ← bigintMult memory .product left right size
  let memory ← bigintClear memory .modM (size * 2)
  if bitShift > 0 then
    (fill (wordRead (shiftWord bitShift) mod) .modM dwordShift size 0 0 memory).map Prod.fst
  else bigintSet memory .modM dwordShift mod size

/-- The loop runs once more for a shift of zero. -/
def bigintModMult (memory : Words) (res left right mod : WordArray) (size : Nat) :
    Option Words := do
  let shift := 32 * 2 * size - numBits ((memory mod).take size)
  let memory ← prepareModM memory left right mod size shift
  let reduced ← reduceRounds size (shift + 1) true memory
  bigintSet reduced.1 res 0 (pingPong reduced.2) size

section Collect
variable {State : Type}

def pairLoop (word : UInt32 → UInt32 → State → UInt32 × State) :
    List UInt32 → List UInt32 → State → List UInt32 × State
  | left :: lefts, right :: rights, carry =>
      let cell := word left right carry
      let rest := pairLoop word lefts rights cell.2
      (cell.1 :: rest.1, rest.2)
  | _, _, carry => ([], carry)

def wordLoop (word : UInt32 → State → UInt32 × State) : List UInt32 → State → List UInt32 × State
  | [], carry => ([], carry)
  | temp :: rest, carry =>
      let cell := word temp carry
      let later := wordLoop word rest cell.2
      (cell.1 :: later.1, later.2)

theorem collect_pair (word : UInt32 → UInt32 → State → UInt32 × State) (memory : Words)
    {left right : WordArray} (lefts rights restLeft restRight : List UInt32) (index : Nat)
    (carry : State) (shapeLeft : (memory left).drop index = lefts ++ restLeft)
    (shapeRight : (memory right).drop index = rights ++ restRight)
    (sized : lefts.length = rights.length) :
    collect (pairRead word left right memory) lefts.length index carry =
      some (pairLoop word lefts rights carry) := by
  induction lefts generalizing rights index carry with
  | nil =>
      cases rights with
      | nil => rfl
      | cons => cases sized
  | cons l lefts ih =>
      cases rights with
      | nil => cases sized
      | cons r rights =>
          obtain ⟨firstLeft, nextLeft⟩ := getElem?_drop_cons shapeLeft
          obtain ⟨firstRight, nextRight⟩ := getElem?_drop_cons shapeRight
          have later := ih rights (index + 1) (word l r carry).2 nextLeft nextRight
            (Nat.succ.inj sized)
          simp only [List.length_cons, collect, pairRead, load, firstLeft, firstRight,
            Option.bind_eq_bind, Option.bind_some]
          rw [later]
          rfl

theorem collect_word (word : UInt32 → State → UInt32 × State) (memory : Words)
    {source : WordArray} (words rest : List UInt32) (index : Nat) (carry : State)
    (shape : (memory source).drop index = words ++ rest) :
    collect (wordRead word source memory) words.length index carry =
      some (wordLoop word words carry) := by
  induction words generalizing index carry with
  | nil => rfl
  | cons temp words ih =>
      obtain ⟨first, next⟩ := getElem?_drop_cons shape
      have later := ih (index + 1) (word temp carry).2 next
      simp only [List.length_cons, collect, wordRead, load, first, Option.bind_eq_bind,
        Option.bind_some]
      rw [later]
      rfl

end Collect

theorem pairLoop_add (lefts rights : List UInt32) (carry : UInt32) :
    pairLoop addWord lefts rights carry = addLoop lefts rights carry := by
  induction lefts generalizing rights carry with
  | nil => rfl
  | cons l lefts ih =>
      cases rights with
      | nil => rfl
      | cons r rights =>
          simp only [pairLoop, addLoop, ih]
          rfl

theorem pairLoop_sub (lefts rights : List UInt32) (borrow : UInt32) :
    pairLoop subWord lefts rights borrow = subLoop lefts rights borrow := by
  induction lefts generalizing rights borrow with
  | nil => rfl
  | cons l lefts ih =>
      cases rights with
      | nil => rfl
      | cons r rights =>
          simp only [pairLoop, subLoop, ih]
          rfl

theorem wordLoop_lshift (words : List UInt32) (carry : UInt32) :
    wordLoop lshiftWord words carry = lshiftLoop words carry := by
  induction words generalizing carry with
  | nil => rfl
  | cons word rest ih =>
      simp only [wordLoop, lshiftLoop, ih]
      rfl

theorem wordLoop_shift (bitShift : Nat) (words : List UInt32) (carry : UInt32) :
    (wordLoop (shiftWord bitShift) words carry).1 = shiftWords bitShift words carry := by
  induction words generalizing carry with
  | nil => rfl
  | cons word rest ih =>
      simp only [wordLoop, shiftWords, ih]
      rfl

theorem wordLoop_copy (words : List UInt32) :
    wordLoop (fun word _ => (word, ())) words () = (words, ()) := by
  induction words with
  | nil => rfl
  | cons word rest ih => simp only [wordLoop, ih]

section Specs
variable {State : Type} (memory : Words)

theorem stable_pair (word : UInt32 → UInt32 → State → UInt32 × State) (res left right : WordArray) :
    Stable (pairRead word left right) res 0 memory := by
  intro cells state room
  have behind : 0 + cells.length ≤ cells.length := Nat.le_of_eq (Nat.zero_add _)
  rw [pairRead, load_written_behind memory res room left behind,
    load_written_behind memory res room right behind]
  rfl

theorem stable_word (word : UInt32 → State → UInt32 × State) (res source : WordArray) :
    Stable (wordRead word source) res 0 memory := by
  intro cells state room
  have behind : 0 + cells.length ≤ cells.length := Nat.le_of_eq (Nat.zero_add _)
  rw [wordRead, load_written_behind memory res room source behind]
  rfl

theorem stable_apart (word : UInt32 → State → UInt32 × State) {res source : WordArray}
    (apart : source ≠ res) (offset : Nat) :
    Stable (wordRead word source) res offset memory := by
  intro cells state room
  rw [wordRead, load_written_other memory res apart]
  rfl

variable {memory} {res left right : WordArray} {size : Nat}
  (roomRes : size ≤ (memory res).length) (roomLeft : size ≤ (memory left).length)
  (roomRight : size ≤ (memory right).length)

include roomRes roomLeft roomRight in
theorem fill_pair (word : UInt32 → UInt32 → State → UInt32 × State) (carry : State) :
    fill (pairRead word left right) res 0 size 0 carry memory =
      some (written memory res 0
          (pairLoop word ((memory left).take size) ((memory right).take size) carry).1,
        (pairLoop word ((memory left).take size) ((memory right).take size) carry).2) := by
  have sizeLeft : ((memory left).take size).length = size := List.length_take_of_le roomLeft
  have sizeRight : ((memory right).take size).length = size := List.length_take_of_le roomRight
  have collected := collect_pair word memory ((memory left).take size) ((memory right).take size)
    ((memory left).drop size) ((memory right).drop size) 0 carry
    (List.take_append_drop size (memory left)).symm
    (List.take_append_drop size (memory right)).symm (sizeLeft.trans sizeRight.symm)
  rw [sizeLeft] at collected
  exact fill_eq (stable_pair memory word res left right) collected (by omega)

include roomRes roomLeft roomRight in
theorem bigintAdd_eq : bigintAdd memory res left right size =
    some (written memory res 0 (add ((memory left).take size) ((memory right).take size)).1,
      (add ((memory left).take size) ((memory right).take size)).2) := by
  rw [bigintAdd, fill_pair roomRes roomLeft roomRight, pairLoop_add]
  rfl

include roomRes roomLeft roomRight in
theorem bigintSub_eq : bigintSub memory res left right size =
    some (written memory res 0 (sub ((memory left).take size) ((memory right).take size)).1,
      (sub ((memory left).take size) ((memory right).take size)).2) := by
  rw [bigintSub, fill_pair roomRes roomLeft roomRight, pairLoop_sub]
  rfl

include roomLeft in
theorem collect_source (word : UInt32 → State → UInt32 × State) (carry : State) :
    collect (wordRead word left memory) size 0 carry =
      some (wordLoop word ((memory left).take size) carry) := by
  have sizeLeft : ((memory left).take size).length = size := List.length_take_of_le roomLeft
  have collected := collect_word word memory ((memory left).take size) ((memory left).drop size) 0
    carry (List.take_append_drop size (memory left)).symm
  rwa [sizeLeft] at collected

include roomRes in
theorem bigintLshift_eq : bigintLshift memory res size =
    some (written memory res 0 (lshift ((memory res).take size)).1,
      (lshift ((memory res).take size)).2) := by
  have collected := collect_source roomRes lshiftWord 0
  rw [wordLoop_lshift] at collected
  exact fill_eq (stable_word memory lshiftWord res res) collected (by omega)

include roomLeft in
theorem bigintSet_eq (apart : left ≠ res) {offset : Nat}
    (room : offset + size ≤ (memory res).length) :
    bigintSet memory res offset left size =
      some (written memory res offset ((memory left).take size)) := by
  have collected := collect_source roomLeft (fun word _ => (word, ())) ()
  rw [wordLoop_copy] at collected
  rw [bigintSet, fill_eq (stable_apart memory _ apart offset) collected room]
  rfl

theorem collect_zero (count index : Nat) :
    collect (fun _ _ => some (0, ())) count index () =
      some (List.replicate count (0 : UInt32), ()) := by
  induction count generalizing index with
  | zero => rfl
  | succ count ih =>
      simp only [collect, ih, Option.bind_eq_bind, Option.bind_some]
      rfl

include roomRes in
theorem bigintClear_eq : bigintClear memory res size =
    some (written memory res 0 (List.replicate size 0)) := by
  have stable : Stable (fun _ _ _ => some ((0 : UInt32), ())) res 0 memory := fun _ _ _ => rfl
  rw [bigintClear, fill_eq stable (collect_zero size 0) (by omega)]
  rfl

end Specs

section Mult
variable {memory : Words} {res left right : WordArray} {size : Nat}

theorem columnRead_eq (sized : (memory left).length = size) (k : Nat) (r01 : UInt64) :
    columnRead left right size memory k r01 =
      (multColumn (memory left) (memory right) k ⟨r01, 0⟩).map fun (acc : Accumulator) =>
        (acc.r01.toUInt32, ((acc.r01 >>> 32) ||| (acc.r2.toUInt64 <<< 32) : UInt64)) := by
  rw [columnRead, multColumn, sized]
  -- Without stores between them the two accumulations read the same cells.
  change (List.foldlM (multTerm (memory left) (memory right) k) _ _).bind _ = _
  cases List.foldlM (multTerm (memory left) (memory right) k) ⟨r01, 0⟩ (multIndices size k) <;> rfl

theorem collect_columns (sized : (memory left).length = size) (columns k : Nat) (r01 : UInt64) :
    ((collect (columnRead left right size memory) columns k r01).map fun result =>
      result.1 ++ [result.2.toUInt32]) = multLoop (memory left) (memory right) columns k r01 := by
  induction columns generalizing k r01 with
  | zero => rfl
  | succ columns ih =>
      rw [collect, columnRead_eq sized, multLoop]
      cases multColumn (memory left) (memory right) k ⟨r01, 0⟩ with
      | none => rfl
      | some acc =>
          simp only [Option.map_some, Option.bind_eq_bind, Option.bind_some, ← ih]
          cases collect (columnRead left right size memory) columns (k + 1)
            ((acc.r01 >>> 32) ||| (acc.r2.toUInt64 <<< 32)) <;> rfl

theorem stable_column (apartLeft : left ≠ res) (apartRight : right ≠ res) :
    Stable (columnRead left right size) res 0 memory := by
  intro cells r01 room
  have term : multTermAt (written memory res 0 cells) left right =
      multTermAt memory left right := by
    funext k acc i
    rw [multTermAt, load_written_other memory res apartLeft,
      load_written_other memory res apartRight]
    rfl
  rw [columnRead, term]
  rfl

theorem bigintMult_eq (apartLeft : left ≠ res) (apartRight : right ≠ res)
    (sized : (memory left).length = size) (positive : 0 < size)
    (room : 2 * size ≤ (memory res).length) {words : List UInt32}
    (product : mult (memory left) (memory right) = some words) :
    bigintMult memory res left right size = some (written memory res 0 words) := by
  have columns : ((collect (columnRead left right size memory) (size * 2 - 1) 0 0).map fun result =>
      result.1 ++ [result.2.toUInt32]) = multLoop (memory left) (memory right) (size * 2 - 1) 0 0 :=
    collect_columns sized (size * 2 - 1) 0 0
  rw [mult, sized] at product
  rw [product] at columns
  obtain ⟨⟨cells, r01⟩, collected, rfl⟩ := Option.map_eq_some_iff.mp columns
  have count := collect_length collected
  have last : store (written memory res 0 cells) res (0 + cells.length) r01.toUInt32 =
      some (written memory res 0 (cells ++ [r01.toUInt32])) :=
    store_written memory res (by omega) r01.toUInt32
  rw [Nat.zero_add, count] at last
  rw [bigintMult, fill_eq (stable_column apartLeft apartRight) collected (by omega)]
  exact last

end Mult

end PiVccu.BigintMemory
