import Mathlib.Data.List.Basic

/-!
A C buffer as the list of its cells. Every access is checked: `none` is an
access outside the allocation, which the language leaves undefined. The
equations below describe an access at the boundary between the cells already
written and the ones still to come, which is where a sequential writer stands.
-/

namespace PiVccu.ByteBuffer

variable {Cell : Type}

def load (memory : List Cell) (index : Nat) : Option Cell := memory[index]?

def store (memory : List Cell) (index : Nat) (cell : Cell) : Option (List Cell) :=
  if index < memory.length then some (memory.set index cell) else none

def memcpy (memory : List Cell) (target : Nat) (source : List Cell) : Option (List Cell) :=
  if target + source.length ≤ memory.length then
    some (memory.take target ++ source ++ memory.drop (target + source.length))
  else none

def loadRange (memory : List Cell) (index count : Nat) : Option (List Cell) :=
  if index + count ≤ memory.length then some ((memory.drop index).take count) else none

/-- `memmove` within one allocation; the source range is read before any cell
of the target range is written. -/
def memmove (memory : List Cell) (target source count : Nat) : Option (List Cell) :=
  if source + count ≤ memory.length then
    memcpy memory target ((memory.drop source).take count)
  else none

theorem load_boundary (done : List Cell) (cell : Cell) (rest : List Cell) :
    load (done ++ cell :: rest) done.length = some cell := by
  simp [load]

theorem getElem?_drop_cons {memory rest : List Cell} {index : Nat} {cell : Cell}
    (shape : memory.drop index = cell :: rest) :
    memory[index]? = some cell ∧ memory.drop (index + 1) = rest := by
  constructor
  · have first := congrArg List.head? shape
    rwa [List.head?_drop, List.head?_cons] at first
  · rw [← List.tail_drop, shape, List.tail_cons]

theorem load_drop {memory rest : List Cell} {index : Nat} {cell : Cell}
    (shape : memory.drop index = cell :: rest) :
    load memory index = some cell ∧ memory.drop (index + 1) = rest := getElem?_drop_cons shape

theorem store_boundary (done : List Cell) (old cell : Cell) (rest : List Cell) :
    store (done ++ old :: rest) done.length cell = some (done ++ cell :: rest) := by
  simp [store]

theorem store_pair (done : List Cell) (old old' first second : Cell) (rest : List Cell) :
    ((store (done ++ old :: old' :: rest) done.length first).bind fun memory =>
      store memory (done.length + 1) second) = some (done ++ first :: second :: rest) := by
  have behind := store_boundary (done ++ [first]) old' second rest
  rw [List.length_append, List.length_singleton, List.append_assoc, List.append_assoc,
    List.singleton_append, List.singleton_append] at behind
  rw [store_boundary, Option.bind_some, behind]

theorem split_parts (memory : List Cell) (header count : Nat)
    (room : header + count + 2 ≤ memory.length) :
    ∃ front middle first second rest, memory = front ++ (middle ++ first :: second :: rest) ∧
      front.length = header ∧ middle.length = count := by
  have frontSize : (memory.take header).length = header := by
    rw [List.length_take]
    omega
  have middleSize : ((memory.drop header).take count).length = count := by
    rw [List.length_take, List.length_drop]
    omega
  match tail : (memory.drop header).drop count with
  | first :: second :: rest =>
      refine ⟨memory.take header, (memory.drop header).take count, first, second, rest, ?_,
        frontSize, middleSize⟩
      rw [← tail, List.take_append_drop, List.take_append_drop]
  | [] | [_] =>
      have length := congrArg List.length tail
      simp only [List.length_drop, List.length_nil, List.length_singleton] at length
      omega

theorem store_eq_memcpy (memory : List Cell) (index : Nat) (cell : Cell) :
    store memory index cell = memcpy memory index [cell] := by
  by_cases inside : index < memory.length
  · have fits : index + [cell].length ≤ memory.length := inside
    rw [store, memcpy, if_pos inside, if_pos fits, List.set_eq_take_append_cons_drop,
      if_pos inside]
    simp
  · have leaves : ¬ index + [cell].length ≤ memory.length := inside
    rw [store, memcpy, if_neg inside, if_neg leaves]

theorem mem_of_store {memory after : List Cell} {index : Nat} {cell : Cell}
    (stored : store memory index cell = some after) {member : Cell} (found : member ∈ after) :
    member = cell ∨ member ∈ memory := by
  rw [store] at stored
  split at stored
  · cases stored
    exact (List.mem_or_eq_of_mem_set found).symm
  · cases stored

theorem memcpy_boundary (done old source rest : List Cell) (same : old.length = source.length) :
    memcpy (done ++ (old ++ rest)) done.length source = some (done ++ (source ++ rest)) := by
  have inside : done.length + source.length ≤ (done ++ (old ++ rest)).length := by
    simp only [List.length_append]
    omega
  have skipped : (done ++ (old ++ rest)).drop (done.length + source.length) = rest := by
    rw [← List.drop_drop, List.drop_left, ← same, List.drop_left]
  simp only [memcpy, inside, ↓reduceIte, skipped, List.take_left, List.append_assoc]

/-- Opening a gap of one cell: the pending cells move up by one, the first of
them stays behind in the gap, and the cell after the last one is overwritten. -/
theorem memmove_gap (done : List Cell) (cell : Cell) (pending : List Cell) (spare : Cell)
    (rest : List Cell) :
    memmove (done ++ cell :: (pending ++ spare :: rest)) (done.length + 1) done.length
        (pending.length + 1) =
      some (done ++ cell :: cell :: (pending ++ rest)) := by
  have inside : done.length + (pending.length + 1) ≤
      (done ++ cell :: (pending ++ spare :: rest)).length := by
    simp only [List.length_append, List.length_cons]
    omega
  have moved : ((done ++ cell :: (pending ++ spare :: rest)).drop done.length).take
      (pending.length + 1) = cell :: pending := by
    rw [List.drop_left]
    simp
  have opened : (done ++ [cell]).length = done.length + 1 := by simp
  have shape : done ++ cell :: (pending ++ spare :: rest) =
      (done ++ [cell]) ++ ((pending ++ [spare]) ++ rest) := by simp
  unfold memmove
  rw [if_pos inside, moved, shape, ← opened, memcpy_boundary _ _ _ _ (by simp)]
  simp

theorem memcpy_front {memory source : List Cell} (fits : source.length ≤ memory.length) :
    memcpy memory 0 source = some (source ++ memory.drop source.length) := by
  rw [memcpy, if_pos (by omega), List.take_zero, List.nil_append, Nat.zero_add]

theorem memcpy_cons (memory : List Cell) (target : Nat) (cell : Cell) (source : List Cell) :
    memcpy memory target (cell :: source) =
      (store memory target cell).bind fun memory => memcpy memory (target + 1) source := by
  by_cases fits : target + 1 + source.length ≤ memory.length
  · have front : (memory.take target).length = target := by
      rw [List.length_take]
      omega
    obtain ⟨old, middle, rest, shape, sized⟩ : ∃ old middle rest,
        memory = memory.take target ++ old :: (middle ++ rest) ∧ middle.length = source.length := by
      have inside : target < memory.length := by omega
      refine ⟨memory[target], (memory.drop (target + 1)).take source.length,
        (memory.drop (target + 1)).drop source.length, ?_, ?_⟩
      · rw [List.take_append_drop, ← List.drop_eq_getElem_cons inside, List.take_append_drop]
      · rw [List.length_take, List.length_drop]
        omega
    generalize memory.take target = done at shape front
    subst shape front
    have first := memcpy_boundary done (old :: middle) (cell :: source) rest (by simp [sized])
    have second := memcpy_boundary (done ++ [cell]) middle source rest sized
    rw [List.length_append, List.length_singleton, List.append_assoc, List.append_assoc] at second
    rw [store_boundary, Option.bind_some]
    exact first.trans second.symm
  · have outside : ¬ target + (cell :: source).length ≤ memory.length := by
      rw [List.length_cons]
      omega
    rw [memcpy, if_neg outside, store]
    split
    · rw [Option.bind_some, memcpy, List.length_set, if_neg fits]
    · rfl

theorem store_length {memory after : List Cell} {index : Nat} {cell : Cell}
    (stored : store memory index cell = some after) :
    after.length = memory.length ∧ index < memory.length := by
  rw [store] at stored
  split at stored
  · rename_i inside
    cases stored
    exact ⟨List.length_set, inside⟩
  · cases stored

end PiVccu.ByteBuffer
