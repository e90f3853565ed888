import Mathlib.Data.List.Basic
import Mathlib.Logic.Function.Basic

/-!
Arrays behind pointers. Two pointers of a function may be the same, so a store
changes what later loads give; a load or a store outside of an array gives `none`. A
loop that fills an array upwards computes what it would compute from the memory
before it, as long as it reads no cell that it has written.
-/

namespace PiVccu.ArrayMemory

variable {Ptr Cell State : Type} [DecidableEq Ptr]

abbrev Memory (Ptr Cell : Type) := Ptr → List Cell

def load (memory : Memory Ptr Cell) (ptr : Ptr) (index : Nat) : Option Cell := (memory ptr)[index]?

def store (memory : Memory Ptr Cell) (ptr : Ptr) (index : Nat) (cell : Cell) :
    Option (Memory Ptr Cell) :=
  if index < (memory ptr).length then
    some (Function.update memory ptr ((memory ptr).set index cell))
  else none

def written (memory : Memory Ptr Cell) (ptr : Ptr) (offset : Nat) (cells : List Cell) :
    Memory Ptr Cell :=
  Function.update memory ptr
    ((memory ptr).take offset ++ (cells ++ (memory ptr).drop (offset + cells.length)))

@[simp] theorem written_nil (memory : Memory Ptr Cell) (ptr : Ptr) (offset : Nat) :
    written memory ptr offset [] = memory := by
  simp [written]

@[simp] theorem written_other (memory : Memory Ptr Cell) {ptr other : Ptr} (offset : Nat)
    (cells : List Cell) (apart : other ≠ ptr) : written memory ptr offset cells other =
      memory other := Function.update_of_ne apart _ _

theorem written_self (memory : Memory Ptr Cell) (ptr : Ptr) (offset : Nat) (cells : List Cell) :
    written memory ptr offset cells ptr =
      (memory ptr).take offset ++ (cells ++ (memory ptr).drop (offset + cells.length)) :=
  Function.update_self _ _ _

section Bounds
variable (memory : Memory Ptr Cell) (ptr : Ptr) {offset : Nat} {cells : List Cell}

theorem written_length (room : offset + cells.length ≤ (memory ptr).length) (other : Ptr) :
    (written memory ptr offset cells other).length = (memory other).length := by
  by_cases same : other = ptr
  · subst same
    rw [written_self]
    simp only [List.length_append, List.length_take, List.length_drop]
    omega
  · rw [written_other _ _ _ same]

theorem load_written_other {other : Ptr} (apart : other ≠ ptr) (index : Nat) :
    load (written memory ptr offset cells) other index = load memory other index := by
  rw [load, written_other _ _ _ apart, load]

theorem load_written_behind (room : offset + cells.length ≤ (memory ptr).length) (other : Ptr)
    {index : Nat} (behind : offset + cells.length ≤ index) :
    load (written memory ptr offset cells) other index = load memory other index := by
  by_cases same : other = ptr
  · subst same
    have front : ((memory other).take offset).length = offset := by
      rw [List.length_take]
      omega
    rw [load, written_self, List.getElem?_append_right (by omega), front,
      List.getElem?_append_right (by omega), List.getElem?_drop, load]
    congr 1
    omega
  · exact load_written_other memory ptr same index

theorem store_written (room : offset + cells.length < (memory ptr).length) (cell : Cell) :
    store (written memory ptr offset cells) ptr (offset + cells.length) cell =
      some (written memory ptr offset (cells ++ [cell])) := by
  have front : ((memory ptr).take offset).length = offset := by
    rw [List.length_take]
    omega
  have split : (memory ptr).drop (offset + cells.length) =
      (memory ptr)[offset + cells.length] :: (memory ptr).drop (offset + cells.length + 1) :=
    List.drop_eq_getElem_cons room
  have sized := written_length memory ptr (Nat.le_of_lt room) ptr
  rw [store, sized, if_pos room, written_self, split, List.set_append_right _ _ (by omega), front,
    Nat.add_sub_cancel_left, List.set_append_right _ _ (Nat.le_refl _), Nat.sub_self,
    List.set_cons_zero]
  simp [written, Nat.add_assoc]

end Bounds

/-- A loop over `count` indices from `index` on: `read` gives the cell for an index and
the state for the next one. -/
def fill (read : Memory Ptr Cell → Nat → State → Option (Cell × State)) (ptr : Ptr)
    (offset : Nat) : Nat → Nat → State → Memory Ptr Cell → Option (Memory Ptr Cell × State)
  | 0, _, state, memory => some (memory, state)
  | count + 1, index, state, memory => do
      let cell ← read memory index state
      let memory ← store memory ptr (offset + index) cell.1
      fill read ptr offset count (index + 1) cell.2 memory

/-- The cells of such a loop, all of them read from one memory. -/
def collect (read : Nat → State → Option (Cell × State)) :
    Nat → Nat → State → Option (List Cell × State)
  | 0, _, state => some ([], state)
  | count + 1, index, state => do
      let cell ← read index state
      let rest ← collect read count (index + 1) cell.2
      return (cell.1 :: rest.1, rest.2)

theorem collect_length {read : Nat → State → Option (Cell × State)} {count index : Nat}
    {state last : State} {cells : List Cell}
    (collected : collect read count index state = some (cells, last)) : cells.length = count := by
  induction count generalizing index state cells with
  | zero =>
      cases collected
      rfl
  | succ count ih =>
      obtain ⟨cell, -, collected⟩ := Option.bind_eq_some_iff.mp collected
      obtain ⟨rest, later, same⟩ := Option.bind_eq_some_iff.mp collected
      cases same
      rw [List.length_cons, ih later]

def Stable (read : Memory Ptr Cell → Nat → State → Option (Cell × State)) (ptr : Ptr)
    (offset : Nat) (memory : Memory Ptr Cell) : Prop :=
  ∀ cells state, offset + cells.length ≤ (memory ptr).length →
    read (written memory ptr offset cells) cells.length state = read memory cells.length state

-- Induction on the cells still to come: those behind them are the written ones.
theorem fill_from {read : Memory Ptr Cell → Nat → State → Option (Cell × State)} {ptr : Ptr}
    {offset : Nat} {memory : Memory Ptr Cell} (stable : Stable read ptr offset memory)
    (count : Nat) (cells : List Cell) (state : State)
    (room : offset + cells.length + count ≤ (memory ptr).length) :
    fill read ptr offset count cells.length state (written memory ptr offset cells) =
      (collect (read memory) count cells.length state).map fun result =>
        (written memory ptr offset (cells ++ result.1), result.2) := by
  induction count generalizing cells state with
  | zero => simp [fill, collect]
  | succ count ih =>
      rw [fill, collect, stable cells state (by omega)]
      cases read memory cells.length state with
      | none => rfl
      | some cell =>
          have next := ih (cells ++ [cell.1]) cell.2 (by simp; omega)
          rw [List.length_append, List.length_singleton] at next
          simp only [Option.bind_eq_bind, Option.bind_some,
            store_written memory ptr (show offset + cells.length < (memory ptr).length by omega),
            next]
          cases collect (read memory) count (cells.length + 1) cell.2 <;> simp

theorem fill_eq {read : Memory Ptr Cell → Nat → State → Option (Cell × State)} {ptr : Ptr}
    {offset : Nat} {memory : Memory Ptr Cell} (stable : Stable read ptr offset memory)
    {count : Nat} {state last : State} {cells : List Cell}
    (collected : collect (read memory) count 0 state = some (cells, last))
    (room : offset + count ≤ (memory ptr).length) :
    fill read ptr offset count 0 state memory = some (written memory ptr offset cells, last) := by
  have all := fill_from stable count [] state room
  rw [written_nil, List.length_nil, collected] at all
  exact all

end PiVccu.ArrayMemory
