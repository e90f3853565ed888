import Mathlib.Data.List.Rotate
import PiVccu.ByteBuffer

/-!
Rings as `linux/circ_buf.h` describes them, over an arbitrary cell type. The
macros compute with `& (size - 1)` for a size that is a power of two, which is
the remainder modulo the size; one cell stays free. Reading the ring from its
tail is a rotation of the buffer, so a copy of two parts around the end of the
buffer is an access to one range of the rotated buffer.
-/

namespace PiVccu.CircBuf
open ByteBuffer

def circCnt (head tail size : Nat) : Nat := (head + size - tail) % size

def circSpace (head tail size : Nat) : Nat := circCnt tail (head + 1) size

def circCntToEnd (head tail size : Nat) : Nat :=
  let ending := size - tail
  let n := (head + ending) % size
  if n < ending then n else ending

def circSpaceToEnd (head tail size : Nat) : Nat :=
  let ending := size - 1 - head
  let n := (ending + tail) % size
  if n ≤ ending then n else ending + 1

structure CircRing (Cell : Type) where
  buf : List Cell
  head : Nat
  tail : Nat
deriving DecidableEq

variable {Cell : Type}

structure CircRing.WellFormed (ring : CircRing Cell) (size : Nat) : Prop where
  sized : ring.buf.length = size
  head : ring.head < size
  tail : ring.tail < size

/-- The cells from the tail up to the head. -/
def CircRing.contents (ring : CircRing Cell) : List Cell :=
  (ring.buf.rotate ring.tail).take (circCnt ring.head ring.tail ring.buf.length)

section Arithmetic
variable {head tail size : Nat}

theorem mod_wrap {value size : Nat} (bounded : value < 2 * size) :
    value % size = if value < size then value else value - size := by
  by_cases small : value < size
  · rw [if_pos small]
    exact Nat.mod_eq_of_lt small
  · rw [if_neg small, Nat.mod_eq_sub_mod (Nat.not_lt.mp small)]
    exact Nat.mod_eq_of_lt (by omega)

theorem circCnt_eq (headBound : head < size) (tailBound : tail < size) :
    circCnt head tail size = if tail ≤ head then head - tail else head + size - tail := by
  rw [circCnt, mod_wrap (by omega)]
  split <;> split <;> omega

theorem circSpace_eq (headBound : head < size) (tailBound : tail < size) :
    circSpace head tail size = size - 1 - circCnt head tail size := by
  rw [circCnt_eq headBound tailBound, circSpace, circCnt, mod_wrap (by omega)]
  split <;> split <;> omega

theorem circCntToEnd_eq (tailBound : tail < size) :
    circCntToEnd head tail size = min (circCnt head tail size) (size - tail) := by
  have same : (head + (size - tail)) % size = circCnt head tail size := by
    rw [circCnt, Nat.add_sub_assoc (by omega)]
  simp only [circCntToEnd, same]
  split <;> omega

theorem circSpaceToEnd_eq (headBound : head < size) :
    circSpaceToEnd head tail size = min (circSpace head tail size) (size - head) := by
  have same : (size - 1 - head + tail) % size = circSpace head tail size := by
    rw [circSpace, circCnt]
    congr 1
    omega
  simp only [circSpaceToEnd, same]
  split <;> omega

theorem head_eq (headBound : head < size) (tailBound : tail < size) :
    (tail + circCnt head tail size) % size = head := by
  rw [circCnt_eq headBound tailBound, mod_wrap (by split <;> omega)]
  split <;> split <;> omega

theorem circCnt_advance_head (headBound : head < size) (tailBound : tail < size) {count : Nat}
    (room : count ≤ circSpace head tail size) :
    circCnt ((head + count) % size) tail size = circCnt head tail size + count := by
  rw [circSpace_eq headBound tailBound] at room
  have bounded : (head + count) % size < size := Nat.mod_lt _ (by omega)
  rw [circCnt_eq bounded tailBound]
  rw [circCnt_eq headBound tailBound] at room ⊢
  by_cases ordered : tail ≤ head
  · simp only [ordered, ↓reduceIte] at room ⊢
    rw [mod_wrap (by omega)]
    split <;> split <;> omega
  · simp only [ordered, ↓reduceIte] at room ⊢
    rw [mod_wrap (by omega)]
    split <;> split <;> omega

theorem circCnt_advance_tail (headBound : head < size) (tailBound : tail < size) {count : Nat}
    (available : count ≤ circCnt head tail size) :
    circCnt head ((tail + count) % size) size = circCnt head tail size - count := by
  have bounded : (tail + count) % size < size := Nat.mod_lt _ (by omega)
  rw [circCnt_eq headBound bounded]
  rw [circCnt_eq headBound tailBound] at available ⊢
  by_cases ordered : tail ≤ head
  · simp only [ordered, ↓reduceIte] at available ⊢
    rw [mod_wrap (by omega)]
    split <;> split <;> omega
  · simp only [ordered, ↓reduceIte] at available ⊢
    rw [mod_wrap (by omega)]
    split <;> split <;> omega

end Arithmetic

section Rotation
variable (buf source : List Cell) (tail offset count : Nat)

theorem rotate_range (inside : offset + count ≤ buf.length) :
    ((buf.rotate offset).take count) = (buf.drop offset).take count := by
  rw [List.rotate_eq_drop_append_take (by omega), List.take_append_of_le_length (by simp; omega)]

theorem loadRange_rotate (within : offset + count ≤ buf.length)
    (unbroken : (tail + offset) % buf.length + count ≤ buf.length) :
    loadRange buf ((tail + offset) % buf.length) count =
      some (((buf.rotate tail).drop offset).take count) := by
  have rotated : buf.rotate ((tail + offset) % buf.length) = (buf.rotate tail).rotate offset := by
    rw [List.rotate_mod, List.rotate_rotate]
  rw [loadRange, if_pos unbroken, ← rotate_range _ _ _ unbroken, rotated,
    rotate_range _ _ _ (by rw [List.length_rotate]; exact within)]

theorem memcpy_rotate (within : offset + source.length ≤ buf.length)
    (unbroken : (tail + offset) % buf.length + source.length ≤ buf.length) :
    ∃ after, memcpy buf ((tail + offset) % buf.length) source = some after ∧
      after.length = buf.length ∧
      after.rotate tail = (buf.rotate tail).take offset ++ source ++
        (buf.rotate tail).drop (offset + source.length) := by
  have shifted : ∀ cells : List Cell, cells.length = buf.length →
      cells.rotate ((tail + offset) % buf.length) =
        (cells.rotate tail).drop offset ++ (cells.rotate tail).take offset := by
    intro cells same
    rw [← same, List.rotate_mod, ← List.rotate_rotate, List.rotate_eq_drop_append_take]
    rw [List.length_rotate]
    omega
  generalize (tail + offset) % buf.length = start at unbroken shifted
  refine ⟨_, by rw [memcpy, if_pos unbroken], ?_, ?_⟩
  · simp
    omega
  · have size : (buf.take start ++ source ++ buf.drop (start + source.length)).length =
        buf.length := by
      simp
      omega
    -- Both buffers rotated to the start of the range; they agree behind the source.
    have old := congrArg (List.drop source.length) (shifted buf rfl)
    have new := shifted _ size
    rw [List.rotate_eq_drop_append_take (by omega), List.drop_append_of_le_length (by simp; omega),
      List.drop_append_of_le_length (by simp; omega), List.drop_drop, List.drop_drop] at old
    rw [List.rotate_eq_drop_append_take (by omega), List.append_assoc,
      List.drop_append_of_le_length (by simp; omega), List.take_append_of_le_length (by simp; omega),
      List.drop_take_self, List.nil_append, List.take_take, Nat.min_self, List.append_assoc, old,
      ← List.append_assoc] at new
    obtain ⟨behind, before⟩ := List.append_inj' new (by simp; omega)
    rw [List.append_assoc (buf.take start), ← List.take_append_drop offset (List.rotate _ tail),
      ← behind, ← before]
    simp

end Rotation

section Transfer
variable {ring : CircRing Cell} {size : Nat} (formed : ring.WellFormed size)

include formed in
theorem contents_length : ring.contents.length = circCnt ring.head ring.tail size := by
  have bounded : circCnt ring.head ring.tail size < size :=
    Nat.mod_lt _ (Nat.lt_of_le_of_lt (Nat.zero_le _) formed.head)
  simp [CircRing.contents, formed.sized, Nat.le_of_lt bounded]

include formed in
theorem read_behind (skipped count : Nat)
    (available : skipped + count ≤ circCnt ring.head ring.tail size)
    (unbroken : (ring.tail + skipped) % size + count ≤ size) :
    loadRange ring.buf ((ring.tail + skipped) % size) count =
      some ((ring.contents.drop skipped).take count) := by
  obtain ⟨sized, headBound, tailBound⟩ := formed
  have bounded : circCnt ring.head ring.tail size < size := Nat.mod_lt _ (by omega)
  have loaded := loadRange_rotate ring.buf ring.tail skipped count (by omega)
    (by rw [sized]; exact unbroken)
  rw [sized] at loaded
  rw [loaded, CircRing.contents, sized, List.drop_take, List.take_take, Nat.min_eq_left (by omega)]

include formed in
theorem read_unbroken {count : Nat} (available : count ≤ circCnt ring.head ring.tail size) :
    ring.tail + min count (circCntToEnd ring.head ring.tail size) ≤ size ∧
      (ring.tail + min count (circCntToEnd ring.head ring.tail size)) % size +
        (count - min count (circCntToEnd ring.head ring.tail size)) ≤ size := by
  obtain ⟨-, headBound, tailBound⟩ := formed
  have bounded : circCnt ring.head ring.tail size < size := Nat.mod_lt _ (by omega)
  rw [circCntToEnd_eq tailBound, ← Nat.min_assoc, Nat.min_eq_left available]
  refine ⟨by omega, ?_⟩
  rw [mod_wrap (by omega)]
  split <;> omega

include formed in
theorem write_unbroken {count : Nat} (room : count ≤ circSpace ring.head ring.tail size) :
    ring.head + min count (circSpaceToEnd ring.head ring.tail size) ≤ size ∧
      (ring.head + min count (circSpaceToEnd ring.head ring.tail size)) % size +
        (count - min count (circSpaceToEnd ring.head ring.tail size)) ≤ size := by
  obtain ⟨-, headBound, tailBound⟩ := formed
  have bounded : circSpace ring.head ring.tail size < size := Nat.mod_lt _ (by omega)
  rw [circSpaceToEnd_eq headBound, ← Nat.min_assoc, Nat.min_eq_left room]
  refine ⟨by omega, ?_⟩
  rw [mod_wrap (by omega)]
  split <;> omega

include formed in
theorem consume {count : Nat} (available : count ≤ circCnt ring.head ring.tail size) :
    CircRing.WellFormed { ring with tail := (ring.tail + count) % size } size ∧
      CircRing.contents { ring with tail := (ring.tail + count) % size } =
        ring.contents.drop count := by
  obtain ⟨sized, headBound, tailBound⟩ := formed
  have bounded : circCnt ring.head ring.tail size < size := Nat.mod_lt _ (by omega)
  refine ⟨⟨sized, headBound, Nat.mod_lt _ (by omega)⟩, ?_⟩
  have rotated : ring.buf.rotate ((ring.tail + count) % size) =
      (ring.buf.rotate ring.tail).drop count ++ (ring.buf.rotate ring.tail).take count := by
    rw [← sized, List.rotate_mod, ← List.rotate_rotate, List.rotate_eq_drop_append_take]
    rw [List.length_rotate]
    omega
  simp only [CircRing.contents, sized, circCnt_advance_tail headBound tailBound available, rotated]
  rw [List.take_append_of_le_length (by simp; omega), List.drop_take]

include formed in
theorem write_behind (source : List Cell) (skipped : Nat)
    (room : skipped + source.length ≤ circSpace ring.head ring.tail size)
    (unbroken : (ring.head + skipped) % size + source.length ≤ size) :
    ∃ after, memcpy ring.buf ((ring.head + skipped) % size) source = some after ∧
      CircRing.WellFormed { ring with buf := after } size ∧
      CircRing.contents { ring with buf := after } = ring.contents ∧
      after.rotate ring.tail =
        (ring.buf.rotate ring.tail).take (ring.contents.length + skipped) ++ source ++
          (ring.buf.rotate ring.tail).drop (ring.contents.length + skipped + source.length) := by
  have length := contents_length formed
  obtain ⟨sized, headBound, tailBound⟩ := formed
  have bounded : circCnt ring.head ring.tail size < size := Nat.mod_lt _ (by omega)
  rw [circSpace_eq headBound tailBound] at room
  have place : (ring.tail + (ring.contents.length + skipped)) % ring.buf.length =
      (ring.head + skipped) % size := by
    rw [length, sized, ← Nat.add_assoc, Nat.add_mod, head_eq headBound tailBound]
    simp
  obtain ⟨after, written, same, rotated⟩ := memcpy_rotate ring.buf source
    ring.tail (ring.contents.length + skipped) (by omega)
    (by rw [place, sized]; exact unbroken)
  rw [place] at written
  refine ⟨after, written, ⟨same.trans sized, headBound, tailBound⟩, ?_, rotated⟩
  have kept : (after.rotate ring.tail).take (circCnt ring.head ring.tail size) =
      (ring.buf.rotate ring.tail).take (circCnt ring.head ring.tail size) := by
    rw [rotated, length, List.append_assoc, List.take_append_of_le_length (by simp; omega),
      List.take_take, Nat.min_eq_left (by omega)]
  simp only [CircRing.contents, same, sized, kept]

include formed in
theorem publish (source : List Cell)
    (room : source.length ≤ circSpace ring.head ring.tail size)
    (written : (ring.buf.rotate ring.tail).take (ring.contents.length + source.length) =
      ring.contents ++ source) :
    CircRing.WellFormed { ring with head := (ring.head + source.length) % size } size ∧
      CircRing.contents { ring with head := (ring.head + source.length) % size } =
        ring.contents ++ source := by
  have length := contents_length formed
  obtain ⟨sized, headBound, tailBound⟩ := formed
  refine ⟨⟨sized, Nat.mod_lt _ (by omega), tailBound⟩, ?_⟩
  rw [← written, length]
  simp only [CircRing.contents, sized, circCnt_advance_head headBound tailBound room]

include formed in
theorem peek (pending : 1 ≤ circCnt ring.head ring.tail size) :
    ∃ cell rest, ring.contents = cell :: rest ∧ load ring.buf ring.tail = some cell := by
  have length := contents_length formed
  match shape : ring.contents with
  | [] =>
      rw [shape] at length
      simp at length
      omega
  | cell :: rest =>
      refine ⟨cell, rest, rfl, ?_⟩
      have first : ring.contents[0]? = ring.buf[ring.tail]? := by
        rw [CircRing.contents, List.getElem?_take_of_lt (by rw [formed.sized]; omega),
          List.getElem?_rotate (by have := formed.tail; have := formed.sized; omega), Nat.zero_add,
          Nat.mod_eq_of_lt (by rw [formed.sized]; exact formed.tail)]
      rw [load, ← first, shape]
      rfl

include formed in
theorem poke (pending : 1 ≤ circCnt ring.head ring.tail size) (cell : Cell) :
    ∃ buf, store ring.buf ring.tail cell = some buf ∧
      CircRing.WellFormed { ring with buf := buf } size ∧
      CircRing.contents { ring with buf := buf } = cell :: ring.contents.tail := by
  obtain ⟨sized, headBound, tailBound⟩ := formed
  have bounded : circCnt ring.head ring.tail size < size := Nat.mod_lt _ (by omega)
  have place : (ring.tail + 0) % ring.buf.length = ring.tail := by
    rw [sized]
    exact Nat.mod_eq_of_lt tailBound
  obtain ⟨buf, written, same, rotated⟩ := memcpy_rotate ring.buf [cell] ring.tail 0
    (by simp; omega) (by rw [place, List.length_singleton]; omega)
  rw [place, ← store_eq_memcpy] at written
  refine ⟨buf, written, ⟨same.trans sized, headBound, tailBound⟩, ?_⟩
  obtain ⟨more, count⟩ := Nat.exists_eq_add_of_le' pending
  simp only [CircRing.contents, same, sized, rotated, count]
  rw [← List.drop_one (l := List.take _ _), List.drop_take]
  simp

include formed in
theorem store_head (room : 1 ≤ circSpace ring.head ring.tail size) (cell : Cell) :
    ∃ buf, store ring.buf ring.head cell = some buf ∧
      CircRing.WellFormed { ring with buf := buf } size ∧
      CircRing.contents { ring with buf := buf } = ring.contents ∧
      load buf ring.head = some cell := by
  have start : (ring.head + 0) % size = ring.head := Nat.mod_eq_of_lt formed.head
  obtain ⟨buf, written, kept, same, -⟩ := write_behind formed [cell] 0 (by simpa using room)
    (by rw [start, List.length_singleton]; exact formed.head)
  rw [start, ← store_eq_memcpy] at written
  refine ⟨buf, written, kept, same, ?_⟩
  have inside : ring.head < ring.buf.length := by
    rw [formed.sized]
    exact formed.head
  rw [store, if_pos inside] at written
  cases written
  exact List.getElem?_set_self inside

include formed in
theorem advance_head (room : 1 ≤ circSpace ring.head ring.tail size) {cell : Cell}
    (filled : load ring.buf ring.head = some cell) :
    CircRing.WellFormed { ring with head := (ring.head + 1) % size } size ∧
      CircRing.contents { ring with head := (ring.head + 1) % size } =
        ring.contents ++ [cell] := by
  have length := contents_length formed
  have start : (ring.head + 0) % size = ring.head := Nat.mod_eq_of_lt formed.head
  have inside : ring.head < ring.buf.length := by
    rw [formed.sized]
    exact formed.head
  have unchanged : memcpy ring.buf ring.head [cell] = some ring.buf := by
    rw [← store_eq_memcpy, store, if_pos inside]
    obtain ⟨_, rfl⟩ := List.getElem?_eq_some_iff.mp filled
    rw [List.set_getElem_self]
  obtain ⟨buf, written, -, -, rotated⟩ := write_behind formed [cell] 0 (by simpa using room)
    (by rw [start, List.length_singleton]; exact formed.head)
  rw [start, unchanged] at written
  cases written
  have whole : (ring.buf.rotate ring.tail).take ring.contents.length = ring.contents := by
    rw [length, CircRing.contents, formed.sized]
  apply publish formed [cell] room
  rw [rotated, Nat.add_zero, whole, ← List.length_append, List.take_left]

include formed in
theorem push (room : 1 ≤ circSpace ring.head ring.tail size) (cell : Cell) :
    ∃ buf, store ring.buf ring.head cell = some buf ∧
      CircRing.WellFormed ⟨buf, (ring.head + 1) % size, ring.tail⟩ size ∧
      CircRing.contents ⟨buf, (ring.head + 1) % size, ring.tail⟩ = ring.contents ++ [cell] := by
  obtain ⟨buf, stored, kept, same, filled⟩ := store_head formed room cell
  obtain ⟨formed', contents⟩ := advance_head kept room filled
  rw [same] at contents
  exact ⟨buf, stored, formed', contents⟩

end Transfer
end PiVccu.CircBuf
