import PiVccu.Crc16

/-!
The errors that a 16-bit check finds. A generator with a constant term finds
every burst of at most 16 bits; one that also has an even number of terms, and
so the factor `x + 1`, finds every odd number of errors.
-/

namespace PiVccu.Crc16

def parity : Nat → UInt16 → Bool
  | 0, _ => false
  | count + 1, crc => parity count crc ^^ crc.toBitVec.getLsbD count

theorem parity_xor (count : Nat) (left right : UInt16) :
    parity count (left ^^^ right) = (parity count left ^^ parity count right) := by
  induction count with
  | zero => rfl
  | succ count ih =>
      rw [parity, parity, parity, ih, UInt16.toBitVec_xor, BitVec.getLsbD_xor]
      simp only [Bool.xor_assoc, Bool.xor_left_comm]

theorem parity_shift (count : Nat) (small : count < 16) (crc : UInt16) :
    parity (count + 1) (crc <<< 1) = parity count crc := by
  induction count with
  | zero => simp [parity]
  | succ count ih => rw [parity, ih (by omega), shift_bit crc small, parity]

/-- A generator with an odd number of terms below the leading one is divisible by
`x + 1`: each bit of the message turns the parity of the register. -/
theorem parity_feed {generator : UInt16} (even : parity 16 generator = true) (crc : UInt16)
    (bit : Bool) : parity 16 (feed generator crc bit) = (parity 16 crc ^^ bit) := by
  have plain : ∀ word : UInt16, parity 16 (shiftBit generator word) = parity 16 word := by
    intro word
    have shifted : parity 16 (word <<< 1) = parity 15 word := parity_shift 15 (by decide) word
    have whole : parity 16 word = (parity 15 word ^^ word.toBitVec.getLsbD 15) := rfl
    rw [shiftBit_eq, whole]
    cases word.toBitVec.getLsbD 15 with
    | false => simp [shifted]
    | true => simp [parity_xor, shifted, even]
  have top : parity 16 (topBit bit) = bit := by
    cases bit <;> decide
  rw [feed, plain, parity_xor, top]

theorem parity_feedAll {generator : UInt16} (even : parity 16 generator = true) (crc : UInt16)
    (bits : List Bool) :
    parity 16 (feedAll generator crc bits) = (parity 16 crc ^^ decide (bits.count true % 2 = 1)) := by
  induction bits generalizing crc with
  | nil => simp [feedAll]
  | cons bit rest ih =>
      rw [feedAll, List.foldl_cons, ← feedAll, ih, parity_feed even, Bool.xor_assoc]
      congr 1
      cases bit with
      | false => simp
      | true =>
          rw [List.count_cons_self]
          rcases Nat.mod_two_eq_zero_or_one (rest.count true) with zero | one
          · simp [zero, Nat.add_mod]
          · simp [one, Nat.add_mod]

def errors (first second : List UInt8) : List Bool :=
  List.zipWith xor (messageBits first) (messageBits second)

/-- All errors lie within as many consecutive bits as the register has. -/
def Burst (pattern : List Bool) : Prop :=
  ∃ start, ∀ index, pattern[index]? = some true → start ≤ index ∧ index < start + 16

def OddlyMany (pattern : List Bool) : Prop := pattern.count true % 2 = 1

instance (pattern : List Bool) : Decidable (OddlyMany pattern) :=
  inferInstanceAs (Decidable (_ = _))

theorem feedAll_clear (generator crc : UInt16) (count : Nat) :
    feedAll generator crc (List.replicate count false) = shiftBits generator count crc := by
  induction count generalizing crc with
  | zero => rfl
  | succ count ih =>
      rw [List.replicate_succ, feedAll, List.foldl_cons, ← feedAll, ih, shiftBits, feed]
      simp [topBit]

theorem topWord_ne_zero {bits : List Bool} (short : bits.length ≤ 16) (present : true ∈ bits) :
    topWord bits ≠ 0 := by
  intro zero
  obtain ⟨index, inside, set⟩ := List.mem_iff_getElem.mp present
  have bit := topWord_bit bits index (by omega)
  rw [zero, List.getD_eq_getElem _ _ inside, set] at bit
  simp at bit

theorem burst_window {pattern : List Bool} (long : 16 ≤ pattern.length) (burst : Burst pattern) :
    ∃ before window behind, pattern =
      List.replicate before false ++ (window ++ List.replicate behind false) ∧
      window.length = 16 := by
  obtain ⟨start, within⟩ := burst
  have clear : ∀ index, (h : index < pattern.length) →
      ¬ (start ≤ index ∧ index < start + 16) → pattern[index] = false := by
    intro index inside outside
    cases set : pattern[index] with
    | false => rfl
    | true =>
        have found : pattern[index]? = some true := by rw [List.getElem?_eq_getElem inside, set]
        exact absurd (within index found) outside
  -- A window that begins behind the errors' start would leave the message.
  let first := min start (pattern.length - 16)
  have front : pattern.take first = List.replicate first false := by
    apply List.eq_replicate_iff.mpr
    refine ⟨by simp; omega, ?_⟩
    intro bit member
    obtain ⟨index, inside, rfl⟩ := List.mem_iff_getElem.mp member
    rw [List.length_take] at inside
    rw [List.getElem_take]
    exact clear index (by omega) (by omega)
  have back : (pattern.drop first).drop 16 = List.replicate (pattern.length - first - 16) false := by
    apply List.eq_replicate_iff.mpr
    refine ⟨by simp; omega, ?_⟩
    intro bit member
    obtain ⟨index, inside, rfl⟩ := List.mem_iff_getElem.mp member
    rw [List.length_drop, List.length_drop] at inside
    rw [List.getElem_drop, List.getElem_drop]
    exact clear _ (by omega) (by omega)
  refine ⟨first, (pattern.drop first).take 16, pattern.length - first - 16, ?_, ?_⟩
  · rw [← front, ← back, List.take_append_drop, List.take_append_drop]
  · simp
    omega

theorem feedAll_burst {generator : UInt16} (odd : generator.toBitVec.getLsbD 0 = true)
    {pattern : List Bool} (long : 16 ≤ pattern.length) (present : true ∈ pattern)
    (burst : Burst pattern) : feedAll generator 0 pattern ≠ 0 := by
  obtain ⟨before, window, behind, rfl, sized⟩ := burst_window long burst
  have set : true ∈ window := by simpa using present
  intro zero
  -- Zeros before the window leave the register clear; those behind it are undone by injectivity.
  rw [feedAll_append, feedAll_append, feedAll_clear, feedAll_clear, shiftBits_zero] at zero
  have inner := shiftBits_injective odd zero
  rw [feedAll_word generator 0 window (Nat.le_of_eq sized), UInt16.zero_xor] at inner
  exact topWord_ne_zero (Nat.le_of_eq sized) set (shiftBits_injective odd inner)

theorem feedAll_oddlyMany {generator : UInt16} (even : parity 16 generator = true)
    {pattern : List Bool} (many : OddlyMany pattern) : feedAll generator 0 pattern ≠ 0 := by
  intro zero
  have turned := parity_feedAll even 0 pattern
  have odd : pattern.count true % 2 = 1 := many
  rw [zero, decide_eq_true odd] at turned
  cases turned

/-- Errors of these two kinds change the remainder, for every generator with a
constant term and an even number of terms. -/
theorem remainder_ne {generator : UInt16} (odd : generator.toBitVec.getLsbD 0 = true)
    (even : parity 16 generator = true) (initial : UInt16) {first second : List UInt8}
    (same : first.length = second.length) (long : 2 ≤ first.length)
    (present : true ∈ errors first second)
    (kind : Burst (errors first second) ∨ OddlyMany (errors first second)) :
    remainder generator initial first ≠ remainder generator initial second := by
  have sized : (messageBits first).length = (messageBits second).length := by simp [same]
  -- By linearity the initial value cancels out, and only the errors are left.
  have difference := feedAll_xor generator initial initial sized
  rw [UInt16.xor_self, ← remainder_eq, ← remainder_eq] at difference
  intro equal
  rw [equal, UInt16.xor_self] at difference
  rcases kind with burst | many
  · refine feedAll_burst odd ?_ present burst difference
    rw [errors, List.length_zipWith, sized, messageBits_length]
    omega
  · exact feedAll_oddlyMany even many difference

end PiVccu.Crc16
