import Mathlib.Data.List.Basic
import Mathlib.Data.List.GetD

/-!
The bitwise 16-bit cyclic redundancy check, most significant bit first, over an
arbitrary generator and initial register. The register is linear in the message
and takes it bit by bit, up to 16 bits at once.
-/

namespace PiVccu.Crc16

def shiftBit (generator crc : UInt16) : UInt16 :=
  if crc &&& 0x8000 ≠ 0 then (crc <<< 1) ^^^ generator else crc <<< 1

def shiftBits (generator : UInt16) : Nat → UInt16 → UInt16
  | 0, crc => crc
  | count + 1, crc => shiftBits generator count (shiftBit generator crc)

def absorb (generator crc : UInt16) (octet : UInt8) : UInt16 :=
  shiftBits generator 8 (crc ^^^ (octet.toUInt16 <<< 8))

def remainder (generator initial : UInt16) (octets : List UInt8) : UInt16 :=
  octets.foldl (absorb generator) initial

/-- The two bytes of a register as they follow the checked data, high byte first. -/
def trailer (crc : UInt16) : List UInt8 :=
  [((crc >>> 8) &&& 0xff).toUInt8, (crc &&& 0xff).toUInt8]

def readTrailer (high low : UInt8) : UInt16 := (high.toUInt16 <<< 8) ||| low.toUInt16

theorem top_bit (crc : UInt16) : (crc &&& 0x8000 ≠ 0) ↔ crc.toBitVec.getLsbD 15 = true := by
  have word : (crc &&& 0x8000).toBitVec = if crc.toBitVec.getLsbD 15 then 0x8000#16 else 0#16 := by
    rw [UInt16.toBitVec_and]
    exact BitVec.and_twoPow crc.toBitVec 15
  cases bit : crc.toBitVec.getLsbD 15 with
  | false =>
      rw [bit] at word
      have zero : crc &&& 0x8000 = 0 := UInt16.toBitVec_inj.mp word
      simp [zero]
  | true =>
      rw [bit] at word
      have set : crc &&& 0x8000 = 0x8000 := UInt16.toBitVec_inj.mp word
      simp [set]

theorem shiftBit_eq (generator crc : UInt16) : shiftBit generator crc =
    if crc.toBitVec.getLsbD 15 then (crc <<< 1) ^^^ generator else crc <<< 1 := by
  unfold shiftBit
  simp only [top_bit]

theorem shiftLeft_one_xor (left right : UInt16) :
    (left ^^^ right) <<< 1 = (left <<< 1) ^^^ (right <<< 1) := by
  apply UInt16.toBitVec_inj.mp
  simp [BitVec.shiftLeft_xor_distrib]

theorem shiftBit_xor (generator left right : UInt16) :
    shiftBit generator (left ^^^ right) = shiftBit generator left ^^^ shiftBit generator right := by
  have cancel : ∀ a b : UInt16, a ^^^ b = (a ^^^ generator) ^^^ (b ^^^ generator) := by
    intro a b
    rw [UInt16.xor_comm b generator, UInt16.xor_assoc a, ← UInt16.xor_assoc generator,
      UInt16.xor_self, UInt16.zero_xor]
  simp only [shiftBit_eq, UInt16.toBitVec_xor, BitVec.getLsbD_xor, shiftLeft_one_xor]
  cases left.toBitVec.getLsbD 15 with
  | false =>
      cases right.toBitVec.getLsbD 15 with
      | false => rfl
      | true => exact UInt16.xor_assoc ..
  | true =>
      cases right.toBitVec.getLsbD 15 with
      | false =>
          simp only [Bool.true_xor, Bool.not_false, ↓reduceIte, Bool.false_eq_true]
          rw [UInt16.xor_assoc, UInt16.xor_assoc, UInt16.xor_comm generator]
      | true => exact cancel _ _

def topBit (bit : Bool) : UInt16 := if bit then 0x8000 else 0

/-- The register with one more bit of the message. -/
def feed (generator crc : UInt16) (bit : Bool) : UInt16 :=
  shiftBit generator (crc ^^^ topBit bit)

def feedAll (generator crc : UInt16) (bits : List Bool) : UInt16 :=
  bits.foldl (feed generator) crc

def octetBits (octet : UInt8) : List Bool := (List.range 8).map octet.toBitVec.getMsbD

def messageBits (octets : List UInt8) : List Bool := octets.flatMap octetBits

def topWord : List Bool → UInt16
  | [] => 0
  | bit :: rest => topBit bit ^^^ (topWord rest >>> 1)

theorem feed_xor (generator left right : UInt16) (x y : Bool) :
    feed generator (left ^^^ right) (x ^^ y) = feed generator left x ^^^ feed generator right y := by
  have bits : topBit (x ^^ y) = topBit x ^^^ topBit y := by
    cases x <;> cases y <;> rfl
  rw [feed, feed, feed, ← shiftBit_xor, bits]
  congr 1
  rw [UInt16.xor_assoc, UInt16.xor_assoc]
  congr 1
  rw [← UInt16.xor_assoc, ← UInt16.xor_assoc, UInt16.xor_comm right]

theorem feedAll_xor (generator left right : UInt16) {first second : List Bool}
    (same : first.length = second.length) :
    feedAll generator (left ^^^ right) (List.zipWith xor first second) =
      feedAll generator left first ^^^ feedAll generator right second := by
  induction first generalizing left right second with
  | nil =>
      cases second with
      | nil => rfl
      | cons bit rest => cases same
  | cons x first ih =>
      cases second with
      | nil => cases same
      | cons y second =>
          rw [List.zipWith_cons_cons, feedAll, List.foldl_cons, feed_xor]
          exact ih _ _ (Nat.succ.inj same)

theorem topBit_bit (bit : Bool) (index : Nat) (small : index < 16) :
    (topBit bit).toBitVec.getMsbD index = (decide (index = 0) && bit) := by
  have all : ∀ (bit : Bool) (index : Fin 16),
      (topBit bit).toBitVec.getMsbD index = (decide (index.val = 0) && bit) := by decide
  exact all bit ⟨index, small⟩

theorem topWord_bit (bits : List Bool) (index : Nat) (small : index < 16) :
    (topWord bits).toBitVec.getMsbD index = bits.getD index false := by
  induction bits generalizing index with
  | nil => simp [topWord]
  | cons bit rest ih =>
      rw [topWord, UInt16.toBitVec_xor, BitVec.getMsbD_xor, topBit_bit bit index small]
      cases index with
      | zero => simp
      | succ index =>
          have shifted : (topWord rest >>> 1).toBitVec.getMsbD (index + 1) = rest.getD index false := by
            rw [← ih index (by omega)]
            simp [BitVec.getMsbD_ushiftRight, small]
          rw [shifted]
          simp

theorem shiftBit_zero (generator : UInt16) : shiftBit generator 0 = 0 := rfl

theorem shiftBit_half (generator word : UInt16) (free : word.toBitVec.getMsbD 15 = false) :
    shiftBit generator (word >>> 1) = word := by
  have clear : (word >>> 1).toBitVec.getLsbD 15 = false := by simp
  rw [shiftBit_eq, clear]
  apply UInt16.toBitVec_inj.mp
  apply BitVec.eq_of_getMsbD_eq
  intro index small
  by_cases last : index = 15
  · rw [last, free]
    simp
  · have inner : index + 1 < 16 := by omega
    simp [inner]

theorem feedAll_word (generator crc : UInt16) (bits : List Bool) (short : bits.length ≤ 16) :
    feedAll generator crc bits = shiftBits generator bits.length (crc ^^^ topWord bits) := by
  induction bits generalizing crc with
  | nil => rw [topWord, UInt16.xor_zero]; rfl
  | cons bit rest ih =>
      have free : (topWord rest).toBitVec.getMsbD 15 = false := by
        rw [topWord_bit rest 15 (by decide)]
        exact List.getD_eq_default _ _ (Nat.le_of_succ_le_succ short)
      have moved : feed generator crc bit ^^^ topWord rest =
          shiftBit generator (crc ^^^ topWord (bit :: rest)) := by
        conv_lhs => rw [← shiftBit_half generator (topWord rest) free]
        rw [feed, ← shiftBit_xor, topWord, UInt16.xor_assoc]
      rw [feedAll, List.foldl_cons, ← feedAll, ih _ (Nat.le_of_succ_le short), moved]
      rfl

theorem shift_lowest (crc : UInt16) : (crc <<< 1).toBitVec.getLsbD 0 = false := by
  simp

theorem shift_bit (crc : UInt16) {index : Nat} (inner : index + 1 < 16) :
    (crc <<< 1).toBitVec.getLsbD (index + 1) = crc.toBitVec.getLsbD index := by
  simp [inner, BitVec.getLsbD_eq_getElem (Nat.lt_of_succ_lt inner)]

theorem shiftBit_injective {generator : UInt16} (odd : generator.toBitVec.getLsbD 0 = true)
    {crc : UInt16} (zero : shiftBit generator crc = 0) : crc = 0 := by
  have bits : ∀ index, (shiftBit generator crc).toBitVec.getLsbD index = false := by
    intro index
    rw [zero]
    simp
  rw [shiftBit_eq] at bits
  -- The lowest bit of the shifted register tells whether the generator was added.
  have top : crc.toBitVec.getLsbD 15 = false := by
    cases set : crc.toBitVec.getLsbD 15 with
    | false => rfl
    | true =>
        have lowest := bits 0
        rw [set, if_pos rfl, UInt16.toBitVec_xor, BitVec.getLsbD_xor, shift_lowest, odd] at lowest
        cases lowest
  rw [top] at bits
  apply UInt16.toBitVec_inj.mp
  apply BitVec.eq_of_getLsbD_eq
  intro index small
  by_cases last : index = 15
  · rw [last, top]
    simp
  · have moved := bits (index + 1)
    rw [if_neg Bool.false_ne_true, shift_bit crc (by omega)] at moved
    rw [moved]
    simp

theorem shiftBits_injective {generator : UInt16} (odd : generator.toBitVec.getLsbD 0 = true)
    {count : Nat} {crc : UInt16} (zero : shiftBits generator count crc = 0) : crc = 0 := by
  induction count generalizing crc with
  | zero => exact zero
  | succ count ih => exact shiftBit_injective odd (ih zero)

theorem topWord_octet (octet : UInt8) : topWord (octetBits octet) = octet.toUInt16 <<< 8 := by
  have all : ∀ value : Fin 256, topWord (octetBits (UInt8.ofNat value)) =
      (UInt8.ofNat value).toUInt16 <<< 8 := by decide +kernel
  have here := all ⟨octet.toNat, octet.toNat_lt⟩
  rwa [UInt8.ofNat_toNat] at here

theorem absorb_eq (generator crc : UInt16) (octet : UInt8) :
    absorb generator crc octet = feedAll generator crc (octetBits octet) := by
  rw [feedAll_word generator crc (octetBits octet) (by simp [octetBits]), topWord_octet]
  simp [absorb, octetBits]

theorem feedAll_append (generator crc : UInt16) (first second : List Bool) :
    feedAll generator crc (first ++ second) =
      feedAll generator (feedAll generator crc first) second :=
  List.foldl_append

theorem messageBits_cons (octet : UInt8) (octets : List UInt8) :
    messageBits (octet :: octets) = octetBits octet ++ messageBits octets :=
  List.flatMap_cons

@[simp] theorem octetBits_length (octet : UInt8) : (octetBits octet).length = 8 := by
  simp [octetBits]

@[simp] theorem messageBits_length (octets : List UInt8) :
    (messageBits octets).length = 8 * octets.length := by
  induction octets with
  | nil => rfl
  | cons octet rest ih =>
      rw [messageBits_cons, List.length_append, octetBits_length, ih, List.length_cons]
      omega

/-- The check as one division of the bits of the message. -/
theorem remainder_eq (generator initial : UInt16) (octets : List UInt8) :
    remainder generator initial octets = feedAll generator initial (messageBits octets) := by
  induction octets generalizing initial with
  | nil => rfl
  | cons octet rest ih =>
      rw [messageBits_cons, feedAll_append, ← absorb_eq, ← ih]
      rfl

theorem topWord_append (octet : UInt8) (rest : List Bool) :
    topWord (octetBits octet ++ rest) = (octet.toUInt16 <<< 8) ^^^ (topWord rest >>> 8) := by
  apply UInt16.toBitVec_inj.mp
  apply BitVec.eq_of_getMsbD_eq
  intro index small
  rw [topWord_bit _ index small, ← topWord_octet, UInt16.toBitVec_xor, BitVec.getMsbD_xor,
    topWord_bit _ index small]
  by_cases front : index < 8
  · rw [List.getD_append _ _ _ _ (by simpa using front)]
    simp [front]
  · have behind : (octetBits octet).length ≤ index := by simpa using front
    rw [List.getD_append_right _ _ _ _ behind, List.getD_eq_default _ _ behind]
    have moved := topWord_bit rest (index - 8) (by omega)
    simp [front, small, moved]

theorem topWord_trailer (high low : UInt8) :
    topWord (messageBits [high, low]) = readTrailer high low := by
  have all : ∀ value : Fin 256, ((UInt8.ofNat value).toUInt16 <<< 8) >>> 8 =
      (UInt8.ofNat value).toUInt16 := by decide +kernel
  have back := all ⟨low.toNat, low.toNat_lt⟩
  rw [UInt8.ofNat_toNat] at back
  have shape : messageBits [high, low] = octetBits high ++ octetBits low := by
    simp [messageBits]
  rw [shape, topWord_append, topWord_octet, back, readTrailer]
  apply UInt16.toBitVec_inj.mp
  apply BitVec.eq_of_getLsbD_eq
  intro index small
  rw [UInt16.toBitVec_xor, UInt16.toBitVec_or, BitVec.getLsbD_xor, BitVec.getLsbD_or]
  by_cases front : index < 8
  · have clear : (high.toUInt16 <<< 8).toBitVec.getLsbD index = false := by simp [front]
    rw [clear, Bool.false_xor, Bool.false_or]
  · have clear : low.toUInt16.toBitVec.getLsbD index = false := by
      have outside := BitVec.getLsbD_of_ge low.toBitVec index (by omega)
      simp [outside]
    rw [clear, Bool.xor_false, Bool.or_false]

theorem shiftBits_zero (generator : UInt16) (count : Nat) : shiftBits generator count 0 = 0 := by
  induction count with
  | zero => rfl
  | succ count ih => rw [shiftBits, shiftBit_zero, ih]

/-- A message that carries its own remainder leaves none. -/
theorem remainder_sealed_iff {generator : UInt16} (odd : generator.toBitVec.getLsbD 0 = true)
    (initial : UInt16) (octets : List UInt8) (high low : UInt8) :
    remainder generator initial (octets ++ [high, low]) = 0 ↔
      readTrailer high low = remainder generator initial octets := by
  have two : remainder generator initial (octets ++ [high, low]) =
      shiftBits generator 16 (remainder generator initial octets ^^^ readTrailer high low) := by
    have word := feedAll_word generator (remainder generator initial octets)
      (messageBits [high, low]) (by simp)
    rw [← remainder_eq, messageBits_length, topWord_trailer] at word
    rw [remainder, List.foldl_append]
    exact word
  rw [two]
  constructor
  · intro zero
    exact (UInt16.xor_eq_zero_iff.mp (shiftBits_injective odd zero)).symm
  · intro same
    rw [same, UInt16.xor_self, shiftBits_zero]

end PiVccu.Crc16
