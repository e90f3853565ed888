import Mathlib.Data.Nat.Bitwise

/-!
A 16-bit word as the two bytes of network order. The splitting and joining
expressions are the shifts and masks C code writes; the lemmas move them to
quotient and remainder by 256.
-/

namespace PiVccu.BigEndian

def join (high low : UInt8) : UInt16 := (high.toUInt16 <<< 8) ||| low.toUInt16

def highByte (word : UInt16) : UInt8 := ((word >>> 8) &&& 0xff).toUInt8

def lowByte (word : UInt16) : UInt8 := (word &&& 0xff).toUInt8

theorem join_toNat (high low : UInt8) :
    (join high low).toNat = high.toNat * 256 + low.toNat := by
  have highBound := high.toNat_lt
  have lowBound := low.toNat_lt
  have apart : high.toNat * 2 ^ 8 ||| low.toNat = high.toNat * 2 ^ 8 + low.toNat := by
    rw [← Nat.shiftLeft_eq]
    exact (Nat.shiftLeft_add_eq_or_of_lt lowBound high.toNat).symm
  simp only [join, UInt16.toNat_or, UInt16.toNat_shiftLeft, UInt8.toNat_toUInt16, Nat.shiftLeft_eq]
  have fits : high.toNat * 2 ^ (UInt16.toNat 8 % 16) % 2 ^ 16 = high.toNat * 2 ^ 8 := by
    have eight : UInt16.toNat 8 % 16 = 8 := rfl
    rw [eight]
    omega
  rw [fits, apart]
  rfl

theorem highByte_toNat (word : UInt16) : (highByte word).toNat = word.toNat / 256 := by
  have bound := word.toNat_lt
  have masked : (word.toNat >>> 8) &&& 255 = word.toNat / 256 := by
    rw [show (255 : Nat) = 2 ^ 8 - 1 from rfl, Nat.and_two_pow_sub_one_eq_mod,
      Nat.shiftRight_eq_div_pow]
    omega
  have plain : (highByte word).toNat = (word.toNat >>> 8 &&& 255) % 256 := rfl
  rw [plain, masked]
  omega

theorem lowByte_toNat (word : UInt16) : (lowByte word).toNat = word.toNat % 256 := by
  have masked : word.toNat &&& 255 = word.toNat % 256 := by
    rw [show (255 : Nat) = 2 ^ 8 - 1 from rfl, Nat.and_two_pow_sub_one_eq_mod]
  have plain : (lowByte word).toNat = (word.toNat &&& 255) % 256 := rfl
  rw [plain, masked]
  omega

theorem join_split (word : UInt16) : join (highByte word) (lowByte word) = word := by
  apply UInt16.toNat_inj.mp
  rw [join_toNat, highByte_toNat, lowByte_toNat]
  omega

theorem highByte_join (high low : UInt8) : highByte (join high low) = high := by
  apply UInt8.toNat_inj.mp
  have lowBound := low.toNat_lt
  rw [highByte_toNat, join_toNat]
  omega

theorem lowByte_join (high low : UInt8) : lowByte (join high low) = low := by
  apply UInt8.toNat_inj.mp
  have lowBound := low.toNat_lt
  rw [lowByte_toNat, join_toNat]
  omega

theorem highByte_ofNat (value : Nat) :
    UInt8.ofNat ((value >>> 8) &&& 0xff) = highByte (UInt16.ofNat value) := by
  apply UInt8.toNat_inj.mp
  rw [highByte_toNat, UInt8.toNat_ofNat', UInt16.toNat_ofNat',
    show (0xff : Nat) = 2 ^ 8 - 1 from rfl, Nat.and_two_pow_sub_one_eq_mod,
    Nat.shiftRight_eq_div_pow]
  omega

theorem lowByte_ofNat (value : Nat) :
    UInt8.ofNat (value &&& 0xff) = lowByte (UInt16.ofNat value) := by
  apply UInt8.toNat_inj.mp
  rw [lowByte_toNat, UInt8.toNat_ofNat', UInt16.toNat_ofNat',
    show (0xff : Nat) = 2 ^ 8 - 1 from rfl, Nat.and_two_pow_sub_one_eq_mod]
  omega

/-- The order in which the host keeps the bytes of a word in memory. -/
inductive HostOrder where
  | littleEndian
  | bigEndian
deriving DecidableEq

/-- The two bytes of a word in memory, and the word of two bytes in memory. -/
def wordBytes : HostOrder → UInt16 → List UInt8
  | .littleEndian, word => [lowByte word, highByte word]
  | .bigEndian, word => [highByte word, lowByte word]

def wordOf : HostOrder → UInt8 → UInt8 → UInt16
  | .littleEndian, first, second => join second first
  | .bigEndian, first, second => join first second

def htons : HostOrder → UInt16 → UInt16
  | .littleEndian, word => join (lowByte word) (highByte word)
  | .bigEndian, word => word

theorem wordBytes_htons (order : HostOrder) (word : UInt16) :
    wordBytes order (htons order word) = [highByte word, lowByte word] := by
  cases order with
  | littleEndian => rw [htons, wordBytes, lowByte_join, highByte_join]
  | bigEndian => rfl

theorem wordOf_network (order : HostOrder) (word : UInt16) :
    wordOf order (highByte word) (lowByte word) = htons order word := by
  cases order with
  | littleEndian => rfl
  | bigEndian => exact join_split word

theorem wordOf_eq_htons_iff (order : HostOrder) (first second : UInt8) (word : UInt16) :
    wordOf order first second = htons order word ↔ join first second = word := by
  cases order with
  | bigEndian => exact Iff.rfl
  | littleEndian =>
      rw [wordOf, htons]
      constructor
      · intro same
        have high := congrArg highByte same
        have low := congrArg lowByte same
        rw [highByte_join, highByte_join] at high
        rw [lowByte_join, lowByte_join] at low
        rw [high, low, join_split]
      · rintro rfl
        rw [highByte_join, lowByte_join]

end PiVccu.BigEndian
