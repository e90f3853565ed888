import Mathlib.Data.Nat.Digits.Defs
import PiVccu.FakeHmrfRead
import PiVccu.RadioModuleDialogue

/-!
The module parameters of `kernel/fake_hmrf.c`: what their texts are and which texts set
them. Strings come without their terminating zero.
-/

namespace PiVccu.FakeHmrfParameters
open FakeHmrfWrite RadioModuleDetector

def einval : Int := 22

def defaultParameters : Parameters := loaded.parameters

def getSerial (parameters : Parameters) : List UInt8 := parameters.boardSerial

def setSerial (parameters : Parameters) (val : List UInt8) : Parameters × Int :=
  if sized : val.length = 10 then
    ({ parameters with boardSerial := val, serialSized := sized }, 10)
  else (parameters, -einval)

/-- `fake_hmrf_get_radio_mac`: `%02hhX` is `%02X` of a byte. -/
def getRadioMac (parameters : Parameters) : List UInt8 :=
  ascii "0x" ++ hexString parameters.radioMac

def parseHexChar (val : UInt8) : Int :=
  if val ≥ 0x30 ∧ val ≤ 0x39 then val.toNat - 0x30
  else if val ≥ 0x41 ∧ val ≤ 0x46 then val.toNat - 0x41 + 10
  else if val ≥ 0x61 ∧ val ≤ 0x66 then val.toNat - 0x61 + 10
  else -1

/-- The loop of `fake_hmrf_set_radio_mac`, which has two characters for each byte. -/
def parseMac : List UInt8 → Option (List UInt8)
  | [] => some []
  | [_] => none
  | high :: low :: rest =>
      if parseHexChar high = -1 then none
      else if parseHexChar low = -1 then none
      else (parseMac rest).map fun mac =>
        (UInt8.ofInt (parseHexChar high) <<< 4 ||| UInt8.ofInt (parseHexChar low)) :: mac

theorem parseMac_length {text mac : List UInt8} (parsed : parseMac text = some mac) :
    2 * mac.length = text.length := by
  induction text using parseMac.induct generalizing mac with
  | case1 =>
      cases parsed
      rfl
  | case2 => cases parsed
  | case3 high low rest bad =>
      rw [parseMac, if_pos bad] at parsed
      cases parsed
  | case4 high low rest good bad =>
      rw [parseMac, if_neg good, if_pos bad] at parsed
      cases parsed
  | case5 high low rest good fine ih =>
      rw [parseMac, if_neg good, if_neg fine] at parsed
      obtain ⟨tail, found, rfl⟩ := Option.map_eq_some_iff.mp parsed
      have length := ih found
      simp only [List.length_cons]
      omega

theorem mac_sized {val mac : List UInt8} (eight : val.length = 8)
    (parsed : parseMac (val.drop 2) = some mac) : mac.length = 3 := by
  have length := parseMac_length parsed
  rw [List.length_drop] at length
  omega

def setRadioMac (parameters : Parameters) (val : List UInt8) : Parameters × Int :=
  if eight : val.length = 8 then
    if val.getD 0 0 ≠ 0x30 ∨ val.getD 1 0 ≠ 0x78 then (parameters, -einval)
    else
      match parsed : parseMac (val.drop 2) with
      | none => (parameters, -einval)
      | some mac =>
          ({ parameters with
              radioMac := mac
              macSized := mac_sized eight parsed }, 8)
  else (parameters, -einval)

def decimal (value : Nat) : List UInt8 :=
  (Nat.toDigits 10 value).map fun digit => UInt8.ofNat digit.toNat

/-- A `char` that is passed for `%u`, where `char` is a signed type or an unsigned one. -/
def promoted (signed : Bool) (octet : UInt8) : Nat :=
  if signed ∧ octet ≥ 0x80 then 2 ^ 32 - 256 + octet.toNat else octet.toNat

def getFirmwareVersion (signed : Bool) (parameters : Parameters) : List UInt8 :=
  let number index := decimal (promoted signed (parameters.firmwareVersion.getD index 0))
  number 0 ++ 0x2e :: (number 1 ++ 0x2e :: number 2)

/-- `strsep(&parts, ".")` on a text: the token, and the text behind the dot. -/
def strsep : List UInt8 → List UInt8 × Option (List UInt8)
  | [] => ([], none)
  | char :: rest =>
      if char = 0x2e then ([], some rest) else (char :: (strsep rest).1, (strsep rest).2)

/-- The digits of `simple_strtoull`, whose overflow nobody looks at. -/
def parseInteger (result : Nat) : List UInt8 → Nat
  | [] => result
  | char :: rest =>
      if char ≥ 0x30 ∧ char ≤ 0x39 then
        parseInteger ((result * 10 + (char.toNat - 0x30)) % 2 ^ 64) rest
      else result

/-- `simple_strtol(token, NULL, 10)`, converted to `int`. -/
def simpleStrtol (token : List UInt8) : Int :=
  if token.head? = some 0x2d then (-(parseInteger 0 token.tail : Int)).bmod (2 ^ 32)
  else (parseInteger 0 token : Int).bmod (2 ^ 32)

def parseVersion : Nat → Option (List UInt8) → Option (List UInt8)
  | 0, parts => if parts.isSome then none else some []
  | _ + 1, none => none
  | count + 1, some parts =>
      let parsed := simpleStrtol (strsep parts).1
      if parsed < 0 ∨ parsed > 255 then none
      else (parseVersion count (strsep parts).2).map (UInt8.ofInt parsed :: ·)

theorem parseVersion_length {count : Nat} {parts : Option (List UInt8)} {version : List UInt8}
    (parsed : parseVersion count parts = some version) : version.length = count := by
  induction count generalizing parts version with
  | zero =>
      rw [parseVersion] at parsed
      split at parsed
      · cases parsed
      · cases parsed
        rfl
  | succ count ih =>
      cases parts with
      | none => cases parsed
      | some text =>
          rw [parseVersion] at parsed
          split at parsed
          · cases parsed
          · obtain ⟨rest, found, rfl⟩ := Option.map_eq_some_iff.mp parsed
            rw [List.length_cons, ih found]

def setFirmwareVersion (parameters : Parameters) (val : List UInt8) : Parameters × Int :=
  if val.length > 31 then (parameters, -einval)
  else
    match parsed : parseVersion 3 (some val) with
    | none => (parameters, -einval)
    | some version =>
        ({ parameters with
            firmwareVersion := version, versionSized := parseVersion_length parsed }, val.length)

/-! ### Hexadecimal digits -/

def upper (char : UInt8) : UInt8 := if char ≥ 0x61 then char - 0x20 else char

theorem hexChar_value : ∀ char : UInt8, parseHexChar char ≠ -1 →
    UInt8.ofInt (parseHexChar char) < 16 ∧
      hexDigit (UInt8.ofInt (parseHexChar char)) = upper char := by
  have all : ∀ char : Fin 256, parseHexChar (UInt8.ofFin char) ≠ -1 →
      UInt8.ofInt (parseHexChar (UInt8.ofFin char)) < 16 ∧
        hexDigit (UInt8.ofInt (parseHexChar (UInt8.ofFin char))) = upper (UInt8.ofFin char) := by
    decide +kernel
  exact fun char => all char.toFin

theorem hexDigit_value : ∀ nibble : UInt8, nibble < 16 →
    parseHexChar (hexDigit nibble) ≠ -1 ∧ UInt8.ofInt (parseHexChar (hexDigit nibble)) = nibble := by
  have all : ∀ value : Fin 16, parseHexChar (hexDigit (UInt8.ofNat value)) ≠ -1 ∧
      UInt8.ofInt (parseHexChar (hexDigit (UInt8.ofNat value))) = UInt8.ofNat value := by decide
  intro nibble small
  have bound : nibble.toNat < 16 := small
  have same : UInt8.ofNat nibble.toNat = nibble := UInt8.ofNat_toNat
  have here := all ⟨nibble.toNat, bound⟩
  rwa [same] at here

theorem nibbles_joined {high low : UInt8} (upper : high < 16) (lower : low < 16) :
    (high <<< 4 ||| low) >>> 4 = high ∧ (high <<< 4 ||| low) &&& 0xf = low := by
  have all : ∀ first second : Fin 16,
      (UInt8.ofNat first <<< 4 ||| UInt8.ofNat second) >>> 4 = UInt8.ofNat first ∧
        (UInt8.ofNat first <<< 4 ||| UInt8.ofNat second) &&& 0xf = UInt8.ofNat second := by
    decide +kernel
  have here := all ⟨high.toNat, upper⟩ ⟨low.toNat, lower⟩
  rwa [UInt8.ofNat_toNat, UInt8.ofNat_toNat] at here

theorem nibbles_split (octet : UInt8) :
    octet >>> 4 < 16 ∧ octet &&& 0xf < 16 ∧ octet >>> 4 <<< 4 ||| (octet &&& 0xf) = octet := by
  have all : ∀ octet : Fin 256, UInt8.ofFin octet >>> 4 < 16 ∧ UInt8.ofFin octet &&& 0xf < 16 ∧
      UInt8.ofFin octet >>> 4 <<< 4 ||| (UInt8.ofFin octet &&& 0xf) = UInt8.ofFin octet := by
    decide +kernel
  exact all octet.toFin

theorem parseMac_hexString (mac : List UInt8) : parseMac (hexString mac) = some mac := by
  induction mac with
  | nil => rfl
  | cons octet rest ih =>
      obtain ⟨upper, lower, joined⟩ := nibbles_split octet
      obtain ⟨digit, high⟩ := hexDigit_value _ upper
      obtain ⟨digit', low⟩ := hexDigit_value _ lower
      have shown : hexString (octet :: rest) =
          hexDigit (octet >>> 4) :: hexDigit (octet &&& 0xf) :: hexString rest := rfl
      rw [shown, parseMac, if_neg digit, if_neg digit', ih, Option.map_some, high, low, joined]

theorem hexString_parseMac {text mac : List UInt8} (parsed : parseMac text = some mac) :
    hexString mac = text.map upper := by
  induction text using parseMac.induct generalizing mac with
  | case1 =>
      cases parsed
      rfl
  | case2 => cases parsed
  | case3 high low rest bad =>
      rw [parseMac, if_pos bad] at parsed
      cases parsed
  | case4 high low rest good bad =>
      rw [parseMac, if_neg good, if_pos bad] at parsed
      cases parsed
  | case5 high low rest good fine ih =>
      rw [parseMac, if_neg good, if_neg fine] at parsed
      obtain ⟨tail, found, rfl⟩ := Option.map_eq_some_iff.mp parsed
      obtain ⟨upperSmall, highShown⟩ := hexChar_value high good
      obtain ⟨lowerSmall, lowShown⟩ := hexChar_value low fine
      obtain ⟨first, second⟩ := nibbles_joined upperSmall lowerSmall
      have shown : ∀ octet : UInt8, hexString (octet :: tail) =
          hexDigit (octet >>> 4) :: hexDigit (octet &&& 0xf) :: hexString tail := fun _ => rfl
      rw [shown, first, second, highShown, lowShown, ih found]
      rfl

theorem parseMac_isSome_iff (text : List UInt8) :
    (parseMac text).isSome ↔ text.length % 2 = 0 ∧ ∀ char ∈ text, parseHexChar char ≠ -1 := by
  induction text using parseMac.induct with
  | case1 => simp [parseMac]
  | case2 char => simp [parseMac]
  | case3 high low rest bad => simp [parseMac, bad]
  | case4 high low rest good bad => simp [parseMac, good, bad]
  | case5 high low rest good fine ih =>
      rw [parseMac, if_neg good, if_neg fine, Option.isSome_map, ih]
      simp only [List.length_cons, List.mem_cons, forall_eq_or_imp]
      constructor
      · rintro ⟨even, digits⟩
        exact ⟨by omega, good, fine, digits⟩
      · rintro ⟨even, -, -, digits⟩
        exact ⟨by omega, digits⟩

/-! ### Decimal numbers -/

theorem digitChar_value : ∀ digit : Fin 10,
    UInt8.ofNat (Nat.digitChar digit).toNat ≥ 0x30 ∧
      UInt8.ofNat (Nat.digitChar digit).toNat ≤ 0x39 ∧
      (UInt8.ofNat (Nat.digitChar digit).toNat).toNat - 0x30 = digit := by
  decide

theorem decimal_eq (value : Nat) :
    decimal value = (if value < 10 then [] else decimal (value / 10)) ++
      [UInt8.ofNat (Nat.digitChar (value % 10)).toNat] := by
  unfold decimal
  rw [Nat.toDigits_eq_if (by decide)]
  split
  · rename_i small
    rw [Nat.mod_eq_of_lt small]
    rfl
  · rw [List.map_append]
    rfl

def Digits (text : List UInt8) : Prop := ∀ char ∈ text, char ≥ 0x30 ∧ char ≤ 0x39

theorem decimal_digits (value : Nat) : Digits (decimal value) := by
  induction value using Nat.strongRecOn with
  | ind value ih =>
      rw [decimal_eq]
      intro char member
      rcases List.mem_append.mp member with front | last
      · split at front
        · cases front
        · exact ih (value / 10) (by omega) char front
      · rw [List.mem_singleton] at last
        obtain ⟨low, high, -⟩ := digitChar_value ⟨value % 10, Nat.mod_lt _ (by decide)⟩
        rw [last]
        exact ⟨low, high⟩

theorem parseInteger_snoc {text : List UInt8} (digits : Digits text) (result : Nat) {char : UInt8}
    (digit : char ≥ 0x30 ∧ char ≤ 0x39) :
    parseInteger result (text ++ [char]) =
      (parseInteger result text * 10 + (char.toNat - 0x30)) % 2 ^ 64 := by
  induction text generalizing result with
  | nil =>
      simp only [List.nil_append, parseInteger, if_pos digit]
  | cons first rest ih =>
      rw [List.cons_append, parseInteger, if_pos (digits first List.mem_cons_self), ih
        (fun char member => digits char (List.mem_cons_of_mem _ member)), parseInteger,
        if_pos (digits first List.mem_cons_self)]

theorem parseInteger_decimal (value : Nat) : parseInteger 0 (decimal value) = value % 2 ^ 64 := by
  induction value using Nat.strongRecOn with
  | ind value ih =>
      obtain ⟨low, high, digit⟩ := digitChar_value ⟨value % 10, Nat.mod_lt _ (by decide)⟩
      rw [decimal_eq, parseInteger_snoc _ _ ⟨low, high⟩, digit]
      · split
        · rename_i small
          rw [parseInteger]
          dsimp only
          omega
        · rw [ih (value / 10) (by omega)]
          dsimp only
          omega
      · split
        · exact nofun
        · exact decimal_digits _

theorem simpleStrtol_decimal (value : Nat) :
    simpleStrtol (decimal value) = (value : Int).bmod (2 ^ 32) := by
  have unsigned : (decimal value).head? ≠ some 0x2d := by
    intro sign
    exact absurd (decimal_digits value _ (List.mem_of_mem_head? sign)).1 (by decide)
  rw [simpleStrtol, if_neg unsigned, parseInteger_decimal]
  have wrapped : ((value % 2 ^ 64 : Nat) : Int) % (2 ^ 32 : Nat) = (value : Int) % (2 ^ 32 : Nat) := by
    omega
  rw [← Int.emod_bmod, wrapped, Int.emod_bmod]

/-! ### Texts of versions -/

theorem strsep_dot {token : List UInt8} (clean : 0x2e ∉ token) (rest : List UInt8) :
    strsep (token ++ 0x2e :: rest) = (token, some rest) := by
  induction token with
  | nil => rw [List.nil_append, strsep, if_pos rfl]
  | cons char token ih =>
      have ordinary : char ≠ 0x2e := fun same => clean (by rw [same]; exact List.mem_cons_self)
      rw [List.cons_append, strsep, if_neg ordinary,
        ih fun member => clean (List.mem_cons_of_mem _ member)]

theorem strsep_last {token : List UInt8} (clean : 0x2e ∉ token) : strsep token = (token, none) := by
  induction token with
  | nil => rfl
  | cons char token ih =>
      have ordinary : char ≠ 0x2e := fun same => clean (by rw [same]; exact List.mem_cons_self)
      rw [strsep, if_neg ordinary, ih fun member => clean (List.mem_cons_of_mem _ member)]

theorem strsep_spec (text : List UInt8) : 0x2e ∉ (strsep text).1 ∧
    text = (strsep text).1 ++ ((strsep text).2.map (0x2e :: ·)).getD [] := by
  induction text with
  | nil => exact ⟨nofun, rfl⟩
  | cons char rest ih =>
      rw [strsep]
      split
      · rename_i dot
        rw [dot]
        exact ⟨nofun, rfl⟩
      · rename_i ordinary
        refine ⟨?_, by rw [List.cons_append, ← ih.2]⟩
        rintro (_ | ⟨_, member⟩)
        · exact ordinary rfl
        · exact ih.1 member

def TokenValue (token : List UInt8) (octet : UInt8) : Prop := simpleStrtol token = octet.toNat

theorem tokenValue_iff (token : List UInt8) (octet : UInt8) :
    TokenValue token octet ↔ ¬ (simpleStrtol token < 0 ∨ simpleStrtol token > 255) ∧
      UInt8.ofInt (simpleStrtol token) = octet := by
  have small : octet.toNat < 256 := octet.toNat_lt
  constructor
  · intro value
    have value : simpleStrtol token = octet.toNat := value
    rw [value]
    refine ⟨by omega, ?_⟩
    have whole : ((octet.toNat : Int) % 2 ^ 8).toNat = octet.toNat := by omega
    rw [UInt8.ofInt, whole, UInt8.ofNat_toNat]
  · rintro ⟨inside, rfl⟩
    rw [TokenValue, UInt8.ofInt, UInt8.toNat_ofNat']
    omega

theorem parseVersion_succ_iff (count : Nat) (text : List UInt8) (octet : UInt8)
    (version : List UInt8) :
    parseVersion (count + 1) (some text) = some (octet :: version) ↔
      TokenValue (strsep text).1 octet ∧ parseVersion count (strsep text).2 = some version := by
  rw [tokenValue_iff, parseVersion]
  constructor
  · intro parsed
    split at parsed
    · cases parsed
    · rename_i inside
      obtain ⟨rest, found, same⟩ := Option.map_eq_some_iff.mp parsed
      obtain ⟨value, rfl⟩ := List.cons.inj same
      exact ⟨⟨inside, value⟩, found⟩
  · rintro ⟨⟨inside, value⟩, found⟩
    rw [if_neg inside, found, Option.map_some, value]

theorem parseVersion_tokens {first second third : List UInt8} (clean : 0x2e ∉ first)
    (clean' : 0x2e ∉ second) (clean'' : 0x2e ∉ third) (major minor patch : UInt8) :
    parseVersion 3 (some (first ++ 0x2e :: (second ++ 0x2e :: third))) =
        some [major, minor, patch] ↔
      TokenValue first major ∧ TokenValue second minor ∧ TokenValue third patch := by
  rw [parseVersion_succ_iff, strsep_dot clean, parseVersion_succ_iff, strsep_dot clean',
    parseVersion_succ_iff, strsep_last clean'']
  simp only [parseVersion, Option.isSome_none, Bool.false_eq_true, ↓reduceIte, and_true]

/-- A version is three numbers with dots between them, each as `simple_strtol` reads it. -/
theorem parseVersion_iff (text : List UInt8) (major minor patch : UInt8) :
    parseVersion 3 (some text) = some [major, minor, patch] ↔
      ∃ first second third, text = first ++ 0x2e :: (second ++ 0x2e :: third) ∧
        0x2e ∉ first ∧ 0x2e ∉ second ∧ 0x2e ∉ third ∧
        TokenValue first major ∧ TokenValue second minor ∧ TokenValue third patch := by
  constructor
  · intro parsed
    obtain ⟨value, parsed⟩ := (parseVersion_succ_iff 2 text major _).mp parsed
    obtain ⟨clean, shape⟩ := strsep_spec text
    cases rest : (strsep text).2 with
    | none =>
        rw [rest] at parsed
        cases parsed
    | some text' =>
        rw [rest] at parsed shape
        obtain ⟨value', parsed⟩ := (parseVersion_succ_iff 1 text' minor _).mp parsed
        obtain ⟨clean', shape'⟩ := strsep_spec text'
        cases rest' : (strsep text').2 with
        | none =>
            rw [rest'] at parsed
            cases parsed
        | some last =>
            rw [rest'] at parsed shape'
            obtain ⟨value'', parsed⟩ := (parseVersion_succ_iff 0 last patch _).mp parsed
            obtain ⟨clean'', shape''⟩ := strsep_spec last
            cases rest'' : (strsep last).2 with
            | some more =>
                rw [rest''] at parsed
                cases parsed
            | none =>
                rw [rest''] at shape''
                refine ⟨_, _, _, ?_, clean, clean', clean'', value, value', value''⟩
                have whole : last = (strsep last).1 := by simpa using shape''
                rw [← whole]
                simp only [Option.map_some, Option.getD_some] at shape shape'
                rw [← shape', ← shape]
  · rintro ⟨first, second, third, rfl, clean, clean', clean'', values⟩
    exact (parseVersion_tokens clean clean' clean'' major minor patch).mpr values

theorem decimal_clean (value : Nat) : 0x2e ∉ decimal value := by
  intro dot
  exact absurd (decimal_digits value _ dot).1 (by decide)

theorem tokenValue_promoted (signed : Bool) (octet : UInt8) :
    (∃ value, TokenValue (decimal (promoted signed octet)) value) ↔
      TokenValue (decimal (promoted signed octet)) octet := by
  have small : octet.toNat < 256 := octet.toNat_lt
  constructor
  · rintro ⟨value, shown⟩
    have bound : value.toNat < 256 := value.toNat_lt
    unfold TokenValue at shown ⊢
    rw [simpleStrtol_decimal] at shown ⊢
    unfold promoted at shown ⊢
    split at shown
    · rename_i negative
      have large : 128 ≤ octet.toNat := negative.2
      rw [Int.bmod_def] at shown
      split at shown <;> omega
    · rename_i plain
      rw [if_neg plain]
      rw [Int.bmod_def] at shown ⊢
      split <;> omega
  · intro shown
    exact ⟨octet, shown⟩

theorem tokenValue_promoted_iff (signed : Bool) (octet : UInt8) :
    TokenValue (decimal (promoted signed octet)) octet ↔ signed = false ∨ octet < 0x80 := by
  have small : octet.toNat < 256 := octet.toNat_lt
  unfold TokenValue
  rw [simpleStrtol_decimal, promoted, Int.bmod_def]
  split
  · rename_i negative
    have large : 128 ≤ octet.toNat := negative.2
    refine iff_of_false ?_ ?_
    · split <;> omega
    · rintro (unsigned | less)
      · rw [unsigned] at negative
        cases negative.1
      · have less : octet.toNat < 128 := less
        omega
  · rename_i plain
    refine iff_of_true ?_ ?_
    · split <;> omega
    · cases signed with
      | false => exact .inl rfl
      | true =>
          refine .inr ?_
          have less : ¬ 128 ≤ octet.toNat := fun large => plain ⟨rfl, large⟩
          exact Nat.lt_of_not_le less

theorem decimal_length_le {value digits : Nat} (positive : 1 ≤ digits) (small : value < 10 ^ digits) :
    (decimal value).length ≤ digits := by
  induction digits generalizing value with
  | zero => cases positive
  | succ digits ih =>
      rw [decimal_eq, List.length_append, List.length_singleton]
      split
      · simp
      · rename_i large
        have more : 1 ≤ digits := by
          rcases Nat.eq_zero_or_pos digits with rfl | more
          · omega
          · exact more
        rw [Nat.pow_succ] at small
        have less : value / 10 < 10 ^ digits := by omega
        have shorter := ih more less
        omega

theorem shown_tokens (signed : Bool) (shown : Parameters) : ∃ major minor patch,
    shown.firmwareVersion = [major, minor, patch] ∧
    getFirmwareVersion signed shown = decimal (promoted signed major) ++ 0x2e ::
      (decimal (promoted signed minor) ++ 0x2e :: decimal (promoted signed patch)) := by
  obtain ⟨major, minor, patch, version⟩ := List.length_eq_three.mp shown.versionSized
  refine ⟨major, minor, patch, version, ?_⟩
  rw [getFirmwareVersion, version]
  rfl

theorem setFirmwareVersion_some (current : Parameters) {val version : List UInt8}
    (short : val.length ≤ 31) (parsed : parseVersion 3 (some val) = some version) :
    setFirmwareVersion current val = ({ current with
      firmwareVersion := version, versionSized := parseVersion_length parsed },
      (val.length : Int)) := by
  rw [setFirmwareVersion, if_neg (Nat.not_lt.mpr short)]
  split
  · rename_i failed
    cases failed.symm.trans parsed
  · rename_i found parsed'
    cases parsed'.symm.trans parsed
    rfl

theorem setFirmwareVersion_none {current : Parameters} {val : List UInt8}
    (refused : val.length > 31 ∨ parseVersion 3 (some val) = none) :
    setFirmwareVersion current val = (current, -einval) := by
  rw [setFirmwareVersion]
  split
  · rfl
  · rename_i short
    split
    · rfl
    · rename_i version parsed
      cases parsed.symm.trans (refused.resolve_left short)

/-- The text of a version can be set again, except where `char` is a signed type and one
of the numbers is above 127. -/
theorem shown_version (signed : Bool) (shown current : Parameters) :
    ((signed = false ∨ ∀ octet ∈ shown.firmwareVersion, octet < 0x80) →
      setFirmwareVersion current (getFirmwareVersion signed shown) = ({ current with
        firmwareVersion := shown.firmwareVersion, versionSized := shown.versionSized },
        ((getFirmwareVersion signed shown).length : Int))) ∧
    (¬ (signed = false ∨ ∀ octet ∈ shown.firmwareVersion, octet < 0x80) →
      setFirmwareVersion current (getFirmwareVersion signed shown) = (current, -einval)) := by
  obtain ⟨major, minor, patch, version, text⟩ := shown_tokens signed shown
  have tokens := fun first second third => parseVersion_tokens
    (decimal_clean (promoted signed major)) (decimal_clean (promoted signed minor))
    (decimal_clean (promoted signed patch)) first second third
  simp only [text, version]
  constructor
  · intro plain
    have each : ∀ octet ∈ [major, minor, patch], signed = false ∨ octet < 0x80 :=
      fun octet member => plain.imp_right fun all => all octet member
    have small : ∀ octet ∈ [major, minor, patch],
        (decimal (promoted signed octet)).length ≤ 3 := by
      intro octet member
      have bound : octet.toNat < 256 := octet.toNat_lt
      apply decimal_length_le (by decide)
      rw [promoted, if_neg]
      · omega
      · rintro ⟨negative, large⟩
        rcases each octet member with unsigned | less
        · rw [negative] at unsigned
          cases unsigned
        · exact absurd less (Nat.not_lt.mpr large)
    have first := small major (by simp)
    have second := small minor (by simp)
    have third := small patch (by simp)
    have parsed := (tokens major minor patch).mpr
      ⟨(tokenValue_promoted_iff signed major).mpr (each major (by simp)),
        (tokenValue_promoted_iff signed minor).mpr (each minor (by simp)),
        (tokenValue_promoted_iff signed patch).mpr (each patch (by simp))⟩
    refine setFirmwareVersion_some current ?_ parsed
    simp only [List.length_append, List.length_cons]
    omega
  · intro negative
    apply setFirmwareVersion_none
    right
    by_contra accepted
    obtain ⟨values, parsed⟩ := Option.ne_none_iff_exists'.mp accepted
    obtain ⟨a, b, c, rfl⟩ := List.length_eq_three.mp (parseVersion_length parsed)
    obtain ⟨first, second, third⟩ := (tokens a b c).mp parsed
    have first := (tokenValue_promoted_iff signed major).mp
      ((tokenValue_promoted signed major).mp ⟨a, first⟩)
    have second := (tokenValue_promoted_iff signed minor).mp
      ((tokenValue_promoted signed minor).mp ⟨b, second⟩)
    have third := (tokenValue_promoted_iff signed patch).mp
      ((tokenValue_promoted signed patch).mp ⟨c, third⟩)
    apply negative
    cases signed with
    | false => exact .inl rfl
    | true => exact .inr (by simpa using And.intro first (And.intro second third))

/-- The texts that `fake_hmrf_set_radio_mac` takes. -/
structure MacText (val digits : List UInt8) : Prop where
  shape : val = ascii "0x" ++ digits
  six : digits.length = 6
  hexadecimal : ∀ char ∈ digits, parseHexChar char ≠ -1

/-- The texts that `fake_hmrf_set_firmware_version` takes: `simple_strtol` reads each token as
a number up to 255. -/
structure VersionText (val : List UInt8) (major minor patch : UInt8) : Prop where
  short : val.length ≤ 31
  tokens : ∃ first second third, val = first ++ 0x2e :: (second ++ 0x2e :: third) ∧
    0x2e ∉ first ∧ 0x2e ∉ second ∧ 0x2e ∉ third ∧
    TokenValue first major ∧ TokenValue second minor ∧ TokenValue third patch

theorem setRadioMac_some (current : Parameters) {digits mac : List UInt8} (six : digits.length = 6)
    (parsed : parseMac digits = some mac) (sized : mac.length = 3) :
    setRadioMac current (ascii "0x" ++ digits) =
      ({ current with radioMac := mac, macSized := sized }, 8) := by
  have eight : (ascii "0x" ++ digits).length = 8 := by
    rw [List.length_append, six]
    rfl
  have start : ¬ ((ascii "0x" ++ digits).getD 0 0 ≠ 0x30 ∨ (ascii "0x" ++ digits).getD 1 0 ≠ 0x78) := by
    rw [not_or, not_not, not_not]
    exact ⟨rfl, rfl⟩
  rw [setRadioMac, dif_pos eight, if_neg start]
  split
  · rename_i failed
    cases failed.symm.trans parsed
  · rename_i found parsed'
    cases parsed'.symm.trans parsed
    rfl

theorem setRadioMac_accepted (current : Parameters) {val digits : List UInt8}
    (text : MacText val digits) : ∃ mac sized,
    setRadioMac current val = ({ current with radioMac := mac, macSized := sized },
      (val.length : Int)) ∧
      ascii "0x" ++ hexString mac = ascii "0x" ++ digits.map upper := by
  obtain ⟨rfl, six, hexadecimal⟩ := text
  have pairs : (parseMac digits).isSome :=
    (parseMac_isSome_iff digits).mpr ⟨by rw [six], hexadecimal⟩
  obtain ⟨mac, parsed⟩ := Option.isSome_iff_exists.mp pairs
  have sized : mac.length = 3 := by
    have length := parseMac_length parsed
    omega
  refine ⟨mac, sized, ?_, by rw [hexString_parseMac parsed]⟩
  rw [setRadioMac_some current six parsed sized, List.length_append, six]
  rfl

theorem setRadioMac_refused (current : Parameters) {val : List UInt8}
    (other : ∀ digits, ¬ MacText val digits) : setRadioMac current val = (current, -einval) := by
  by_cases eight : val.length = 8
  · by_cases start : val.getD 0 0 ≠ 0x30 ∨ val.getD 1 0 ≠ 0x78
    · rw [setRadioMac, dif_pos eight, if_pos start]
    · have shape : val = ascii "0x" ++ val.drop 2 := by
        rw [not_or, not_not, not_not] at start
        rcases val with _ | ⟨zero, _ | ⟨cross, rest⟩⟩
        · cases eight
        · cases eight
        · obtain ⟨rfl, rfl⟩ : zero = 0x30 ∧ cross = 0x78 := start
          rfl
      have six : (val.drop 2).length = 6 := by rw [List.length_drop, eight]
      rw [setRadioMac, dif_pos eight, if_neg start]
      split
      · rfl
      · rename_i mac parsed
        have digits := (parseMac_isSome_iff (val.drop 2)).mp (by rw [parsed]; rfl)
        exact absurd ⟨shape, six, digits.2⟩ (other (val.drop 2))
  · rw [setRadioMac, dif_neg eight]

theorem setFirmwareVersion_accepted (current : Parameters) {val : List UInt8}
    {major minor patch : UInt8} (text : VersionText val major minor patch) :
    ∃ sized, setFirmwareVersion current val = ({ current with
      firmwareVersion := [major, minor, patch], versionSized := sized },
      (val.length : Int)) := by
  obtain ⟨short, tokens⟩ := text
  have parsed := (parseVersion_iff val major minor patch).mpr tokens
  exact ⟨parseVersion_length parsed, setFirmwareVersion_some current short parsed⟩

theorem setFirmwareVersion_refused (current : Parameters) {val : List UInt8}
    (other : ∀ major minor patch, ¬ VersionText val major minor patch) :
    setFirmwareVersion current val = (current, -einval) := by
  apply setFirmwareVersion_none
  by_cases short : val.length ≤ 31
  · right
    cases parsed : parseVersion 3 (some val) with
    | none => rfl
    | some version =>
        obtain ⟨major, minor, patch, rfl⟩ := List.length_eq_three.mp (parseVersion_length parsed)
        have tokens := (parseVersion_iff val major minor patch).mp parsed
        exact absurd ⟨short, tokens⟩ (other major minor patch)
  · exact .inl (Nat.lt_of_not_le short)

/-- What is read from the parameters of one module and written to those of another makes
these the same and nothing else, with one exception: numbers of a version that are shown with
their sign. -/
theorem parameters_restored (signed : Bool) (shown current : Parameters) :
    setSerial current (getSerial shown) = ({ current with
      boardSerial := shown.boardSerial, serialSized := shown.serialSized },
      ((getSerial shown).length : Int)) ∧
    setRadioMac current (getRadioMac shown) = ({ current with
      radioMac := shown.radioMac, macSized := shown.macSized },
      ((getRadioMac shown).length : Int)) ∧
    ((signed = false ∨ ∀ octet ∈ shown.firmwareVersion, octet < 0x80) →
      setFirmwareVersion current (getFirmwareVersion signed shown) = ({ current with
        firmwareVersion := shown.firmwareVersion, versionSized := shown.versionSized },
        ((getFirmwareVersion signed shown).length : Int))) ∧
    (¬ (signed = false ∨ ∀ octet ∈ shown.firmwareVersion, octet < 0x80) →
      setFirmwareVersion current (getFirmwareVersion signed shown) = (current, -einval)) := by
  refine ⟨?_, ?_, shown_version signed shown current⟩
  · rw [getSerial, setSerial, dif_pos shown.serialSized, shown.serialSized]
    rfl
  · have six : (hexString shown.radioMac).length = 6 := by
      rw [RadioModuleDialogue.hexString_length, shown.macSized]
    rw [getRadioMac, setRadioMac_some current six (parseMac_hexString shown.radioMac)
      shown.macSized, List.length_append, six]
    rfl

def texts (signed : Bool) (parameters : Parameters) : List UInt8 × List UInt8 × List UInt8 :=
  (getSerial parameters, getRadioMac parameters, getFirmwareVersion signed parameters)

/-- Exactly the accepted texts are taken: the length is the result, and the parameter is then
shown as what was read. -/
theorem parameter_texts (signed : Bool) (current : Parameters) (val : List UInt8) :
    (val.length = 10 → (setSerial current val).2 = val.length ∧
      texts signed (setSerial current val).1 = (val, (texts signed current).2)) ∧
    (val.length ≠ 10 → setSerial current val = (current, -einval)) ∧
    (∀ digits, MacText val digits → (setRadioMac current val).2 = val.length ∧
      texts signed (setRadioMac current val).1 = ((texts signed current).1,
        ascii "0x" ++ digits.map upper, (texts signed current).2.2)) ∧
    ((∀ digits, ¬ MacText val digits) → setRadioMac current val = (current, -einval)) ∧
    (∀ major minor patch, VersionText val major minor patch →
      (setFirmwareVersion current val).2 = val.length ∧
      texts signed (setFirmwareVersion current val).1 = ((texts signed current).1,
        (texts signed current).2.1, decimal (promoted signed major) ++ 0x2e ::
          (decimal (promoted signed minor) ++ 0x2e :: decimal (promoted signed patch)))) ∧
    ((∀ major minor patch, ¬ VersionText val major minor patch) →
      setFirmwareVersion current val = (current, -einval)) := by
  refine ⟨?_, ?_, ?_, setRadioMac_refused current, ?_, setFirmwareVersion_refused current⟩
  · intro ten
    rw [setSerial, dif_pos ten, ten]
    exact ⟨rfl, rfl⟩
  · intro other
    rw [setSerial, dif_neg other]
  · intro digits text
    obtain ⟨mac, sized, set, shown⟩ := setRadioMac_accepted current text
    rw [set]
    refine ⟨rfl, ?_⟩
    rw [texts, getRadioMac, shown]
    rfl
  · intro major minor patch text
    obtain ⟨sized, set⟩ := setFirmwareVersion_accepted current text
    rw [set]
    exact ⟨rfl, rfl⟩

end PiVccu.FakeHmrfParameters
