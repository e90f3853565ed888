import PiVccu.ChordTangent
import PiVccu.DevKeyFuel
import PiVccu.DevKeyPrimes
import PiVccu.DevKeyVerify

/-!
Which calls of `verify_device_key` return. The inversion of zero does not, and the
inverted coordinates are zero exactly when one of the lines of the double-and-add chain
for `u1 * G + u2 * Q` is vertical, whether or not the key is a point of the curve.
-/

namespace PiVccu.DevKey
open Limbs Bigint ChordTangent

theorem modInvLoop_zero (mod : List UInt32) (fuel : Nat) {state : InvState}
    (sized : state.a.length = state.b.length) (zero : value state.a = 0)
    (positive : 0 < value state.b) : modInvLoop mod fuel state = none := by
  induction fuel generalizing state with
  | zero => rfl
  | succ fuel ih =>
      have differ : Bigint.cmp state.a state.b ≠ 0 := by
        rw [cmp_value sized, zero, if_neg (by omega), if_pos positive]
        decide
      have even : isEven state.a = true := (isEven_iff state.a).mpr (by rw [zero])
      obtain ⟨length, half⟩ := rshift_value state.a
      rw [modInvLoop, if_pos differ, modInvStep, if_pos even]
      exact ih (length.trans sized) (by rw [half, zero]) positive

theorem modInv_zero {input mod : List UInt32} (sized : input.length = mod.length)
    (zero : value input = 0) (positive : 0 < value mod) (fuel : Nat) :
    modInv fuel input mod = none :=
  modInvLoop_zero mod fuel sized zero positive

section Field
variable {mod : List UInt32} [Fact (value mod).Prime]

def PointDenotes (mod : List UInt32) (point : EccPoint)
    (p : ZMod (value mod) × ZMod (value mod)) : Prop :=
  Denotes mod point.x p.1 ∧ Denotes mod point.y p.2

/-- A point in coordinates over `z`, or `z` zero behind a vertical line. -/
def TripleOver (mod : List UInt32) [Fact (value mod).Prime] (res : EccPoint) (z : List UInt32)
    (state : Option (ZMod (value mod) × ZMod (value mod))) : Prop :=
  ∃ X Y Z, Denotes mod res.x X ∧ Denotes mod res.y Y ∧ Stands mod z Z ∧ Over X Y Z state

def EntriesDenote (mod : List UInt32) (points : Nat → Option EccPoint)
    (entries : Nat → Option (ZMod (value mod) × ZMod (value mod))) : Prop :=
  ∀ i, points i = none ∧ entries i = none ∨
    ∃ point p, points i = some point ∧ entries i = some p ∧ PointDenotes mod point p

variable {res : EccPoint} {z : List UInt32}
  {state : Option (ZMod (value mod) × ZMod (value mod))}

/-- A vertical line ends in the inversion of zero. -/
theorem TripleOver.vertical (triple : TripleOver mod res z none) (fuel : Nat) :
    modInv fuel z mod = none := by
  obtain ⟨X, Y, Z, -, -, standsZ, zero⟩ := triple
  exact modInv_zero standsZ.sized (standsZ.eq_zero_iff.mp zero) standsZ.positive fuel

variable (fast : FastMult mod) (odd : value mod % 2 = 1) {fuel : Nat}
  (enough : 64 * mod.length ≤ fuel)

include fast odd enough in
theorem TripleOver.normalize {p : ZMod (value mod) × ZMod (value mod)}
    (triple : TripleOver mod res z (some p)) :
    ∃ inverse res', modInv fuel z mod = some inverse ∧ applyZ fuel res inverse mod = some res' ∧
      PointDenotes mod res' p := by
  obtain ⟨X, Y, Z, denotesX, denotesY, standsZ, nonzero, rfl, rfl⟩ := triple
  obtain ⟨inverse, runInv, standsInv⟩ := standsZ.denotes.inv odd enough nonzero
  obtain ⟨res', run, standsX, standsY⟩ :=
    applyZ_stands fast (fuel_ge odd enough) denotesX denotesY standsInv
  have scaledX : p.1 * Z ^ 2 * Z⁻¹ ^ 2 = p.1 := by
    rw [mul_assoc, ← mul_pow, mul_inv_cancel₀ nonzero, one_pow, mul_one]
  have scaledY : p.2 * Z ^ 3 * Z⁻¹ ^ 3 = p.2 := by
    rw [mul_assoc, ← mul_pow, mul_inv_cancel₀ nonzero, one_pow, mul_one]
  rw [scaledX] at standsX
  rw [scaledY] at standsY
  exact ⟨inverse, res', runInv, run, standsX.denotes, standsY.denotes⟩

include fast odd enough in
theorem TripleOver.double (triple : TripleOver mod res z state) :
    ∃ res' z', pointDoubleJacobian fuel res z mod = some (res', z') ∧
      TripleOver mod res' z' (state.bind (tangent (-3))) := by
  obtain ⟨X, Y, Z, denotesX, denotesY, standsZ, ratio⟩ := triple
  cases state with
  | none =>
      have zero : isZero z = true := (isZero_iff z).mpr (standsZ.eq_zero_iff.mp ratio)
      refine ⟨res, z, ?_, X, Y, Z, denotesX, denotesY, standsZ, ratio⟩
      rw [pointDoubleJacobian, if_pos zero]
  | some p =>
      obtain ⟨doubled, z', A, B, X₃, run, sumA, sumB, sumX, newX, newY, newZ⟩ :=
        pointDoubleJacobian_stands fast (fuel_ge odd enough) odd denotesX denotesY standsZ ratio.1
      rw [sumA] at sumX newY
      refine ⟨doubled, z', run, X₃, _, _, newX.denotes, newY.denotes, newZ, ?_⟩
      exact ratio.tangent (two_ne_zero_of_odd odd) (by linear_combination sumB) sumX

include fast odd enough in
theorem TripleOver.add {point : EccPoint} {p : ZMod (value mod) × ZMod (value mod)}
    (denotes : PointDenotes mod point p) (triple : TripleOver mod res z state) :
    ∃ t scaled sum z', applyZ fuel point z mod = some t ∧
      xyczAdd fuel t res mod = some (scaled, sum) ∧
      modMultFast fuel z (modSub res.x t.x mod) mod = some z' ∧
      TripleOver mod sum z' (state.bind (chord p)) := by
  obtain ⟨X, Y, Z, denotesX, denotesY, standsZ, ratio⟩ := triple
  have sixteen := fuel_ge odd enough
  obtain ⟨t, runT, standsTX, standsTY⟩ := applyZ_stands fast sixteen denotes.1 denotes.2 standsZ
  obtain ⟨scaled, sum, runSum, sumX, sumY⟩ :=
    xyczAdd_stands fast sixteen standsTX standsTY denotesX denotesY rfl
  obtain ⟨z', runZ, standsZ'⟩ :=
    standsZ.denotes.mult fast sixteen standsZ.positive (denotesX.sub standsTX)
  exact ⟨t, scaled, sum, z', runT, runSum, runZ, _, _, _, sumX.denotes, sumY.denotes, standsZ',
    ratio.chord rfl⟩

include fast odd enough in
/-- The loop of `point_mult_shamir` follows the chain to its end, also behind a vertical
line. -/
theorem shamirLoop_over {points : Nat → Option EccPoint}
    {entries : Nat → Option (ZMod (value mod) × ZMod (value mod))}
    (denote : EntriesDenote mod points entries) (bits : Nat)
    (triple : TripleOver mod res z state) :
    ∃ res' z', shamirLoop fuel points mod bits res z = some (res', z') ∧
      TripleOver mod res' z' (state.bind (doubleAndAdd (-3) entries bits)) := by
  induction bits generalizing res z state with
  | zero =>
      have stays : state.bind (doubleAndAdd (-3) entries 0) = state := Option.bind_fun_some state
      exact ⟨res, z, rfl, stays.symm ▸ triple⟩
  | succ bits ih =>
      have step : state.bind (doubleAndAdd (-3) entries (bits + 1)) =
          (state.bind (turn (-3) (entries bits))).bind (doubleAndAdd (-3) entries bits) :=
        (Option.bind_assoc state _ _).symm
      obtain ⟨doubled, z', runDouble, tripleDouble⟩ := triple.double fast odd enough
      -- The turn is the tangent, with the chord to the entry behind it if there is one.
      rcases denote bits with ⟨absent, empty⟩ | ⟨point, p, present, entry, denotes⟩
      · have turned : state.bind (turn (-3) (entries bits)) = state.bind (tangent (-3)) := by
          cases state with
          | none => rfl
          | some p => simp [turn, empty]
        obtain ⟨res', z'', run, final⟩ := ih tripleDouble
        refine ⟨res', z'', ?_, by rw [step, turned]; exact final⟩
        simp only [shamirLoop, runDouble, absent, Option.bind_eq_bind, Option.bind_some, run]
      · have turned : state.bind (turn (-3) (entries bits)) =
            (state.bind (tangent (-3))).bind (chord p) := by
          rw [entry]
          exact (Option.bind_assoc state _ _).symm
        obtain ⟨t, scaled, sum, z'', runT, runSum, runZ, tripleSum⟩ :=
          tripleDouble.add fast odd enough denotes
        obtain ⟨res', z''', run, final⟩ := ih tripleSum
        refine ⟨res', z''', ?_, by rw [step, turned]; exact final⟩
        simp only [shamirLoop, runDouble, present, runT, runSum, runZ, Option.bind_eq_bind,
          Option.bind_some, run]

omit [Fact (value mod).Prime] in
theorem pointAt_entries (u1 u2 : List UInt32) {g q sum : EccPoint}
    {G Q S : ZMod (value mod) × ZMod (value mod)} (denotesG : PointDenotes mod g G)
    (denotesQ : PointDenotes mod q Q) (denotesSum : PointDenotes mod sum S) :
    EntriesDenote mod (pointAt u1 u2 g q sum) (tableEntry G Q S (value u1) (value u2)) := by
  intro i
  have bit : ∀ u : List UInt32, decide (testBit u i ≠ 0) = (value u).testBit i := by
    intro u
    rw [Nat.testBit_eq_decide_div_mod_eq, decide_eq_decide]
    exact testBit_ne_zero_iff u i
  rw [pointAt, tableEntry, bit u1, bit u2]
  cases (value u1).testBit i with
  | false =>
      cases (value u2).testBit i with
      | false => exact .inl ⟨rfl, rfl⟩
      | true => exact .inr ⟨q, Q, rfl, rfl, denotesQ⟩
  | true =>
      cases (value u2).testBit i with
      | false => exact .inr ⟨g, G, rfl, rfl, denotesG⟩
      | true => exact .inr ⟨sum, S, rfl, rfl, denotesSum⟩

end Field

def fieldPoint (mod : List UInt32) (point : EccPoint) : ZMod (value mod) × ZMod (value mod) :=
  (value point.x, value point.y)

theorem fieldPoint_denotes {mod : List UInt32} {point : EccPoint}
    (sizeX : point.x.length = mod.length) (sizeY : point.y.length = mod.length) :
    PointDenotes mod point (fieldPoint mod point) := ⟨⟨sizeX, rfl⟩, ⟨sizeY, rfl⟩⟩

section Shamir
variable {curve : EccCurve} [Fact (value curve.p).Prime] (usable : Usable curve)
  (cover : radix ^ curve.size ≤ value curve.p + value curve.g.x) {q : EccPoint}
  (sizeX : q.x.length = curve.size) (sizeY : q.y.length = curve.size)

include usable cover sizeX in
/-- The difference of the x-coordinates is below the modulus even for a key that is not
reduced. -/
theorem difference_stands :
    Stands curve.p (modSub q.x curve.g.x curve.p)
      ((fieldPoint curve.p q).1 - (fieldPoint curve.p curve.g).1) := by
  have sizeP := usable.sizeP
  have sizeG := usable.sizeX
  have standsG := stands_of_words (sizeG.trans sizeP.symm) usable.reducedX
  have denotes : Denotes curve.p q.x (value q.x) := ⟨sizeX.trans sizeP.symm, rfl⟩
  have difference := denotes.sub standsG
  refine ⟨difference.sized, ?_, difference.cast⟩
  have reduced := usable.reducedX
  have bound := value_lt q.x
  rw [sizeX] at bound
  obtain ⟨-, exactly⟩ := modSub_raised (sizeX.trans sizeP.symm) (sizeG.trans sizeP.symm) (by omega)
  rw [exactly]
  split
  · omega
  · omega

variable {fuel : Nat} (enough : 64 * curve.size ≤ fuel)

include usable cover sizeX sizeY enough in
theorem sum_over : ∃ scaled sum, xyczAdd fuel curve.g q curve.p = some (scaled, sum) ∧
    TripleOver curve.p sum (modSub q.x curve.g.x curve.p)
      (chord (fieldPoint curve.p curve.g) (fieldPoint curve.p q)) := by
  have sizeP := usable.sizeP
  rw [← sizeP] at enough
  obtain ⟨scaled, sum, run, sumX, sumY⟩ := xyczAdd_stands usable.fast (fuel_ge usable.odd enough)
    (stands_of_words (usable.sizeX.trans sizeP.symm) usable.reducedX)
    (stands_of_words (usable.sizeY.trans sizeP.symm) usable.reducedY)
    (fieldPoint_denotes (sizeX.trans sizeP.symm) (sizeY.trans sizeP.symm)).1
    (fieldPoint_denotes (sizeX.trans sizeP.symm) (sizeY.trans sizeP.symm)).2 rfl
  refine ⟨scaled, sum, run, _, _, _, sumX.denotes, sumY.denotes,
    difference_stands usable cover sizeX, ?_⟩
  have ratio := (over_one (fieldPoint curve.p q).1 (fieldPoint curve.p q).2).chord
    (x := (fieldPoint curve.p curve.g).1) (y := (fieldPoint curve.p curve.g).2) rfl
  simpa only [one_pow, mul_one, one_mul, Option.bind_some, fieldPoint] using ratio

include usable cover sizeX sizeY enough in
theorem pointMultShamir_over (u1 : List UInt32) {u2 : List UInt32} (nonzero : value u2 ≠ 0) :
    (∃ point, pointMultShamir fuel u1 u2 q curve = some point) ↔
      combination (-3) (fieldPoint curve.p curve.g) (fieldPoint curve.p q) (value u1)
        (value u2) ≠ none := by
  have sizeP := usable.sizeP
  obtain ⟨scaled, sum, run, triple⟩ := sum_over usable cover sizeX sizeY enough
  rw [← sizeP] at enough
  rw [combination]
  generalize chord (fieldPoint curve.p curve.g) (fieldPoint curve.p q) = joined at triple ⊢
  cases joined with
  | none =>
      -- The inversion of `Q.x - G.x` does not end.
      have stuck := triple.vertical fuel
      simp [pointMultShamir, run, stuck]
  | some S =>
      obtain ⟨inverse, sum', runInv, runApply, denotesSum⟩ :=
        triple.normalize usable.fast usable.odd enough
      have denote := pointAt_entries u1 u2
        (fieldPoint_denotes (usable.sizeX.trans sizeP.symm) (usable.sizeY.trans sizeP.symm))
        (fieldPoint_denotes (sizeX.trans sizeP.symm) (sizeY.trans sizeP.symm)) denotesSum
      have positive : 0 < Nat.size (value u2) := Nat.size_pos.mpr (Nat.pos_of_ne_zero nonzero)
      obtain ⟨top, width⟩ : ∃ top, max (Nat.size (value u1)) (Nat.size (value u2)) = top + 1 :=
        Nat.exists_eq_succ_of_ne_zero (by omega)
      obtain ⟨res, start, found, entry, denotesRes⟩ := (denote top).resolve_left
        (fun absent => pointAt_top width absent.1)
      -- The loop starts from an entry of the table, over the denominator one.
      have begun : TripleOver curve.p res ((List.replicate curve.p.length 0).set 0 1)
          (some start) :=
        ⟨_, _, 1, denotesRes.1, denotesRes.2, one_stands usable.odd, over_one _ _⟩
      obtain ⟨res', z, runLoop, final⟩ :=
        shamirLoop_over usable.fast usable.odd enough denote top begun
      rw [Option.bind_some] at final
      have behind : pointMultShamir fuel u1 u2 q curve =
          (modInv fuel z curve.p).bind fun z => applyZ fuel res' z curve.p := by
        simp only [pointMultShamir, run, runInv, runApply, numBits_eq, width, found, ← sizeP,
          Option.bind_eq_bind, Option.bind_some, Nat.add_sub_cancel, runLoop,
          Nat.succ_ne_zero, ↓reduceIte]
      simp only [Option.bind_some, width, Nat.add_sub_cancel, entry]
      rw [behind]
      generalize doubleAndAdd (-3) _ top start = reached at final ⊢
      cases reached with
      | none =>
          -- Nor does that of the last `z`.
          have stuck := final.vertical fuel
          simp [stuck]
      | some p =>
          obtain ⟨inverse', point, runInv', runApply', -⟩ :=
            final.normalize usable.fast usable.odd enough
          simp [runInv', runApply']

end Shamir

def keyPoint (curve : EccCurve) (pkey : List UInt32) : EccPoint :=
  ⟨pkey.take curve.size, (pkey.drop curve.size).take curve.size⟩

/-- `u1 * G + u2 * Q` by chords and tangents for a hash and a signature. -/
def signatureChain (curve : EccCurve) [Fact (value curve.p).Prime] (pkey h r s : List UInt32) :
    Option (ZMod (value curve.p) × ZMod (value curve.p)) :=
  combination (-3) (fieldPoint curve.p curve.g) (fieldPoint curve.p (keyPoint curve pkey))
    (value h * value s % value curve.n) (value r * value s % value curve.n)

section Verify
variable {curve : EccCurve} [Fact (value curve.p).Prime] (usable : Usable curve)
  (cover : radix ^ curve.size ≤ value curve.p + value curve.g.x)
  (primeN : (value curve.n).Prime) {pkey h r s : List UInt32}
  (sizeKey : pkey.length = 2 * curve.size) (sizeH : h.length = curve.size)
  (sizeR : r.length = curve.size) (sizeS : s.length = curve.size)

include usable cover primeN sizeKey sizeH sizeR sizeS in
theorem verifyOn_returns_iff {fuel : Nat} (enough : 64 * curve.size ≤ fuel) :
    (∃ answer, verifyOn fuel curve pkey h r s = some answer) ↔
      OutOfRange curve r s ∨ signatureChain curve pkey h r s ≠ none := by
  have range := range_test usable sizeR sizeS
  by_cases outside : OutOfRange curve r s
  · rw [verifyOn, if_pos (range.mpr outside)]
    exact ⟨fun _ => .inl outside, fun _ => ⟨false, rfl⟩⟩
  · obtain ⟨u1, u2, run1, run2, value1, value2, nonzero⟩ :=
      factors_value usable sizeH sizeR sizeS primeN outside
    have multiplied := pointMultShamir_over usable cover (q := keyPoint curve pkey)
      (by rw [keyPoint, List.length_take]; omega)
      (by rw [keyPoint, List.length_take, List.length_drop]; omega) enough u1 nonzero
    rw [verifyOn, if_neg (fun test => outside (range.mp test))]
    simp only [run1, run2, Option.bind_eq_bind, Option.bind_some]
    rw [signatureChain, ← value1, ← value2, ← multiplied, or_iff_right outside, keyPoint]
    cases pointMultShamir fuel u1 u2 _ curve <;> simp

end Verify

/-- The curves of the `switch` in `verify_device_key`. -/
abbrev DeviceCurve : Type := { curve : EccCurve // curve = curve128 ∨ curve = curve256 }

namespace DeviceCurve

theorem prime_p (curve : DeviceCurve) : (value curve.val.p).Prime := by
  obtain ⟨curve, rfl | rfl⟩ := curve
  · exact p128_prime
  · exact p256_prime

theorem prime_n (curve : DeviceCurve) : (value curve.val.n).Prime := by
  obtain ⟨curve, rfl | rfl⟩ := curve
  · exact n128_prime
  · exact n256_prime

instance (curve : DeviceCurve) : Fact (value curve.val.p).Prime := ⟨curve.prime_p⟩

theorem usable (curve : DeviceCurve) : Usable curve.val := by
  obtain ⟨curve, rfl | rfl⟩ := curve
  · exact usable128
  · exact usable256

theorem cover (curve : DeviceCurve) :
    radix ^ curve.val.size ≤ value curve.val.p + value curve.val.g.x := by
  obtain ⟨curve, rfl | rfl⟩ := curve
  · decide
  · decide

end DeviceCurve

/-- `verify_device_key` returns exactly when it rejects the range of `r` and `s` or the
chain for `u1 * G + u2 * Q` meets no vertical line. -/
theorem verify_device_key_returns_iff (curve : DeviceCurve) (pkey : List UInt32)
    (hkey skey : List UInt8) (sizeKey : pkey.length = 2 * curve.val.size)
    (sizeH : hkey.length = 4 * curve.val.size) (sizeS : skey.length = 8 * curve.val.size) :
    let h := wordsOfBytes hkey
    let r := (wordsOfBytes skey).take curve.val.size
    let s := wordsOfBytes (skey.drop (4 * curve.val.size))
    (∃ fuel answer, verifyDeviceKey fuel pkey hkey skey (4 * curve.val.size) = some answer) ↔
      OutOfRange curve.val r s ∨ signatureChain curve.val pkey h r s ≠ none := by
  intro h r s
  have lengthH : h.length = curve.val.size := by
    rw [wordsOfBytes_length]
    omega
  have lengthR : r.length = curve.val.size := by
    rw [List.length_take, wordsOfBytes_length]
    omega
  have lengthS : s.length = curve.val.size := by
    rw [wordsOfBytes_length, List.length_drop]
    omega
  have settled : ∀ fuel, 64 * curve.val.size ≤ fuel →
      ((∃ answer, verifyOn fuel curve.val pkey h r s = some answer) ↔
        OutOfRange curve.val r s ∨ signatureChain curve.val pkey h r s ≠ none) :=
    fun _ enough => verifyOn_returns_iff curve.usable curve.cover curve.prime_n sizeKey lengthH
      lengthR lengthS enough
  constructor
  · rintro ⟨fuel, answer, returned⟩
    rw [verifyDeviceKey_eq curve.property fuel pkey sizeH sizeS] at returned
    -- Some fuel may be too little for the equivalence, and more of it changes nothing.
    have more := verifyOn_more (Nat.le_max_left fuel (64 * curve.val.size)) curve.val pkey h r s
    exact (settled _ (Nat.le_max_right fuel (64 * curve.val.size))).mp
      ⟨answer, more answer returned⟩
  · intro condition
    obtain ⟨answer, returned⟩ := (settled _ (Nat.le_refl _)).mpr condition
    refine ⟨64 * curve.val.size, answer, ?_⟩
    rw [verifyDeviceKey_eq curve.property _ pkey sizeH sizeS]
    exact returned

theorem doubledKey_chain : combination (-3) (fieldPoint curve128.p curve128.g)
    (fieldPoint curve128.p (keyPoint curve128 doubledKey)) 1 2 ≠ none := by
  have upper : (value (doubledKey.drop 4) : ZMod (value curve128.p)) ≠ 0 := by
    intro same
    have computed := (ZMod.natCast_eq_zero_iff _ _).mp same
    revert computed
    decide +kernel
  have apart : (value curve128.g.x : ZMod (value curve128.p)) ≠ value (doubledKey.take 4) :=
    (ZMod.natCast_eq_natCast_iff' _ _ _).not.mpr (by decide)
  have twice : (2 * value (doubledKey.drop 4) : ZMod (value curve128.p)) ≠ 0 :=
    mul_ne_zero (two_ne_zero_of_odd usable128.odd) upper
  refine combination_one_two (-3) apart upper ?_
  intro same
  -- The equation without its denominator, in natural numbers.
  have cast : ((((value curve128.g.x + 2 * value (doubledKey.take 4)) *
        (2 * value (doubledKey.drop 4)) ^ 2 + 18 * value (doubledKey.take 4) ^ 2 : Nat)) :
          ZMod (value curve128.p)) =
      ((9 * value (doubledKey.take 4) ^ 4 + 9 : Nat) : ZMod (value curve128.p)) := by
    have same : (value curve128.g.x : ZMod (value curve128.p)) =
        ((3 * value (doubledKey.take 4) ^ 2 + -3) / (2 * value (doubledKey.drop 4))) ^ 2 -
          value (doubledKey.take 4) - value (doubledKey.take 4) := same
    rw [div_pow] at same
    have quotient : (value curve128.g.x + 2 * value (doubledKey.take 4) :
          ZMod (value curve128.p)) =
        (3 * value (doubledKey.take 4) ^ 2 + -3) ^ 2 / (2 * value (doubledKey.drop 4)) ^ 2 := by
      linear_combination same
    have cleared := (eq_div_iff (pow_ne_zero 2 twice)).mp quotient
    push_cast
    linear_combination cleared
  have computed := (ZMod.natCast_eq_natCast_iff' _ _ _).mp cast
  revert computed
  decide +kernel

/-- `r = 2` and `s = 1` -/
def doubledSignature : List UInt8 := 2 :: (zeroBytes 15 ++ 1 :: zeroBytes 15)

theorem verify_device_key_returns_iff_doubled : ∃ fuel answer,
    verifyDeviceKey fuel doubledKey (1 :: zeroBytes 15) doubledSignature 16 = some answer := by
  refine (verify_device_key_returns_iff ⟨curve128, .inl rfl⟩ doubledKey (1 :: zeroBytes 15)
    doubledSignature rfl rfl rfl).mpr (.inr ?_)
  have factors : value (wordsOfBytes (1 :: zeroBytes 15)) *
        value (wordsOfBytes (doubledSignature.drop 16)) % value curve128.n = 1 ∧
      value ((wordsOfBytes doubledSignature).take 4) *
        value (wordsOfBytes (doubledSignature.drop 16)) % value curve128.n = 2 := by
    decide
  have chain : signatureChain curve128 doubledKey (wordsOfBytes (1 :: zeroBytes 15))
      ((wordsOfBytes doubledSignature).take 4) (wordsOfBytes (doubledSignature.drop 16)) ≠ none := by
    rw [signatureChain, factors.1, factors.2]
    exact doubledKey_chain
  exact chain

theorem pointMultShamir_same {curve : EccCurve} {q : EccPoint}
    (sized : (modSub q.x curve.g.x curve.p).length = curve.p.length)
    (same : value (modSub q.x curve.g.x curve.p) = 0) (positive : 0 < value curve.p)
    (fuel : Nat) (u1 u2 : List UInt32) : pointMultShamir fuel u1 u2 q curve = none := by
  have stuck := modInv_zero sized same positive fuel
  simp only [pointMultShamir, stuck]
  cases xyczAdd fuel curve.g q curve.p <;> rfl

def unitSignature : List UInt8 := 1 :: (zeroBytes 15 ++ 1 :: zeroBytes 15)

/-- The base point as the key: the first inversion is that of zero. -/
theorem base_point_key_endless : ¬ ∃ fuel answer,
    verifyDeviceKey fuel (curve128.g.x ++ curve128.g.y) (zeroBytes 16) unitSignature 16 =
      some answer := by
  rintro ⟨fuel, answer, returned⟩
  have one := verifyDeviceKey_eq (.inl rfl : curve128 = curve128 ∨ curve128 = curve256) fuel
    (curve128.g.x ++ curve128.g.y)
    (show (zeroBytes 16).length = 4 * curve128.size from rfl)
    (show unitSignature.length = 8 * curve128.size from rfl)
  have entered := one.symm.trans returned
  rw [verifyOn, if_neg (by decide)] at entered
  obtain ⟨u1, -, entered⟩ := Option.bind_eq_some_iff.mp entered
  obtain ⟨u2, -, entered⟩ := Option.bind_eq_some_iff.mp entered
  obtain ⟨p, multiplied, -⟩ := Option.bind_eq_some_iff.mp entered
  rw [pointMultShamir_same rfl (by decide) (by decide)] at multiplied
  cases multiplied

end PiVccu.DevKey
