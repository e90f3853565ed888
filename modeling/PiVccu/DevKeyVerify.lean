import Mathlib.Tactic.NormNum.Prime
import PiVccu.DevKeyCurve
import PiVccu.FieldCertificates

/-!
`point_mult_shamir` and `verify_device_key` against the verification equation:
the x-coordinate of `u1 * G + u2 * Q`, reduced modulo the order, is compared
with `r`.
-/

namespace PiVccu.DevKey
open Limbs Bigint CoZ WeierstrassCurve FieldCertificates
open scoped ChordTangent

section Shamir
variable {mod : List UInt32} [Fact (value mod).Prime] {b : ZMod (value mod)} {fuel : Nat}
  (fast : FastMult mod) (odd : value mod % 2 = 1)
  (rootFree : ∀ x : ZMod (value mod), x ^ 3 - 3 * x + b ≠ 0)
  (enough : 64 * mod.length ≤ fuel)

include fast odd enough in
theorem normalize_point {res : EccPoint} {z : List UInt32} {point : (curve b).Point}
    (stands : PointStands mod res z point) :
    ∃ inverse res', modInv fuel z mod = some inverse ∧
      applyZ fuel res inverse mod = some res' ∧ AffineStands mod res' point := by
  obtain ⟨X, Y, Z, standsX, standsY, standsZ, represents⟩ := stands
  obtain ⟨inverse, runInv, standsInv⟩ := standsZ.denotes.inv odd enough represents.1
  obtain ⟨res', run, standsX', standsY'⟩ :=
    applyZ_stands fast (fuel_ge odd enough) standsX.denotes standsY.denotes standsInv
  refine ⟨inverse, res', runInv, run, _, _, standsX', standsY', ?_⟩
  obtain ⟨-, on, same⟩ := represents.scale (inv_ne_zero represents.1)
  rw [same]
  apply some_eq_some
  · rw [mul_inv_cancel₀ represents.1, one_pow, div_one]
  · rw [mul_inv_cancel₀ represents.1, one_pow, div_one]

theorem AffineStands.toPoint {res : EccPoint} {one : List UInt32} {point : (curve b).Point}
    (standsOne : Stands mod one 1) (affine : AffineStands mod res point) :
    PointStands mod res one point := by
  obtain ⟨x, y, standsX, standsY, on, rfl⟩ := affine
  exact ⟨x, y, 1, standsX, standsY, standsOne, represents_affine on⟩

theorem AffineStands.xCoord_eq {res : EccPoint} {point : (curve b).Point}
    (affine : AffineStands mod res point) :
    ∃ x, Stands mod res.x x ∧ xCoord point = some x := by
  obtain ⟨x, y, standsX, -, on, rfl⟩ := affine
  exact ⟨x, standsX, rfl⟩

theorem one_stands (odd : value mod % 2 = 1) :
    Stands mod ((List.replicate mod.length 0).set 0 1) 1 := by
  have one : value ((List.replicate mod.length 0).set 0 1) = 1 := by
    apply value_set_one
    omega
  refine ⟨by simp, ?_, ?_⟩
  · rw [one]
    exact (Fact.out : (value mod).Prime).one_lt
  · rw [one, Nat.cast_one]

include fast odd enough in
theorem sum_point {g q : EccPoint} {G Q : (curve b).Point} (standsG : AffineStands mod g G)
    (standsQ : AffineStands mod q Q) (apart : xCoord G ≠ xCoord Q) :
    ∃ scaled sum inverse sum', xyczAdd fuel g q mod = some (scaled, sum) ∧
      modInv fuel (modSub q.x g.x mod) mod = some inverse ∧
      applyZ fuel sum inverse mod = some sum' ∧ AffineStands mod sum' (G + Q) := by
  obtain ⟨x, y, standsX, standsY, on, rfl⟩ := standsG
  obtain ⟨x', y', standsX', standsY', on', rfl⟩ := standsQ
  have differ : x ≠ x' := fun same => apart (congrArg some same)
  obtain ⟨scaled, sum, run, sumX, sumY⟩ :=
    xyczAdd_stands fast (fuel_ge odd enough) standsX standsY standsX'.denotes standsY'.denotes rfl
  have represents := (represents_affine on).add (represents_affine on') differ rfl
  rw [one_mul] at represents
  obtain ⟨inverse, sum', runInv, runApply, affine⟩ := normalize_point fast odd enough
    ⟨_, _, _, sumX, sumY, standsX'.sub standsX, represents⟩
  exact ⟨scaled, sum, inverse, sum', run, runInv, runApply, affine⟩

theorem pointAt_tabulates (u1 u2 : List UInt32) {g q sum : EccPoint} {G Q : (curve b).Point}
    (standsG : AffineStands mod g G) (standsQ : AffineStands mod q Q)
    (standsSum : AffineStands mod sum (G + Q)) :
    Tabulates mod (pointAt u1 u2 g q sum) (addend G Q (value u1) (value u2)) := by
  intro i
  have bit1 := testBit_ne_zero_iff u1 i
  have bit2 := testBit_ne_zero_iff u2 i
  rw [addend, pointAt]
  rcases Nat.mod_two_eq_zero_or_one (value u1 / 2 ^ i) with zero1 | one1
  · have clear1 : ¬ testBit u1 i ≠ 0 := fun set => by rw [bit1.mp set] at zero1; cases zero1
    rcases Nat.mod_two_eq_zero_or_one (value u2 / 2 ^ i) with zero2 | one2
    · have clear2 : ¬ testBit u2 i ≠ 0 := fun set => by rw [bit2.mp set] at zero2; cases zero2
      left
      simp [clear1, clear2, zero1, zero2]
    · right
      simp [clear1, bit2.mpr one2, zero1, one2, standsQ]
  · rcases Nat.mod_two_eq_zero_or_one (value u2 / 2 ^ i) with zero2 | one2
    · have clear2 : ¬ testBit u2 i ≠ 0 := fun set => by rw [bit2.mp set] at zero2; cases zero2
      right
      simp [bit1.mpr one1, clear2, one1, zero2, standsG]
    · right
      simp [bit1.mpr one1, bit2.mpr one2, one1, one2, standsSum]

theorem partialSum_top {A : Type*} [AddCommMonoid A] (G Q : A) (u1 u2 top : Nat)
    (small1 : u1 < 2 ^ (top + 1)) (small2 : u2 < 2 ^ (top + 1)) :
    partialSum G Q u1 u2 top = addend G Q u1 u2 top := by
  have bit : ∀ u : Nat, u < 2 ^ (top + 1) → u / 2 ^ top % 2 = u / 2 ^ top := by
    intro u small
    rw [pow_succ] at small
    exact Nat.mod_eq_of_lt (Nat.div_lt_of_lt_mul small)
  rw [partialSum, addend, bit u1 small1, bit u2 small2]

theorem pointAt_top {u1 u2 : List UInt32} {g q sum : EccPoint} {top : Nat}
    (width : max (Nat.size (value u1)) (Nat.size (value u2)) = top + 1) :
    pointAt u1 u2 g q sum top ≠ none := by
  have bit : ∀ u : List UInt32, Nat.size (value u) = top + 1 → testBit u top ≠ 0 := by
    intro u exactly
    have low : 2 ^ top ≤ value u := Nat.lt_size.mp (by omega)
    have high : value u < 2 ^ (top + 1) := Nat.size_le.mp (by omega)
    rw [pow_succ] at high
    rw [testBit_ne_zero_iff, Nat.div_eq_of_lt_le (k := 1) (by omega) (by omega)]
  -- One of the factors has a bit there.
  rcases max_choice (Nat.size (value u1)) (Nat.size (value u2)) with first | second
  · have set := bit u1 (by omega)
    by_cases other : testBit u2 top = 0
    · simp [pointAt, set, other]
    · simp [pointAt, set, other]
  · have set := bit u2 (by omega)
    by_cases other : testBit u1 top = 0
    · simp [pointAt, set, other]
    · simp [pointAt, set, other]

end Shamir

/-- The additions of the double-and-add chain for `u1 * G + u2 * Q` meet points with
different x-coordinates: doubled sums and the addends of set bits. -/
def Separate {F : Type*} [Field F] [DecidableEq F] {b : F} (G Q : (CoZ.curve b).Point)
    (u1 u2 : Nat) : Prop :=
  ∀ i, i + 1 < max (Nat.size u1) (Nat.size u2) → addend G Q u1 u2 i ≠ 0 →
    xCoord (2 • partialSum G Q u1 u2 (i + 1)) ≠ xCoord (addend G Q u1 u2 i)

theorem pointMultShamir_stands {curve : EccCurve} [Fact (value curve.p).Prime]
    {b : ZMod (value curve.p)} {fuel : Nat} (fast : FastMult curve.p)
    (odd : value curve.p % 2 = 1) (rootFree : ∀ x : ZMod (value curve.p), x ^ 3 - 3 * x + b ≠ 0)
    (sized : curve.p.length = curve.size) (enough : 64 * curve.size ≤ fuel) {q : EccPoint}
    {G Q : (CoZ.curve b).Point} (standsG : AffineStands curve.p curve.g G)
    (standsQ : AffineStands curve.p q Q) (apart : xCoord G ≠ xCoord Q) {u1 u2 : List UInt32}
    (nonzero : value u2 ≠ 0) (separate : Separate G Q (value u1) (value u2)) :
    ∃ point, pointMultShamir fuel u1 u2 q curve = some point ∧
      AffineStands curve.p point (value u1 • G + value u2 • Q) := by
  rw [← sized] at enough
  obtain ⟨scaled, sum, inverse, sum', run, runInv, runApply, standsSum⟩ :=
    sum_point fast odd enough standsG standsQ apart
  have tabulates := pointAt_tabulates u1 u2 standsG standsQ standsSum
  have positive : 0 < Nat.size (value u2) := Nat.size_pos.mpr (Nat.pos_of_ne_zero nonzero)
  obtain ⟨top, width⟩ : ∃ top, max (Nat.size (value u1)) (Nat.size (value u2)) = top + 1 :=
    Nat.exists_eq_succ_of_ne_zero (by omega)
  have start := partialSum_top G Q (value u1) (value u2) top
    (Nat.size_le.mp (by omega)) (Nat.size_le.mp (by omega))
  obtain ⟨res, found, standsRes⟩ : ∃ res, pointAt u1 u2 curve.g q sum' top = some res ∧
      AffineStands curve.p res (partialSum G Q (value u1) (value u2) top) := by
    rw [start]
    rcases tabulates top with ⟨absent, -⟩ | present
    · exact absurd absent (pointAt_top width)
    · exact present
  obtain ⟨res', z, runLoop, standsLoop⟩ := shamirLoop_stands fast odd rootFree enough tabulates
    (fun i below bit => by
      rw [← two_nsmul]
      exact separate i (by omega) bit)
    (standsRes.toPoint (one_stands odd))
  obtain ⟨inverse', point, runInv', runApply', affine⟩ :=
    normalize_point fast odd enough standsLoop
  refine ⟨point, ?_, affine⟩
  simp only [pointMultShamir, run, runInv, runApply, numBits_eq, width, found, ← sized,
    Option.bind_eq_bind, Option.bind_some, Nat.add_sub_cancel, runLoop, runInv', runApply',
    Nat.succ_ne_zero, ↓reduceIte]

structure Usable (curve : EccCurve) : Prop where
  sizeP : curve.p.length = curve.size
  sizeN : curve.n.length = curve.size
  sizeX : curve.g.x.length = curve.size
  sizeY : curve.g.y.length = curve.size
  fast : FastMult curve.p
  odd : value curve.p % 2 = 1
  reducedX : value curve.g.x < value curve.p
  reducedY : value curve.g.y < value curve.p
  top : ∃ size, curve.size = size + 1 ∧ radix ^ size ≤ value curve.n
  wide : curve.size < 2 ^ 32
  below : value curve.p < 2 * value curve.n

def coefficient (curve : EccCurve) : ZMod (value curve.p) :=
  value curve.g.y ^ 2 - value curve.g.x ^ 3 + 3 * value curve.g.x

theorem base_equation (curve : EccCurve) [Fact (value curve.p).Prime] :
    (CoZ.curve (coefficient curve)).Equation (value curve.g.x) (value curve.g.y) := by
  rw [equation_iff, coefficient]
  ring

/-- The rejected signatures: `r` or `s` outside the range from one to the order. -/
def OutOfRange (curve : EccCurve) (r s : List UInt32) : Prop :=
  value r = 0 ∨ value curve.n ≤ value r ∨ value s = 0 ∨ value curve.n ≤ value s

section Verify
variable {curve : EccCurve} (usable : Usable curve) {h r s : List UInt32}
  (sizeH : h.length = curve.size) (sizeR : r.length = curve.size) (sizeS : s.length = curve.size)

include usable sizeR sizeS in
theorem range_test :
    (isZero r ∨ Bigint.cmp r curve.n ≥ 0 ∨ isZero s ∨ Bigint.cmp s curve.n ≥ 0) ↔
      OutOfRange curve r s := by
  rw [isZero_iff, isZero_iff, cmp_nonneg_iff (sizeR.trans usable.sizeN.symm),
    cmp_nonneg_iff (sizeS.trans usable.sizeN.symm), OutOfRange]

include usable sizeR in
/-- The last comparison of `verify_device_key`: one subtraction of the order reduces an
x-coordinate, and the order itself, which is left as it is, never equals `r`. -/
theorem compare_reduced {x : List UInt32} (sizeX : x.length = curve.size)
    (reduced : value x < value curve.p) (positive : value r ≠ 0)
    (small : value r < value curve.n) :
    Bigint.cmp (if Bigint.cmp x curve.n > 0 then (Bigint.sub x curve.n).1 else x) r = 0 ↔
      value x % value curve.n = value r := by
  have below := usable.below
  have order := cmp_value (sizeX.trans usable.sizeN.symm)
  have equal : ∀ words : List UInt32, words.length = curve.size →
      (Bigint.cmp words r = 0 ↔ value words = value r) := by
    intro words sized
    rw [cmp_value (sized.trans sizeR.symm)]
    split
    · constructor <;> intro same <;> omega
    · split <;> constructor <;> intro same <;> omega
  -- An x-coordinate is below twice the order, so that one subtraction is enough.
  by_cases above : value curve.n < value x
  · rw [if_pos (by rw [order, if_pos above]; decide)]
    obtain ⟨length, -, difference⟩ :=
      sub_exact (sizeX.trans usable.sizeN.symm) (Nat.le_of_lt above)
    rw [equal _ (length.trans sizeX), Nat.mod_eq_sub_mod (Nat.le_of_lt above),
      Nat.mod_eq_of_lt (by omega)]
    constructor <;> intro same <;> omega
  · have kept : ¬ Bigint.cmp x curve.n > 0 := by
      rw [order, if_neg above]
      split <;> decide
    rw [if_neg kept, equal x sizeX]
    rcases Nat.lt_or_ge (value x) (value curve.n) with less | more
    · rw [Nat.mod_eq_of_lt less]
    · have same : value x = value curve.n := by omega
      rw [same, Nat.mod_self]
      constructor <;> intro contrary <;> omega

include usable sizeH sizeR sizeS in
/-- The factors of an accepted signature. The order is prime, so the one of the key is not
zero. -/
theorem factors_value (primeN : (value curve.n).Prime) (inside : ¬ OutOfRange curve r s) :
    ∃ u1 u2, modMult h s curve.n = some u1 ∧ modMult r s curve.n = some u2 ∧
      value u1 = value h * value s % value curve.n ∧
      value u2 = value r * value s % value curve.n ∧ value u2 ≠ 0 := by
  obtain ⟨size, width, top⟩ := usable.top
  have wide := usable.wide
  have sizeN := usable.sizeN
  obtain ⟨u1, run1, -, value1⟩ := modMult_value (sizeN.trans width) (sizeH.trans sizeN.symm)
    (sizeS.trans sizeN.symm) (by omega) top
  obtain ⟨u2, run2, -, value2⟩ := modMult_value (sizeN.trans width) (sizeR.trans sizeN.symm)
    (sizeS.trans sizeN.symm) (by omega) top
  rw [OutOfRange, not_or, not_or, not_or] at inside
  obtain ⟨positiveR, smallR, positiveS, smallS⟩ := inside
  refine ⟨u1, u2, run1, run2, value1, value2, ?_⟩
  rw [value2]
  intro zero
  rcases primeN.dvd_mul.mp (Nat.dvd_of_mod_eq_zero zero) with divides | divides
  · exact smallR (Nat.le_of_dvd (Nat.pos_of_ne_zero positiveR) divides)
  · exact smallS (Nat.le_of_dvd (Nat.pos_of_ne_zero positiveS) divides)

include usable sizeH sizeR sizeS in
theorem verifyOn_equation [Fact (value curve.p).Prime] (primeN : (value curve.n).Prime)
    (rootFree : ∀ x : ZMod (value curve.p), x ^ 3 - 3 * x + coefficient curve ≠ 0)
    {pkey : List UInt32} (sizeKey : pkey.length = 2 * curve.size) {fuel : Nat}
    (enough : 64 * curve.size ≤ fuel)
    {G Q : (CoZ.curve (coefficient curve)).Point} (standsG : AffineStands curve.p curve.g G)
    (standsQ : AffineStands curve.p ⟨pkey.take curve.size, pkey.drop curve.size⟩ Q)
    (apart : xCoord G ≠ xCoord Q) (inside : ¬ OutOfRange curve r s)
    (separate : Separate G Q (value h * value s % value curve.n)
      (value r * value s % value curve.n)) :
    ∃ answer, verifyOn fuel curve pkey h r s = some answer ∧
      (answer = true ↔ ∃ x, xCoord ((value h * value s % value curve.n) • G +
        (value r * value s % value curve.n) • Q) = some x ∧
          x.val % value curve.n = value r) := by
  have range := range_test usable sizeR sizeS
  obtain ⟨u1, u2, run1, run2, value1, value2, nonzero⟩ :=
    factors_value usable sizeH sizeR sizeS primeN inside
  rw [← value1, ← value2] at separate ⊢
  rw [OutOfRange, not_or, not_or, not_or] at inside
  obtain ⟨positiveR, smallR, positiveS, smallS⟩ := inside
  obtain ⟨point, run, affine⟩ := pointMultShamir_stands usable.fast usable.odd rootFree
    usable.sizeP enough standsG standsQ apart nonzero separate
  obtain ⟨x, standsX, coordinate⟩ := affine.xCoord_eq
  have compared := compare_reduced usable sizeR (standsX.sized.trans usable.sizeP)
    standsX.reduced positiveR (by omega)
  have second : (pkey.drop curve.size).take curve.size = pkey.drop curve.size := by
    apply List.take_of_length_le
    rw [List.length_drop]
    omega
  have accepted : ¬ (isZero r ∨ Bigint.cmp r curve.n ≥ 0 ∨ isZero s ∨ Bigint.cmp s curve.n ≥ 0) := by
    rw [range, OutOfRange, not_or, not_or, not_or]
    exact ⟨positiveR, smallR, positiveS, smallS⟩
  refine ⟨decide (Bigint.cmp (if Bigint.cmp point.x curve.n > 0 then
    (Bigint.sub point.x curve.n).1 else point.x) r = 0), ?_, ?_⟩
  · rw [verifyOn, if_neg accepted]
    simp only [run1, run2, second, run, Option.bind_eq_bind, Option.bind_some]
  · rw [decide_eq_true_iff, compared, coordinate, ← standsX.val_eq]
    constructor
    · intro same
      exact ⟨x, rfl, same⟩
    · rintro ⟨x', same, reduced⟩
      rwa [Option.some.inj same]

end Verify

theorem usable128 : Usable curve128 where
  sizeP := rfl
  sizeN := rfl
  sizeX := rfl
  sizeY := rfl
  fast := by
    intro fuel left right enough sizeLeft sizeRight
    exact modMultFast128_value sizeLeft sizeRight rfl (by decide) enough
  odd := by decide
  reducedX := by decide
  reducedY := by decide
  top := ⟨3, rfl, by decide⟩
  wide := by decide
  below := by decide

theorem usable256 : Usable curve256 where
  sizeP := rfl
  sizeN := rfl
  sizeX := rfl
  sizeY := rfl
  fast := by
    intro fuel left right enough sizeLeft sizeRight
    exact modMultFast256_value sizeLeft sizeRight rfl (by decide) enough
  odd := by decide
  reducedX := by decide
  reducedY := by decide
  top := ⟨7, rfl, by decide⟩
  wide := by decide
  below := by decide

theorem coefficient_opposite {curve : EccCurve} {k : Nat}
    (computed : (value curve.g.y ^ 2 + 3 * value curve.g.x + k) % value curve.p =
      value curve.g.x ^ 3 % value curve.p) : coefficient curve + k = 0 := by
  have congruent := (ZMod.natCast_eq_natCast_iff' _ _ (value curve.p)).mpr computed
  push_cast at congruent
  rw [coefficient]
  linear_combination congruent

theorem noRoot128 [Fact (value curve128.p).Prime] :
    ∀ x : ZMod (value curve128.p), x ^ 3 - 3 * x + coefficient curve128 ≠ 0 := by
  have modulus : value curve128.p = 340282366762482138434845932244680310783 := by decide
  apply no_root 31291503540236480403923331203197935916 128
    (coefficient_opposite (by decide +kernel)) (by decide)
    ⟨152597707192300866871832820820656867525, 170465183378518876870561809134018233527,
      23710142022958389210952219883564501469⟩
  rw [modulus]
  decide +kernel

theorem noRoot256 [Fact (value curve256.p).Prime] :
    ∀ x : ZMod (value curve256.p), x ^ 3 - 3 * x + coefficient curve256 ≠ 0 := by
  have modulus : value curve256.p =
      115792089210356248762697446949407573530086143415290314195533631308867097853951 := by decide
  apply no_root
    74733725485204106633371317169360305120971702399296588640698374994827630452660 256
    (coefficient_opposite (by decide +kernel)) (by decide)
    ⟨76626890310466861426869089647039036757962535851890885406097439786770458211455,
      74462945259064871768191128030512052509059297803194871526163573358218695456204,
      34768139465301476436978405170953382516735956999154666452188405812258086013549⟩
  rw [modulus]
  decide +kernel

def OnCurve (curve : EccCurve) (x y : List UInt32) : Prop :=
  (value y : ZMod (value curve.p)) ^ 2 =
    (value x : ZMod (value curve.p)) ^ 3 - 3 * value x + coefficient curve

theorem verifyDeviceKey_eq {curve : EccCurve} (known : curve = curve128 ∨ curve = curve256)
    (fuel : Nat) (pkey : List UInt32) {hkey skey : List UInt8}
    (sizeH : hkey.length = 4 * curve.size) (sizeS : skey.length = 8 * curve.size) :
    verifyDeviceKey fuel pkey hkey skey (4 * curve.size) = verifyOn fuel curve pkey
      (wordsOfBytes hkey) ((wordsOfBytes skey).take curve.size)
      (wordsOfBytes (skey.drop (4 * curve.size))) := by
  have quarter : 4 * curve.size / 4 = curve.size := by omega
  have whole : (wordsOfBytes hkey).take curve.size = wordsOfBytes hkey := by
    apply List.take_of_length_le
    rw [wordsOfBytes_length]
    omega
  have second : (wordsOfBytes (skey.drop (4 * curve.size))).take curve.size =
      wordsOfBytes (skey.drop (4 * curve.size)) := by
    apply List.take_of_length_le
    rw [wordsOfBytes_length, List.length_drop]
    omega
  simp only [verifyDeviceKey, quarter, whole, second]
  rcases known with rfl | rfl
  · rfl
  · rfl

/-- The verification equation. `s` is the inverse of the signature's second component,
so the factors are `u1 = h * s` and `u2 = r * s`. -/
theorem verify_device_key_equation (curve : EccCurve)
    (known : curve = curve128 ∨ curve = curve256) [Fact (value curve.p).Prime]
    (primeN : (value curve.n).Prime) (pkey : List UInt32) (hkey skey : List UInt8)
    (sizeKey : pkey.length = 2 * curve.size)
    (sizeH : hkey.length = 4 * curve.size) (sizeS : skey.length = 8 * curve.size)
    (reducedX : value (pkey.take curve.size) < value curve.p)
    (reducedY : value (pkey.drop curve.size) < value curve.p)
    (onCurve : OnCurve curve (pkey.take curve.size) (pkey.drop curve.size))
    (differs : value (pkey.take curve.size) ≠ value curve.g.x) :
    let h := wordsOfBytes hkey
    let r := (wordsOfBytes skey).take curve.size
    let s := wordsOfBytes (skey.drop (4 * curve.size))
    (OutOfRange curve r s →
      ∀ fuel, verifyDeviceKey fuel pkey hkey skey (4 * curve.size) = some false) ∧
    (¬ OutOfRange curve r s →
      ∃ (onG : (CoZ.curve (coefficient curve)).Nonsingular
            (value curve.g.x) (value curve.g.y))
          (onQ : (CoZ.curve (coefficient curve)).Nonsingular
            (value (pkey.take curve.size)) (value (pkey.drop curve.size))),
        let G : (CoZ.curve (coefficient curve)).Point := .some _ _ onG
        let Q : (CoZ.curve (coefficient curve)).Point := .some _ _ onQ
        let u1 := value h * value s % value curve.n
        let u2 := value r * value s % value curve.n
        Separate G Q u1 u2 → ∀ fuel, 64 * curve.size ≤ fuel →
          ∃ answer, verifyDeviceKey fuel pkey hkey skey (4 * curve.size) = some answer ∧
            (answer = true ↔ ∃ x, xCoord (u1 • G + u2 • Q) = some x ∧
              x.val % value curve.n = value r)) := by
  intro h r s
  have usable : Usable curve := by
    rcases known with rfl | rfl
    · exact usable128
    · exact usable256
  have noRoot : ∀ x : ZMod (value curve.p), x ^ 3 - 3 * x + coefficient curve ≠ 0 := by
    rcases known with rfl | rfl
    · exact noRoot128
    · exact noRoot256
  have lengthH : h.length = curve.size := by
    rw [wordsOfBytes_length]
    omega
  have lengthR : r.length = curve.size := by
    rw [List.length_take, wordsOfBytes_length]
    omega
  have lengthS : s.length = curve.size := by
    rw [wordsOfBytes_length, List.length_drop]
    omega
  constructor
  · intro outside fuel
    rw [verifyDeviceKey_eq known fuel pkey sizeH sizeS, verifyOn,
      if_pos ((range_test usable lengthR lengthS).mpr outside)]
  · intro inside
    have two := two_ne_zero_of_odd usable.odd
    have onG := nonsingular_of_equation two noRoot (base_equation curve)
    have onQ := nonsingular_of_equation two noRoot ((equation_iff _ _).mpr onCurve)
    refine ⟨onG, onQ, ?_⟩
    intro G Q u1 u2 separate fuel enough
    have standsG : AffineStands curve.p curve.g G :=
      ⟨_, _, stands_of_words (usable.sizeX.trans usable.sizeP.symm) usable.reducedX,
        stands_of_words (usable.sizeY.trans usable.sizeP.symm) usable.reducedY, onG, rfl⟩
    have sizeP := usable.sizeP
    have lengthX : (pkey.take curve.size).length = curve.p.length := by
      rw [List.length_take]
      omega
    have lengthY : (pkey.drop curve.size).length = curve.p.length := by
      rw [List.length_drop]
      omega
    have standsQ : AffineStands curve.p ⟨pkey.take curve.size, pkey.drop curve.size⟩ Q :=
      ⟨_, _, stands_of_words lengthX reducedX, stands_of_words lengthY reducedY, onQ, rfl⟩
    have apart : xCoord G ≠ xCoord Q := by
      intro same
      have congruent := (ZMod.natCast_eq_natCast_iff' _ _ _).mp (Option.some.inj same)
      rw [Nat.mod_eq_of_lt usable.reducedX, Nat.mod_eq_of_lt reducedX] at congruent
      exact differs congruent.symm
    rw [verifyDeviceKey_eq known fuel pkey sizeH sizeS]
    exact verifyOn_equation usable lengthH lengthR lengthS primeN noRoot sizeKey enough standsG
      standsQ apart inside separate

theorem p128_prime : (value curve128.p).Prime := by
  have first : Nat.Prime 367565879 := by
    apply prime_of_lucas 7 29 [2, 5987, 30697] _ (by decide +kernel)
    norm_num
  have second : Nat.Prime 157133 := by
    apply prime_of_lucas 2 18 [2, 2, 163, 241] _ (by decide +kernel)
    norm_num
  have third : Nat.Prime 4516015619173 := by
    apply prime_of_lucas 2 43 [2, 2, 3, 19, 233, 541, 157133] _ (by decide +kernel)
    simp only [List.forall_mem_cons, second, true_and]
    norm_num
  have fourth : Nat.Prime 222431055585633101740979 := by
    apply prime_of_lucas 2 78 [2, 67, 367565879, 4516015619173] _ (by decide +kernel)
    simp only [List.forall_mem_cons, first, third, true_and]
    norm_num
  have fifth : Nat.Prime 2700653704464143955832110573370478657 := by
    apply prime_of_lucas 5 122
      [2, 2, 2, 2, 2, 2, 11, 31, 151, 331, 11131, 222431055585633101740979] _ (by decide +kernel)
    simp only [List.forall_mem_cons, fourth, true_and]
    norm_num
  rw [show value curve128.p = 340282366762482138434845932244680310783 by decide]
  apply prime_of_lucas 3 128
    [2, 3, 3, 7, 2700653704464143955832110573370478657] _ (by decide +kernel)
  simp only [List.forall_mem_cons, fifth, true_and]
  norm_num

theorem n128_prime : (value curve128.n).Prime := by
  have first : Nat.Prime 33961999 := by
    apply prime_of_lucas 3 26 [2, 3, 7, 7, 71, 1627] _ (by decide +kernel)
    norm_num
  have second : Nat.Prime 676862640071 := by
    apply prime_of_lucas 7 40 [2, 5, 1993, 33961999] _ (by decide +kernel)
    simp only [List.forall_mem_cons, first, true_and]
    norm_num
  have third : Nat.Prime 178639 := by
    apply prime_of_lucas 3 18 [2, 3, 19, 1567] _ (by decide +kernel)
    norm_num
  have fourth : Nat.Prime 43117050034573 := by
    apply prime_of_lucas 2 46 [2, 2, 3, 821, 24499, 178639] _ (by decide +kernel)
    simp only [List.forall_mem_cons, third, true_and]
    norm_num
  have fifth : Nat.Prime 90718273272741593 := by
    apply prime_of_lucas 3 57 [2, 2, 2, 263, 43117050034573] _ (by decide +kernel)
    simp only [List.forall_mem_cons, fourth, true_and]
    norm_num
  rw [show value curve128.n = 340282366762482138443322565580356624661 by decide]
  apply prime_of_lucas 11 128
    [2, 2, 5, 7, 37, 641, 1669, 676862640071, 90718273272741593] _ (by decide +kernel)
  simp only [List.forall_mem_cons, second, fifth, true_and]
  norm_num

instance : Fact (value curve128.p).Prime := ⟨p128_prime⟩

def doubledKey : List UInt32 :=
  [0xe753a97e, 0x199db84b, 0xb92171db, 0x8151a0c6, 0x275b7e95, 0x838395a9, 0x9455caae, 0x03d85355]

theorem doubledKey_onCurve : OnCurve curve128 (doubledKey.take 4) (doubledKey.drop 4) := by
  have computed : (value (doubledKey.drop 4) ^ 2 + 3 * value (doubledKey.take 4) +
      value curve128.g.x ^ 3) % value curve128.p =
        (value (doubledKey.take 4) ^ 3 + value curve128.g.y ^ 2 + 3 * value curve128.g.x) %
          value curve128.p := by
    decide +kernel
  have congruent := (ZMod.natCast_eq_natCast_iff' _ _ _).mpr computed
  push_cast at congruent
  rw [OnCurve, coefficient]
  linear_combination congruent

theorem doubledKey_separate
    (onG : (CoZ.curve (coefficient curve128)).Nonsingular (value curve128.g.x) (value curve128.g.y))
    (onQ : (CoZ.curve (coefficient curve128)).Nonsingular (value (doubledKey.take 4))
      (value (doubledKey.drop 4))) :
    Separate (Affine.Point.some _ _ onG : (CoZ.curve (coefficient curve128)).Point)
      (.some _ _ onQ) 1 2 := by
  intro i low _
  have first : i = 0 := by
    have width : max (Nat.size 1) (Nat.size 2) = 2 := by decide
    omega
  subst first
  -- Half of `3 * (x ^ 2 - 1)`, computed outside.
  have half : 2 * ((201884849628173760467799905380252589501 : Nat) : ZMod (value curve128.p)) =
      3 * ((value (doubledKey.take 4) : ZMod (value curve128.p)) ^ 2 - 1 ^ 4) := by
    have computed : (2 * 201884849628173760467799905380252589501 + 3) % value curve128.p =
        3 * value (doubledKey.take 4) ^ 2 % value curve128.p := by
      decide +kernel
    have congruent := (ZMod.natCast_eq_natCast_iff' _ _ _).mpr computed
    push_cast at congruent ⊢
    linear_combination congruent
  have upper : (value (doubledKey.drop 4) : ZMod (value curve128.p)) ≠ 0 :=
    y_ne_zero noRoot128 onQ.1
  have doubled := (represents_affine onQ).double (two_ne_zero_of_odd usable128.odd) upper rfl half
    rfl
  rw [two_nsmul]
  simp only [partialSum, addend, pow_one, pow_zero, Nat.reduceDiv, Nat.reduceMod,
    zero_nsmul, one_nsmul, zero_add, add_zero]
  rw [doubled.xCoord_eq]
  intro same
  have equal := (div_eq_iff (pow_ne_zero 2 (mul_ne_zero upper one_ne_zero))).mp
    (Option.some.inj same)
  have cast : ((201884849628173760467799905380252589501 ^ 2 : Nat) : ZMod (value curve128.p)) =
      (2 * (value (doubledKey.take 4) * value (doubledKey.drop 4) ^ 2) +
        value curve128.g.x * value (doubledKey.drop 4) ^ 2 : Nat) := by
    push_cast
    linear_combination equal
  have computed := (ZMod.natCast_eq_natCast_iff' _ _ _).mp cast
  revert computed
  decide +kernel

theorem verify_device_key_equation_doubled :
    ∃ (onG : (CoZ.curve (coefficient curve128)).Nonsingular
          (value curve128.g.x) (value curve128.g.y))
        (onQ : (CoZ.curve (coefficient curve128)).Nonsingular
          (value (doubledKey.take 4)) (value (doubledKey.drop 4))),
      let G : (CoZ.curve (coefficient curve128)).Point := .some _ _ onG
      let Q : (CoZ.curve (coefficient curve128)).Point := .some _ _ onQ
      ∃ answer, verifyDeviceKey 256 doubledKey (1 :: List.replicate 15 0)
          (2 :: List.replicate 15 0 ++ 1 :: List.replicate 15 0) 16 = some answer ∧
        (answer = true ↔ ∃ x, xCoord (1 • G + 2 • Q) = some x ∧
          x.val % value curve128.n = 2) := by
  obtain ⟨onG, onQ, equation⟩ := (verify_device_key_equation curve128 (.inl rfl) n128_prime
    doubledKey (1 :: List.replicate 15 0) (2 :: List.replicate 15 0 ++ 1 :: List.replicate 15 0)
    (by decide) (by decide) (by decide) (by decide) (by decide) doubledKey_onCurve
    (by decide)).2 (by unfold OutOfRange; decide)
  exact ⟨onG, onQ, equation (doubledKey_separate onG onQ) 256 (by decide)⟩

end PiVccu.DevKey
