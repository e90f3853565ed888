import PiVccu.DevKeyField

/-!
The curve functions of `kernel/devkey.inc` as group operations. The loop of
`point_mult_shamir` keeps the bits of both factors that it has read, as long as no
addition meets two points with one x-coordinate.
-/

namespace PiVccu.DevKey
open Limbs Bigint CoZ WeierstrassCurve

section Bits
variable {A : Type*} [AddCommMonoid A] (G Q : A) (u1 u2 : Nat)

/-- The sum after bit `i`: what the bits from `i` up make of both points. -/
def partialSum (i : Nat) : A := (u1 / 2 ^ i) • G + (u2 / 2 ^ i) • Q

def addend (i : Nat) : A := (u1 / 2 ^ i % 2) • G + (u2 / 2 ^ i % 2) • Q

theorem partialSum_zero : partialSum G Q u1 u2 0 = u1 • G + u2 • Q := by
  simp [partialSum]

theorem partialSum_step (i : Nat) :
    partialSum G Q u1 u2 i =
      addend G Q u1 u2 i + (partialSum G Q u1 u2 (i + 1) + partialSum G Q u1 u2 (i + 1)) := by
  have bits : ∀ u : Nat, u / 2 ^ i = u / 2 ^ i % 2 + (u / 2 ^ (i + 1) + u / 2 ^ (i + 1)) := by
    intro u
    rw [pow_succ, ← Nat.div_div_eq_div_mul]
    omega
  calc partialSum G Q u1 u2 i
      = (u1 / 2 ^ i % 2 + (u1 / 2 ^ (i + 1) + u1 / 2 ^ (i + 1))) • G +
          (u2 / 2 ^ i % 2 + (u2 / 2 ^ (i + 1) + u2 / 2 ^ (i + 1))) • Q := by
        rw [← bits u1, ← bits u2]
        rfl
    _ = _ := by
        simp only [add_nsmul, addend, partialSum]
        abel

end Bits

section Points
variable {mod : List UInt32} [Fact (value mod).Prime] {b : ZMod (value mod)}

def PointStands (mod : List UInt32) [Fact (value mod).Prime] {b : ZMod (value mod)}
    (res : EccPoint) (z : List UInt32) (point : (curve b).Point) : Prop :=
  ∃ X Y Z, Stands mod res.x X ∧ Stands mod res.y Y ∧ Stands mod z Z ∧ Represents X Y Z point

def AffineStands (mod : List UInt32) [Fact (value mod).Prime] {b : ZMod (value mod)}
    (res : EccPoint) (point : (curve b).Point) : Prop :=
  ∃ x y, Stands mod res.x x ∧ Stands mod res.y y ∧ ∃ on : (curve b).Nonsingular x y,
    point = .some x y on

variable (fast : FastMult mod) (odd : value mod % 2 = 1)
  (rootFree : ∀ x : ZMod (value mod), x ^ 3 - 3 * x + b ≠ 0) {fuel : Nat}
  (enough : 64 * mod.length ≤ fuel)

include odd in
theorem two_ne_zero_of_odd : (2 : ZMod (value mod)) ≠ 0 := by
  intro zero
  have divides : value mod ∣ 2 := (ZMod.natCast_eq_zero_iff 2 _).mp (by exact_mod_cast zero)
  have small := Nat.le_of_dvd (by decide) divides
  have large := (Fact.out : (value mod).Prime).two_le
  omega

include odd in
theorem fuel_ge (enough : 64 * mod.length ≤ fuel) : 16 ≤ fuel := by
  cases mod with
  | nil => simp at odd
  | cons word rest =>
      rw [List.length_cons] at enough
      omega

include fast odd rootFree enough in
theorem double_point {res : EccPoint} {z : List UInt32} {point : (curve b).Point}
    (stands : PointStands mod res z point) :
    ∃ res' z', pointDoubleJacobian fuel res z mod = some (res', z') ∧
      PointStands mod res' z' (point + point) := by
  obtain ⟨X, Y, Z, standsX, standsY, standsZ, represents⟩ := stands
  obtain ⟨doubled, z', A, B, X₃, run, sumA, sumB, sumX, newX, newY, newZ⟩ :=
    pointDoubleJacobian_stands fast (fuel_ge odd enough) odd standsX.denotes standsY.denotes standsZ
      represents.1
  refine ⟨doubled, z', run, X₃, _, _, newX, newY, newZ, ?_⟩
  exact represents.double (two_ne_zero_of_odd odd) (represents.y_ne_zero rootFree) sumA sumB sumX

include fast odd enough in
theorem add_point {res point : EccPoint} {z : List UInt32} {current added : (curve b).Point}
    (stands : PointStands mod res z current) (affine : AffineStands mod point added)
    (apart : xCoord current ≠ xCoord added) :
    ∃ t scaled sum z', applyZ fuel point z mod = some t ∧
      xyczAdd fuel t res mod = some (scaled, sum) ∧
      modMultFast fuel z (modSub res.x t.x mod) mod = some z' ∧
      PointStands mod sum z' (added + current) := by
  obtain ⟨X, Y, Z, standsX, standsY, standsZ, represents⟩ := stands
  obtain ⟨x, y, standsX', standsY', on, rfl⟩ := affine
  have sixteen := fuel_ge odd enough
  obtain ⟨t, runT, standsTX, standsTY⟩ := applyZ_stands fast sixteen standsX'.denotes standsY'.denotes standsZ
  obtain ⟨scaled, sum, runSum, sumX, sumY⟩ :=
    xyczAdd_stands fast sixteen standsTX standsTY standsX.denotes standsY.denotes rfl
  obtain ⟨z', runZ, standsZ'⟩ := standsZ.mult fast sixteen (standsX.sub standsTX)
  have overZ : Represents (x * Z ^ 2) (y * Z ^ 3) Z (Affine.Point.some x y on : (curve b).Point) := by
    have scaled := (represents_affine on).scale represents.1
    rwa [one_mul] at scaled
  have differ : x * Z ^ 2 ≠ X := by
    intro same
    apply apart
    rw [represents.xCoord_eq, overZ.xCoord_eq, same]
  exact ⟨t, scaled, sum, z', runT, runSum, runZ, _, _, _, sumX, sumY, standsZ',
    overZ.add represents differ rfl⟩

/-- The entry of `points` for every bit is the point that the bit adds. -/
def Tabulates (mod : List UInt32) [Fact (value mod).Prime] {b : ZMod (value mod)}
    (points : Nat → Option EccPoint) (addends : Nat → (curve b).Point) : Prop :=
  ∀ i, points i = none ∧ addends i = 0 ∨
    ∃ point, points i = some point ∧ AffineStands mod point (addends i)

include fast odd rootFree enough in
/-- The loop of `point_mult_shamir` goes from the sum above bit `bits` to the whole sum. -/
theorem shamirLoop_stands {points : Nat → Option EccPoint} {G Q : (curve b).Point} {u1 u2 : Nat}
    (tabulates : Tabulates mod points (addend G Q u1 u2)) {bits : Nat}
    (separate : ∀ i < bits, addend G Q u1 u2 i ≠ 0 →
      xCoord (partialSum G Q u1 u2 (i + 1) + partialSum G Q u1 u2 (i + 1)) ≠
        xCoord (addend G Q u1 u2 i))
    {res : EccPoint} {z : List UInt32}
    (stands : PointStands mod res z (partialSum G Q u1 u2 bits)) :
    ∃ res' z', shamirLoop fuel points mod bits res z = some (res', z') ∧
      PointStands mod res' z' (u1 • G + u2 • Q) := by
  induction bits generalizing res z with
  | zero => exact ⟨res, z, rfl, partialSum_zero G Q u1 u2 ▸ stands⟩
  | succ bits ih =>
      have lower := fun i below => separate i (Nat.lt_succ_of_lt below)
      have step := partialSum_step G Q u1 u2 bits
      obtain ⟨doubled, z', runDouble, standsDouble⟩ := double_point fast odd rootFree enough stands
      rcases tabulates bits with ⟨absent, zero⟩ | ⟨point, present, affine⟩
      · rw [zero, zero_add] at step
        obtain ⟨res', z'', run, final⟩ := ih lower (step ▸ standsDouble)
        refine ⟨res', z'', ?_, final⟩
        simp only [shamirLoop, runDouble, absent, Option.bind_eq_bind, Option.bind_some, run]
      · have nonzero : addend G Q u1 u2 bits ≠ 0 := by
          obtain ⟨x, y, -, -, on, same⟩ := affine
          rw [same]
          exact Affine.Point.some_ne_zero on
        obtain ⟨t, scaled, sum, z'', runT, runSum, runZ, standsSum⟩ :=
          add_point fast odd enough standsDouble affine
            (separate bits (Nat.lt_succ_self bits) nonzero)
        obtain ⟨res', z''', run, final⟩ := ih lower (step ▸ standsSum)
        refine ⟨res', z''', ?_, final⟩
        simp only [shamirLoop, runDouble, present, runT, runSum, runZ, Option.bind_eq_bind,
          Option.bind_some, run]

end Points

end PiVccu.DevKey
