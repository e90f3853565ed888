import PiVccu.BigintFast
import PiVccu.BigintInv

/-!
The elliptic curve part of `kernel/devkey.inc`: co-Z addition, Jacobian doubling,
Shamir's double-and-add and `verify_device_key`. A result of `none` means that a
loop used up its fuel or that the code would follow the null entry of `points`.
-/

namespace PiVccu.DevKey
open Limbs Bigint

structure EccPoint where
  x : List UInt32
  y : List UInt32

structure EccCurve where
  size : Nat
  n : List UInt32
  p : List UInt32
  g : EccPoint

def curve128 : EccCurve where
  size := 4
  n := [0x9038a115, 0x75a30d1b, 0x00000000, 0xfffffffe]
  p := [0xffffffff, 0xffffffff, 0xffffffff, 0xfffffffd]
  g := {
    x := [0xa52c5b86, 0x0c28607c, 0x8b899b2d, 0x161ff752]
    y := [0xdded7a83, 0xc02da292, 0x5bafeb13, 0xcf5ac839] }

def curve256 : EccCurve where
  size := 8
  n := [0xfc632551, 0xf3b9cac2, 0xa7179e84, 0xbce6faad,
    0xffffffff, 0xffffffff, 0x00000000, 0xffffffff]
  p := [0xffffffff, 0xffffffff, 0xffffffff, 0x00000000,
    0x00000000, 0x00000000, 0x00000001, 0xffffffff]
  g := {
    x := [0xd898c296, 0xf4a13945, 0x2deb33a0, 0x77037d81,
      0x63a440f2, 0xf8bce6e5, 0xe12c4247, 0x6b17d1f2]
    y := [0x37bf51f5, 0xcbb64068, 0x6b315ece, 0x2bce3357,
      0x7c0f9e16, 0x8ee7eb4a, 0xfe1a7f9b, 0x4fe342e2] }

/-- Both points are written: `p1` to the denominator of the sum, `p2` to the sum. -/
def xyczAdd (fuel : Nat) (p1 p2 : EccPoint) (mod : List UInt32) :
    Option (EccPoint × EccPoint) := do
  let tmp := modSub p2.x p1.x mod
  let tmp ← modMultFast fuel tmp tmp mod
  let x1 ← modMultFast fuel p1.x tmp mod
  let x2 ← modMultFast fuel p2.x tmp mod
  let y2 := modSub p2.y p1.y mod
  let tmp ← modMultFast fuel y2 y2 mod
  let tmp := modSub tmp x1 mod
  let tmp := modSub tmp x2 mod
  let x2 := modSub x2 x1 mod
  let y1 ← modMultFast fuel p1.y x2 mod
  let x2 := modSub x1 tmp mod
  let y2 ← modMultFast fuel y2 x2 mod
  let y2 := modSub y2 y1 mod
  some (⟨x1, y1⟩, ⟨tmp, y2⟩)

def applyZ (fuel : Nat) (p : EccPoint) (z mod : List UInt32) : Option EccPoint := do
  let tmp ← modMultFast fuel z z mod
  let x ← modMultFast fuel p.x tmp mod
  let tmp ← modMultFast fuel tmp z mod
  let y ← modMultFast fuel p.y tmp mod
  some ⟨x, y⟩

/-- The halving in `point_double_jacobian`; here the carry is shifted to the top. -/
def halveX (x mod : List UInt32) : List UInt32 :=
  if testBit x 0 ≠ 0 then
    let sum := add x mod
    orTop (rshift sum.1) (sum.2 <<< 31)
  else rshift x

def pointDoubleJacobian (fuel : Nat) (p : EccPoint) (z mod : List UInt32) :
    Option (EccPoint × List UInt32) :=
  if isZero z then some (p, z) else do
    let t4 ← modMultFast fuel p.y p.y mod
    let t5 ← modMultFast fuel p.x t4 mod
    let t4 ← modMultFast fuel t4 t4 mod
    let y ← modMultFast fuel p.y z mod
    let z ← modMultFast fuel z z mod
    let x := modAdd p.x z mod
    let z := modAdd z z mod
    let z := modSub x z mod
    let x ← modMultFast fuel x z mod
    let z := modAdd x x mod
    let x := modAdd x z mod
    let x := halveX x mod
    let z ← modMultFast fuel x x mod
    let z := modSub z t5 mod
    let z := modSub z t5 mod
    let t5 := modSub t5 z mod
    let x ← modMultFast fuel x t5 mod
    let t4 := modSub x t4 mod
    some (⟨z, t4⟩, y)

/-- `points[!!bit(u1, i) | !!bit(u2, i) << 1]`, with no point at index zero. -/
def pointAt (u1 u2 : List UInt32) (g q sum : EccPoint) (i : Nat) : Option EccPoint :=
  match decide (testBit u1 i ≠ 0), decide (testBit u2 i ≠ 0) with
  | false, false => none
  | true, false => some g
  | false, true => some q
  | true, true => some sum

/-- The loop of `point_mult_shamir` from bit `bits - 1` down. -/
def shamirLoop (fuel : Nat) (points : Nat → Option EccPoint) (mod : List UInt32) :
    Nat → EccPoint → List UInt32 → Option (EccPoint × List UInt32)
  | 0, res, z => some (res, z)
  | i + 1, res, z => do
      let (res, z) ← pointDoubleJacobian fuel res z mod
      match points i with
      | none => shamirLoop fuel points mod i res z
      | some point =>
          let t ← applyZ fuel point z mod
          let tz := modSub res.x t.x mod
          let (_, res) ← xyczAdd fuel t res mod
          let z ← modMultFast fuel z tz mod
          shamirLoop fuel points mod i res z

/-- With `u1` and `u2` both zero the code shifts by a negative number. -/
def pointMultShamir (fuel : Nat) (u1 u2 : List UInt32) (q : EccPoint) (curve : EccCurve) :
    Option EccPoint := do
  let z := modSub q.x curve.g.x curve.p
  let (_, sum) ← xyczAdd fuel curve.g q curve.p
  let z ← modInv fuel z curve.p
  let sum ← applyZ fuel sum z curve.p
  let bits := max (numBits u1) (numBits u2)
  let points := pointAt u1 u2 curve.g q sum
  if bits = 0 then none else do
    let res ← points (bits - 1)
    let one := (List.replicate curve.size 0).set 0 1
    let (res, z) ← shamirLoop fuel points curve.p (bits - 1) res one
    let z ← modInv fuel z curve.p
    applyZ fuel res z curve.p

def verifyOn (fuel : Nat) (curve : EccCurve) (pkey h r s : List UInt32) : Option Bool :=
  if isZero r ∨ Bigint.cmp r curve.n ≥ 0 ∨ isZero s ∨ Bigint.cmp s curve.n ≥ 0 then some false else do
    let key : EccPoint := ⟨pkey.take curve.size, (pkey.drop curve.size).take curve.size⟩
    let u1 ← modMult h s curve.n
    let u2 ← modMult r s curve.n
    let p ← pointMultShamir fuel u1 u2 key curve
    let x := if Bigint.cmp p.x curve.n > 0 then (sub p.x curve.n).1 else p.x
    some (Bigint.cmp x r = 0)

/-- `hkey` and `skey` are byte arrays that the code reads as words. -/
def verifyDeviceKey (fuel : Nat) (pkey : List UInt32) (hkey skey : List UInt8) (bytes : Nat) :
    Option Bool :=
  let size := bytes / 4
  let h := (wordsOfBytes hkey).take size
  let r := (wordsOfBytes skey).take size
  let s := (wordsOfBytes (skey.drop bytes)).take size
  if size = 4 then verifyOn fuel curve128 pkey h r s
  else if size = 8 then verifyOn fuel curve256 pkey h r s
  else some false

end PiVccu.DevKey
