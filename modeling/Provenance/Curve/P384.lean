import Provenance.Bytes
import Provenance.Curve.Field

/-!
# The curve P-384

Points of `y² = x³ - 3x + b` over a prime field of 384 bits, with a base point of prime order.
Points are added in projective form, where `(x, y, z)` stands for `(x / z², y / z³)` and `z = 0` for
the point at infinity; `Point` is the affine form.
-/

namespace Provenance.P384

open Curve

/-- The prime of the field. -/
def prime : Nat := Nat.pow 2 384 - Nat.pow 2 128 - Nat.pow 2 96 + Nat.pow 2 32 - 1

/-- The order of the base point. -/
def order : Nat :=
  0xffffffffffffffffffffffffffffffffffffffffffffffffc7634d81f4372ddf581a0db248b0a77aecec196accc52973

/-- The constant of the curve's equation. -/
def constant : Nat :=
  0xb3312fa7e23ee7e4988e056be3f82d19181d9c6efe8141120314088f5013875ac656398d8a2ed19d2a85c8edd3ec2aef

/-- Bytes of a coordinate or a scalar. -/
def size : Nat := 48

/-- A point other than infinity. -/
structure Point where
  x : Nat
  y : Nat
  deriving DecidableEq, Repr

/-- The base point. -/
def base : Point where
  x := 0xaa87ca22be8b05378eb1c71ef320ad746e1d3b628ba79b9859f741e082542a385502f25dbf55296c3a545e3872760ab7
  y := 0x3617de4a96262c6f5d9e98bf9292dc29f8f41dbd289a147ce9da3113b5f0b8c00a60b1ce1d7e819d7a431d7c90ea0e5f

/-- A point in projective form. -/
structure Projective where
  x : Nat
  y : Nat
  z : Nat

/-- The point at infinity. -/
def infinity : Projective := ⟨1, 1, 0⟩

/-- A point in projective form. -/
def Point.projective (q : Point) : Projective := ⟨q.x, q.y, 1⟩

/-- The right-hand side of the curve's equation. -/
def cubic (x : Nat) : Nat := (x * x % prime * x + (prime - 3) * x + constant) % prime

/-- The point satisfies the curve's equation. -/
def Point.onCurve (q : Point) : Bool :=
  q.x < prime && q.y < prime && q.y * q.y % prime == cubic q.x

/-- Twice a point. -/
def Projective.double (q : Projective) : Projective :=
  let delta := mulMod prime q.z q.z
  let gamma := mulMod prime q.y q.y
  let beta := mulMod prime q.x gamma
  let alpha := mulMod prime 3 (mulMod prime (subMod prime q.x delta) (addMod prime q.x delta))
  let x := subMod prime (mulMod prime alpha alpha) (8 * beta)
  let sum := addMod prime q.y q.z
  let z := subMod prime (mulMod prime sum sum) (gamma + delta)
  let y := subMod prime (mulMod prime alpha (subMod prime (4 * beta) x))
    (8 * mulMod prime gamma gamma)
  ⟨x, y, z⟩

/-- Sum of two points. -/
def Projective.add (q r : Projective) : Projective :=
  if q.z = 0 then r
  else if r.z = 0 then q
  else
    let qz := mulMod prime q.z q.z
    let rz := mulMod prime r.z r.z
    let u := mulMod prime q.x rz
    let v := mulMod prime r.x qz
    let s := mulMod prime q.y (mulMod prime r.z rz)
    let t := mulMod prime r.y (mulMod prime q.z qz)
    let h := subMod prime v u
    let d := subMod prime t s
    if h = 0 then
      if d = 0 then q.double else infinity
    else
      let hh := mulMod prime h h
      let hhh := mulMod prime h hh
      let w := mulMod prime u hh
      let x := subMod prime (mulMod prime d d) (hhh + 2 * w)
      let y := subMod prime (mulMod prime d (subMod prime w x)) (mulMod prime s hhh)
      ⟨x, y, mulMod prime h (mulMod prime q.z r.z)⟩

/-- The affine form of a point other than infinity. -/
def Projective.affine? (q : Projective) : Option Point :=
  if q.z = 0 then none
  else
    let i := invMod prime q.z
    let ii := mulMod prime i i
    some ⟨mulMod prime q.x ii, mulMod prime q.y (mulMod prime i ii)⟩

/-- Multiples of a point, from the highest of `bits` bits of the scalar down. -/
def Projective.timesFrom (q : Projective) (k : Nat) : (bits : Nat) → (acc : Projective) → Projective
  | 0, acc => acc
  | bits + 1, acc =>
    let twice := acc.double
    q.timesFrom k bits (if k.testBit bits then twice.add q else twice)

/-- A multiple of a point. -/
def Point.times (q : Point) (k : Nat) : Projective := q.projective.timesFrom k 384 infinity

/-- A square root in the field, if there is one. -/
def sqrt? (a : Nat) : Option Nat :=
  let r := powMod prime a ((prime + 1) / 4)
  if r * r % prime = a % prime then some r else none

/-- The point with that first coordinate and a second one of that parity. -/
def Point.ofParity? (x : Nat) (odd : Bool) : Option Point :=
  if x < prime then
    (sqrt? (cubic x)).map fun y => ⟨x, if (y % 2 = 1) = odd then y else (prime - y) % prime⟩
  else none

/-- The point with that first coordinate and the smaller second one. -/
def Point.ofSmaller? (x : Nat) : Option Point :=
  if x < prime then
    (sqrt? (cubic x)).map fun y => ⟨x, min y ((prime - y) % prime)⟩
  else none

/-- The bytes of a point: both coordinates, or the first and the parity of the second. -/
def Point.bytes (q : Point) (compressed : Bool) : Bytes :=
  if compressed then (if q.y % 2 = 1 then 3 else 2) :: beBytes size q.x
  else 4 :: (beBytes size q.x ++ beBytes size q.y)

/-- The point that bytes encode in one of four forms: both coordinates, the first and the parity of
the second, or the first alone. -/
def Point.ofBytes? : Bytes → Option Point
  | [] => none
  | form :: rest =>
    if form = 4 ∧ rest.length = 2 * size then
      let q : Point := ⟨beNat (rest.take size), beNat (rest.drop size)⟩
      if q.onCurve then some q else none
    else if rest.length = size then
      let x := beNat rest
      if form = 2 then Point.ofParity? x false
      else if form = 3 then Point.ofParity? x true
      else if form = 5 then Point.ofSmaller? x
      else none
    else none

end Provenance.P384
