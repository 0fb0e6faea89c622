import Provenance.Bytes
import Provenance.Curve.Field

/-!
# The twisted Edwards curve of order near `2 ^ 255`

Points of `-x² + y² = 1 + d x² y²` modulo `2 ^ 255 - 19`, in extended form: `(x, y, z, t)` stands for
`(x / z, y / z)` with `t = x y / z`. A point is encoded as the bytes of `y`, least significant first,
with the parity of `x` in the top bit.
-/

namespace Provenance.Edwards25519

open Curve

/-- The prime of the field. -/
def prime : Nat := Nat.pow 2 255 - 19

/-- The order of the base point. -/
def order : Nat := Nat.pow 2 252 + 27742317777372353535851937790883648493

/-- The constant of the curve's equation. -/
def constant : Nat := 0x52036cee2b6ffe738cc740797779e89800700a4d4141d8ab75eb4dca135978a3

/-- A square root of minus one. -/
def rootOfMinusOne : Nat := 0x2b8324804fc1df0b2b4d00993dfbd7a72f431806ad2fe478c4ee1b274a0ea0b0

/-- A point in extended form. -/
structure Point where
  x : Nat
  y : Nat
  z : Nat
  t : Nat

/-- The neutral point. -/
def neutral : Point := ⟨0, 1, 1, 0⟩

/-- The point with these coordinates. -/
def Point.ofAffine (x y : Nat) : Point := ⟨x, y, 1, mulMod prime x y⟩

/-- The base point. -/
def base : Point :=
  Point.ofAffine 0x216936d3cd6e53fec0a4e231fdd6dc5c692cc7609525a7b2c9562d608f25d51a
    0x6666666666666666666666666666666666666666666666666666666666666658

/-- Sum of two points. -/
def Point.add (q r : Point) : Point :=
  let a := mulMod prime (subMod prime q.y q.x) (subMod prime r.y r.x)
  let b := mulMod prime (q.y + q.x) (r.y + r.x)
  let c := mulMod prime (mulMod prime q.t (2 * constant)) r.t
  let d := mulMod prime (2 * q.z) r.z
  let e := subMod prime b a
  let f := subMod prime d c
  let g := addMod prime d c
  let h := addMod prime b a
  ⟨mulMod prime e f, mulMod prime g h, mulMod prime f g, mulMod prime e h⟩

/-- The point on the other side. -/
def Point.neg (q : Point) : Point := ⟨(prime - q.x) % prime, q.y, q.z, (prime - q.t) % prime⟩

/-- Multiples of a point, from the highest of `bits` bits of the scalar down. -/
def Point.timesFrom (q : Point) (k : Nat) : (bits : Nat) → (acc : Point) → Point
  | 0, acc => acc
  | bits + 1, acc =>
    let twice := acc.add acc
    q.timesFrom k bits (if k.testBit bits then twice.add q else twice)

/-- A multiple of a point. -/
def Point.times (q : Point) (k : Nat) : Point := q.timesFrom k 256 neutral

/-- The even one of the two square roots of `u / v`, if there are any. -/
def sqrtRatio? (u v : Nat) : Option Nat :=
  let v3 := mulMod prime (mulMod prime v v) v
  let v7 := mulMod prime (mulMod prime v3 v3) v
  let r := mulMod prime (mulMod prime u v3) (powMod prime (mulMod prime u v7) ((prime - 5) / 8))
  let check := mulMod prime v (mulMod prime r r)
  let even := fun r : Nat => if r % 2 = 0 then r else prime - r
  if check = u % prime then some (even r)
  else if check = (prime - u % prime) % prime then some (even (mulMod prime r rootOfMinusOne))
  else none

/-- The bytes of a point. -/
def Point.bytes (q : Point) : Bytes :=
  let i := invMod prime q.z
  let x := mulMod prime q.x i
  let y := mulMod prime q.y i
  leBytes 32 (y + (if x % 2 = 1 then Nat.pow 2 255 else 0))

/-- The point that thirty-two bytes encode. The second coordinate is taken modulo the prime, and zero
has both parities. -/
def Point.ofBytes? (b : Bytes) : Option Point :=
  if b.length = 32 then
    let n := leNat b
    let y := n % Nat.pow 2 255 % prime
    let yy := mulMod prime y y
    let u := subMod prime yy 1
    let v := addMod prime (mulMod prime constant yy) 1
    (sqrtRatio? u v).map fun x =>
      Point.ofAffine (if Nat.pow 2 255 ≤ n then (prime - x) % prime else x) y
  else none

end Provenance.Edwards25519
