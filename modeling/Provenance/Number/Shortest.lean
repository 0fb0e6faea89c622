import Provenance.Number.Binary64

/-!
# Shortest decimal of a double

A finite double is written with the fewest significant digits that read back as the same double;
among those the digits nearest to it, a tie to the even digit. `shortest` finds them by exact
arithmetic on the interval of numbers that round to the double. How the digits are laid out
(positional or with an exponent, which signs, whether `.0` is kept) is a `Notation64` record.
-/

namespace Provenance

/-- Decimal digits `digits * 10 ^ exponent`, without trailing zeros. -/
structure Decimal where
  digits : Nat
  exponent : Int
  deriving DecidableEq, Repr

namespace Decimal

/-- Removes trailing zeros, at most `fuel` of them. -/
def strip : (fuel : Nat) → Nat → Int → Decimal
  | 0, digits, exponent => ⟨digits, exponent⟩
  | fuel + 1, digits, exponent =>
    if digits % 10 = 0 ∧ digits ≠ 0 then strip fuel (digits / 10) (exponent + 1)
    else ⟨digits, exponent⟩

end Decimal

namespace Binary64

/-- A positive number `value / unit` and the interval around it, in the same unit, that rounds to
the double; the ends belong to it when `closed`. -/
structure Interval where
  low : Nat
  value : Nat
  high : Nat
  unit : Nat
  closed : Bool

/-- The interval of a positive finite double: half way to each neighbour. -/
def interval (x : Binary64) : Interval :=
  let (mantissa, exponent) := x.magnitude
  let below := if mantissa = Nat.pow 2 52 ∧ exponent > minExponent then 1 else 2
  let (scale, unit) :=
    if 2 ≤ exponent then (Nat.pow 2 (exponent - 2).toNat, 1)
    else (1, Nat.pow 2 (2 - exponent).toNat)
  ⟨(4 * mantissa - below) * scale, 4 * mantissa * scale, (4 * mantissa + 2) * scale, unit,
    mantissa % 2 = 0⟩

namespace Interval

/-- `d * 10 ^ k` rounds to the double. -/
def holds (i : Interval) (d : Nat) (k : Int) : Bool :=
  let (d, unit) := if 0 ≤ k then (d * Nat.pow 10 k.toNat, 1) else (d, Nat.pow 10 (-k).toNat)
  let (low, high, point) := (i.low * unit, i.high * unit, d * i.unit)
  if i.closed then low ≤ point && point ≤ high else low < point && point < high

/-- The value divided by `10 ^ k`: quotient, remainder and divisor. -/
def grid (i : Interval) (k : Int) : Nat × Nat × Nat :=
  let (num, den) :=
    if 0 ≤ k then (i.value, i.unit * Nat.pow 10 k.toNat)
    else (i.value * Nat.pow 10 (-k).toNat, i.unit)
  (num / den, num % den, den)

/-- The exponent of ten of the value's first digit, searched down from `fuel - 330`. -/
def leading (i : Interval) : (fuel : Nat) → Int
  | 0 => -330
  | fuel + 1 =>
    let k : Int := (fuel : Int) - 330
    if (i.grid k).1 = 0 then leading i fuel else k

/-- The nearer of the two grid points beside the value that rounds to the double, on the grid of
step `10 ^ k`; a tie goes to the even one. -/
def nearest? (i : Interval) (k : Int) : Option Nat :=
  let (q, r, den) := i.grid k
  let lowFits := i.holds q k && q != 0
  let highFits := i.holds (q + 1) k
  if lowFits && highFits then
    if 2 * r < den then some q
    else if den < 2 * r then some (q + 1)
    else if q % 2 = 0 then some q else some (q + 1)
  else if lowFits then some q
  else if highFits then some (q + 1)
  else none

/-- The first grid, from the coarsest, with a point that rounds to the double. -/
def search (i : Interval) (first : Int) : (fuel count : Nat) → Decimal
  | 0, _ => ⟨0, 0⟩
  | fuel + 1, count =>
    let k := first - count
    match i.nearest? k with
    | some d => Decimal.strip 400 d k
    | none => search i first fuel (count + 1)

end Interval

/-- The shortest decimal of the absolute value of a finite double. -/
def shortest (x : Binary64) : Decimal :=
  if x.magnitude.1 = 0 then ⟨0, 0⟩
  else
    let i := x.interval
    i.search (i.leading 660) 18 0

end Binary64

/-- How the digits of a double are laid out. With the decimal point after `point` digits, the number
is positional while `minPoint ≤ point ≤ maxPoint`, and has an exponent otherwise. -/
structure Notation64 where
  minPoint : Int
  maxPoint : Int
  /-- A whole number ends in `.0`. -/
  keepsPoint : Bool
  /-- A positive exponent has a plus sign. -/
  plusExponent : Bool
  /-- Minus zero keeps its sign. -/
  signedZero : Bool

namespace Notation64

/-- Canonical JSON: positional from `0.000001` up to twenty-one digits, no superfluous point. -/
def canonical : Notation64 := ⟨-5, 21, false, true, false⟩

/-- Plain JSON: positional from `0.00001` up to sixteen digits, whole numbers with `.0`. -/
def plain : Notation64 := ⟨-4, 16, true, false, true⟩

/-- The digits with the point after `point` of them. -/
def positional (f : Notation64) (digits : List Char) (point : Int) : List Char :=
  if point ≤ 0 then ['0', '.'] ++ List.replicate (-point).toNat '0' ++ digits
  else
    let p := point.toNat
    if digits.length ≤ p then
      digits ++ List.replicate (p - digits.length) '0' ++ (if f.keepsPoint then ['.', '0'] else [])
    else digits.take p ++ ['.'] ++ digits.drop p

/-- One digit before the point, and the exponent. -/
def scientific (f : Notation64) (digits : List Char) (point : Int) : List Char :=
  let rest := digits.drop 1
  let exponent := point - 1
  let sign := if exponent < 0 then ['-'] else if f.plusExponent then ['+'] else []
  digits.take 1 ++ (if rest.isEmpty then [] else '.' :: rest) ++ ['e'] ++ sign
    ++ Nat.toDigits 10 exponent.natAbs

/-- A finite double in this notation. -/
def write (f : Notation64) (x : Binary64) : String :=
  let d := x.shortest
  if d.digits = 0 then
    String.ofList ((if x.negative && f.signedZero then ['-'] else [])
      ++ ['0'] ++ (if f.keepsPoint then ['.', '0'] else []))
  else
    let digits := Nat.toDigits 10 d.digits
    let point := (digits.length : Int) + d.exponent
    let body :=
      if f.minPoint ≤ point ∧ point ≤ f.maxPoint then f.positional digits point
      else f.scientific digits point
    String.ofList ((if x.negative then ['-'] else []) ++ body)

end Notation64

end Provenance
