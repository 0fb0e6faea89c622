/-!
# Binary floating point numbers

A `Binary64` is a double precision number kept as its bit pattern, so that equality is decidable
and every operation is exact arithmetic on natural numbers. `ofRatio?` rounds a quotient to the
nearest double, a tie to the even one, and gives nothing when the quotient is too large;
`magnitude` reads a double back as `mantissa * 2 ^ exponent`.
-/

namespace Provenance

/-- A double precision number as its 64 bits. -/
structure Binary64 where
  bits : UInt64
  deriving DecidableEq, Repr, Inhabited

namespace Binary64

/-- The least exponent of two a double's mantissa is scaled by. -/
def minExponent : Int := -1074

/-- The greatest exponent of two a double's mantissa is scaled by. -/
def maxExponent : Int := 971

/-- The sign bit. -/
def negative (x : Binary64) : Bool := x.bits.toNat / Nat.pow 2 63 = 1

/-- The eleven bits of the exponent. -/
def biasedExponent (x : Binary64) : Nat := x.bits.toNat / Nat.pow 2 52 % Nat.pow 2 11

/-- The fifty-two stored bits of the mantissa. -/
def fraction (x : Binary64) : Nat := x.bits.toNat % Nat.pow 2 52

/-- Mantissa and exponent of the absolute value of a finite double. -/
def magnitude (x : Binary64) : Nat × Int :=
  if x.biasedExponent = 0 then (x.fraction, minExponent)
  else (Nat.pow 2 52 + x.fraction, (x.biasedExponent : Int) - 1075)

/-- The double with a sign and the absolute value `mantissa * 2 ^ exponent`, for a mantissa below
`2 ^ 53` that is at least `2 ^ 52` unless the exponent is the least one. -/
def pack (negative : Bool) (mantissa : Nat) (exponent : Int) : Binary64 :=
  let sign := if negative then Nat.pow 2 63 else 0
  let body :=
    if mantissa < Nat.pow 2 52 then mantissa
    else (exponent + 1075).toNat * Nat.pow 2 52 + (mantissa - Nat.pow 2 52)
  ⟨UInt64.ofNat (sign + body)⟩

/-- Numerator and denominator of `num / den` divided by `2 ^ exponent`. -/
def scaled (num den : Nat) (exponent : Int) : Nat × Nat :=
  if 0 ≤ exponent then (num, den * Nat.pow 2 exponent.toNat)
  else (num * Nat.pow 2 (-exponent).toNat, den)

/-- The natural number nearest to a quotient, a tie to the even one. -/
def roundHalfEven (num den : Nat) : Nat :=
  let q := num / den
  let twice := 2 * (num % den)
  if twice < den then q
  else if den < twice then q + 1
  else if q % 2 = 0 then q else q + 1

/-- The exponent that gives the mantissa of `num / den` its full fifty-three bits, or the least
exponent when the quotient is too small for that. -/
def mantissaExponent (num den : Nat) : Int :=
  let estimate : Int := (num.log2 : Int) - den.log2 - 53
  let (n, d) := scaled num den estimate
  let exponent := if n < d * Nat.pow 2 53 then estimate else estimate + 1
  max exponent minExponent

/-- The double nearest to a quotient, a tie to the even one; nothing if it is out of range. -/
def ofRatio? (negative : Bool) (num den : Nat) : Option Binary64 :=
  if num = 0 then some (pack negative 0 minExponent)
  else
    let exponent := mantissaExponent num den
    let (n, d) := scaled num den exponent
    let mantissa := roundHalfEven n d
    let (mantissa, exponent) :=
      if mantissa = Nat.pow 2 53 then (Nat.pow 2 52, exponent + 1) else (mantissa, exponent)
    if exponent > maxExponent then none else some (pack negative mantissa exponent)

/-- The double nearest to `digits * 10 ^ exponent`. An exponent far outside the range of a double is
answered without computing the power.

The result is rounded once. A reader that multiplies the digits by a rounded power of ten rounds
twice and can differ in the last place; to it `1.7976931348623158e308` is out of range, which is the
greatest double here. -/
def ofDecimal? (negative : Bool) (digits : Nat) (exponent : Int) : Option Binary64 :=
  let size : Int := (Nat.toDigits 10 digits).length + exponent
  if digits = 0 ∨ size < -400 then some (pack negative 0 minExponent)
  else if 400 < size then none
  else if 0 ≤ exponent then ofRatio? negative (digits * Nat.pow 10 exponent.toNat) 1
  else ofRatio? negative digits (Nat.pow 10 (-exponent).toNat)

/-- The double nearest to an integer; nothing only for integers beyond every double. -/
def ofInt? (n : Int) : Option Binary64 := ofRatio? (n < 0) n.natAbs 1

end Binary64

end Provenance
