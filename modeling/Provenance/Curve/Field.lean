/-!
# Arithmetic modulo a prime

Field elements are natural numbers below the modulus; every operation reduces its result.
-/

namespace Provenance.Curve

/-- Sum. -/
@[inline] def addMod (p a b : Nat) : Nat := (a + b) % p

/-- Difference. -/
@[inline] def subMod (p a b : Nat) : Nat := (a + (p - b % p)) % p

/-- Product. -/
@[inline] def mulMod (p a b : Nat) : Nat := a * b % p

/-- Power, by squaring from the highest of `bits` bits of the exponent down. -/
def powModFrom (p a exponent : Nat) : (bits : Nat) → (acc : Nat) → Nat
  | 0, acc => acc
  | bits + 1, acc =>
    let square := acc * acc % p
    powModFrom p a exponent bits (if exponent.testBit bits then square * a % p else square)

/-- Power. -/
def powMod (p a exponent : Nat) : Nat := powModFrom p (a % p) exponent (exponent.log2 + 1) (1 % p)

/-- Inverse of an element that is not zero, for a prime modulus. -/
def invMod (p a : Nat) : Nat := powMod p a (p - 2)

end Provenance.Curve
