import Mathlib.Data.Nat.ModEq
import Provenance.Proofs.Signature.Answers

/-!
# A key under which everything is signed

Any point of the curve is an Ed25519 public key, and the neutral point is one. All its
multiples are the point itself, so the check of a signature does not depend on the
message:

> `verify_neutralKey`: the neutral point and the scalar zero are a valid signature of
> every message under the neutral key.

Points have a third coordinate that is not one in general, and for the neutral point it
is a power of two that grows with every sum (`Point.IsNeutral`). The bytes of a point are
made with an inverse of that coordinate, which is a power (`powMod_eq`); two to the order
of the field's units is one, and no more has to be known of the modulus.
-/

namespace Provenance.Curve

/-! ## Powers -/

theorem shiftRight_eq_succ (n bits : Nat) :
    n >>> bits = 2 * (n >>> (bits + 1)) + (n.testBit bits).toNat := by
  have hbit : (n >>> bits) % 2 = (n.testBit bits).toNat := by
    rw [Nat.testBit_eq_decide_div_mod_eq, Nat.shiftRight_eq_div_pow]
    rcases Nat.mod_two_eq_zero_or_one (n / 2 ^ bits) with h | h <;> simp [h]
  rw [Nat.shiftRight_succ, ← hbit, Nat.div_add_mod]

/-- The accumulator is the power with the bits of the exponent that were read. -/
theorem powModFrom_eq {p a n : Nat} : ∀ (bits : Nat) {acc : Nat},
    acc = a ^ (n >>> bits) % p → powModFrom p a n bits acc = a ^ n % p
  | 0, _, h => h
  | bits + 1, acc, h => by
    refine powModFrom_eq bits ?_
    have hsquare : acc * acc % p = a ^ (2 * (n >>> (bits + 1))) % p := by
      rw [h, ← Nat.mul_mod, two_mul, pow_add]
    rw [shiftRight_eq_succ n bits, hsquare]
    cases n.testBit bits with
    | false => rfl
    | true => exact (Nat.mod_mul_mod _ _ _).trans (by rw [Bool.toNat_true, pow_succ])

theorem powMod_eq (p a n : Nat) : powMod p a n = a ^ n % p := by
  rw [powMod, powModFrom_eq, ← Nat.pow_mod]
  have hread : n >>> (n.log2 + 1) = 0 := by
    rw [Nat.shiftRight_eq_div_pow]
    exact Nat.div_eq_of_lt Nat.lt_log2_self
  rw [hread, pow_zero]

/-! ## Differences -/

theorem subMod_eq_zero {p a b : Nat} (hp : 0 < p) (h : a % p = b % p) : subMod p a b = 0 := by
  have hlt := Nat.mod_lt b hp
  have hsum : b % p + (p - b % p) = p := by omega
  rw [subMod, ← Nat.mod_add_mod, h, hsum, Nat.mod_self]

theorem subMod_zero (p a : Nat) : subMod p a 0 = a % p := by
  rw [subMod, Nat.zero_mod, Nat.sub_zero, Nat.add_mod_right]

end Provenance.Curve

namespace Provenance.Edwards25519

open Curve

/-! ## The neutral point -/

theorem prime_pos : 0 < prime := by decide +kernel

/-- The neutral point with a third coordinate. -/
def scaled (z : Nat) : Point := ⟨0, z, z, 0⟩

/-- The products of differences and of sums are the same, and the product of the fourth
coordinates is zero. -/
theorem add_scaled (z w : Nat) :
    (scaled z).add (scaled w) = scaled (2 * z * w * (2 * z * w) % prime) := by
  have hdiff : subMod prime (mulMod prime (z + 0) (w + 0))
      (mulMod prime (subMod prime z 0) (subMod prime w 0)) = 0 := by
    refine subMod_eq_zero prime_pos ?_
    simp only [mulMod, subMod_zero, Nat.add_zero, ← Nat.mul_mod]
  have hsum : addMod prime (mulMod prime (z + 0) (w + 0))
      (mulMod prime (subMod prime z 0) (subMod prime w 0)) = 2 * z * w % prime := by
    simp only [addMod, mulMod, subMod_zero, Nat.add_zero, ← Nat.mul_mod, ← Nat.add_mod]
    rw [← two_mul, mul_assoc]
  have hzero : mulMod prime (mulMod prime 0 (2 * constant)) 0 = 0 := by simp [mulMod]
  have hzeroDiff : subMod prime (mulMod prime (2 * z) w) 0 = 2 * z * w % prime := by
    rw [subMod_zero, mulMod, Nat.mod_mod]
  have hzeroSum : addMod prime (mulMod prime (2 * z) w) 0 = 2 * z * w % prime := by
    rw [addMod, mulMod, Nat.add_zero, Nat.mod_mod]
  simp only [Point.add, scaled, hdiff, hsum, hzero, hzeroDiff, hzeroSum]
  simp only [mulMod, Nat.zero_mul, Nat.zero_mod, ← Nat.mul_mod]

/-- The point is the neutral one, with some power of two as its third coordinate. -/
def Point.IsNeutral (q : Point) : Prop := ∃ n, q = scaled (2 ^ n % prime)

theorem isNeutral_neutral : neutral.IsNeutral := by
  have hone : 2 ^ 0 % prime = 1 := by decide +kernel
  exact ⟨0, hone ▸ rfl⟩

theorem neg_neutral : neutral.neg = neutral := by simp [Point.neg, neutral]

theorem Point.IsNeutral.add {q r : Point} (hq : q.IsNeutral) (hr : r.IsNeutral) :
    (q.add r).IsNeutral := by
  obtain ⟨n, rfl⟩ := hq
  obtain ⟨m, rfl⟩ := hr
  refine ⟨2 * (1 + n + m), ?_⟩
  have hdouble : 2 * (2 ^ n % prime) * (2 ^ m % prime) % prime = 2 ^ (1 + n + m) % prime := by
    rw [Nat.mul_mod_mod, Nat.mul_right_comm, Nat.mul_mod_mod, pow_add, pow_add, pow_one,
      Nat.mul_right_comm]
  rw [add_scaled, Nat.mul_mod, hdouble, ← Nat.mul_mod, ← pow_add, ← two_mul]

/-- Multiples of a point that counts only if the scalar is not zero. -/
theorem Point.IsNeutral.timesFrom {q : Point} {k : Nat} (h : k = 0 ∨ q.IsNeutral) :
    ∀ (bits : Nat) {acc : Point}, acc.IsNeutral → (q.timesFrom k bits acc).IsNeutral
  | 0, _, hacc => hacc
  | bits + 1, acc, hacc => by
    refine Point.IsNeutral.timesFrom h bits ?_
    split
    · next hbit =>
      rcases h with rfl | hq
      · exact absurd hbit (by simp)
      · exact (hacc.add hacc).add hq
    · exact hacc.add hacc

theorem Point.IsNeutral.times {q : Point} {k : Nat} (h : k = 0 ∨ q.IsNeutral) :
    (q.times k).IsNeutral := Point.IsNeutral.timesFrom h 256 isNeutral_neutral

/-! ## Its bytes -/

/-- Two to the number of units of the field. -/
theorem two_pow_mod : 2 ^ (prime - 1) % prime = 1 := by
  rw [← powMod_eq]
  decide +kernel

/-- What is divided by itself is one. -/
theorem mulMod_invMod (n : Nat) :
    mulMod prime (2 ^ n % prime) (invMod prime (2 ^ n % prime)) = 1 := by
  have hpred : prime - 2 + 1 = prime - 1 := by decide +kernel
  rw [invMod, powMod_eq, mulMod, Nat.mul_mod_mod, ← pow_succ', hpred, ← Nat.pow_mod, ← pow_mul,
    Nat.mul_comm, pow_mul, Nat.pow_mod, two_pow_mod, one_pow]
  decide +kernel

theorem Point.IsNeutral.bytes_eq {q : Point} (h : q.IsNeutral) : q.bytes = leBytes 32 1 := by
  obtain ⟨n, rfl⟩ := h
  have hx : mulMod prime 0 (invMod prime (2 ^ n % prime)) = 0 := by simp [mulMod]
  simp only [Point.bytes, scaled, mulMod_invMod, hx]
  rfl

end Provenance.Edwards25519

namespace Provenance.Ed25519

open Edwards25519

/-! ## Its signatures -/

/-- The bytes of the neutral point. -/
def neutralKey : Bytes := leBytes 32 1

theorem length_neutralKey : neutralKey.length = 32 := length_leBytes 32 1

/-- The neutral point and the scalar zero. -/
def neutralSignature : Bytes := neutralKey ++ leBytes 32 0

theorem ed25519Point_neutralKey : Scheme.ed25519Point neutralKey = .ok neutral := by
  have hpoint : ((Point.ofBytes? neutralKey).map fun q => (q.x, q.y, q.z, q.t)) =
      some (0, 1, 1, 0) := by decide +kernel
  obtain ⟨⟨x, y, z, t⟩, hsome, heq⟩ := Option.map_eq_some_iff.mp hpoint
  simp only [Prod.mk.injEq] at heq
  obtain ⟨rfl, rfl, rfl, rfl⟩ := heq
  unfold Scheme.ed25519Point
  rw [if_pos length_neutralKey, hsome]
  rfl

theorem checkPublicKey_neutralKey : Scheme.ed25519.checkPublicKey neutralKey = .ok () := by
  rw [Scheme.ed25519_checkPublicKey, ed25519Point_neutralKey]
  rfl

theorem verify_neutralKey (m : Bytes) :
    Scheme.ed25519.verify neutralKey m neutralSignature = .ok true := by
  have htake : neutralSignature.take 32 = neutralKey := by decide
  have hscalar : leNat (neutralSignature.drop 32) = 0 := by decide
  have hsum : ∀ k, (base.times 0).add (neutral.neg.times k) |>.IsNeutral := fun k =>
    (Point.IsNeutral.times (.inl rfl)).add
      (Point.IsNeutral.times (.inr (neg_neutral ▸ isNeutral_neutral)))
  have horder : 0 < order := by decide +kernel
  have hvalid : Ed25519.verify neutralKey neutral m neutralSignature = true := by
    rw [Ed25519.verify, if_pos (by decide)]
    simp only [htake, hscalar, if_pos horder, (hsum _).bytes_eq]
    exact decide_eq_true rfl
  exact Checks.bind_eq_ok ed25519Point_neutralKey (congrArg Except.ok hvalid)

end Provenance.Ed25519
