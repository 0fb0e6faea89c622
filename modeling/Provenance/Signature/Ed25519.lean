import Provenance.Curve.Edwards25519
import Provenance.Hash.Function
import Provenance.Key.Container

/-!
# Ed25519 signatures

A public key is the thirty-two bytes of a point, a private key a seed of thirty-two bytes in a
container. A signature is the bytes of a point and of a scalar below the order; it is checked by
computing the point again and comparing its bytes.
-/

namespace Provenance.Ed25519

open Der Edwards25519

/-- The secret scalar and the prefix of nonces that a seed gives. -/
def expand (seed : Bytes) : Nat × Bytes :=
  let h := HashFunction.sha512.digest seed
  let n := leNat (h.take 32) % Nat.pow 2 254
  (n / 8 * 8 + Nat.pow 2 254, h.drop 32)

/-- The public key of a seed. -/
def publicOf (seed : Bytes) : Bytes := (base.times (expand seed).1).bytes

/-- A recorded public key is the one of the seed and encodes a point. -/
def fitsPublic (seed b : Bytes) : Bool := b = publicOf seed

/-- Reads the seed of a private key. A public key that is recorded must be the right one. -/
def seed? (b : Bytes) : Option Bytes := do
  let c ← PrivateContainer.read? b
  if c.algorithm.oid = ed25519Oid ∧ c.algorithm.parameters = none then
    match c.key with
    | 0x04 :: 0x20 :: seed =>
      if seed.length = 32 ∧ c.publicKey.all (fitsPublic seed) then some seed else none
    | _ => none
  else none

/-- The bytes of a private key with its public half. -/
def privateBytes (seed : Bytes) : Bytes :=
  PrivateContainer.bytes ⟨⟨ed25519Oid, none⟩, (octets seed).bytes, some (publicOf seed)⟩

/-- The hash of several byte strings, as a scalar. -/
def challenge (parts : List Bytes) : Nat := leNat (HashFunction.sha512.digest parts.flatten) % order

/-- The signature of a message under a seed. -/
def sign (seed m : Bytes) : Bytes :=
  let (a, nonces) := expand seed
  let r := challenge [nonces, m]
  let point := (base.times r).bytes
  let k := challenge [point, publicOf seed, m]
  point ++ leBytes 32 ((r + k * a) % order)

/-- The signature belongs to the message and the key, whose bytes and point are given. -/
def verify (key : Bytes) (q : Point) (m signature : Bytes) : Bool :=
  if signature.length = 64 then
    let point := signature.take 32
    let s := leNat (signature.drop 32)
    if s < order then
      let k := challenge [point, key, m]
      ((base.times s).add (q.neg.times k)).bytes = point
    else false
  else false

end Provenance.Ed25519
