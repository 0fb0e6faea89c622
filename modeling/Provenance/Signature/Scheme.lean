import Provenance.Signature.Ecdsa
import Provenance.Signature.Ed25519
import Provenance.Signature.Error

/-!
# Signature schemes

A `Scheme` is one way to sign, for keys of one family and one hash function. It is a record of
functions, and everything that signs or verifies documents is generic in it. `Scheme.ec` and
`Scheme.ed25519` are the two that exist.
-/

namespace Provenance

/-- A way to sign. Private keys are containers in DER. -/
structure Scheme where
  keyAlgorithm : KeyAlgorithm
  hashAlgorithm : HashAlgorithm
  /-- A private key and its public half, from random bytes. -/
  generate : (entropy : Bytes) → Except CryptoError (Bytes × Bytes)
  /-- Refuses what is no public key of the scheme. -/
  checkPublicKey : Bytes → Except CryptoError Unit
  /-- Signs a message. -/
  sign : (privateKey message : Bytes) → Except CryptoError Bytes
  /-- Tells whether a signature belongs to a message; an error only if the key is none. -/
  verify : (publicKey message signature : Bytes) → Except CryptoError Bool

namespace Scheme

/-- The key and hash algorithms. -/
def pair (s : Scheme) : KeyAlgorithm × HashAlgorithm := (s.keyAlgorithm, s.hashAlgorithm)

/-- The point of a public key on P-384. -/
def ecPoint (b : Bytes) : Except CryptoError P384.Point :=
  match Ecdsa.publicPoint? b with
  | some q => .ok q
  | none => .error (.invalidKeyMaterial .ecPublicKey)

/-- A key pair on P-384 from random bytes. -/
def ecGenerate (entropy : Bytes) : Except CryptoError (Bytes × Bytes) :=
  let d := 1 + beNat entropy % (P384.order - 1)
  match Ecdsa.publicOf? d with
  | some q => .ok (Ecdsa.privateBytes d q, Ecdsa.publicBytes q)
  | none => .error (.signing "no public key")

/-- Keys on P-384 with SHA-384. -/
def ec : Scheme where
  keyAlgorithm := .ec
  hashAlgorithm := .sha384
  generate := ecGenerate
  checkPublicKey b := (ecPoint b).map fun _ => ()
  sign privateKey m :=
    match Ecdsa.privateScalar? privateKey with
    | none => .error .decryption
    | some d =>
      match Ecdsa.sign? d m with
      | some signature => .ok signature
      | none => .error (.signing "no secret number found")
  verify publicKey m signature := do
    let q ← ecPoint publicKey
    pure (Ecdsa.verify q m signature)

/-- The point of an Ed25519 public key. -/
def ed25519Point (b : Bytes) : Except CryptoError Edwards25519.Point :=
  if b.length = 32 then
    match Edwards25519.Point.ofBytes? b with
    | some q => .ok q
    | none => .error (.invalidKeyMaterial .ed25519PublicKey)
  else .error (.invalidKeyMaterial (.ed25519Length b.length))

/-- Ed25519 keys, with SHA-512. -/
def ed25519 : Scheme where
  keyAlgorithm := .ed25519
  hashAlgorithm := .sha512
  generate entropy :=
    let seed := (entropy ++ List.replicate 32 0).take 32
    .ok (Ed25519.privateBytes seed, Ed25519.publicOf seed)
  checkPublicKey b := (ed25519Point b).map fun _ => ()
  sign privateKey m :=
    match Ed25519.seed? privateKey with
    | none => .error .decryption
    | some seed => .ok (Ed25519.sign seed m)
  verify publicKey m signature := do
    let q ← ed25519Point publicKey
    pure (Ed25519.verify publicKey q m signature)

end Scheme

end Provenance
