import Provenance.Key.Encryption
import Provenance.Key.PublicKey
import Provenance.Signature.Registry
import Provenance.Text.Base64

/-!
# Private keys at rest

A private key is only ever stored encrypted under a passphrase. `decrypt` does not tell a wrong
passphrase from a damaged key. `KeyPair.generate` makes a new pair with the preferred scheme of an
algorithm, and both halves carry the id of the public half.
-/

namespace Provenance

/-- A private key encrypted under a passphrase, with the id of its public half. -/
structure EncryptedPrivateKey where
  keyId : KeyId
  algorithm : KeyAlgorithm
  encryptedKey : Bytes
  deriving DecidableEq, Repr, Inhabited

namespace EncryptedPrivateKey

/-- The container of the private key. -/
def decrypt (k : EncryptedPrivateKey) (passphrase : String) : Except CryptoError Bytes :=
  match EncryptedContainer.open? k.encryptedKey (textBytes passphrase) with
  | some container => .ok container
  | none => .error .decryption

/-- The key in words, which do not show the key. -/
def describe (k : EncryptedPrivateKey) : String :=
  s!"EncryptedPrivateKey \x7b key_id: {Text.quoted k.keyId}, algorithm: {k.algorithm.label}, "
    ++ "encrypted_key: \"[REDACTED]\" \x7d"

/-- Bytes as base64 text. -/
def bytesOfJson (v : Json) : Decoded Bytes := do
  let s ← v.asString
  match Base64.decode? s with
  | some b => pure b
  | none => .error (.unreadable "not base64")

/-- As a document. -/
def toJson (k : EncryptedPrivateKey) : Json :=
  .obj [("keyId", .str k.keyId), ("algorithm", k.algorithm.toJson),
    ("encryptedKey", .str (Base64.encode k.encryptedKey))]

/-- From a document. -/
def ofJson (v : Json) : Decoded EncryptedPrivateKey := do
  let r ← v.record "EncryptedPrivateKey" ["keyId", "algorithm", "encryptedKey"]
  let keyId ← r.field "keyId" Json.asString
  let algorithm ← r.field "algorithm" KeyAlgorithm.ofJson
  let encryptedKey ← r.field "encryptedKey" bytesOfJson
  pure ⟨keyId, algorithm, encryptedKey⟩

end EncryptedPrivateKey

/-- Fresh random bytes for a new key: for the pair itself, the salt and the initial vector. -/
structure KeyEntropy where
  pair : Bytes
  salt : Bytes
  iv : Bytes

/-- A private key container encrypted under a passphrase. -/
def encryptPrivateKey (container : Bytes) (passphrase : String) (iterations : Nat)
    (entropy : KeyEntropy) : Except CryptoError Bytes :=
  match PrivateContainer.read? container with
  | some c =>
    .ok (EncryptedContainer.ofContainer c.bytes (textBytes passphrase) entropy.salt entropy.iv iterations)
  | none => .error (.invalidKeyMaterial .privateKey)

/-- A public key and its encrypted private half. -/
structure KeyPair where
  publicKey : PublicKey
  privateKey : EncryptedPrivateKey
  deriving DecidableEq, Repr

namespace KeyPair

/-- A new pair with the preferred scheme of an algorithm. -/
def generate (registry : Registry) (algorithm : KeyAlgorithm) (passphrase : String)
    (iterations : Nat) (entropy : KeyEntropy) : Except CryptoError KeyPair := do
  let scheme ← registry.preferred algorithm
  let (container, key) ← scheme.generate entropy.pair
  let publicKey := PublicKey.ofBytes algorithm key
  let encryptedKey ← encryptPrivateKey container passphrase iterations entropy
  pure ⟨publicKey, ⟨publicKey.keyId, algorithm, encryptedKey⟩⟩

end KeyPair

end Provenance
