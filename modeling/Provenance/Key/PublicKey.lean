import Provenance.Algorithm
import Provenance.Text.Hex

/-!
# Public keys

A public key carries an id, and the id says which bytes the key ought to have: it is the hexadecimal
SHA-256 digest of them. A document may claim any id, so `hasConsistentId` has to be asked.
-/

namespace Provenance

/-- Identifier of a key. -/
abbrev KeyId := String

/-- The identifier of a public key with these bytes. -/
def keyIdOf (key : Bytes) : KeyId := Hex.encode (HashFunction.sha256.digest key)

/-- A public key as documents publish it. -/
structure PublicKey where
  keyId : KeyId
  algorithm : KeyAlgorithm
  /-- A container for EC keys, the point itself for Ed25519 keys. -/
  key : Bytes
  deriving DecidableEq, Repr, Inhabited

namespace PublicKey

/-- The key with these bytes, under its own id. -/
def ofBytes (algorithm : KeyAlgorithm) (key : Bytes) : PublicKey := ⟨keyIdOf key, algorithm, key⟩

/-- The id belongs to the bytes. -/
def hasConsistentId (k : PublicKey) : Bool := keyIdOf k.key = k.keyId

/-- The key in words. -/
def describe (k : PublicKey) : String :=
  s!"PublicKey \x7b key_id: {Text.quoted k.keyId}, algorithm: {k.algorithm.label}, "
    ++ s!"key: [{k.key.length} bytes] \x7d"

/-- Bytes as hexadecimal text. -/
def bytesOfJson (v : Json) : Decoded Bytes := do
  let s ← v.asString
  match Hex.decode? s with
  | some b => pure b
  | none => .error (.unreadable "not hexadecimal")

/-- As a document. -/
def toJson (k : PublicKey) : Json :=
  .obj [("keyId", .str k.keyId), ("algorithm", k.algorithm.toJson), ("key", .str (Hex.encode k.key))]

/-- From a document. -/
def ofJson (v : Json) : Decoded PublicKey := do
  let r ← v.record "PublicKey" ["keyId", "algorithm", "key"]
  let keyId ← r.field "keyId" Json.asString
  let algorithm ← r.field "algorithm" KeyAlgorithm.ofJson
  let key ← r.field "key" bytesOfJson
  pure ⟨keyId, algorithm, key⟩

theorem hasConsistentId_ofBytes (a : KeyAlgorithm) (b : Bytes) :
    (ofBytes a b).hasConsistentId = true := by simp [ofBytes, hasConsistentId]

end PublicKey

end Provenance
