import Provenance.Key.PublicKey
import Provenance.Signature.Registry

/-!
# Key rings

A `KeyRing` holds public keys by their ids. A key gets in only if its id belongs to its bytes and
the preferred scheme of its algorithm accepts the bytes, so that whoever takes a key from a ring
need not check it again. A key replaces the one with the same id.
-/

namespace Provenance

/-- Accepted public keys, one for an id, the latest first. -/
structure KeyRing where
  keys : List PublicKey
  deriving DecidableEq, Repr

namespace KeyRing

/-- No key. -/
def empty : KeyRing := ⟨[]⟩

/-- A key may go into a ring. -/
def check (registry : Registry) (k : PublicKey) : Except CryptoError Unit := do
  if k.hasConsistentId then
    let scheme ← registry.preferred k.algorithm
    scheme.checkPublicKey k.key
  else .error (.invalidKeyMaterial (.wrongId k.keyId))

/-- Puts a key in, in place of one with its id. -/
def insert (ring : KeyRing) (registry : Registry) (k : PublicKey) : Except CryptoError KeyRing := do
  check registry k
  pure ⟨k :: ring.keys.filter fun other => other.keyId ≠ k.keyId⟩

/-- Puts keys in, in order, up to the first that is refused. -/
def insertAll (registry : Registry) : (ring : KeyRing) → List PublicKey → Except CryptoError KeyRing
  | ring, [] => .ok ring
  | ring, k :: rest => do
    let ring ← ring.insert registry k
    insertAll registry ring rest

/-- The ring of a list of keys. -/
def ofKeys (registry : Registry) (keys : List PublicKey) : Except CryptoError KeyRing :=
  insertAll registry empty keys

/-- The key with an id. -/
def get? (ring : KeyRing) (id : KeyId) : Option PublicKey :=
  ring.keys.find? fun k => k.keyId = id

/-- There is a key with that id. -/
def contains (ring : KeyRing) (id : KeyId) : Bool := (ring.get? id).isSome

/-- The number of keys. -/
def size (ring : KeyRing) : Nat := ring.keys.length

end KeyRing

end Provenance
