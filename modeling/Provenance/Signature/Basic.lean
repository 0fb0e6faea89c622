import Provenance.Key.PrivateKey

/-!
# Signatures

A signature names its key and the algorithms it was made with. A key has one slot for each pair of
algorithms: `Signature.replaceIn` puts a signature into a list in place of those in its slot.

`signText` and `isValidText` work on canonical text, so a signature outlives every new layout of a
document's text that keeps its content.
-/

namespace Provenance

/-- A signature as documents carry it; the signature's bytes are hexadecimal text. -/
structure Signature where
  keyId : KeyId
  signature : String
  keyAlgorithm : KeyAlgorithm
  hashAlgorithm : HashAlgorithm
  deriving DecidableEq, Repr, Inhabited

namespace Signature

/-- What a key has one signature for: its id and the algorithms. -/
def slot (s : Signature) : KeyId × KeyAlgorithm × HashAlgorithm :=
  (s.keyId, s.keyAlgorithm, s.hashAlgorithm)

/-- Removes the signatures in the slot of `s` and puts `s` at the end. -/
def replaceIn (s : Signature) (signatures : List Signature) : List Signature :=
  signatures.filter (fun t => t.slot ≠ s.slot) ++ [s]

/-- As a document. -/
def toJson (s : Signature) : Json :=
  .obj [("keyId", .str s.keyId), ("signature", .str s.signature),
    ("keyAlgorithm", s.keyAlgorithm.toJson), ("hashAlgorithm", s.hashAlgorithm.toJson)]

/-- From a document. -/
def ofJson (v : Json) : Decoded Signature := do
  let r ← v.record "Signature" ["keyId", "signature", "keyAlgorithm", "hashAlgorithm"]
  let keyId ← r.field "keyId" Json.asString
  let signature ← r.field "signature" Json.asString
  let keyAlgorithm ← r.field "keyAlgorithm" KeyAlgorithm.ofJson
  let hashAlgorithm ← r.field "hashAlgorithm" HashAlgorithm.ofJson
  pure ⟨keyId, signature, keyAlgorithm, hashAlgorithm⟩

end Signature

/-- Signs canonical text with the preferred scheme of the key's algorithm. -/
def signText (registry : Registry) (key : EncryptedPrivateKey) (passphrase text : String) :
    Except CryptoError Signature := do
  let scheme ← registry.preferred key.algorithm
  let container ← key.decrypt passphrase
  let bytes ← scheme.sign container (textBytes text)
  pure ⟨key.keyId, Hex.encode bytes, scheme.keyAlgorithm, scheme.hashAlgorithm⟩

/-- Tells whether a signature over canonical text is by that key. Another key's signature and one
that is not hexadecimal are simply not valid; only algorithms without a scheme and an unusable key
are errors. -/
def isValidText (registry : Registry) (text : String) (s : Signature) (key : PublicKey) :
    Except CryptoError Bool := do
  let scheme ← registry.scheme s.keyAlgorithm s.hashAlgorithm
  if s.keyId ≠ key.keyId ∨ s.keyAlgorithm ≠ key.algorithm then pure false
  else
    match Hex.decode? s.signature with
    | none => pure false
    | some bytes => scheme.verify key.key (textBytes text) bytes

end Provenance
