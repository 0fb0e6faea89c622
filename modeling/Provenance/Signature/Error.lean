import Provenance.Algorithm

/-!
# What can go wrong with keys and signatures

`CryptoError` tells the cause, `CryptoError.message` words it. A failed decryption says nothing
about the key on purpose.
-/

namespace Provenance

/-- What is wrong with key material. -/
inductive KeyFault where
  | ecPublicKey
  | ed25519Length (length : Nat)
  | ed25519PublicKey
  | wrongId (keyId : String)
  | privateKey
  deriving DecidableEq, Repr

namespace KeyFault

/-- The wording of a fault. -/
def message : KeyFault → String
  | ecPublicKey => "EC public key: not a point of the curve P-384"
  | ed25519Length n => s!"ED25519 public key must be 32 bytes, got {n}"
  | ed25519PublicKey => "ED25519 public key: not a point of the curve"
  | wrongId keyId => s!"key id {keyId} does not match its key bytes"
  | privateKey => "not a private key"

end KeyFault

/-- Why a key or a signature could not be used. -/
inductive CryptoError where
  | unsupportedAlgorithm (key : KeyAlgorithm) (hash : HashAlgorithm)
  | unsupportedKeyAlgorithm (key : KeyAlgorithm)
  | invalidKeyMaterial (fault : KeyFault)
  | decryption
  | signing (reason : String)
  | encryption (reason : String)
  deriving DecidableEq, Repr

namespace CryptoError

/-- The wording of an error. -/
def message : CryptoError → String
  | unsupportedAlgorithm k h => s!"unsupported algorithm combination: {k.name}/{h.name}"
  | unsupportedKeyAlgorithm k => s!"no signature scheme registered for {k.name} keys"
  | invalidKeyMaterial fault => s!"malformed key material: {fault.message}"
  | decryption => "private key could not be decrypted"
  | signing reason => s!"signing failed: {reason}"
  | encryption reason => s!"key encryption failed: {reason}"

end CryptoError

end Provenance
