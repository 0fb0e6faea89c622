import Provenance.Hash.Function
import Provenance.Json.Record

/-!
# Key and hash algorithms

A signature names the family of its key and the hash function it goes with. RSA keys may be named in
documents although no scheme signs with them.
-/

namespace Provenance

/-- Families of keys. -/
inductive KeyAlgorithm where
  | ec
  | rsa
  | ed25519
  deriving DecidableEq, Repr, Inhabited

namespace KeyAlgorithm

/-- All families, in their order. -/
def all : List KeyAlgorithm := [ec, rsa, ed25519]

/-- The name in documents and messages. -/
def name : KeyAlgorithm → String
  | ec => "EC"
  | rsa => "RSA"
  | ed25519 => "ED25519"

/-- The name in descriptions of a key or a registry. -/
def label : KeyAlgorithm → String
  | ec => "Ec"
  | rsa => "Rsa"
  | ed25519 => "Ed25519"

/-- Written by name. -/
def toJson (a : KeyAlgorithm) : Json := .str a.name

/-- Read by name. -/
def ofJson : Json → Decoded KeyAlgorithm := Json.asChoice (all.map fun a => (a.name, a))

end KeyAlgorithm

/-- Hash functions that signatures and artifacts go with. -/
inductive HashAlgorithm where
  | sha256
  | sha384
  | sha512
  deriving DecidableEq, Repr, Inhabited

namespace HashAlgorithm

/-- All functions, in their order. -/
def all : List HashAlgorithm := [sha256, sha384, sha512]

/-- The name in documents and messages. -/
def name : HashAlgorithm → String
  | sha256 => "SHA256"
  | sha384 => "SHA384"
  | sha512 => "SHA512"

/-- The name in descriptions of a registry. -/
def label : HashAlgorithm → String
  | sha256 => "Sha256"
  | sha384 => "Sha384"
  | sha512 => "Sha512"

/-- The identifier in the configuration. -/
def id : HashAlgorithm → String
  | sha256 => "sha256"
  | sha384 => "sha384"
  | sha512 => "sha512"

/-- The algorithm with an identifier, whose letters may be of either case. -/
def ofId? (s : String) : Option HashAlgorithm :=
  all.find? fun a => a.id.toList = s.toList.map Char.toLower

/-- The hash function itself. -/
def function : HashAlgorithm → HashFunction
  | sha256 => .sha256
  | sha384 => .sha384
  | sha512 => .sha512

/-- The digest of a message. -/
def digest (a : HashAlgorithm) (m : Bytes) : Bytes := a.function.digest m

/-- Written by name. -/
def toJson (a : HashAlgorithm) : Json := .str a.name

/-- Read by name. -/
def ofJson : Json → Decoded HashAlgorithm := Json.asChoice (all.map fun a => (a.name, a))

end HashAlgorithm

end Provenance
