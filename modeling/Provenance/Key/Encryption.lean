import Provenance.Cipher.Cbc
import Provenance.Kdf.Scrypt
import Provenance.Key.Container

/-!
# Encryption of private keys under a passphrase

A passphrase becomes a key by one of two derivations, and the key encrypts a private key container
by chained AES. An `Encryption` names the derivation, the cipher and their parameters; it is stored
beside the encrypted bytes. `EncryptedContainer.open?` reads it, derives the key and decrypts, and
gives nothing when any of this fails. New containers use the fixed choice `Encryption.standard`.
-/

namespace Provenance

open Der

/-- Hash functions whose keyed hash may be iterated. -/
inductive IteratedHash where
  | sha224
  | sha256
  | sha384
  | sha512
  deriving DecidableEq, Repr

namespace IteratedHash

/-- The hash function itself. -/
def function : IteratedHash → HashFunction
  | sha224 => .sha224
  | sha256 => .sha256
  | sha384 => .sha384
  | sha512 => .sha512

/-- Identifier of the keyed hash. -/
def oid (h : IteratedHash) : Bytes :=
  let arc := match h with
    | sha224 => 0x08
    | sha256 => 0x09
    | sha384 => 0x0a
    | sha512 => 0x0b
  [0x2a, 0x86, 0x48, 0x86, 0xf7, 0x0d, 0x02, arc]

/-- The keyed hash that an identifier names; its parameters have to be the empty value. -/
def ofIdentifier? (a : AlgorithmIdentifier) : Option IteratedHash :=
  if a.parameters = some Der.null then
    [sha224, sha256, sha384, sha512].find? fun h => h.oid = a.oid
  else none

end IteratedHash

/-- How a passphrase becomes a key. -/
inductive Derivation where
  | iterated (hash : IteratedHash) (salt : Bytes) (iterations : Nat) (size : Option Nat)
  | memory (salt : Bytes) (cost blockSize parallel : Nat) (size : Option Nat)
  deriving DecidableEq, Repr

namespace Derivation

/-- Identifier of the derivation by iteration. -/
def iteratedOid : Bytes := [0x2a, 0x86, 0x48, 0x86, 0xf7, 0x0d, 0x01, 0x05, 0x0c]

/-- Identifier of the derivation by filling memory. -/
def memoryOid : Bytes := [0x2b, 0x06, 0x01, 0x04, 0x01, 0xda, 0x47, 0x04, 0x0b]

/-- The size of the derived key, when it is given. -/
def size? : List Element → Option (Option Nat × List Element)
  | e :: rest =>
    if e.tag = integerTag then (e.unsigned? 2).map fun n => (some n, rest) else some (none, e :: rest)
  | [] => some (none, [])

/-- The parameters of a derivation by iteration. A keyed hash has to be named: the one that may be
left out is not supported. -/
def ofIteratedItems? : List Element → Option Derivation
  | salt :: iterations :: rest => do
    let salt ← salt.octets?
    let iterations ← iterations.unsigned? 4
    let (size, rest) ← size? rest
    match rest with
    | [a] => do
      let a ← AlgorithmIdentifier.ofElement? a
      let hash ← IteratedHash.ofIdentifier? a
      pure (.iterated hash salt iterations size)
    | _ => none
  | _ => none

/-- A power of two above one. -/
def isCost (n : Nat) : Bool := 2 ≤ n && n = Nat.pow 2 n.log2

/-- The parameters of a derivation by filling memory, in the bounds within which it is defined. -/
def ofMemoryItems? : List Element → Option Derivation
  | salt :: cost :: blockSize :: parallel :: rest => do
    let salt ← salt.octets?
    let cost ← cost.unsigned? 8
    let blockSize ← blockSize.unsigned? 2
    let parallel ← parallel.unsigned? 2
    let (size, rest) ← size? rest
    if rest.isEmpty ∧ isCost cost ∧ cost.log2 < 16 * blockSize ∧ 0 < parallel
        ∧ blockSize * parallel < Nat.pow 2 30 then
      pure (.memory salt cost blockSize parallel size)
    else none
  | _ => none

/-- The derivation that an identifier names. -/
def ofIdentifier? (a : AlgorithmIdentifier) : Option Derivation := do
  let items ← (← a.parameters).items?
  if a.oid = iteratedOid then ofIteratedItems? items
  else if a.oid = memoryOid then ofMemoryItems? items
  else none

/-- The size of the derived key, when the derivation fixes it. -/
def size : Derivation → Option Nat
  | iterated _ _ _ n => n
  | memory _ _ _ _ n => n

/-- A key of `size` bytes from a passphrase. -/
def derive (d : Derivation) (passphrase : Bytes) (size : Nat) : Bytes :=
  match d with
  | iterated hash salt iterations _ => Pbkdf2.derive hash.function passphrase salt iterations size
  | memory salt cost blockSize parallel _ =>
    Scrypt.derive passphrase salt cost blockSize parallel size

end Derivation

/-- A chained cipher: the size of its key and the initial vector. -/
structure ChainedCipher where
  keySize : Nat
  iv : Bytes
  deriving DecidableEq, Repr

namespace ChainedCipher

/-- Identifier of the cipher with keys of that many bytes, by its last arc. -/
def oid (arc : UInt8) : Bytes := [0x60, 0x86, 0x48, 0x01, 0x65, 0x03, 0x04, 0x01, arc]

/-- The key sizes, by the identifiers of the ciphers. -/
def sizes : List (Bytes × Nat) := [(oid 2, 16), (oid 22, 24), (oid 42, 32)]

/-- The cipher that an identifier names, with an initial vector of one block. -/
def ofIdentifier? (a : AlgorithmIdentifier) : Option ChainedCipher := do
  let (_, keySize) ← sizes.find? fun s => s.1 = a.oid
  let iv ← (← a.parameters).octets?
  if iv.length = Cbc.blockSize then pure ⟨keySize, iv⟩ else none

end ChainedCipher

/-- A derivation and a cipher. -/
structure Encryption where
  derivation : Derivation
  cipher : ChainedCipher

namespace Encryption

/-- Identifier of encryption by a derived key. -/
def schemeOid : Bytes := [0x2a, 0x86, 0x48, 0x86, 0xf7, 0x0d, 0x01, 0x05, 0x0d]

/-- The encryption that an identifier names. -/
def ofIdentifier? (a : AlgorithmIdentifier) : Option Encryption := do
  if a.oid = schemeOid then
    match (← a.parameters).items? with
    | some [d, c] =>
      let derivation ← Derivation.ofIdentifier? (← AlgorithmIdentifier.ofElement? d)
      let cipher ← ChainedCipher.ofIdentifier? (← AlgorithmIdentifier.ofElement? c)
      pure ⟨derivation, cipher⟩
    | _ => none
  else none

/-- The key for the cipher; nothing if the derivation is for keys of another size. -/
def key? (e : Encryption) (passphrase : Bytes) : Option Bytes :=
  if e.derivation.size.getD e.cipher.keySize = e.cipher.keySize then
    some (e.derivation.derive passphrase e.cipher.keySize)
  else none

/-- The message of an encrypted text. -/
def decrypt? (e : Encryption) (passphrase text : Bytes) : Option Bytes := do
  let key ← e.key? passphrase
  Cbc.decrypt? key e.cipher.iv text

/-- The choice for new keys: iterated SHA-256 and a key of 32 bytes. -/
def standard (salt iv : Bytes) (iterations : Nat) : Encryption :=
  ⟨.iterated .sha256 salt iterations none, ⟨32, iv⟩⟩

/-- The identifier of the choice for new keys. -/
def standardIdentifier (salt iv : Bytes) (iterations : Nat) : AlgorithmIdentifier :=
  let hash : AlgorithmIdentifier := ⟨IteratedHash.sha256.oid, some Der.null⟩
  let derivation : AlgorithmIdentifier :=
    ⟨Derivation.iteratedOid, some (sequence [octets salt, unsigned 4 iterations, hash.element])⟩
  let cipher : AlgorithmIdentifier := ⟨ChainedCipher.oid 42, some (octets iv)⟩
  ⟨schemeOid, some (sequence [derivation.element, cipher.element])⟩

end Encryption

namespace EncryptedContainer

/-- The container that encrypted bytes hold: what is decrypted has to be one sequence. -/
def open? (encrypted passphrase : Bytes) : Option Bytes := do
  let outer ← single? encrypted
  match outer.items? with
  | some [a, text] =>
    let encryption ← Encryption.ofIdentifier? (← AlgorithmIdentifier.ofElement? a)
    let container ← encryption.decrypt? passphrase (← text.octets?)
    if isSequence container then pure container else none
  | _ => none

/-- A container encrypted by the choice for new keys. -/
def ofContainer (container passphrase salt iv : Bytes) (iterations : Nat) : Bytes :=
  let encryption := Encryption.standard salt iv iterations
  let key := encryption.derivation.derive passphrase encryption.cipher.keySize
  let text := Cbc.encrypt key iv container
  (sequence [(Encryption.standardIdentifier salt iv iterations).element, octets text]).bytes

end EncryptedContainer

end Provenance
