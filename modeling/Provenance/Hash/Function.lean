import Provenance.Hash.Sha256
import Provenance.Hash.Sha512

/-!
# Hash functions and keyed hashes

A `HashFunction` hashes by blocks, and its state after whole blocks can be kept. `hmac` is the keyed
hash of a message: the key, padded to a block, goes before the message with one mask and before the
result with another. The states after these two first blocks depend on the key alone, so a
`HashFunction.Keyed` holds them for use with many messages.
-/

namespace Provenance

/-- A hash function that works by blocks. -/
structure HashFunction where
  State : Type
  /-- Bytes in a block. -/
  blockSize : Nat
  /-- Bytes in a digest. -/
  digestSize : Nat
  start : State
  /-- The state after a message of whole blocks. -/
  absorb : State → Bytes → State
  /-- The digest of a message, given the state after its first bytes, their number and the rest. -/
  finish : State → Nat → Bytes → Bytes

namespace HashFunction

/-- SHA-224. -/
def sha224 : HashFunction where
  State := Sha256.State
  blockSize := 64
  digestSize := 28
  start := Sha256.start224
  absorb := Sha256.absorb
  finish s n m := (Sha256.finish s n m).bytes.take 28

/-- SHA-256. -/
def sha256 : HashFunction where
  State := Sha256.State
  blockSize := 64
  digestSize := 32
  start := Sha256.start256
  absorb := Sha256.absorb
  finish s n m := (Sha256.finish s n m).bytes

/-- SHA-384. -/
def sha384 : HashFunction where
  State := Sha512.State
  blockSize := 128
  digestSize := 48
  start := Sha512.start384
  absorb := Sha512.absorb
  finish s n m := (Sha512.finish s n m).bytes.take 48

/-- SHA-512. -/
def sha512 : HashFunction where
  State := Sha512.State
  blockSize := 128
  digestSize := 64
  start := Sha512.start512
  absorb := Sha512.absorb
  finish s n m := (Sha512.finish s n m).bytes

/-- The digest of a message. -/
def digest (H : HashFunction) (m : Bytes) : Bytes := H.finish H.start 0 m

/-- The states after the two masked keys. -/
structure Keyed (H : HashFunction) where
  inner : H.State
  outer : H.State

/-- The key as a block: a long key is hashed, a short one filled up with zeros. -/
def keyBlock (H : HashFunction) (key : Bytes) : Bytes :=
  let k := if H.blockSize < key.length then H.digest key else key
  k ++ List.replicate (H.blockSize - k.length) 0

/-- Prepares a key. -/
def keyed (H : HashFunction) (key : Bytes) : H.Keyed :=
  let block := H.keyBlock key
  ⟨H.absorb H.start (block.map (· ^^^ 0x36)), H.absorb H.start (block.map (· ^^^ 0x5c))⟩

/-- The keyed hash of a message under a prepared key. -/
def Keyed.mac {H : HashFunction} (k : H.Keyed) (m : Bytes) : Bytes :=
  H.finish k.outer H.blockSize (H.finish k.inner H.blockSize m)

/-- The keyed hash of a message. -/
def hmac (H : HashFunction) (key m : Bytes) : Bytes := (H.keyed key).mac m

end HashFunction

end Provenance
