import Provenance.Hash.Function

/-!
# Keys from passphrases, by iterated hashing

Each block of the derived key is the exclusive or of a chain of keyed hashes of the salt and the
block's number under the passphrase. A count of zero iterates once.
-/

namespace Provenance.Pbkdf2

/-- Exclusive or of two byte strings, byte by byte. -/
def xorBytes : Bytes → Bytes → Bytes
  | x :: xs, y :: ys => (x ^^^ y) :: xorBytes xs ys
  | _, _ => []

/-- `count` more links of the chain after `link`, folded into `acc`. -/
def chain {H : HashFunction} (k : H.Keyed) : (count : Nat) → (link acc : Bytes) → Bytes
  | 0, _, acc => acc
  | count + 1, link, acc =>
    let next := k.mac link
    chain k count next (xorBytes acc next)

/-- The block of that number, counted from one. -/
def block {H : HashFunction} (k : H.Keyed) (salt : Bytes) (iterations number : Nat) : Bytes :=
  let first := k.mac (salt ++ beBytes 4 number)
  chain k (iterations - 1) first first

/-- A derived key of `size` bytes. -/
def derive (H : HashFunction) (passphrase salt : Bytes) (iterations size : Nat) : Bytes :=
  let k := H.keyed passphrase
  let count := (size + H.digestSize - 1) / H.digestSize
  ((List.range count).flatMap fun i => block k salt iterations (i + 1)).take size

end Provenance.Pbkdf2
