import Provenance.Kdf.Pbkdf2

/-!
# Keys from passphrases, by filling memory

The passphrase and the salt are spread over `parallel` lanes of `128 * r` bytes. In each lane a
block of words is mixed `cost` times while every state is kept, and `cost` times more while a kept
state, chosen by the block itself, is folded in. The lanes salt the derived key.
-/

namespace Provenance.Scrypt

/-- Rotation to the left. -/
@[inline] def rotl (x n : UInt32) : UInt32 := (x <<< n) ||| (x >>> (32 - n))

/-- One addition, rotation and exclusive or on four positions of a block, `w[d] ^= (w[a] + w[b])`
rotated by `n`. -/
@[inline] def mix (w : Array UInt32) (d a b : Nat) (n : UInt32) : Array UInt32 :=
  w.set! d (w[d]! ^^^ rotl (w[a]! + w[b]!) n)

/-- A quarter round on the words at four positions. -/
@[inline] def quarter (w : Array UInt32) (a b c d : Nat) : Array UInt32 :=
  let w := mix w b a d 7
  let w := mix w c b a 9
  let w := mix w d c b 13
  mix w a d c 18

/-- A round on the columns and a round on the rows. -/
def doubleRound (w : Array UInt32) : Array UInt32 :=
  let w := quarter w 0 4 8 12
  let w := quarter w 5 9 13 1
  let w := quarter w 10 14 2 6
  let w := quarter w 15 3 7 11
  let w := quarter w 0 1 2 3
  let w := quarter w 5 6 7 4
  let w := quarter w 10 11 8 9
  quarter w 15 12 13 14

/-- Sums of words at the same position. -/
def addWords (x y : Array UInt32) : Array UInt32 := Array.zipWith (· + ·) x y

/-- Exclusive or of words at the same position. -/
def xorWords (x y : Array UInt32) : Array UInt32 := Array.zipWith (· ^^^ ·) x y

/-- Eight rounds on sixteen words, added to the words they started from. -/
def core (w : Array UInt32) : Array UInt32 :=
  addWords (doubleRound (doubleRound (doubleRound (doubleRound w)))) w

/-- Mixes the chunks from number `i` on, `count` of them; chunks of even number come first in the
result. -/
def mixChunks (b : Array UInt32) : (count i : Nat) → (x even odd : Array UInt32) → Array UInt32
  | 0, _, _, even, odd => even ++ odd
  | count + 1, i, x, even, odd =>
    let y := core (xorWords x (b.extract (16 * i) (16 * i + 16)))
    if i % 2 = 0 then mixChunks b count (i + 1) y (even ++ y) odd
    else mixChunks b count (i + 1) y even (odd ++ y)

/-- Mixes a block of `2 * r` chunks, starting from its last chunk. -/
def mixBlock (r : Nat) (b : Array UInt32) : Array UInt32 :=
  let last := b.extract (16 * (2 * r - 1)) (16 * (2 * r))
  mixChunks b (2 * r) 0 last #[] #[]

/-- `count` mixed states of a block, each kept before it is mixed, and the block after them. -/
def fill (r : Nat) : (count : Nat) → (kept : Array (Array UInt32)) → (x : Array UInt32) →
    Array (Array UInt32) × Array UInt32
  | 0, kept, x => (kept, x)
  | count + 1, kept, x => fill r count (kept.push x) (mixBlock r x)

/-- The block's choice among the kept states. -/
def choice (r cost : Nat) (x : Array UInt32) : Nat :=
  let at_ := 16 * (2 * r - 1)
  (x[at_]!.toNat + Nat.pow 2 32 * x[at_ + 1]!.toNat) % cost

/-- Folds in kept states `count` times. -/
def drain (r cost : Nat) (kept : Array (Array UInt32)) : (count : Nat) → (x : Array UInt32) →
    Array UInt32
  | 0, x => x
  | count + 1, x =>
    drain r cost kept count (mixBlock r (xorWords x (kept[choice r cost x]!)))

/-- The little-endian words of a byte string. -/
def words : Bytes → Array UInt32 → Array UInt32
  | p :: q :: r :: s :: rest, acc =>
    words rest (acc.push (p.toUInt32 ||| (q.toUInt32 <<< 8) ||| (r.toUInt32 <<< 16)
      ||| (s.toUInt32 <<< 24)))
  | _, acc => acc

/-- One lane, mixed. -/
def lane (r cost : Nat) (b : Bytes) : Bytes :=
  let (kept, x) := fill r cost #[] (words b #[])
  (drain r cost kept cost x).toList.flatMap fun w => leBytes 4 w.toNat

/-- A derived key of `size` bytes; `cost` is a power of two. -/
def derive (passphrase salt : Bytes) (cost r parallel size : Nat) : Bytes :=
  let b := Pbkdf2.derive .sha256 passphrase salt 1 (parallel * 128 * r)
  let mixed := (List.range parallel).flatMap fun i => lane r cost ((b.drop (128 * r * i)).take (128 * r))
  Pbkdf2.derive .sha256 passphrase mixed 1 size

end Provenance.Scrypt
