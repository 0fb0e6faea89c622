import Provenance.Bytes

/-!
# SHA-256 and SHA-224

The message is padded to whole blocks of 64 bytes, and each block is compressed into a state of
eight 32-bit words. The two functions differ in the first state and in how much of the last one they
give out. `absorb` takes whole blocks and `finish` the rest of a message, so that a state can be
kept and continued.
-/

namespace Provenance.Sha256

/-- The eight words between blocks. -/
structure State where
  a : UInt32
  b : UInt32
  c : UInt32
  d : UInt32
  e : UInt32
  f : UInt32
  g : UInt32
  h : UInt32
  deriving DecidableEq, Repr, Inhabited

/-- Bytes in a block. -/
def blockSize : Nat := 64

/-- The first state of SHA-256: square roots of the first eight primes. -/
def start256 : State :=
  ⟨0x6a09e667, 0xbb67ae85, 0x3c6ef372, 0xa54ff53a,
    0x510e527f, 0x9b05688c, 0x1f83d9ab, 0x5be0cd19⟩

/-- The first state of SHA-224: square roots of the next eight primes, lower half. -/
def start224 : State :=
  ⟨0xc1059ed8, 0x367cd507, 0x3070dd17, 0xf70e5939,
    0xffc00b31, 0x68581511, 0x64f98fa7, 0xbefa4fa4⟩

/-- One constant for each round: cube roots of the first sixty-four primes. -/
def roundConstants : Array UInt32 :=
  #[0x428a2f98, 0x71374491, 0xb5c0fbcf, 0xe9b5dba5, 0x3956c25b, 0x59f111f1, 0x923f82a4, 0xab1c5ed5,
    0xd807aa98, 0x12835b01, 0x243185be, 0x550c7dc3, 0x72be5d74, 0x80deb1fe, 0x9bdc06a7, 0xc19bf174,
    0xe49b69c1, 0xefbe4786, 0x0fc19dc6, 0x240ca1cc, 0x2de92c6f, 0x4a7484aa, 0x5cb0a9dc, 0x76f988da,
    0x983e5152, 0xa831c66d, 0xb00327c8, 0xbf597fc7, 0xc6e00bf3, 0xd5a79147, 0x06ca6351, 0x14292967,
    0x27b70a85, 0x2e1b2138, 0x4d2c6dfc, 0x53380d13, 0x650a7354, 0x766a0abb, 0x81c2c92e, 0x92722c85,
    0xa2bfe8a1, 0xa81a664b, 0xc24b8b70, 0xc76c51a3, 0xd192e819, 0xd6990624, 0xf40e3585, 0x106aa070,
    0x19a4c116, 0x1e376c08, 0x2748774c, 0x34b0bcb5, 0x391c0cb3, 0x4ed8aa4a, 0x5b9cca4f, 0x682e6ff3,
    0x748f82ee, 0x78a5636f, 0x84c87814, 0x8cc70208, 0x90befffa, 0xa4506ceb, 0xbef9a3f7, 0xc67178f2]

/-- Rotation to the right. -/
@[inline] def rotr (x n : UInt32) : UInt32 := (x >>> n) ||| (x <<< (32 - n))

/-- The sixteen big-endian words of a block. -/
def words : Bytes → Array UInt32 → Array UInt32
  | p :: q :: r :: s :: rest, acc =>
    words rest (acc.push ((p.toUInt32 <<< 24) ||| (q.toUInt32 <<< 16) ||| (r.toUInt32 <<< 8)
      ||| s.toUInt32))
  | _, acc => acc

/-- The message schedule: `count` more words from the sixteen before each. -/
def schedule : (count : Nat) → Array UInt32 → Array UInt32
  | 0, w => w
  | count + 1, w =>
    let n := w.size
    let x := w[n - 15]!
    let y := w[n - 2]!
    let s0 := rotr x 7 ^^^ rotr x 18 ^^^ (x >>> 3)
    let s1 := rotr y 17 ^^^ rotr y 19 ^^^ (y >>> 10)
    schedule count (w.push (w[n - 16]! + s0 + w[n - 7]! + s1))

/-- The rounds from number `i` on, `count` of them. -/
def rounds (w : Array UInt32) : (count i : Nat) → (a b c d e f g h : UInt32) → State
  | 0, _, a, b, c, d, e, f, g, h => ⟨a, b, c, d, e, f, g, h⟩
  | count + 1, i, a, b, c, d, e, f, g, h =>
    let s1 := rotr e 6 ^^^ rotr e 11 ^^^ rotr e 25
    let ch := (e &&& f) ^^^ (~~~e &&& g)
    let t1 := h + s1 + ch + roundConstants[i]! + w[i]!
    let s0 := rotr a 2 ^^^ rotr a 13 ^^^ rotr a 22
    let maj := (a &&& b) ^^^ (a &&& c) ^^^ (b &&& c)
    rounds w count (i + 1) (t1 + s0 + maj) a b c (d + t1) e f g

/-- The state after one block. -/
def compress (s : State) (block : Bytes) : State :=
  let w := schedule 48 (words block (Array.mkEmpty 64))
  let t := rounds w 64 0 s.a s.b s.c s.d s.e s.f s.g s.h
  ⟨s.a + t.a, s.b + t.b, s.c + t.c, s.d + t.d, s.e + t.e, s.f + t.f, s.g + t.g, s.h + t.h⟩

/-- The state after at most `count` whole blocks; what is left over is not read. -/
def blocks : (count : Nat) → State → Bytes → State
  | 0, s, _ => s
  | count + 1, s, m => blocks count (compress s (m.take blockSize)) (m.drop blockSize)

/-- The state after a message of whole blocks. -/
def absorb (s : State) (m : Bytes) : State := blocks (m.length / blockSize) s m

/-- A one bit, zeros, and the length of the whole message in bits: whole blocks together with a
message of `length` bytes of which some were absorbed before. -/
def padding (length : Nat) : Bytes :=
  0x80 :: (List.replicate ((119 - length % 64) % 64) 0 ++ beBytes 8 (8 * length))

/-- The eight words as bytes. -/
def State.bytes (s : State) : Bytes :=
  [s.a, s.b, s.c, s.d, s.e, s.f, s.g, s.h].flatMap fun w => beBytes 4 w.toNat

/-- The last state of a message, given the state after its first `absorbed` bytes and the rest. -/
def finish (s : State) (absorbed : Nat) (rest : Bytes) : State :=
  absorb s (rest ++ padding (absorbed + rest.length))

/-- SHA-256. -/
def sha256 (m : Bytes) : Bytes := (finish start256 0 m).bytes

/-- SHA-224. -/
def sha224 (m : Bytes) : Bytes := (finish start224 0 m).bytes.take 28

end Provenance.Sha256
