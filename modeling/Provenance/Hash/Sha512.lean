import Provenance.Bytes

/-!
# SHA-512 and SHA-384

The message is padded to whole blocks of 128 bytes, and each block is compressed into a state of
eight 64-bit words. The two functions differ in the first state and in how much of the last one they
give out. `absorb` takes whole blocks and `finish` the rest of a message, so that a state can be
kept and continued.
-/

namespace Provenance.Sha512

/-- The eight words between blocks. -/
structure State where
  a : UInt64
  b : UInt64
  c : UInt64
  d : UInt64
  e : UInt64
  f : UInt64
  g : UInt64
  h : UInt64
  deriving DecidableEq, Repr, Inhabited

/-- Bytes in a block. -/
def blockSize : Nat := 128

/-- The first state of SHA-512: square roots of the first eight primes. -/
def start512 : State :=
  ⟨0x6a09e667f3bcc908, 0xbb67ae8584caa73b, 0x3c6ef372fe94f82b, 0xa54ff53a5f1d36f1,
    0x510e527fade682d1, 0x9b05688c2b3e6c1f, 0x1f83d9abfb41bd6b, 0x5be0cd19137e2179⟩

/-- The first state of SHA-384: square roots of the next eight primes. -/
def start384 : State :=
  ⟨0xcbbb9d5dc1059ed8, 0x629a292a367cd507, 0x9159015a3070dd17, 0x152fecd8f70e5939,
    0x67332667ffc00b31, 0x8eb44a8768581511, 0xdb0c2e0d64f98fa7, 0x47b5481dbefa4fa4⟩

/-- One constant for each round: cube roots of the first eighty primes. -/
def roundConstants : Array UInt64 :=
  #[0x428a2f98d728ae22, 0x7137449123ef65cd, 0xb5c0fbcfec4d3b2f, 0xe9b5dba58189dbbc,
    0x3956c25bf348b538, 0x59f111f1b605d019, 0x923f82a4af194f9b, 0xab1c5ed5da6d8118,
    0xd807aa98a3030242, 0x12835b0145706fbe, 0x243185be4ee4b28c, 0x550c7dc3d5ffb4e2,
    0x72be5d74f27b896f, 0x80deb1fe3b1696b1, 0x9bdc06a725c71235, 0xc19bf174cf692694,
    0xe49b69c19ef14ad2, 0xefbe4786384f25e3, 0x0fc19dc68b8cd5b5, 0x240ca1cc77ac9c65,
    0x2de92c6f592b0275, 0x4a7484aa6ea6e483, 0x5cb0a9dcbd41fbd4, 0x76f988da831153b5,
    0x983e5152ee66dfab, 0xa831c66d2db43210, 0xb00327c898fb213f, 0xbf597fc7beef0ee4,
    0xc6e00bf33da88fc2, 0xd5a79147930aa725, 0x06ca6351e003826f, 0x142929670a0e6e70,
    0x27b70a8546d22ffc, 0x2e1b21385c26c926, 0x4d2c6dfc5ac42aed, 0x53380d139d95b3df,
    0x650a73548baf63de, 0x766a0abb3c77b2a8, 0x81c2c92e47edaee6, 0x92722c851482353b,
    0xa2bfe8a14cf10364, 0xa81a664bbc423001, 0xc24b8b70d0f89791, 0xc76c51a30654be30,
    0xd192e819d6ef5218, 0xd69906245565a910, 0xf40e35855771202a, 0x106aa07032bbd1b8,
    0x19a4c116b8d2d0c8, 0x1e376c085141ab53, 0x2748774cdf8eeb99, 0x34b0bcb5e19b48a8,
    0x391c0cb3c5c95a63, 0x4ed8aa4ae3418acb, 0x5b9cca4f7763e373, 0x682e6ff3d6b2b8a3,
    0x748f82ee5defb2fc, 0x78a5636f43172f60, 0x84c87814a1f0ab72, 0x8cc702081a6439ec,
    0x90befffa23631e28, 0xa4506cebde82bde9, 0xbef9a3f7b2c67915, 0xc67178f2e372532b,
    0xca273eceea26619c, 0xd186b8c721c0c207, 0xeada7dd6cde0eb1e, 0xf57d4f7fee6ed178,
    0x06f067aa72176fba, 0x0a637dc5a2c898a6, 0x113f9804bef90dae, 0x1b710b35131c471b,
    0x28db77f523047d84, 0x32caab7b40c72493, 0x3c9ebe0a15c9bebc, 0x431d67c49c100d4c,
    0x4cc5d4becb3e42b6, 0x597f299cfc657e2a, 0x5fcb6fab3ad6faec, 0x6c44198c4a475817]

/-- Rotation to the right. -/
@[inline] def rotr (x n : UInt64) : UInt64 := (x >>> n) ||| (x <<< (64 - n))

/-- The sixteen big-endian words of a block. -/
def words : Bytes → Array UInt64 → Array UInt64
  | p :: q :: r :: s :: t :: u :: v :: x :: rest, acc =>
    words rest (acc.push ((p.toUInt64 <<< 56) ||| (q.toUInt64 <<< 48) ||| (r.toUInt64 <<< 40)
      ||| (s.toUInt64 <<< 32) ||| (t.toUInt64 <<< 24) ||| (u.toUInt64 <<< 16)
      ||| (v.toUInt64 <<< 8) ||| x.toUInt64))
  | _, acc => acc

/-- The message schedule: `count` more words from the sixteen before each. -/
def schedule : (count : Nat) → Array UInt64 → Array UInt64
  | 0, w => w
  | count + 1, w =>
    let n := w.size
    let x := w[n - 15]!
    let y := w[n - 2]!
    let s0 := rotr x 1 ^^^ rotr x 8 ^^^ (x >>> 7)
    let s1 := rotr y 19 ^^^ rotr y 61 ^^^ (y >>> 6)
    schedule count (w.push (w[n - 16]! + s0 + w[n - 7]! + s1))

/-- The rounds from number `i` on, `count` of them. -/
def rounds (w : Array UInt64) : (count i : Nat) → (a b c d e f g h : UInt64) → State
  | 0, _, a, b, c, d, e, f, g, h => ⟨a, b, c, d, e, f, g, h⟩
  | count + 1, i, a, b, c, d, e, f, g, h =>
    let s1 := rotr e 14 ^^^ rotr e 18 ^^^ rotr e 41
    let ch := (e &&& f) ^^^ (~~~e &&& g)
    let t1 := h + s1 + ch + roundConstants[i]! + w[i]!
    let s0 := rotr a 28 ^^^ rotr a 34 ^^^ rotr a 39
    let maj := (a &&& b) ^^^ (a &&& c) ^^^ (b &&& c)
    rounds w count (i + 1) (t1 + s0 + maj) a b c (d + t1) e f g

/-- The state after one block. -/
def compress (s : State) (block : Bytes) : State :=
  let w := schedule 64 (words block (Array.mkEmpty 80))
  let t := rounds w 80 0 s.a s.b s.c s.d s.e s.f s.g s.h
  ⟨s.a + t.a, s.b + t.b, s.c + t.c, s.d + t.d, s.e + t.e, s.f + t.f, s.g + t.g, s.h + t.h⟩

/-- The state after at most `count` whole blocks; what is left over is not read. -/
def blocks : (count : Nat) → State → Bytes → State
  | 0, s, _ => s
  | count + 1, s, m => blocks count (compress s (m.take blockSize)) (m.drop blockSize)

/-- The state after a message of whole blocks. -/
def absorb (s : State) (m : Bytes) : State := blocks (m.length / blockSize) s m

/-- A one bit, zeros, and the length of the whole message in bits: whole blocks together with a
message of `length` bytes of which some were absorbed before. -/
def padding (length : Nat) : Bytes :=
  0x80 :: (List.replicate ((239 - length % 128) % 128) 0 ++ beBytes 16 (8 * length))

/-- The eight words as bytes. -/
def State.bytes (s : State) : Bytes :=
  [s.a, s.b, s.c, s.d, s.e, s.f, s.g, s.h].flatMap fun w => beBytes 8 w.toNat

/-- The last state of a message, given the state after its first `absorbed` bytes and the rest. -/
def finish (s : State) (absorbed : Nat) (rest : Bytes) : State :=
  absorb s (rest ++ padding (absorbed + rest.length))

/-- SHA-512. -/
def sha512 (m : Bytes) : Bytes := (finish start512 0 m).bytes

/-- SHA-384. -/
def sha384 (m : Bytes) : Bytes := (finish start384 0 m).bytes.take 48

end Provenance.Sha512
