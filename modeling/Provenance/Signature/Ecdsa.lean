import Provenance.Curve.P384
import Provenance.Hash.Function
import Provenance.Key.Container

/-!
# Signatures on the curve P-384 with SHA-384

A public key is a point in a container, a private key a scalar in one. The secret number of a
signature is drawn from a generator that the private key and the message seed, so that signing twice
gives the same bytes. A signature is a sequence of two positive whole numbers below the order.
-/

namespace Provenance.Ecdsa

open Der P384

/-- Reads the point of a public key. -/
def publicPoint? (b : Bytes) : Option Point := do
  let c ← PublicContainer.read? b
  let curve ← c.algorithm.parameters
  let oid ← curve.oid?
  if c.algorithm.oid = ecKeyOid ∧ oid = p384Oid then Point.ofBytes? c.key else none

/-- The algorithm of keys on this curve. -/
def algorithm : AlgorithmIdentifier := ⟨ecKeyOid, some (Der.oid p384Oid)⟩

/-- The bytes of a public key. -/
def publicBytes (q : Point) : Bytes := PublicContainer.bytes ⟨algorithm, q.bytes false⟩

/-- A scalar from at least twenty-four and at most forty-eight bytes. -/
def scalar? (b : Bytes) : Option Nat :=
  if b.length < 24 ∨ size < b.length then none
  else
    let d := beNat b
    if d = 0 ∨ order ≤ d then none else some d

/-- The content of an explicitly tagged field with that number, if it comes next, and the elements
after it. Fields with smaller numbers are passed over. -/
def tagged? (number : Nat) : List Element → Option (Option Element × List Element)
  | [] => some (none, [])
  | e :: rest =>
    if PrivateContainer.isContext e.tag then
      let n := PrivateContainer.tagNumber e.tag
      if n < number then tagged? number rest
      else if n = number then
        if e.tag &&& 0x20 = 0x20 then (single? e.content).map fun i => (some i, rest) else none
      else some (none, e :: rest)
    else some (none, e :: rest)

/-- The public key of a private one. -/
def publicOf? (d : Nat) : Option Point := (base.times d).affine?

/-- A recorded public key is the one of the scalar, in whichever form it is written. -/
def fitsPublic (d : Nat) (b : Bytes) : Bool :=
  match publicOf? d with
  | some q => b = q.bytes false || b = q.bytes true
  | none => false

/-- Reads the scalar of a private key. A curve that is named must be this one and a public key that
is recorded must be the right one. -/
def privateScalar? (b : Bytes) : Option Nat := do
  let c ← PrivateContainer.read? b
  let curve ← c.algorithm.parameters
  let oid ← curve.oid?
  if c.algorithm.oid = ecKeyOid ∧ oid = p384Oid then
    let e ← single? c.key
    match e.items? with
    | some (v :: k :: rest) => do
      let version ← v.unsigned? 1
      let key ← k.octets?
      let (parameters, rest) ← tagged? 0 rest
      let (publicKey, rest) ← tagged? 1 rest
      let named ← match parameters with
        | some p => p.oid?
        | none => some p384Oid
      let recorded ← match publicKey with
        | some p => p.bits?.map some
        | none => some none
      let d ← scalar? key
      if version = 1 ∧ rest.isEmpty ∧ named = p384Oid ∧ recorded.all (fitsPublic d) then some d
      else none
    | _ => none
  else none

/-- The bytes of a private key with its public half. -/
def privateBytes (d : Nat) (q : Point) : Bytes :=
  let half : Element := ⟨0xa1, (bits (q.bytes false)).bytes⟩
  let key := (sequence [unsigned 1 1, octets (beBytes size d), half]).bytes
  PrivateContainer.bytes ⟨algorithm, key, none⟩

/-- The hash of a message as a number. -/
def hashNat (m : Bytes) : Nat := beNat (HashFunction.sha384.digest m)

/-- The state of the generator: a key and a value. -/
structure Drbg where
  key : Bytes
  value : Bytes

namespace Drbg

/-- Folds data into the state once. -/
def fold (g : Drbg) (mark : UInt8) (data : Bytes) : Drbg :=
  let key := HashFunction.sha384.hmac g.key (g.value ++ mark :: data)
  ⟨key, HashFunction.sha384.hmac key g.value⟩

/-- The state seeded with data. -/
def seeded (data : Bytes) : Drbg :=
  (Drbg.fold ⟨List.replicate 48 0, List.replicate 48 1⟩ 0 data).fold 1 data

/-- The next number between one and the order, at most `fuel` draws. -/
def next? : (fuel : Nat) → Drbg → Option Nat
  | 0, _ => none
  | fuel + 1, g =>
    let value := HashFunction.sha384.hmac g.key g.value
    let k := beNat value
    if k ≠ 0 ∧ k < order then some k else next? fuel (Drbg.fold ⟨g.key, value⟩ 0 [])

end Drbg

/-- The two numbers of a signature under a secret number. -/
def signWith? (d z k : Nat) : Option (Nat × Nat) := do
  let q ← (base.times k).affine?
  let r := q.x % order
  let s := Curve.invMod order k * ((z + r * d) % order) % order
  if r = 0 ∨ s = 0 then none else some (r, s)

/-- The signature of a message under a scalar. -/
def sign? (d : Nat) (m : Bytes) : Option Bytes := do
  let z := hashNat m % order
  let k ← (Drbg.seeded (beBytes size d ++ beBytes size z)).next? 64
  let (r, s) ← signWith? d z k
  pure (sequence [unsigned size r, unsigned size s]).bytes

/-- The two numbers that signature bytes hold. -/
def numbers? (signature : Bytes) : Option (Nat × Nat) := do
  let e ← single? signature
  match e.items? with
  | some [r, s] => do
    let r ← r.unsigned? size
    let s ← s.unsigned? size
    if r = 0 ∨ order ≤ r ∨ s = 0 ∨ order ≤ s then none else some (r, s)
  | _ => none

/-- The signature belongs to the message and the key. -/
def verify (q : Point) (m signature : Bytes) : Bool :=
  match numbers? signature with
  | none => false
  | some (r, s) =>
    let z := hashNat m % order
    let w := Curve.invMod order s
    let sum := (base.times (z * w % order)).add (q.times (r * w % order))
    match sum.affine? with
    | none => false
    | some p => p.x % order = r

end Provenance.Ecdsa
