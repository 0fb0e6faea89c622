import Provenance.Der.Basic

/-!
# Containers of public and private keys

A public key is stored as its algorithm and a string of bits; a private key as its algorithm, a
string of bytes and sometimes its public half. `PrivateContainer` and `PublicContainer` are what
these structures hold, read from and written to DER.
-/

namespace Provenance

open Der

/-- An algorithm by its object identifier, and its parameters. -/
structure AlgorithmIdentifier where
  oid : Bytes
  parameters : Option Element
  deriving DecidableEq, Repr

namespace AlgorithmIdentifier

/-- The algorithm that a sequence names. -/
def ofElement? (e : Element) : Option AlgorithmIdentifier :=
  match e.items? with
  | some [o] => o.oid?.map fun oid => ⟨oid, none⟩
  | some [o, p] => o.oid?.map fun oid => ⟨oid, some p⟩
  | _ => none

/-- As a sequence. -/
def element (a : AlgorithmIdentifier) : Element :=
  sequence (Der.oid a.oid :: a.parameters.toList)

end AlgorithmIdentifier

/-- Identifier of keys on elliptic curves. -/
def ecKeyOid : Bytes := [0x2a, 0x86, 0x48, 0xce, 0x3d, 0x02, 0x01]

/-- Identifier of the curve P-384. -/
def p384Oid : Bytes := [0x2b, 0x81, 0x04, 0x00, 0x22]

/-- Identifier of Ed25519 keys. -/
def ed25519Oid : Bytes := [0x2b, 0x65, 0x70]

/-- A public key of some algorithm. -/
structure PublicContainer where
  algorithm : AlgorithmIdentifier
  key : Bytes
  deriving DecidableEq, Repr

namespace PublicContainer

/-- The public key that bytes hold. -/
def read? (b : Bytes) : Option PublicContainer := do
  let e ← single? b
  match e.items? with
  | some [a, k] => do
    let algorithm ← AlgorithmIdentifier.ofElement? a
    let key ← k.bits?
    pure ⟨algorithm, key⟩
  | _ => none

/-- The bytes that hold a public key. -/
def bytes (c : PublicContainer) : Bytes := (sequence [c.algorithm.element, bits c.key]).bytes

end PublicContainer

/-- A private key of some algorithm, perhaps with its public half. -/
structure PrivateContainer where
  algorithm : AlgorithmIdentifier
  key : Bytes
  publicKey : Option Bytes
  deriving DecidableEq, Repr

namespace PrivateContainer

/-- A context-specific tag. -/
def isContext (t : UInt8) : Bool := t &&& 0xc0 = 0x80

/-- The number of a tag. -/
def tagNumber (t : UInt8) : Nat := (t &&& 0x1f).toNat

/-- Elements after those whose context-specific number is below one. -/
def skipAttributes : List Element → List Element
  | [] => []
  | e :: rest => if isContext e.tag && tagNumber e.tag = 0 then skipAttributes rest else e :: rest

/-- An element that an extension may be: context-specific and constructed of one element. -/
def isExtension (e : Element) : Bool :=
  isContext e.tag && e.tag &&& 0x20 = 0x20 && (single? e.content).isSome

/-- The public half and the elements after it. -/
def publicHalf? : List Element → Option (Option Bytes × List Element)
  | [] => some (none, [])
  | e :: rest =>
    if isContext e.tag && tagNumber e.tag = 1 then
      if e.tag = 0x81 then (Element.wholeBits? e.content).map fun b => (some b, rest) else none
    else some (none, e :: rest)

/-- The private key that bytes hold. Version one has a public half and version zero has none. -/
def read? (b : Bytes) : Option PrivateContainer := do
  let e ← single? b
  match e.items? with
  | some (v :: a :: k :: rest) => do
    let version ← v.unsigned? 1
    let algorithm ← AlgorithmIdentifier.ofElement? a
    let key ← k.octets?
    let (publicKey, rest) ← publicHalf? (skipAttributes rest)
    if version ≤ 1 ∧ (version = 1) = publicKey.isSome ∧ rest.all isExtension then
      pure ⟨algorithm, key, publicKey⟩
    else none
  | _ => none

/-- The bytes that hold a private key. -/
def bytes (c : PrivateContainer) : Bytes :=
  let version := if c.publicKey.isSome then 1 else 0
  (sequence ([unsigned 1 version, c.algorithm.element, octets c.key]
    ++ (c.publicKey.toList.map fun b => (⟨0x81, 0 :: b⟩ : Element)))).bytes

end PrivateContainer

end Provenance
