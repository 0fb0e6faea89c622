import Provenance.Signature.Scheme

/-!
# Registered schemes

A registry holds the schemes that may be used. A scheme is found by its pair of algorithms, where a
later registration replaces an earlier one, or by its key algorithm alone, where the pair that was
registered first for that algorithm is preferred.
-/

namespace Provenance

/-- Registered schemes, the latest first. -/
structure Registry where
  schemes : List Scheme

namespace Registry

/-- No scheme. -/
def empty : Registry := ⟨[]⟩

/-- Registers a scheme. -/
def register (r : Registry) (s : Scheme) : Registry := ⟨s :: r.schemes⟩

/-- The schemes of a list, registered in its order. -/
def ofList (schemes : List Scheme) : Registry := schemes.foldl register empty

/-- Both schemes that exist. -/
def standard : Registry := ofList [Scheme.ec, Scheme.ed25519]

/-- The scheme for a pair of algorithms. -/
def scheme? (r : Registry) (k : KeyAlgorithm) (h : HashAlgorithm) : Option Scheme :=
  r.schemes.find? fun s => s.pair = (k, h)

/-- The scheme for a pair of algorithms. -/
def scheme (r : Registry) (k : KeyAlgorithm) (h : HashAlgorithm) : Except CryptoError Scheme :=
  match r.scheme? k h with
  | some s => .ok s
  | none => .error (.unsupportedAlgorithm k h)

/-- The hash algorithm that was registered first with a key algorithm. -/
def preferredHash? (r : Registry) (k : KeyAlgorithm) : Option HashAlgorithm :=
  (r.schemes.reverse.find? fun s => s.keyAlgorithm = k).map (·.hashAlgorithm)

/-- The preferred scheme for a key algorithm. -/
def preferred (r : Registry) (k : KeyAlgorithm) : Except CryptoError Scheme :=
  match r.preferredHash? k with
  | some h => r.scheme k h
  | none => .error (.unsupportedKeyAlgorithm k)

/-- A pair of algorithms has a scheme. -/
def supports (r : Registry) (k : KeyAlgorithm) (h : HashAlgorithm) : Bool := (r.scheme? k h).isSome

/-- All pairs of algorithms, by key and then by hash. -/
def allPairs : List (KeyAlgorithm × HashAlgorithm) :=
  KeyAlgorithm.all.flatMap fun k => HashAlgorithm.all.map fun h => (k, h)

/-- The pairs that have a scheme, by key and then by hash. -/
def supported (r : Registry) : List (KeyAlgorithm × HashAlgorithm) :=
  allPairs.filter fun p => r.supports p.1 p.2

/-- The registry in words. -/
def describe (r : Registry) : String :=
  let pairs := r.supported.map fun p => s!"({p.1.label}, {p.2.label})"
  "AlgorithmRegistry \x7b schemes: [" ++ ", ".intercalate pairs ++ "] \x7d"

end Registry

end Provenance
