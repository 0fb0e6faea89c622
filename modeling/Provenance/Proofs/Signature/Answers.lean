import Provenance.Proofs.Key.Ring
import Provenance.Proofs.Signature.Signing

/-!
# A bad key is not a bad signature

Verifying has three outcomes: a signature is valid, it is not, or there is an error. A key
comes from a ring, and the ring has checked it with the preferred scheme of its algorithm.
The signature names its scheme otherwise, by a pair of algorithms, and that is the same
scheme where each key algorithm has one pair (`Registry.Answers.preferred_eq`). A scheme
that has accepted a key finds nothing wrong with it later, so

> `Registry.Answers.isValidText_eq_error_iff`: under a key from a ring there is an error
> iff the pair of the signature is not registered, and that is the error;
>
> `isValidText_eq_true_iff`: what makes a signature valid.

Both are for any registry that `Answers`, as the standard one does
(`Registry.answers_standard`).
-/

namespace Provenance

open Checks

/-! ## Schemes -/

namespace Scheme

/-- Under a key that the scheme accepts every signature is valid or not. -/
def Answers (scheme : Scheme) : Prop :=
  ∀ key, scheme.checkPublicKey key = .ok () →
    ∀ message signature, ∃ valid, scheme.verify key message signature = .ok valid

theorem ec_checkPublicKey (key : Bytes) :
    ec.checkPublicKey key = (ecPoint key).map fun _ => () := rfl

theorem ed25519_checkPublicKey (key : Bytes) :
    ed25519.checkPublicKey key = (ed25519Point key).map fun _ => () := rfl

/-- Whatever is accepted is a point, and the point is all that verifying asks for. -/
theorem ec_answers : ec.Answers := by
  intro key hkey message signature
  rw [ec_checkPublicKey] at hkey
  obtain ⟨q, hq, _⟩ := map_eq_ok_iff.mp hkey
  exact ⟨_, bind_eq_ok hq rfl⟩

theorem ed25519_answers : ed25519.Answers := by
  intro key hkey message signature
  rw [ed25519_checkPublicKey] at hkey
  obtain ⟨q, hq, _⟩ := map_eq_ok_iff.mp hkey
  exact ⟨_, bind_eq_ok hq rfl⟩

end Scheme

/-! ## Registries -/

namespace Registry

variable {registry : Registry} {k : KeyAlgorithm} {h : HashAlgorithm}

/-- The schemes of the registry answer, and a key algorithm goes with one hash. -/
structure Answers (registry : Registry) : Prop where
  schemes : ∀ s ∈ registry.schemes, s.Answers
  onePair : ∀ s ∈ registry.schemes, ∀ t ∈ registry.schemes, s.keyAlgorithm = t.keyAlgorithm →
    s.hashAlgorithm = t.hashAlgorithm

theorem mem_standard_iff {scheme : Scheme} :
    scheme ∈ standard.schemes ↔ scheme = Scheme.ed25519 ∨ scheme = Scheme.ec := by
  have hschemes : standard.schemes = [Scheme.ed25519, Scheme.ec] := rfl
  rw [hschemes, List.mem_cons, List.mem_singleton]

theorem answers_standard : standard.Answers where
  schemes := by
    intro scheme hscheme
    rcases mem_standard_iff.mp hscheme with rfl | rfl
    · exact Scheme.ed25519_answers
    · exact Scheme.ec_answers
  onePair := by
    intro s hs t ht hkey
    rcases mem_standard_iff.mp hs with rfl | rfl <;> rcases mem_standard_iff.mp ht with rfl | rfl
    · rfl
    · exact nomatch hkey
    · exact nomatch hkey
    · rfl

/-- The scheme of a pair is the preferred one of its key algorithm. -/
theorem Answers.preferred_eq (hr : registry.Answers) {scheme : Scheme}
    (hs : registry.scheme k h = .ok scheme) : registry.preferred k = .ok scheme := by
  obtain ⟨hmem, hkey, hhash⟩ := scheme_eq_ok hs
  have hsome : (registry.schemes.reverse.find? fun s => s.keyAlgorithm = k).isSome :=
    List.find?_isSome.mpr ⟨scheme, List.mem_reverse.mpr hmem, decide_eq_true hkey⟩
  obtain ⟨first, hfirst⟩ := Option.isSome_iff_exists.mp hsome
  have hfirstKey : first.keyAlgorithm = k := by simpa using List.find?_some hfirst
  have hfirstMem := List.mem_reverse.mp (List.mem_of_find?_eq_some hfirst)
  have hfirstHash : first.hashAlgorithm = h :=
    (hr.onePair first hfirstMem scheme hmem (hfirstKey.trans hkey.symm)).trans hhash
  have hpreferred : registry.preferredHash? k = some h := by
    rw [preferredHash?, hfirst, Option.map_some, hfirstHash]
  rw [preferred, hpreferred]
  exact hs

end Registry

/-! ## Signatures -/

section Signatures

variable {registry : Registry} {text : String} {s : Signature} {key : PublicKey}

/-- The algorithms that the signature names have a scheme. -/
def Signature.IsSupported (registry : Registry) (s : Signature) : Prop :=
  registry.supports s.keyAlgorithm s.hashAlgorithm = true

instance Signature.decidableIsSupported (registry : Registry) (s : Signature) :
    Decidable (s.IsSupported registry) :=
  inferInstanceAs (Decidable (registry.supports s.keyAlgorithm s.hashAlgorithm = true))

theorem Signature.isSupported_iff : s.IsSupported registry ↔
    ∃ scheme, registry.scheme s.keyAlgorithm s.hashAlgorithm = .ok scheme := by
  unfold IsSupported Registry.supports Registry.scheme
  cases registry.scheme? s.keyAlgorithm s.hashAlgorithm <;> simp

theorem Signature.scheme_eq_error_iff {e : CryptoError} :
    registry.scheme s.keyAlgorithm s.hashAlgorithm = .error e ↔
      ¬s.IsSupported registry ∧ e = .unsupportedAlgorithm s.keyAlgorithm s.hashAlgorithm := by
  unfold IsSupported Registry.supports Registry.scheme
  cases registry.scheme? s.keyAlgorithm s.hashAlgorithm <;> simp [eq_comm]

theorem isValidText_of_error {e : CryptoError}
    (hs : registry.scheme s.keyAlgorithm s.hashAlgorithm = .error e) :
    isValidText registry text s key = .error e := by
  rw [isValidText, hs]
  rfl

/-- A signature is valid iff it names the key and its algorithm, and the scheme of its pair
verifies the bytes that it writes. -/
theorem isValidText_eq_true_iff : isValidText registry text s key = .ok true ↔
    s.keyId = key.keyId ∧ s.keyAlgorithm = key.algorithm ∧ ∃ scheme bytes,
      registry.scheme s.keyAlgorithm s.hashAlgorithm = .ok scheme ∧
        Hex.decode? s.signature = some bytes ∧
        scheme.verify key.key (textBytes text) bytes = .ok true := by
  cases hs : registry.scheme s.keyAlgorithm s.hashAlgorithm with
  | error e =>
    rw [isValidText_of_error hs]
    simp
  | ok scheme =>
    rw [isValidText_of_scheme hs]
    by_cases hown : s.keyId = key.keyId ∧ s.keyAlgorithm = key.algorithm
    · obtain ⟨hid, halgorithm⟩ := hown
      rw [if_neg (by simp [hid, halgorithm])]
      cases Hex.decode? s.signature <;> simp [hid, halgorithm]
    · rw [if_pos (by tauto)]
      simp only [Except.ok.injEq, Bool.false_eq_true, false_iff]
      exact fun h => hown ⟨h.1, h.2.1⟩

namespace Registry.Answers

variable (hr : registry.Answers) (hkey : key.Usable registry)
include hr hkey

/-- A usable key is asked for by the scheme that has accepted it. -/
theorem exists_isValidText (hs : s.IsSupported registry) :
    ∃ valid, isValidText registry text s key = .ok valid := by
  obtain ⟨scheme, hs⟩ := Signature.isSupported_iff.mp hs
  rw [isValidText_of_scheme hs]
  split
  · exact ⟨false, rfl⟩
  · next hown =>
    obtain ⟨_, halgorithm⟩ := not_or.mp hown
    cases Hex.decode? s.signature with
    | none => exact ⟨false, rfl⟩
    | some bytes =>
      obtain ⟨_, preferred, hpreferred, haccepted⟩ := hkey
      have hsame := hr.preferred_eq hs
      rw [not_not.mp halgorithm, hpreferred] at hsame
      injection hsame with hsame
      exact hr.schemes scheme (scheme_eq_ok hs).1 key.key (hsame ▸ haccepted) _ _

theorem isValidText_eq_error_iff {e : CryptoError} :
    isValidText registry text s key = .error e ↔
      ¬s.IsSupported registry ∧ e = .unsupportedAlgorithm s.keyAlgorithm s.hashAlgorithm := by
  rw [← Signature.scheme_eq_error_iff]
  cases hs : registry.scheme s.keyAlgorithm s.hashAlgorithm with
  | error e' =>
    rw [isValidText_of_error hs]
    simp
  | ok scheme =>
    obtain ⟨valid, hvalid⟩ := hr.exists_isValidText hkey (Signature.isSupported_iff.mpr ⟨scheme, hs⟩)
    rw [hvalid]
    simp

end Registry.Answers

end Signatures

end Provenance
