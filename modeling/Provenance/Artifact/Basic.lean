import Provenance.Bytes
import Provenance.Json.Record

/-!
# Artifacts

An artifact is a path together with the digest of the content at that path. Artifacts are ordered by
path and then by digest; `lt_trans`, `lt_irrefl` and `lt_trichotomy` say that this is a linear order.
-/

namespace Provenance

/-- A path and the digest of what is there. -/
structure Artifact where
  uri : String
  hash : String
  deriving DecidableEq, Repr, Inhabited

namespace Artifact

/-- Ordered by path, then by digest. -/
def Before (a b : Artifact) : Prop := a.uri < b.uri ∨ (a.uri = b.uri ∧ a.hash < b.hash)

instance : LT Artifact := ⟨Before⟩

theorem lt_iff {a b : Artifact} : a < b ↔ a.uri < b.uri ∨ (a.uri = b.uri ∧ a.hash < b.hash) := Iff.rfl

instance (a b : Artifact) : Decidable (a < b) := inferInstanceAs (Decidable (_ ∨ _))

theorem lt_irrefl (a : Artifact) : ¬a < a := by
  intro h
  rcases lt_iff.1 h with h | ⟨_, h⟩
  · exact String.lt_irrefl _ h
  · exact String.lt_irrefl _ h

theorem lt_trans {a b c : Artifact} (h : a < b) (k : b < c) : a < c := by
  rw [lt_iff] at *
  rcases h with h | ⟨h, h'⟩ <;> rcases k with k | ⟨k, k'⟩
  · exact .inl (String.lt_trans h k)
  · exact .inl (k ▸ h)
  · exact .inl (h ▸ k)
  · exact .inr ⟨h.trans k, String.lt_trans h' k'⟩

theorem lt_trichotomy (a b : Artifact) : a < b ∨ a = b ∨ b < a := by
  have hu : a.uri < b.uri ∨ a.uri = b.uri ∨ b.uri < a.uri := by grind
  have hh : a.hash < b.hash ∨ a.hash = b.hash ∨ b.hash < a.hash := by grind
  rcases hu with h | h | h
  · exact .inl (.inl h)
  · rcases hh with k | k | k
    · exact .inl (.inr ⟨h, k⟩)
    · exact .inr (.inl (by cases a; cases b; simp_all))
    · exact .inr (.inr (.inr ⟨h.symm, k⟩))
  · exact .inr (.inr (.inl h))

/-- The same path, whatever is there. -/
def sameUri (a b : Artifact) : Bool := a.uri = b.uri

/-- The number of bytes of a digest that are shown. -/
def shownBytes : Nat := 12

/-- The beginning of a digest. A digest is text from outside: it is shown whole when it is short, or
when the cut would fall inside a character. -/
def shownHash (hash : String) : String :=
  match bytesText? ((textBytes hash).take shownBytes) with
  | some shown => shown
  | none => hash

/-- The path and the beginning of the digest. -/
def describe (a : Artifact) : String := s!"{a.uri}@{shownHash a.hash}"

/-- As a document. -/
def toJson (a : Artifact) : Json := .obj [("uri", .str a.uri), ("hash", .str a.hash)]

/-- From a document. -/
def ofJson (v : Json) : Decoded Artifact := do
  let r ← v.record "Artifact" ["uri", "hash"]
  let uri ← r.field "uri" Json.asString
  let hash ← r.field "hash" Json.asString
  pure ⟨uri, hash⟩

/-- A list in order, repeated artifacts kept. -/
def sort (artifacts : List Artifact) : List Artifact :=
  artifacts.mergeSort fun a b => decide (¬b < a)

/-- Each occurrence of an artifact after its first one, given those that came before. -/
def repeatedAfter : (seen : List Artifact) → List Artifact → List Artifact
  | _, [] => []
  | seen, a :: rest =>
    if a ∈ seen then a :: repeatedAfter seen rest else repeatedAfter (a :: seen) rest

/-- Each occurrence of an artifact after its first one. -/
def repeated (artifacts : List Artifact) : List Artifact := repeatedAfter [] artifacts

end Artifact

end Provenance
