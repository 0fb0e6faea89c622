import Provenance.Artifact.Basic

/-!
# Sets of artifacts

An `ArtifactSet` is a list in strictly increasing order, so equal sets are equal values and every
listing of a set is in the order of its artifacts. `mem_insert`, `mem_ofList`, `mem_filter`,
`mem_union` and `mem_diff` describe the operations by membership, and `ext` says that membership is
all there is to a set.
-/

namespace Provenance

/-- A set of artifacts, listed in order. -/
structure ArtifactSet where
  toList : List Artifact
  increasing : toList.Pairwise (· < ·)
  deriving DecidableEq

namespace ArtifactSet

instance : Membership Artifact ArtifactSet := ⟨fun s a => a ∈ s.toList⟩

theorem mem_def {a : Artifact} {s : ArtifactSet} : a ∈ s ↔ a ∈ s.toList := Iff.rfl

instance (a : Artifact) (s : ArtifactSet) : Decidable (a ∈ s) :=
  inferInstanceAs (Decidable (a ∈ s.toList))

/-- No artifact. -/
def empty : ArtifactSet := ⟨[], .nil⟩

instance : Inhabited ArtifactSet := ⟨empty⟩

instance : Repr ArtifactSet := ⟨fun s n => reprPrec s.toList n⟩

/-- Puts an artifact into an increasing list. -/
def insertInto (a : Artifact) : List Artifact → List Artifact
  | [] => [a]
  | b :: rest => if a < b then a :: b :: rest else if a = b then b :: rest else b :: insertInto a rest

@[simp] theorem mem_insertInto {a x : Artifact} {l : List Artifact} :
    x ∈ insertInto a l ↔ x = a ∨ x ∈ l := by
  induction l with
  | nil => simp [insertInto]
  | cons b rest ih =>
    simp only [insertInto]
    split
    · simp
    · split
      · rename_i h; subst h; simp
      · simp only [List.mem_cons, ih]
        exact ⟨fun h => by rcases h with h | h | h <;> simp [h],
          fun h => by rcases h with h | h | h <;> simp [h]⟩

theorem increasing_insertInto {a : Artifact} {l : List Artifact} (h : l.Pairwise (· < ·)) :
    (insertInto a l).Pairwise (· < ·) := by
  induction l with
  | nil => simp [insertInto]
  | cons b rest ih =>
    have hb := (List.pairwise_cons.1 h).1
    simp only [insertInto]
    split
    · rename_i hab
      refine List.pairwise_cons.2 ⟨fun x hx => ?_, h⟩
      rcases List.mem_cons.1 hx with rfl | hx
      · exact hab
      · exact Artifact.lt_trans hab (hb x hx)
    · split
      · exact h
      · rename_i hab hne
        refine List.pairwise_cons.2 ⟨fun x hx => ?_, ih (List.pairwise_cons.1 h).2⟩
        rcases mem_insertInto.1 hx with rfl | hx
        · rcases Artifact.lt_trichotomy x b with k | k | k
          · exact absurd k hab
          · exact absurd k hne
          · exact k
        · exact hb x hx

/-- The set with one more artifact. -/
def insert (s : ArtifactSet) (a : Artifact) : ArtifactSet :=
  ⟨insertInto a s.toList, increasing_insertInto s.increasing⟩

/-- The artifacts of a list. -/
def ofList (artifacts : List Artifact) : ArtifactSet := artifacts.foldl insert empty

/-- The artifacts of a set that pass a test. -/
def filter (s : ArtifactSet) (p : Artifact → Bool) : ArtifactSet :=
  ⟨s.toList.filter p, s.increasing.filter p⟩

/-- The artifacts of either set. -/
def union (s t : ArtifactSet) : ArtifactSet := t.toList.foldl insert s

/-- The artifacts of the first set that are not in the second. -/
def diff (s t : ArtifactSet) : ArtifactSet := s.filter fun a => decide (a ∉ t)

/-- There is no artifact. -/
def isEmpty (s : ArtifactSet) : Bool := s.toList.isEmpty

/-- The number of artifacts. -/
def size (s : ArtifactSet) : Nat := s.toList.length

/-- The artifacts at a path. -/
def atUri (s : ArtifactSet) (uri : String) : List Artifact := s.toList.filter fun a => a.uri = uri

@[simp] theorem not_mem_empty (a : Artifact) : a ∉ empty := by simp [mem_def, empty]

@[simp] theorem mem_insert {a x : Artifact} {s : ArtifactSet} : x ∈ s.insert a ↔ x = a ∨ x ∈ s :=
  mem_insertInto

theorem mem_foldl_insert {x : Artifact} {l : List Artifact} {s : ArtifactSet} :
    x ∈ l.foldl insert s ↔ x ∈ s ∨ x ∈ l := by
  induction l generalizing s with
  | nil => simp
  | cons a rest ih =>
    simp only [List.foldl_cons, ih, mem_insert, List.mem_cons]
    exact ⟨fun h => by rcases h with (h | h) | h <;> simp [h],
      fun h => by rcases h with h | h | h <;> simp [h]⟩

@[simp] theorem mem_ofList {x : Artifact} {l : List Artifact} : x ∈ ofList l ↔ x ∈ l := by
  simp [ofList, mem_foldl_insert]

@[simp] theorem mem_filter {x : Artifact} {s : ArtifactSet} {p : Artifact → Bool} :
    x ∈ s.filter p ↔ x ∈ s ∧ p x := by
  simp [mem_def, filter]

@[simp] theorem mem_union {x : Artifact} {s t : ArtifactSet} : x ∈ s.union t ↔ x ∈ s ∨ x ∈ t :=
  mem_foldl_insert

@[simp] theorem mem_diff {x : Artifact} {s t : ArtifactSet} : x ∈ s.diff t ↔ x ∈ s ∧ x ∉ t := by
  simp [diff]

theorem eq_of_increasing {l m : List Artifact} (hl : l.Pairwise (· < ·)) (hm : m.Pairwise (· < ·))
    (h : ∀ x, x ∈ l ↔ x ∈ m) : l = m := by
  induction l generalizing m with
  | nil =>
    cases m with
    | nil => rfl
    | cons b _ => exact absurd ((h b).2 (by simp)) (by simp)
  | cons a l ih =>
    cases m with
    | nil => exact absurd ((h a).1 (by simp)) (by simp)
    | cons b m =>
      obtain ⟨ha, hl'⟩ := List.pairwise_cons.1 hl
      obtain ⟨hb, hm'⟩ := List.pairwise_cons.1 hm
      have hab : a = b := by
        rcases List.mem_cons.1 ((h a).1 (by simp)) with k | k
        · exact k
        · rcases List.mem_cons.1 ((h b).2 (by simp)) with k' | k'
          · exact k'.symm
          · exact absurd (Artifact.lt_trans (ha b k') (hb a k)) (Artifact.lt_irrefl a)
      subst hab
      refine congrArg (a :: ·) (ih hl' hm' fun x => ?_)
      have hx := h x
      simp only [List.mem_cons] at hx
      constructor
      · intro k
        rcases hx.1 (.inr k) with rfl | k'
        · exact absurd (ha x k) (Artifact.lt_irrefl x)
        · exact k'
      · intro k
        rcases hx.2 (.inr k) with rfl | k'
        · exact absurd (hb x k) (Artifact.lt_irrefl x)
        · exact k'

@[ext] theorem ext {s t : ArtifactSet} (h : ∀ x, x ∈ s ↔ x ∈ t) : s = t := by
  cases s; cases t
  congr
  exact eq_of_increasing ‹_› ‹_› h

/-- As a document: the artifacts in order. -/
def toJson (s : ArtifactSet) : Json := .arr (s.toList.map Artifact.toJson)

end ArtifactSet

end Provenance
