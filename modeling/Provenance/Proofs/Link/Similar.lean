import Provenance.Link
import Provenance.Proofs.Lists

/-!
# Links that differ only in order

The artifacts of a link may be listed in any order, on either side. The canonical
form of a link sorts them, and sorting forgets nothing else:

> `Link.canonicalForm_eq_iff`: canonical forms are equal iff the links are similar.
-/

namespace Provenance

theorem Artifact.notBefore_trans (a b c : Artifact) (hab : decide (¬b < a) = true)
    (hbc : decide (¬c < b) = true) : decide (¬c < a) = true := by
  refine decide_eq_true fun hca => ?_
  -- `b` would be between `c` and `a`, on one side or the other
  rcases Artifact.lt_trichotomy b c with h | h | h
  · exact of_decide_eq_true hab (Artifact.lt_trans h hca)
  · exact of_decide_eq_true hab (h ▸ hca)
  · exact of_decide_eq_true hbc h

theorem Artifact.notBefore_total (a b : Artifact) :
    (decide (¬b < a) || decide (¬a < b)) = true := by
  rw [Bool.or_eq_true, decide_eq_true_eq, decide_eq_true_eq]
  by_cases h : b < a
  · refine .inr fun h' => ?_
    exact Artifact.lt_irrefl a (Artifact.lt_trans h' h)
  · exact .inl h

theorem Artifact.sort_eq_iff {l m : List Artifact} :
    Artifact.sort l = Artifact.sort m ↔ l.Perm m := by
  refine mergeSort_eq_iff_perm notBefore_trans notBefore_total fun a _ b _ hab hba => ?_
  rcases Artifact.lt_trichotomy a b with h | h | h
  · exact absurd h (of_decide_eq_true hba)
  · exact h
  · exact absurd h (of_decide_eq_true hab)

/-- The links differ only in the order of artifacts. -/
structure Link.Similar (l m : Link) : Prop where
  segmentName : l.segmentName = m.segmentName
  stepName : l.stepName = m.stepName
  runId : l.runId = m.runId
  /-- A command that was not recorded is not an empty one. -/
  command : l.command = m.command
  materials : l.materials.Perm m.materials
  products : l.products.Perm m.products

theorem Link.canonicalForm_eq_iff {l m : Link} :
    l.canonicalForm = m.canonicalForm ↔ l.Similar m := by
  unfold Link.canonicalForm
  constructor
  · intro h
    injection h with hstep hrun hsegment hcommand hmaterials hproducts
    exact ⟨hsegment, hstep, hrun, hcommand, Artifact.sort_eq_iff.mp hmaterials,
      Artifact.sort_eq_iff.mp hproducts⟩
  · intro h
    rw [h.stepName, h.runId, h.segmentName, h.command, Artifact.sort_eq_iff.mpr h.materials,
      Artifact.sort_eq_iff.mpr h.products]

end Provenance
