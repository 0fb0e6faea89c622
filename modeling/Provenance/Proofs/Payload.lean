import Provenance.Proofs.Layout.Document
import Provenance.Proofs.Layout.Similar
import Provenance.Proofs.Layout.WellFormed
import Provenance.Proofs.Link.Similar

/-!
# What a signature is about

Signatures are made over canonical texts. So it matters which documents have the
same canonical text, for a signature of one is a signature of the other:

> `canonicalText_binds`: links have the same text iff they differ only in the order
> of artifacts, accepted layouts iff they differ only in the order of what has no
> order, and no link has the text of a layout.

The canonical text is that of the canonical form, which is a text of the document
(`Json.sorted_eq_of_canonical_eq`), from which the canonical form can be told
(`faithful_toJson`); and the canonical form is the same for what is similar and
nothing else (`canonicalForm_eq_iff`).
-/

namespace Provenance

open Json

theorem Link.canonicalText_eq_iff {l m : Link} :
    l.canonicalText = m.canonicalText ↔ l.Similar m := by
  rw [← Link.canonicalForm_eq_iff]
  constructor
  · intro h
    refine Link.faithful_toJson _ _ (sorted_eq_of_canonical_eq ?_ ?_ h)
    · exact (Link.plain_toJson _).mono (by decide)
    · exact (Link.plain_toJson _).mono (by decide)
  · intro h
    rw [Link.canonicalText, h, Link.canonicalText]

/-- Where names do not repeat, the text is that of every order. -/
theorem Layout.canonicalText_eq {l m : Layout} (hkeys : (l.keys.map PublicKey.keyId).Nodup)
    (hsegments : (l.segments.map Segment.name).Nodup)
    (hsteps : ∀ s ∈ l.segments, (s.steps.map Step.name).Nodup) (h : l.Similar m) :
    l.canonicalText = m.canonicalText := by
  rw [Layout.canonicalText, (Layout.canonicalForm_eq_iff hkeys hsegments hsteps).mpr h,
    Layout.canonicalText]

theorem Layout.WellFormed.canonicalText_eq_iff {l m : Layout} (hl : l.WellFormed) :
    l.canonicalText = m.canonicalText ↔ l.Similar m := by
  have hsteps : ∀ s ∈ l.segments, (s.steps.map Step.name).Nodup :=
    fun s hs => (hl.segments s hs).names
  constructor
  · intro h
    rw [← Layout.canonicalForm_eq_iff hl.keyIds hl.names hsteps]
    refine Layout.faithful_toJson _ _ (sorted_eq_of_canonical_eq ?_ ?_ h)
    · exact (Layout.plain_toJson _).mono (by decide)
    · exact (Layout.plain_toJson _).mono (by decide)
  · exact Layout.canonicalText_eq hl.keyIds hl.names hsteps

/-- Only a link has a run, and only a layout has keys. -/
theorem Link.canonicalText_ne (l : Link) (m : Layout) : l.canonicalText ≠ m.canonicalText := by
  intro h
  have hsorted : l.canonicalForm.toJson.sorted = m.canonicalForm.toJson.sorted :=
    sorted_eq_of_canonical_eq ((Link.plain_toJson _).mono (by decide))
      ((Layout.plain_toJson _).mono (by decide)) h
  rw [Link.toJson_eq, Layout.toJson_eq] at hsorted
  have hrun := lookup_eq_of_sorted_eq l.canonicalForm.namesDiffer_members
    m.canonicalForm.namesDiffer_members hsorted "runId"
  exact nomatch hrun

/-- A signature binds a document: equal canonical texts are texts of documents that
differ only in what is listed in no particular order. -/
theorem canonicalText_binds :
    (∀ l m : Link, l.canonicalText = m.canonicalText ↔ l.Similar m) ∧
    (∀ l m : Layout, validateLayout l = .ok () → validateLayout m = .ok () →
      (l.canonicalText = m.canonicalText ↔ l.Similar m)) ∧
    ∀ (l : Link) (m : Layout), l.canonicalText ≠ m.canonicalText := by
  refine ⟨fun _ _ => Link.canonicalText_eq_iff, fun l m hl _ => ?_, Link.canonicalText_ne⟩
  exact (validateLayout_eq_ok_iff.mp hl).canonicalText_eq_iff

/-! ## Two segments in either order -/

namespace TwoSegments

def step : Step := ⟨"build", ["key"], 1, [], [.create "out/*"]⟩

def layout (first second : String) : Layout :=
  ⟨[⟨"key", .ed25519, []⟩], ["key"], [⟨first, [step]⟩, ⟨second, [step]⟩], []⟩

theorem validate_layout {first second : String} (h : first ≠ second) :
    validateLayout (layout first second) = .ok () := by
  have hstep : (layout first second).StepFits step := by
    refine ⟨by decide, ?_, ?_, ?_⟩
    · simp [step, distinctTexts, sortByText, List.eraseDups_cons]
    · simp [step, layout, Layout.keyIds]
    · intro r hr
      rw [List.mem_singleton.mp hr]
      exact ⟨rfl, by simp⟩
  refine validateLayout_eq_ok_iff.mpr ⟨by simp [layout], by simp [layout, Layout.keyIds],
    by simpa [layout] using h, ?_, by simp [layout], by simp [layout, Layout.keyIds]⟩
  intro s hs
  have hsteps : s.steps = [step] := by
    rcases List.mem_cons.mp hs with rfl | hs
    · rfl
    · rw [List.mem_singleton.mp hs]
  refine ⟨by simp [hsteps], by simp [hsteps], fun t ht => ?_⟩
  rw [hsteps] at ht
  rw [List.mem_singleton.mp ht]
  exact hstep

theorem similar {first second : String} :
    (layout first second).Similar (layout second first) := by
  have hstep : step.Similar step := ⟨rfl, .refl _, rfl, rfl, rfl⟩
  have hsegment : ∀ name, (⟨name, [step]⟩ : Segment).Similar ⟨name, [step]⟩ :=
    fun _ => ⟨rfl, _, .refl _, .cons hstep .nil⟩
  exact ⟨.refl _, .refl _, ⟨_, .swap _ _ _, .cons (hsegment _) (.cons (hsegment _) .nil)⟩, rfl⟩

end TwoSegments

/-- The order of segments is not signed. -/
theorem twoSegments_canonicalText :
    (TwoSegments.layout "one" "two").canonicalText =
      (TwoSegments.layout "two" "one").canonicalText := by
  refine (canonicalText_binds.2.1 _ _ (TwoSegments.validate_layout (by decide))
    (TwoSegments.validate_layout (by decide))).mpr ⟨.refl _, .refl _, ?_, rfl⟩
  have hsame : ∀ s : Segment, s.Similar s := fun s =>
    ⟨rfl, s.steps, .refl _, List.forall₂_same.mpr fun _ _ => ⟨rfl, .refl _, rfl, rfl, rfl⟩⟩
  exact ⟨_, .swap _ _ _, .cons (hsame _) (.cons (hsame _) .nil)⟩

end Provenance
