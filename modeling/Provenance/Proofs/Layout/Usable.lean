import Mathlib.Data.Finset.Card
import Provenance.Proofs.Layout.Walk
import Provenance.Proofs.Payload
import Provenance.Proofs.Rule.Usable

/-!
# Layouts that can be used

The check of a layout goes through its segments, their steps and the rules of these,
with lists of the names it has seen, and stops at the first fault. What it asks for can
be read off the layout alone (`Layout.Usable`), with no order of checks, and with the
steps taken as the walk goes through them:

> `validateLayout_exact`: a layout is accepted iff it is usable. In an accepted layout
> every step has an address of its own under which it is found, and the last address of
> the walk is that of the last step.

`Layout.WellFormed` is the same in the terms of the checker, and the loops are dealt
with there. What is left is that a destination that is found is one that is declared,
for which names must not repeat (`WellFormed.ruleFits_iff`), and that the checker counts
the keys of a step as a set (`length_distinctTexts`).
-/

namespace Provenance

namespace Layout

/-- The id is that of a key of the layout. -/
def HasKey (l : Layout) (id : KeyId) : Prop := ∃ key ∈ l.keys, key.keyId = id

/-- The rule can be used at all, and a MATCH rule looks at a step that is declared. -/
structure UsableRule (l : Layout) (r : Rule) : Prop where
  usable : r.Usable
  destination : ∀ m, r = .matching m → ∃ step, (m.destination, step) ∈ l.steps

/-- At least one key has to sign for the step, and enough different keys of the layout
may; all rules can be used. -/
structure UsableStep (l : Layout) (s : Step) : Prop where
  one_le_threshold : 1 ≤ s.threshold.val
  threshold_le : s.threshold.val ≤ s.authorizedKeyIds.toFinset.card
  keys : ∀ id ∈ s.authorizedKeyIds, l.HasKey id
  materialRules : ∀ r ∈ s.materialRules, l.UsableRule r
  productRules : ∀ r ∈ s.productRules, l.UsableRule r

/-- There are steps in every segment, ids and names do not repeat, and every step, rule
and signer can be used. -/
structure Usable (l : Layout) : Prop where
  segments : l.segments ≠ []
  notEmpty : ∀ s ∈ l.segments, s.steps ≠ []
  keyIds : (l.keys.map PublicKey.keyId).Nodup
  segmentNames : (l.segments.map Segment.name).Nodup
  stepNames : ∀ s ∈ l.segments, (s.steps.map Step.name).Nodup
  steps : ∀ ref step, (ref, step) ∈ l.steps → l.UsableStep step
  endRules : ∀ r ∈ l.endProductRules, l.UsableRule r
  signers : ∀ id ∈ l.authorizedKeyIds, l.HasKey id

end Layout

/-! ## In the terms of the checker -/

theorem length_distinctTexts (texts : List String) :
    (distinctTexts texts).length = texts.toFinset.card := by
  have hnodup : (distinctTexts texts).Nodup := nodup_eraseDups _
  have hsame : (distinctTexts texts).toFinset = texts.toFinset := by
    ext t
    rw [List.mem_toFinset, List.mem_toFinset, mem_distinctTexts]
  rw [← List.toFinset_card_of_nodup hnodup, hsame]

namespace Layout

variable {l : Layout}

theorem mem_keyIds_iff {id : KeyId} : id ∈ l.keyIds ↔ l.HasKey id := List.mem_map

/-- Where names do not repeat, what is declared is found and nothing else. -/
theorem ruleFits_iff (hnames : (l.segments.map Segment.name).Nodup)
    (hsteps : ∀ s ∈ l.segments, (s.steps.map Step.name).Nodup) {r : Rule} :
    l.RuleFits r ↔ l.UsableRule r := by
  unfold RuleFits
  simp only [Rule.check_eq_ok_iff, Option.isSome_iff_exists, step?_eq_some_iff hnames hsteps]
  exact ⟨fun h => ⟨h.1, h.2⟩, fun h => ⟨h.usable, h.destination⟩⟩

theorem stepFits_iff (hnames : (l.segments.map Segment.name).Nodup)
    (hsteps : ∀ s ∈ l.segments, (s.steps.map Step.name).Nodup) {s : Step} :
    l.StepFits s ↔ l.UsableStep s := by
  have hrules : (∀ r ∈ s.materialRules ++ s.productRules, l.RuleFits r) ↔
      (∀ r ∈ s.materialRules, l.UsableRule r) ∧ ∀ r ∈ s.productRules, l.UsableRule r := by
    simp only [ruleFits_iff hnames hsteps, List.forall_mem_append]
  constructor
  · intro h
    obtain ⟨hmaterial, hproduct⟩ := hrules.mp h.rules
    refine ⟨h.threshold_pos, ?_, ?_, hmaterial, hproduct⟩
    · rw [← length_distinctTexts]
      exact h.threshold_le
    · intro id hid
      exact mem_keyIds_iff.mp (h.keys id hid)
  · intro h
    refine ⟨h.one_le_threshold, ?_, ?_, hrules.mpr ⟨h.materialRules, h.productRules⟩⟩
    · rw [length_distinctTexts]
      exact h.threshold_le
    · intro id hid
      exact mem_keyIds_iff.mpr (h.keys id hid)

theorem WellFormed.usable (h : l.WellFormed) : l.Usable := by
  have hsteps : ∀ s ∈ l.segments, (s.steps.map Step.name).Nodup :=
    fun s hs => (h.segments s hs).names
  refine ⟨h.segments_ne_nil, fun s hs => (h.segments s hs).steps_ne_nil, h.keyIds, h.names, hsteps,
    ?_, ?_, ?_⟩
  · intro ref step hs
    exact (stepFits_iff h.names hsteps).mp (h.stepFits hs)
  · intro r hr
    exact (ruleFits_iff h.names hsteps).mp (h.endRules r hr)
  · intro id hid
    exact mem_keyIds_iff.mp (h.signers id hid)

theorem Usable.wellFormed (h : l.Usable) : l.WellFormed := by
  refine ⟨h.segments, h.keyIds, h.segmentNames, ?_, ?_, ?_⟩
  · intro s hs
    refine ⟨h.notEmpty s hs, h.stepNames s hs, ?_⟩
    intro step hstep
    have hmem : (⟨s.name, step.name⟩, step) ∈ l.steps := mem_steps.mpr ⟨s, hs, hstep, rfl⟩
    exact (stepFits_iff h.segmentNames h.stepNames).mpr (h.steps _ step hmem)
  · intro r hr
    exact (ruleFits_iff h.segmentNames h.stepNames).mpr (h.endRules r hr)
  · intro id hid
    exact mem_keyIds_iff.mpr (h.signers id hid)

end Layout

theorem validateLayout_eq_ok_iff_usable {l : Layout} : validateLayout l = .ok () ↔ l.Usable := by
  rw [validateLayout_eq_ok_iff]
  exact ⟨Layout.WellFormed.usable, Layout.Usable.wellFormed⟩

/-! ## Accepted layouts -/

/-- A layout is accepted exactly when it is usable. In an accepted layout the addresses
of the steps are all different, what is found under an address is the step that the
walk has there, and the last step is the last of the walk. -/
theorem validateLayout_exact (l : Layout) :
    (validateLayout l = .ok () ↔ l.Usable) ∧
    (validateLayout l = .ok () →
      (l.steps.map (·.1)).Nodup ∧
      (∀ ref step, l.step? ref = some step ↔ ∃ i : Nat, l.steps[i]? = some (ref, step)) ∧
      ∃ before ref step, l.steps = before ++ [(ref, step)] ∧ l.finalStep? = some ref) := by
  refine ⟨validateLayout_eq_ok_iff_usable, ?_⟩
  intro h
  have hwell := validateLayout_eq_ok_iff.mp h
  refine ⟨hwell.nodup_addresses, ?_, hwell.exists_finalStep⟩
  intro ref step
  rw [hwell.step?_eq_some_iff, List.mem_iff_getElem?]

/-- The build of the second segment is found under its own address. -/
theorem twoSegments_found :
    (TwoSegments.layout "one" "two").step? ⟨"two", "build"⟩ = some TwoSegments.step := by
  have haccepted : validateLayout (TwoSegments.layout "one" "two") = .ok () :=
    TwoSegments.validate_layout (by decide)
  obtain ⟨_, hfound, _⟩ := (validateLayout_exact (TwoSegments.layout "one" "two")).2 haccepted
  exact (hfound ⟨"two", "build"⟩ TwoSegments.step).mpr ⟨1, rfl⟩

end Provenance
