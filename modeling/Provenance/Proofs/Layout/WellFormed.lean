import Mathlib.Data.List.Nodup
import Provenance.Proofs.Checks
import Provenance.Verification.Admission

/-!
# Well-formed layouts

`validateLayout` looks for a first fault. `Layout.WellFormed` says the same
without an order of checks, and without the names seen so far that the two loops
carry along:

> `validateLayout_eq_ok_iff`: a layout is accepted iff it is well formed.

What a run needs of it most is that an address names one step
(`WellFormed.nodup_addresses`) and that there is a last step
(`WellFormed.exists_finalStep`).
-/

namespace Provenance

namespace Layout

/-- The rule has a pattern and directories that can be used, and a MATCH rule
looks at a step of the layout. -/
def RuleFits (l : Layout) (r : Rule) : Prop :=
  r.check = .ok () ∧ ∀ m, r = .matching m → (l.step? m.destination).isSome

/-- Enough different keys of the layout may sign for the step, at least one has
to, and its rules can be used. -/
structure StepFits (l : Layout) (s : Step) : Prop where
  threshold_pos : 0 < s.threshold.val
  threshold_le : s.threshold.val ≤ (distinctTexts s.authorizedKeyIds).length
  keys : ∀ id ∈ s.authorizedKeyIds, id ∈ l.keyIds
  rules : ∀ r ∈ s.materialRules ++ s.productRules, l.RuleFits r

/-- The segment has steps, with different names, and each fits. -/
structure SegmentFits (l : Layout) (s : Segment) : Prop where
  steps_ne_nil : s.steps ≠ []
  names : (s.steps.map Step.name).Nodup
  steps : ∀ step ∈ s.steps, l.StepFits step

/-- The layout can be used for a run. -/
structure WellFormed (l : Layout) : Prop where
  segments_ne_nil : l.segments ≠ []
  keyIds : l.keyIds.Nodup
  names : (l.segments.map Segment.name).Nodup
  segments : ∀ s ∈ l.segments, l.SegmentFits s
  endRules : ∀ r ∈ l.endProductRules, l.RuleFits r
  signers : ∀ id ∈ l.authorizedKeyIds, id ∈ l.keyIds

end Layout

@[simp] theorem mem_distinctTexts {texts : List String} {t : String} :
    t ∈ distinctTexts texts ↔ t ∈ texts := by
  rw [distinctTexts, List.mem_eraseDups, sortByText, List.mem_mergeSort]

theorem length_le_distinctTexts {texts : List String} (h : texts.Nodup) :
    texts.length ≤ (distinctTexts texts).length :=
  h.length_le_of_subset fun _ ht => mem_distinctTexts.mpr ht

namespace Layout

variable {l : Layout}

/-! ## Rules and steps -/

theorem checkRule_eq_ok_iff {r : Rule} : l.checkRule r = .ok () ↔ l.RuleFits r := by
  unfold checkRule RuleFits
  cases hc : r.check with
  | error cause => simp
  | ok u =>
    cases r with
    | matching m =>
      by_cases hs : (l.step? m.destination).isSome = true
      · simp [hs]
      · simp [hs]
    | _ => simp

theorem checkRules_eq_ok_iff :
    ∀ {rules : List Rule}, l.checkRules rules = .ok () ↔ ∀ r ∈ rules, l.RuleFits r
  | [] => by simp [checkRules]
  | r :: rest => by
    rw [checkRules, Checks.bind_eq_ok_iff, List.forall_mem_cons]
    constructor
    · intro h
      obtain ⟨⟨⟩, hr, hrest⟩ := h
      exact ⟨checkRule_eq_ok_iff.mp hr, checkRules_eq_ok_iff.mp hrest⟩
    · intro h
      obtain ⟨hr, hrest⟩ := h
      exact ⟨(), checkRule_eq_ok_iff.mpr hr, checkRules_eq_ok_iff.mpr hrest⟩

theorem checkStep_eq_ok_iff {ref : StepRef} {s : Step} :
    l.checkStep ref s = .ok () ↔ l.StepFits s := by
  unfold checkStep
  -- the three demands on a step are looked at one after the other
  by_cases hcount : s.threshold.val = 0 ∨ (distinctTexts s.authorizedKeyIds).length < s.threshold.val
  · simp only [hcount, if_true]
    refine ⟨fun h => (nomatch h), fun h => ?_⟩
    have hpos := h.threshold_pos
    have hle := h.threshold_le
    omega
  · simp only [hcount, if_false]
    have hpos : 0 < s.threshold.val := by omega
    have hle : s.threshold.val ≤ (distinctTexts s.authorizedKeyIds).length := by omega
    cases hkey : (distinctTexts s.authorizedKeyIds).find? fun id => id ∉ l.keyIds with
    | some key =>
      refine ⟨fun h => (nomatch h), fun h => ?_⟩
      have hmem := mem_distinctTexts.mp (List.mem_of_find?_eq_some hkey)
      exact absurd (h.keys key hmem) (by simpa using List.find?_some hkey)
    | none =>
      have hkeys : ∀ id ∈ s.authorizedKeyIds, id ∈ l.keyIds := by
        intro id hid
        simpa using List.find?_eq_none.mp hkey id (mem_distinctTexts.mpr hid)
      rw [Checks.mapError_eq_ok_iff, checkRules_eq_ok_iff]
      exact ⟨fun h => ⟨hpos, hle, hkeys, h⟩, fun h => h.rules⟩

/-! ## Names that do not repeat

The loops keep the names they have seen; what they ask is that the names are new
and different. -/

theorem checkSteps_eq_ok_iff {segment : String} :
    ∀ {steps : List Step} {seen : List String}, l.checkSteps segment seen steps = .ok () ↔
      (steps.map Step.name).Nodup ∧ (∀ s ∈ steps, s.name ∉ seen) ∧ ∀ s ∈ steps, l.StepFits s
  | [], seen => by simp [checkSteps]
  | s :: rest, seen => by
    rw [checkSteps]
    by_cases hs : s.name ∈ seen
    · rw [if_pos hs]
      exact ⟨fun h => (nomatch h), fun h => absurd hs (h.2.1 s List.mem_cons_self)⟩
    · rw [if_neg hs, Checks.bind_eq_ok_iff, List.map_cons, List.nodup_cons, List.forall_mem_cons,
        List.forall_mem_cons]
      constructor
      · intro h
        obtain ⟨⟨⟩, hfits, hrest⟩ := h
        obtain ⟨hnodup, hnew, hall⟩ := checkSteps_eq_ok_iff.mp hrest
        -- the names behind this one differ from it and from those in front
        refine ⟨⟨?_, hnodup⟩, ⟨hs, fun t ht hseen => ?_⟩, checkStep_eq_ok_iff.mp hfits, hall⟩
        · intro hmem
          obtain ⟨t, ht, hname⟩ := List.mem_map.mp hmem
          exact hnew t ht (hname ▸ List.mem_cons_self)
        · exact hnew t ht (List.mem_cons_of_mem _ hseen)
      · intro h
        obtain ⟨⟨hnot, hnodup⟩, ⟨_, hnew⟩, hfits, hall⟩ := h
        refine ⟨(), checkStep_eq_ok_iff.mpr hfits,
          checkSteps_eq_ok_iff.mpr ⟨hnodup, fun t ht hseen => ?_, hall⟩⟩
        rcases List.mem_cons.mp hseen with hname | hseen
        · exact hnot (List.mem_map.mpr ⟨t, ht, hname⟩)
        · exact hnew t ht hseen

theorem checkSegments_eq_ok_iff :
    ∀ {segments : List Segment} {seen : List String}, l.checkSegments seen segments = .ok () ↔
      (segments.map Segment.name).Nodup ∧ (∀ s ∈ segments, s.name ∉ seen) ∧
        ∀ s ∈ segments, l.SegmentFits s
  | [], seen => by simp [checkSegments]
  | s :: rest, seen => by
    rw [checkSegments]
    by_cases hs : s.name ∈ seen
    · rw [if_pos hs]
      exact ⟨fun h => (nomatch h), fun h => absurd hs (h.2.1 s List.mem_cons_self)⟩
    · rw [if_neg hs]
      by_cases hempty : s.steps.isEmpty = true
      · rw [if_pos hempty]
        refine ⟨fun h => (nomatch h), fun h => ?_⟩
        exact absurd (List.isEmpty_iff.mp hempty) (h.2.2 s List.mem_cons_self).steps_ne_nil
      · rw [if_neg hempty, Checks.bind_eq_ok_iff, List.map_cons, List.nodup_cons,
          List.forall_mem_cons, List.forall_mem_cons]
        have hne : s.steps ≠ [] := fun h => hempty (List.isEmpty_iff.mpr h)
        constructor
        · intro h
          obtain ⟨⟨⟩, hsteps, hrest⟩ := h
          obtain ⟨hnames, _, hfits⟩ := checkSteps_eq_ok_iff.mp hsteps
          obtain ⟨hnodup, hnew, hall⟩ := checkSegments_eq_ok_iff.mp hrest
          refine ⟨⟨?_, hnodup⟩, ⟨hs, fun t ht hseen => ?_⟩, ⟨hne, hnames, hfits⟩, hall⟩
          · intro hmem
            obtain ⟨t, ht, hname⟩ := List.mem_map.mp hmem
            exact hnew t ht (hname ▸ List.mem_cons_self)
          · exact hnew t ht (List.mem_cons_of_mem _ hseen)
        · intro h
          obtain ⟨⟨hnot, hnodup⟩, ⟨_, hnew⟩, hfits, hall⟩ := h
          refine ⟨(), checkSteps_eq_ok_iff.mpr ⟨hfits.names, by simp, hfits.steps⟩,
            checkSegments_eq_ok_iff.mpr ⟨hnodup, fun t ht hseen => ?_, hall⟩⟩
          rcases List.mem_cons.mp hseen with hname | hseen
          · exact hnot (List.mem_map.mpr ⟨t, ht, hname⟩)
          · exact hnew t ht hseen

/-! ## The whole layout -/

theorem check_eq_ok_iff : l.check = .ok () ↔ l.WellFormed := by
  unfold check
  by_cases hsegments : l.segments.isEmpty = true
  · rw [if_pos hsegments]
    exact ⟨fun h => (nomatch h), fun h => absurd (List.isEmpty_iff.mp hsegments) h.segments_ne_nil⟩
  · rw [if_neg hsegments]
    have hne : l.segments ≠ [] := fun h => hsegments (List.isEmpty_iff.mpr h)
    by_cases hkeys : l.keyIds.Nodup
    · rw [if_neg (not_not_intro hkeys)]
      simp only [Checks.bind_eq_ok_iff, Checks.mapError_eq_ok_iff]
      constructor
      · intro h
        obtain ⟨⟨⟩, hsegs, ⟨⟩, hend, hsigner⟩ := h
        obtain ⟨hnames, _, hall⟩ := checkSegments_eq_ok_iff.mp hsegs
        refine ⟨hne, hkeys, hnames, hall, checkRules_eq_ok_iff.mp hend, fun id hid => ?_⟩
        split at hsigner
        · exact nomatch hsigner
        · next hnone => simpa using List.find?_eq_none.mp hnone id hid
      · intro h
        have hsegs : l.checkSegments [] l.segments = .ok () :=
          checkSegments_eq_ok_iff.mpr ⟨h.names, by simp, h.segments⟩
        refine ⟨(), hsegs, (), checkRules_eq_ok_iff.mpr h.endRules, ?_⟩
        split
        · next key hkey =>
          have hmem := List.mem_of_find?_eq_some hkey
          exact absurd (h.signers key hmem) (by simpa using List.find?_some hkey)
        · rfl
    · rw [if_pos hkeys]
      exact ⟨fun h => (nomatch h), fun h => absurd h.keyIds hkeys⟩

end Layout

theorem validateLayout_eq_ok_iff {l : Layout} : validateLayout l = .ok () ↔ l.WellFormed := by
  rw [validateLayout, Checks.mapError_eq_ok_iff, Layout.check_eq_ok_iff]

/-! ## Addresses -/

namespace Layout

theorem mem_steps {l : Layout} {ref : StepRef} {step : Step} :
    (ref, step) ∈ l.steps ↔
      ∃ s ∈ l.segments, step ∈ s.steps ∧ ref = ⟨s.name, step.name⟩ := by
  simp only [steps, Segment.addressed, List.mem_flatMap, List.mem_map, Prod.mk.injEq]
  constructor
  · intro h
    obtain ⟨s, hs, t, ht, href, rfl⟩ := h
    exact ⟨s, hs, ht, href.symm⟩
  · intro h
    obtain ⟨s, hs, ht, rfl⟩ := h
    exact ⟨s, hs, step, ht, rfl, rfl⟩

theorem WellFormed.stepFits {l : Layout} (h : l.WellFormed) {ref : StepRef} {step : Step}
    (hs : (ref, step) ∈ l.steps) : l.StepFits step := by
  obtain ⟨s, hseg, hstep, _⟩ := mem_steps.mp hs
  exact (h.segments s hseg).steps step hstep

/-- Different steps have different addresses. -/
theorem WellFormed.nodup_addresses {l : Layout} (h : l.WellFormed) :
    (l.steps.map (·.1)).Nodup := by
  rw [steps, List.map_flatMap, List.nodup_flatMap]
  constructor
  · intro s hs
    have hnames := (h.segments s hs).names
    show ((s.steps.map fun step => ((⟨s.name, step.name⟩ : StepRef), step)).map (·.1)).Nodup
    rw [List.map_map]
    refine List.Nodup.of_map StepRef.stepName ?_
    rw [List.map_map]
    exact hnames
  · refine (List.pairwise_map.mp h.names).imp fun {s t} hne => ?_
    -- addresses in different segments differ in the segment's name
    intro ref hs ht
    simp only [Segment.addressed, List.map_map, List.mem_map, Function.comp_apply] at hs ht
    obtain ⟨_, _, rfl⟩ := hs
    obtain ⟨_, _, href⟩ := ht
    injection href with hname _
    exact hne hname.symm

/-- An address has one step. -/
theorem WellFormed.step_unique {l : Layout} (h : l.WellFormed) {ref : StepRef} {step step' : Step}
    (hs : (ref, step) ∈ l.steps) (hs' : (ref, step') ∈ l.steps) : step = step' := by
  have hsame := List.inj_on_of_nodup_map h.nodup_addresses hs hs' rfl
  injection hsame

theorem WellFormed.exists_finalStep {l : Layout} (h : l.WellFormed) :
    ∃ before ref step, l.steps = before ++ [(ref, step)] ∧ l.finalStep? = some ref := by
  -- the first segment has a first step
  have hne : l.steps ≠ [] := by
    obtain ⟨s, rest, hs⟩ := List.exists_cons_of_ne_nil h.segments_ne_nil
    have hseg := h.segments s (hs ▸ List.mem_cons_self)
    obtain ⟨step, _, hsteps⟩ := List.exists_cons_of_ne_nil hseg.steps_ne_nil
    intro hnil
    have hmem : ((⟨s.name, step.name⟩ : StepRef), step) ∈ l.steps :=
      mem_steps.mpr ⟨s, hs ▸ List.mem_cons_self, hsteps ▸ List.mem_cons_self, rfl⟩
    rw [hnil] at hmem
    exact nomatch hmem
  obtain ⟨before, ⟨ref, step⟩, hl⟩ := (List.eq_nil_or_concat l.steps).resolve_left hne
  rw [List.concat_eq_append] at hl
  refine ⟨before, ref, step, hl, ?_⟩
  rw [finalStep?, hl, List.getLast?_concat]
  rfl

end Layout

end Provenance
