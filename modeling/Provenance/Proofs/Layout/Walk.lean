import Provenance.Proofs.Layout.Similar
import Provenance.Proofs.Layout.WellFormed

/-!
# The walk of a layout

A run looks at the steps of a layout in the order in which they are declared, the
`walk`. Layouts that are similar declare the same steps, and nothing else is fixed:

> `Layout.WellFormed.exists_similar_iff`: the walks of the layouts that are similar
> to a well-formed one are its rearrangements, segments in any order and in each
> its steps in any order, and no others.

What is declared at an address is the same in all of them, up to the order of key
ids (`Layout.Similar.exists_step`), and all are well formed or none
(`Layout.WellFormed.of_similar`). So layouts with one walk declare the same steps
one by one (`Layout.Similar.steps_of_walk_eq`).
-/

namespace Provenance

/-! ## Addresses in order -/

/-- The addresses of the steps, in declared order. -/
def Segment.addresses (s : Segment) : List StepRef := s.addressed.map (·.1)

namespace Layout

/-- The addresses of all steps, in declared order. -/
def walk (l : Layout) : List StepRef := l.steps.map (·.1)

/-- The walk goes through the same segments and in each through the same steps, both
in any order. -/
def Rearranges (l : Layout) (walk : List StepRef) : Prop :=
  ∃ blocks, PermBy List.Perm (l.segments.map Segment.addresses) blocks ∧ walk = blocks.flatten

end Layout

theorem Segment.addresses_eq (s : Segment) :
    s.addresses = s.steps.map fun step => ⟨s.name, step.name⟩ := by
  simp [addresses, addressed]

theorem Layout.walk_eq_flatten (l : Layout) :
    l.walk = (l.segments.map Segment.addresses).flatten := by
  rw [walk, steps, List.map_flatMap, List.flatMap_def]
  rfl

theorem Layout.finalStep?_eq (l : Layout) : l.finalStep? = l.walk.getLast? := by
  rw [finalStep?, walk, List.getLast?_map]

theorem Segment.Similar.addresses_perm {s t : Segment} (h : s.Similar t) :
    s.addresses.Perm t.addresses := by
  rw [addresses_eq, addresses_eq, h.name, ← permBy_eq_iff]
  exact h.steps.map fun a b hab => by rw [hab.name]

/-! ## What similar layouts have in common -/

theorem Step.Similar.refl (s : Step) : s.Similar s := ⟨rfl, .refl _, rfl, rfl, rfl⟩

theorem Step.Similar.symm {s t : Step} (h : s.Similar t) : t.Similar s :=
  ⟨h.name.symm, h.keyIds.symm, h.threshold.symm, h.materialRules.symm, h.productRules.symm⟩

theorem Step.Similar.isAuthorized {s t : Step} (h : s.Similar t) (key : KeyId) :
    s.isAuthorized key = t.isAuthorized key :=
  decide_eq_decide.mpr h.keyIds.mem_iff

theorem distinctTexts_congr {l m : List String} (h : l.Perm m) :
    distinctTexts l = distinctTexts m := by
  rw [distinctTexts, distinctTexts, sortByText_id_eq_iff.mpr h]

namespace Layout

variable {l m : Layout}

/-- At every address the layouts declare the same step, up to the order of key ids. -/
theorem Similar.exists_step (h : l.Similar m) {ref : StepRef} {step : Step}
    (hs : (ref, step) ∈ l.steps) : ∃ step', (ref, step') ∈ m.steps ∧ step.Similar step' := by
  obtain ⟨s, hseg, hstep, rfl⟩ := mem_steps.mp hs
  obtain ⟨s', hseg', hs'⟩ := h.segments.exists_right hseg
  obtain ⟨step', hstep', hsim⟩ := hs'.steps.exists_right hstep
  refine ⟨step', mem_steps.mpr ⟨s', hseg', hstep', ?_⟩, hsim⟩
  rw [hs'.name, hsim.name]

/-- In a well-formed layout an address has one step, and it is found. -/
theorem step?_eq_some_iff (hnames : (l.segments.map Segment.name).Nodup)
    (hsteps : ∀ s ∈ l.segments, (s.steps.map Step.name).Nodup) {ref : StepRef} {step : Step} :
    l.step? ref = some step ↔ (ref, step) ∈ l.steps := by
  have hfind : l.step? ref = some step ↔ ∃ s, l.segment? ref.segmentName = some s ∧
      s.steps.find? (fun t => t.name = ref.stepName) = some step := Option.bind_eq_some_iff
  rw [hfind, mem_steps]
  unfold segment?
  simp only [find?_eq_some_iff_of_nodup hnames]
  constructor
  · intro h
    obtain ⟨s, ⟨hs, hname⟩, hstep⟩ := h
    obtain ⟨hmem, hname'⟩ := (find?_eq_some_iff_of_nodup (hsteps s hs)).mp hstep
    refine ⟨s, hs, hmem, ?_⟩
    rw [hname, hname']
  · intro h
    obtain ⟨s, hs, hmem, rfl⟩ := h
    exact ⟨s, ⟨hs, rfl⟩, (find?_eq_some_iff_of_nodup (hsteps s hs)).mpr ⟨hmem, rfl⟩⟩

theorem WellFormed.step?_eq_some_iff (h : l.WellFormed) {ref : StepRef} {step : Step} :
    l.step? ref = some step ↔ (ref, step) ∈ l.steps :=
  Layout.step?_eq_some_iff h.names fun s hs => (h.segments s hs).names

theorem Similar.keyIds_perm (h : l.Similar m) : l.keyIds.Perm m.keyIds := h.keys.map _

theorem Similar.names_perm (h : l.Similar m) :
    (l.segments.map Segment.name).Perm (m.segments.map Segment.name) := by
  rw [← permBy_eq_iff]
  exact h.segments.map fun _ _ hab => hab.name

theorem Similar.nodup_names (h : l.Similar m) (hl : l.WellFormed) :
    ∀ s ∈ m.segments, (s.steps.map Step.name).Nodup := by
  intro s hs
  obtain ⟨s', hs', hsim⟩ := h.segments.exists_left hs
  have hperm : (s'.steps.map Step.name).Perm (s.steps.map Step.name) := by
    rw [← permBy_eq_iff]
    exact hsim.steps.map fun _ _ hab => hab.name
  exact hperm.nodup_iff.mp (hl.segments s' hs').names

theorem Similar.ruleFits (h : l.Similar m) (hl : l.WellFormed) {r : Rule} (hr : l.RuleFits r) :
    m.RuleFits r := by
  refine ⟨hr.1, fun rule hrule => ?_⟩
  obtain ⟨step, hstep⟩ := Option.isSome_iff_exists.mp (hr.2 rule hrule)
  -- the destination is declared here too
  obtain ⟨step', hmem, _⟩ := h.exists_step (hl.step?_eq_some_iff.mp hstep)
  have hnames := h.names_perm.nodup_iff.mp hl.names
  rw [(step?_eq_some_iff hnames (h.nodup_names hl)).mpr hmem]
  rfl

theorem Similar.stepFits (h : l.Similar m) (hl : l.WellFormed) {s t : Step} (hsim : s.Similar t)
    (hs : l.StepFits s) : m.StepFits t where
  threshold_pos := hsim.threshold ▸ hs.threshold_pos
  threshold_le := by
    rw [← hsim.threshold, ← distinctTexts_congr hsim.keyIds]
    exact hs.threshold_le
  keys id hid := h.keyIds_perm.mem_iff.mp (hs.keys id (hsim.keyIds.mem_iff.mpr hid))
  rules r hr := by
    rw [← hsim.materialRules, ← hsim.productRules] at hr
    exact h.ruleFits hl (hs.rules r hr)

/-- Whatever is well formed stays so in another order. -/
theorem WellFormed.of_similar (hl : l.WellFormed) (h : l.Similar m) : m.WellFormed where
  segments_ne_nil hnil := by
    obtain ⟨s, rest, hs⟩ := List.exists_cons_of_ne_nil hl.segments_ne_nil
    obtain ⟨s', hs', _⟩ := h.segments.exists_right (hs ▸ List.mem_cons_self)
    rw [hnil] at hs'
    exact nomatch hs'
  keyIds := h.keyIds_perm.nodup_iff.mp hl.keyIds
  names := h.names_perm.nodup_iff.mp hl.names
  segments s hs := by
    obtain ⟨s', hs', hsim⟩ := h.segments.exists_left hs
    have hfits := hl.segments s' hs'
    refine ⟨fun hnil => ?_, h.nodup_names hl s hs, fun t ht => ?_⟩
    · obtain ⟨t, rest, ht⟩ := List.exists_cons_of_ne_nil hfits.steps_ne_nil
      obtain ⟨t', ht', _⟩ := hsim.steps.exists_right (ht ▸ List.mem_cons_self)
      rw [hnil] at ht'
      exact nomatch ht'
    · obtain ⟨t', ht', hstep⟩ := hsim.steps.exists_left ht
      exact h.stepFits hl hstep (hfits.steps t' ht')
  endRules r hr := by
    rw [← h.endProductRules] at hr
    exact h.ruleFits hl (hl.endRules r hr)
  signers id hid := h.keyIds_perm.mem_iff.mp (hl.signers id (h.keyIds.mem_iff.mpr hid))

/-! ## Which walks there are -/

theorem Similar.rearranges (h : l.Similar m) : l.Rearranges m.walk :=
  ⟨m.segments.map Segment.addresses, h.segments.map fun _ _ hab => hab.addresses_perm,
    m.walk_eq_flatten⟩

theorem Rearranges.perm {walk : List StepRef} (h : l.Rearranges walk) : l.walk.Perm walk := by
  obtain ⟨blocks, ⟨blocks', hperm, hrel⟩, rfl⟩ := h
  rw [walk_eq_flatten]
  exact (List.Perm.flatten_congr hrel).trans hperm.flatten

/-- A segment whose addresses are listed in another order is a segment with its
steps in another order. -/
theorem exists_segments {segments : List Segment} {blocks : List (List StepRef)}
    (h : List.Forall₂ (fun s block => s.addresses.Perm block) segments blocks) :
    ∃ segments', List.Forall₂ Segment.Similar segments segments' ∧
      segments'.map Segment.addresses = blocks := by
  induction h with
  | nil => exact ⟨[], .nil, rfl⟩
  | @cons s block _ _ hperm _ ih =>
    obtain ⟨segments', hsim, hmap⟩ := ih
    rw [Segment.addresses_eq] at hperm
    obtain ⟨steps, hsteps, hblock⟩ := exists_perm_map_eq hperm
    have hsimilar : s.Similar ⟨s.name, steps⟩ :=
      ⟨rfl, s.steps, hsteps, List.forall₂_same.mpr fun t _ => .refl t⟩
    refine ⟨⟨s.name, steps⟩ :: segments', .cons hsimilar hsim, ?_⟩
    rw [List.map_cons, hmap, Segment.addresses_eq, hblock]

/-- Every rearrangement is the walk of a similar layout. -/
theorem Rearranges.exists_similar {walk : List StepRef} (h : l.Rearranges walk) :
    ∃ m, l.Similar m ∧ m.walk = walk := by
  obtain ⟨blocks, ⟨blocks', hperm, hrel⟩, rfl⟩ := h
  rw [List.forall₂_map_left_iff] at hrel
  obtain ⟨segments, hsim, rfl⟩ := exists_segments hrel
  -- the segments are rearranged after their steps
  obtain ⟨segments', hperm', rfl⟩ := exists_perm_map_eq hperm
  refine ⟨{ l with segments := segments' }, ⟨.refl _, .refl _, ⟨segments, hperm', hsim⟩, rfl⟩, ?_⟩
  exact walk_eq_flatten _

theorem WellFormed.exists_similar_iff (hl : l.WellFormed) {walk : List StepRef} :
    (∃ m, m.WellFormed ∧ l.Similar m ∧ m.walk = walk) ↔ l.Rearranges walk := by
  constructor
  · intro h
    obtain ⟨m, _, hsim, rfl⟩ := h
    exact hsim.rearranges
  · intro h
    obtain ⟨m, hsim, hwalk⟩ := h.exists_similar
    exact ⟨m, hl.of_similar hsim, hsim, hwalk⟩

/-- Similar layouts with one walk declare the same steps in the same order. -/
theorem Similar.steps_of_walk_eq (h : l.Similar m) (hm : m.WellFormed) (hwalk : l.walk = m.walk) :
    List.Forall₂ (fun s t => s.1 = t.1 ∧ s.2.Similar t.2) l.steps m.steps := by
  have haddresses : List.Forall₂ (fun s t => s.1 = t.1) l.steps m.steps := by
    rw [walk, walk, ← List.forall₂_eq_eq_eq] at hwalk
    rwa [List.forall₂_map_left_iff, List.forall₂_map_right_iff] at hwalk
  refine forall₂_imp_of_mem haddresses ?_
  rintro ⟨ref, step⟩ hs ⟨ref', step'⟩ ht rfl
  obtain ⟨step'', hmem, hsim⟩ := h.exists_step hs
  obtain rfl := hm.step_unique hmem ht
  exact ⟨rfl, hsim⟩

end Layout

end Provenance
