import Provenance.Proofs.Rule.Selection
import Provenance.Proofs.Verification.Support

/-!
# What the steps of a run select

A run goes through the steps with a growing map of contents and stops at the first
step that fails. What a step makes of its links and of that map can be said without
groups and without an order of checks (`Selected`):

> `verifyStep_content_iff`: a step gets a content exactly when the content is
> `Selected` against the steps before it;
>
> `verifySteps_eq_some_iff`: all steps get contents exactly when a choice of contents
> is `Selected` along them, and then the map is made of the choice.

The induction over the steps carries the map as `chosenFrom sel verified before`: what
was verified to begin with, and under the address of each step gone through the content
chosen for it. As addresses do not repeat, a choice for the remaining steps can be
changed at the address of the first without touching the others.
-/

namespace Provenance

/-! ## What is asked of the content of a step -/

/-- The content is the only one that enough keys signed, every approval for the
step has its keys among them, and the rules of both sides explain it. -/
structure Selected (registry : Registry) (request : RunRequest) (verified : VerifiedSteps)
    (ref : StepRef) (step : Step) (content : StepArtifacts) : Prop where
  signed : HasSigners registry request ref step step.threshold.val content
  /-- No other content has that many signers. -/
  only : ∀ other, HasSigners registry request ref step step.threshold.val other → other = content
  approved : ∀ a ∈ request.approvals, a.step = ref → ∀ id ∈ a.requiredKeyIds,
    SignedBy registry request ref step content id
  materials :
    verifyRules step.materialRules (.forSide .materials content verified) = .explained
  products :
    verifyRules step.productRules (.forSide .products content verified) = .explained

/-- The verified steps, once contents were chosen for some more steps. -/
def chosenFrom (sel : StepRef → StepArtifacts) (verified : VerifiedSteps)
    (steps : List (StepRef × Step)) : VerifiedSteps :=
  steps.foldl (fun v s => v.insert s.1 (sel s.1)) verified

/-! ## The map of verified steps -/

theorem VerifiedSteps.get?_insert (v : VerifiedSteps) (ref : StepRef) (content : StepArtifacts)
    (other : StepRef) :
    (v.insert ref content).get? other = if ref = other then some content else v.get? other := by
  unfold insert get?
  rw [find?_replace Prod.fst (ref, content)]
  by_cases h : ref = other
  · rw [if_pos h, if_pos h]
    rfl
  · rw [if_neg h, if_neg h]

/-- The destinations of MATCH rules: the steps gone through, each with the content
chosen for it. -/
theorem get?_chosenFrom (sel : StepRef → StepArtifacts) (ref : StepRef) :
    ∀ (steps : List (StepRef × Step)) (v : VerifiedSteps), (chosenFrom sel v steps).get? ref =
      if ref ∈ steps.map (·.1) then some (sel ref) else v.get? ref
  | [], v => by simp [chosenFrom]
  | s :: rest, v => by
    show (chosenFrom sel (v.insert s.1 (sel s.1)) rest).get? ref = _
    rw [get?_chosenFrom sel ref rest, VerifiedSteps.get?_insert, List.map_cons]
    -- what comes later lies on top; below is the first step, then what was there
    by_cases hrest : ref ∈ rest.map (·.1)
    · rw [if_pos hrest, if_pos (List.mem_cons_of_mem _ hrest)]
    · rw [if_neg hrest]
      by_cases hs : s.1 = ref
      · rw [if_pos hs, if_pos (hs ▸ List.mem_cons_self), hs]
      · rw [if_neg hs, if_neg]
        rw [List.mem_cons]
        intro h
        rcases h with h | h
        · exact hs h.symm
        · exact hrest h

/-- Only the choices for the steps themselves matter. -/
theorem chosenFrom_congr {sel sel' : StepRef → StepArtifacts} :
    ∀ {steps : List (StepRef × Step)} {v : VerifiedSteps},
      (∀ s ∈ steps, sel s.1 = sel' s.1) → chosenFrom sel v steps = chosenFrom sel' v steps
  | [], _, _ => rfl
  | s :: rest, v, h => by
    rw [List.forall_mem_cons] at h
    show chosenFrom sel (v.insert s.1 (sel s.1)) rest = chosenFrom sel' (v.insert s.1 (sel' s.1)) rest
    rw [h.1, chosenFrom_congr h.2]

/-! ## One step -/

theorem sideViolation?_eq_none_iff (ref : StepRef) {rules : List Rule} {side : Side}
    {content : StepArtifacts} {verified : VerifiedSteps} :
    sideViolation? ref rules side content verified = none ↔
      verifyRules rules (.forSide side content verified) = .explained := by
  unfold sideViolation?
  cases verifyRules rules (.forSide side content verified) <;> simp

theorem ruleViolation?_eq_none_iff {ref : StepRef} {step : Step} {content : StepArtifacts}
    {verified : VerifiedSteps} :
    ruleViolation? ref step content verified = none ↔
      verifyRules step.materialRules (.forSide .materials content verified) = .explained ∧
      verifyRules step.productRules (.forSide .products content verified) = .explained := by
  rw [← sideViolation?_eq_none_iff ref, ← sideViolation?_eq_none_iff ref]
  unfold ruleViolation?
  cases sideViolation? ref step.materialRules .materials content verified <;> simp

theorem missingApprovals_eq_nil_iff {ref : StepRef} {approvals : List Approval}
    {signers : List KeyId} : missingApprovals ref approvals signers = [] ↔
      ∀ a ∈ approvals, a.step = ref → ∀ id ∈ a.requiredKeyIds, id ∈ signers := by
  unfold missingApprovals Approval.appliesTo
  simp [List.flatMap_eq_nil_iff, List.filter_eq_nil_iff]

theorem contentViolations_eq_nil_iff {ref : StepRef} {step : Step} {approvals : List Approval}
    {verified : VerifiedSteps} {g : SignedContent} :
    contentViolations ref step approvals verified g = [] ↔
      missingApprovals ref approvals g.signers = [] ∧
        ruleViolation? ref step g.artifacts verified = none := by
  unfold contentViolations
  cases missingApprovals ref approvals g.signers with
  | nil => simp
  | cons v rest => simp

/-- A step has a content iff one group alone has enough signers and nothing is
said against it. -/
theorem selectContent_snd_eq_some_iff {ref : StepRef} {step : Step} {approvals : List Approval}
    {verified : VerifiedSteps} {groups : List SignedContent} {content : StepArtifacts} :
    (selectContent ref step approvals verified groups).2 = some content ↔
      ∃ g, (groups.filter fun g => step.threshold.val ≤ g.signers.length) = [g] ∧
        contentViolations ref step approvals verified g = [] ∧ g.artifacts = content := by
  -- no group reaches the threshold, or one, or several
  unfold selectContent
  split
  · next hnil => simp [hnil]
  · next g hone =>
    rw [hone]
    cases hv : contentViolations ref step approvals verified g with
    | nil =>
      constructor
      · intro h
        injection h with h
        exact ⟨g, rfl, hv, h⟩
      · intro h
        obtain ⟨g', hg, _, hc⟩ := h
        injection hg with hg _
        rw [← hc, ← hg]
    | cons v rest =>
      refine ⟨fun h => (nomatch h), ?_⟩
      intro h
      obtain ⟨g', hg, hv', _⟩ := h
      injection hg with hg _
      rw [← hg, hv] at hv'
      exact nomatch hv'
  · next several _ hne =>
    refine ⟨fun h => (nomatch h), ?_⟩
    intro h
    obtain ⟨g, hg, _⟩ := h
    exact absurd hg (hne g)

/-- What is fatal in a step, and its content, come from the groups of the accepted
links. -/
theorem verifyStep_select (policy : LinkPolicy) (request : RunRequest) (verified : VerifiedSteps)
    (ref : StepRef) (step : Step) :
    ((verifyStep policy request verified ref step).fatal,
        (verifyStep policy request verified ref step).content) =
      selectContent ref step request.approvals verified
        (signedContents (acceptedLinks policy request.links ref step)) := by
  have haccepted : ∀ links : List LinkBlock,
      ((links.map fun b => (b, policy.discard? step b)).filter fun c => c.2.isNone).map (·.1) =
        links.filter fun b => (policy.discard? step b).isNone := by
    intro links
    rw [List.filter_map, List.map_map]
    exact List.map_id _
  rw [acceptedLinks, ← haccepted]
  rfl

/-- Every candidate that does not count is told of, in the order of the links. -/
theorem verifyStep_discarded (policy : LinkPolicy) (request : RunRequest)
    (verified : VerifiedSteps) (ref : StepRef) (step : Step) :
    (verifyStep policy request verified ref step).discarded =
      (candidates ref request.links).filterMap fun b =>
        (policy.discard? step b).map (discardViolation ref b) := by
  show List.filterMap _ (List.map _ _) = _
  rw [List.filterMap_map]
  rfl

theorem verifyStep_fatal (policy : LinkPolicy) (request : RunRequest) (verified : VerifiedSteps)
    (ref : StepRef) (step : Step) :
    (verifyStep policy request verified ref step).fatal =
      (selectContent ref step request.approvals verified
        (signedContents (acceptedLinks policy request.links ref step))).1 :=
  congrArg Prod.fst (verifyStep_select policy request verified ref step)

theorem verifyStep_content (policy : LinkPolicy) (request : RunRequest) (verified : VerifiedSteps)
    (ref : StepRef) (step : Step) :
    (verifyStep policy request verified ref step).content =
      (selectContent ref step request.approvals verified
        (signedContents (acceptedLinks policy request.links ref step))).2 :=
  congrArg Prod.snd (verifyStep_select policy request verified ref step)

section Step

variable {registry : Registry} {request : RunRequest} {ring : KeyRing}
  (hring : KeyRing.ofKeys registry request.layout.layout.keys = .ok ring)
  (hkeys : request.layout.layout.keyIds.Nodup)

include hring hkeys

/-- The one group that meets the threshold has the one content with enough signers. -/
theorem hasSigners_iff_of_one {ref : StepRef} {step : Step} (hpos : 0 < step.threshold.val)
    {g : SignedContent}
    (hone : ((signedContents (acceptedLinks ⟨registry, request.layout.supplyChainId, ring⟩
      request.links ref step)).filter fun g => step.threshold.val ≤ g.signers.length) = [g])
    {content : StepArtifacts} :
    HasSigners registry request ref step step.threshold.val content ↔ content = g.artifacts := by
  have hgrouped := grouped_signedContents
    (acceptedLinks ⟨registry, request.layout.supplyChainId, ring⟩ request.links ref step)
  obtain ⟨⟨hg, hcount⟩, hall⟩ := (filter_eq_singleton_iff hgrouped.contents.of_map).mp hone
  rw [hasSigners_iff hring hkeys hpos]
  constructor
  · intro h
    obtain ⟨g', hg', hcount', rfl⟩ := h
    rw [hall g' hg' (decide_eq_true hcount')]
  · rintro rfl
    exact ⟨g, hg, of_decide_eq_true hcount, rfl⟩

/-- A step gets a content exactly when the content is `Selected`. -/
theorem verifyStep_content_iff {verified : VerifiedSteps} {ref : StepRef} {step : Step}
    (hpos : 0 < step.threshold.val) {content : StepArtifacts} :
    (verifyStep ⟨registry, request.layout.supplyChainId, ring⟩ request verified ref step).content =
        some content ↔
      Selected registry request verified ref step content := by
  rw [verifyStep_content, selectContent_snd_eq_some_iff]
  have hgrouped := grouped_signedContents
    (acceptedLinks ⟨registry, request.layout.supplyChainId, ring⟩ request.links ref step)
  have hquorum : ∀ {content}, HasSigners registry request ref step step.threshold.val content ↔ _ :=
    hasSigners_iff hring hkeys hpos
  constructor
  · intro h
    obtain ⟨g, hone, hclean, rfl⟩ := h
    have hsigners : ∀ {content},
        HasSigners registry request ref step step.threshold.val content ↔ _ :=
      hasSigners_iff_of_one hring hkeys hpos hone
    have hg : g ∈ signedContents _ := List.mem_of_mem_filter (hone ▸ List.mem_singleton_self g)
    obtain ⟨happrovals, hrules⟩ := contentViolations_eq_nil_iff.mp hclean
    obtain ⟨hmaterials, hproducts⟩ := ruleViolation?_eq_none_iff.mp hrules
    refine ⟨hsigners.mpr rfl, fun other hother => hsigners.mp hother,
      fun a ha href id hid => ?_, hmaterials, hproducts⟩
    exact (mem_signers_iff hring hkeys hg).mp
      (missingApprovals_eq_nil_iff.mp happrovals a ha href id hid)
  · intro h
    obtain ⟨g, hg, hcount, rfl⟩ := hquorum.mp h.signed
    refine ⟨g, (filter_eq_singleton_iff hgrouped.contents.of_map).mpr
      ⟨⟨hg, by simpa using hcount⟩, fun other hother hcount' => ?_⟩,
      contentViolations_eq_nil_iff.mpr ⟨?_, ?_⟩, rfl⟩
    · have hsame := h.only _ (hquorum.mpr ⟨other, hother, by simpa using hcount', rfl⟩)
      exact List.inj_on_of_nodup_map hgrouped.contents hother hg hsame
    · refine missingApprovals_eq_nil_iff.mpr fun a ha href id hid => ?_
      exact (mem_signers_iff hring hkeys hg).mpr (h.approved a ha href id hid)
    · exact ruleViolation?_eq_none_iff.mpr ⟨h.materials, h.products⟩

/-! ## All steps -/

/-- Every step gets the content chosen for it, against the steps before it. -/
def SelectedAlong (registry : Registry) (request : RunRequest) (sel : StepRef → StepArtifacts)
    (verified : VerifiedSteps) (steps : List (StepRef × Step)) : Prop :=
  ∀ before ref step after, steps = before ++ (ref, step) :: after →
    Selected registry request (chosenFrom sel verified before) ref step (sel ref)

omit hring hkeys in
theorem selectedAlong_cons_iff {sel : StepRef → StepArtifacts} {verified : VerifiedSteps}
    {ref : StepRef} {step : Step} {rest : List (StepRef × Step)} :
    SelectedAlong registry request sel verified ((ref, step) :: rest) ↔
      Selected registry request verified ref step (sel ref) ∧
        SelectedAlong registry request sel (verified.insert ref (sel ref)) rest := by
  constructor
  · intro h
    refine ⟨h [] ref step rest rfl, fun before ref' step' after hl => ?_⟩
    exact h ((ref, step) :: before) ref' step' after (by rw [hl]; rfl)
  · intro h before ref' step' after hl
    obtain ⟨hfirst, hrest⟩ := h
    -- the steps behind the first are split as the rest is
    cases before with
    | nil =>
      injection hl with hs _
      injection hs with href hstep
      subst href hstep
      exact hfirst
    | cons s before =>
      injection hl with hs hl
      subst hs
      exact hrest before ref' step' after hl

omit hring hkeys in
theorem selectedAlong_nil {sel : StepRef → StepArtifacts} {verified : VerifiedSteps} :
    SelectedAlong registry request sel verified [] := by
  intro before ref step after hl
  exact absurd hl (by simp)

omit hring hkeys in
theorem SelectedAlong.congr {sel sel' : StepRef → StepArtifacts} {verified : VerifiedSteps}
    {steps : List (StepRef × Step)} (heq : ∀ s ∈ steps, sel s.1 = sel' s.1)
    (h : SelectedAlong registry request sel verified steps) :
    SelectedAlong registry request sel' verified steps := by
  intro before ref step after hl
  have hselected := h before ref step after hl
  have hbefore : ∀ s ∈ before, sel s.1 = sel' s.1 := fun s hs =>
    heq s (hl ▸ List.mem_append_left _ hs)
  have href : sel ref = sel' ref := heq (ref, step) (hl ▸ by simp)
  rw [chosenFrom_congr hbefore, href] at hselected
  exact hselected

omit hring hkeys in
theorem verifySteps_cons_eq_some_iff {policy : LinkPolicy} {verified last : VerifiedSteps}
    {ref : StepRef} {step : Step} {rest : List (StepRef × Step)} :
    (verifySteps policy request verified ((ref, step) :: rest)).2 = some last ↔
      ∃ content, (verifyStep policy request verified ref step).content = some content ∧
        (verifySteps policy request (verified.insert ref content) rest).2 = some last := by
  rw [verifySteps]
  cases hc : (verifyStep policy request verified ref step).content with
  | none => simp
  | some content => simp

/-- All steps get contents exactly when a choice of contents is `Selected` along
them. -/
theorem verifySteps_eq_some_iff :
    ∀ {steps : List (StepRef × Step)} {verified last : VerifiedSteps},
      (steps.map (·.1)).Nodup → (∀ s ∈ steps, 0 < s.2.threshold.val) →
      ((verifySteps ⟨registry, request.layout.supplyChainId, ring⟩ request verified steps).2 =
          some last ↔
        ∃ sel, last = chosenFrom sel verified steps ∧
          SelectedAlong registry request sel verified steps)
  | [], verified, last, _, _ => by
    constructor
    · intro h
      injection h with h
      exact ⟨fun _ => .empty, h.symm, selectedAlong_nil⟩
    · intro h
      obtain ⟨_, rfl, _⟩ := h
      rfl
  | (ref, step) :: rest, verified, last, hnodup, hpos => by
    rw [List.map_cons, List.nodup_cons] at hnodup
    rw [List.forall_mem_cons] at hpos
    rw [verifySteps_cons_eq_some_iff]
    constructor
    · intro h
      obtain ⟨content, hcontent, hrest⟩ := h
      obtain ⟨sel, rfl, hsel⟩ := (verifySteps_eq_some_iff hnodup.2 hpos.2).mp hrest
      -- the choice for the rest, and `content` at the address of this step
      let sel' : StepRef → StepArtifacts := fun r => if r = ref then content else sel r
      have href : sel' ref = content := if_pos rfl
      have heq : ∀ s ∈ rest, sel s.1 = sel' s.1 := fun s hs => by
        have hne : s.1 ≠ ref := fun h => hnodup.1 (List.mem_map.mpr ⟨s, hs, h⟩)
        exact (if_neg hne).symm
      refine ⟨sel', ?_, selectedAlong_cons_iff.mpr ⟨?_, ?_⟩⟩
      · show _ = chosenFrom sel' (verified.insert ref (sel' ref)) rest
        rw [href, chosenFrom_congr heq]
      · rw [href]
        exact (verifyStep_content_iff hring hkeys hpos.1).mp hcontent
      · rw [href]
        exact hsel.congr heq
    · intro h
      obtain ⟨sel, rfl, hsel⟩ := h
      obtain ⟨hfirst, hrest⟩ := selectedAlong_cons_iff.mp hsel
      refine ⟨sel ref, (verifyStep_content_iff hring hkeys hpos.1).mpr hfirst, ?_⟩
      exact (verifySteps_eq_some_iff hnodup.2 hpos.2).mpr ⟨sel, rfl, hrest⟩

end Step

end Provenance
