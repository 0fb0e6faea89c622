import Provenance.Proofs.Verification.Step

/-!
# What makes a run invalid

A run is valid when none of its violations is fatal. A discarded link is told of and
is not fatal; whatever else is said of a step, or at the end, is:

> `verifyStep_not_fatal_iff`: nothing fatal is said of a step iff it has a content;
>
> `runViolations_not_fatal_iff`: nothing fatal is said of a run iff all its steps have
> contents and nothing is wrong with them at the end.

Every check gives violations of a few kinds (`exists_of_mem_contentViolations`,
`exists_of_mem_discarded`, `exists_of_mem_endViolations`), and a kind is fatal or it is
not.
-/

namespace Provenance

theorem isValid_ofViolations_iff {violations : List Violation} :
    (RunResult.ofViolations violations).isValid = true ↔ ∀ v ∈ violations, v.isFatal = false := by
  simp [RunResult.ofViolations]

/-! ## The steps -/

theorem sideViolation?_eq_some {ref : StepRef} {rules : List Rule} {side : Side}
    {content : StepArtifacts} {verified : VerifiedSteps} {v : Violation}
    (h : sideViolation? ref rules side content verified = some v) :
    (∃ index rule, v = .ruleFailed ref side index rule) ∨
      ∃ artifacts, v = .unexplainedArtifacts ref side artifacts := by
  unfold sideViolation? at h
  split at h
  · exact nomatch h
  · injection h with h
    exact .inl ⟨_, _, h.symm⟩
  · injection h with h
    exact .inr ⟨_, h.symm⟩

/-- The rules of one side are not satisfied. -/
theorem ruleViolation?_eq_some {ref : StepRef} {step : Step} {content : StepArtifacts}
    {verified : VerifiedSteps} {v : Violation}
    (h : ruleViolation? ref step content verified = some v) :
    (∃ side index rule, v = .ruleFailed ref side index rule) ∨
      ∃ side artifacts, v = .unexplainedArtifacts ref side artifacts := by
  have hside : ∀ {rules side}, sideViolation? ref rules side content verified = some v →
      (∃ side index rule, v = .ruleFailed ref side index rule) ∨
        ∃ side artifacts, v = .unexplainedArtifacts ref side artifacts := by
    intro rules side hv
    rcases sideViolation?_eq_some hv with ⟨index, rule, hv⟩ | ⟨artifacts, hv⟩
    · exact .inl ⟨side, index, rule, hv⟩
    · exact .inr ⟨side, artifacts, hv⟩
  unfold ruleViolation? at h
  split at h
  · next v' hv' =>
    injection h with h
    exact hside (h ▸ hv')
  · exact hside h

/-- A content may lack approvals, or the rules of one side are not satisfied. -/
theorem exists_of_mem_contentViolations {ref : StepRef} {step : Step} {approvals : List Approval}
    {verified : VerifiedSteps} {g : SignedContent} {v : Violation}
    (h : v ∈ contentViolations ref step approvals verified g) :
    (∃ id, v = .approvalMissing ref id) ∨ (∃ side index rule, v = .ruleFailed ref side index rule) ∨
      ∃ side artifacts, v = .unexplainedArtifacts ref side artifacts := by
  -- rules are looked at only when no approval is missing
  unfold contentViolations at h
  split at h
  · exact .inr (ruleViolation?_eq_some (Option.mem_toList.mp h))
  · unfold missingApprovals at h
    obtain ⟨a, _, hv⟩ := List.mem_flatMap.mp h
    obtain ⟨id, _, rfl⟩ := List.mem_map.mp hv
    exact .inl ⟨id, rfl⟩

theorem isFatal_of_mem_contentViolations {ref : StepRef} {step : Step} {approvals : List Approval}
    {verified : VerifiedSteps} {g : SignedContent} {v : Violation}
    (h : v ∈ contentViolations ref step approvals verified g) : v.isFatal = true := by
  rcases exists_of_mem_contentViolations h with ⟨_, rfl⟩ | ⟨_, _, _, rfl⟩ | ⟨_, _, rfl⟩
  · rfl
  · rfl
  · rfl

/-- Either a step has a content or something fatal is said. -/
theorem selectContent_not_fatal_iff {ref : StepRef} {step : Step} {approvals : List Approval}
    {verified : VerifiedSteps} {groups : List SignedContent} :
    (∀ v ∈ (selectContent ref step approvals verified groups).1, v.isFatal = false) ↔
      ∃ content, (selectContent ref step approvals verified groups).2 = some content := by
  unfold selectContent
  split
  · simp [Violation.isFatal]
  · next g _ =>
    cases hv : contentViolations ref step approvals verified g with
    | nil => simp
    | cons v rest =>
      have hfatal := isFatal_of_mem_contentViolations (hv ▸ List.mem_cons_self)
      simp [hfatal]
  · simp [Violation.isFatal]

theorem isFatal_of_mem_selectContent {ref : StepRef} {step : Step} {approvals : List Approval}
    {verified : VerifiedSteps} {groups : List SignedContent} {v : Violation}
    (hv : v ∈ (selectContent ref step approvals verified groups).1) : v.isFatal = true := by
  unfold selectContent at hv
  split at hv
  · rw [List.mem_singleton.mp hv]
    rfl
  · split at hv
    · exact nomatch hv
    · exact isFatal_of_mem_contentViolations hv
  · rw [List.mem_singleton.mp hv]
    rfl

theorem exists_of_mem_discarded {policy : LinkPolicy} {request : RunRequest}
    {verified : VerifiedSteps} {ref : StepRef} {step : Step} {v : Violation}
    (hv : v ∈ (verifyStep policy request verified ref step).discarded) :
    ∃ link reason, v = discardViolation ref link reason := by
  rw [verifyStep_discarded] at hv
  obtain ⟨link, _, hreason⟩ := List.mem_filterMap.mp hv
  obtain ⟨reason, _, rfl⟩ := Option.map_eq_some_iff.mp hreason
  exact ⟨link, reason, rfl⟩

theorem isFatal_of_mem_discarded {policy : LinkPolicy} {request : RunRequest}
    {verified : VerifiedSteps} {ref : StepRef} {step : Step} {v : Violation}
    (hv : v ∈ (verifyStep policy request verified ref step).discarded) : v.isFatal = false := by
  obtain ⟨_, _, rfl⟩ := exists_of_mem_discarded hv
  rfl

theorem isFatal_of_mem_fatal {policy : LinkPolicy} {request : RunRequest}
    {verified : VerifiedSteps} {ref : StepRef} {step : Step} {v : Violation}
    (hv : v ∈ (verifyStep policy request verified ref step).fatal) : v.isFatal = true := by
  rw [verifyStep_fatal] at hv
  exact isFatal_of_mem_selectContent hv

theorem verifyStep_not_fatal_iff {policy : LinkPolicy} {request : RunRequest}
    {verified : VerifiedSteps} {ref : StepRef} {step : Step} :
    (∀ v ∈ (verifyStep policy request verified ref step).violations, v.isFatal = false) ↔
      ∃ content, (verifyStep policy request verified ref step).content = some content := by
  rw [StepResult.violations, List.forall_mem_append]
  exact (and_iff_right fun _ => isFatal_of_mem_discarded).trans selectContent_not_fatal_iff

theorem verifySteps_not_fatal_iff {policy : LinkPolicy} {request : RunRequest} :
    ∀ {steps : List (StepRef × Step)} {verified : VerifiedSteps},
      (∀ v ∈ (verifySteps policy request verified steps).1, v.isFatal = false) ↔
        ∃ last, (verifySteps policy request verified steps).2 = some last
  | [], verified => by simp [verifySteps]
  | (ref, step) :: rest, verified => by
    have hstep : (∀ v ∈ (verifyStep policy request verified ref step).violations,
        v.isFatal = false) ↔ _ := verifyStep_not_fatal_iff
    rw [verifySteps]
    -- a step without content ends the run, and something fatal was said of it
    cases hc : (verifyStep policy request verified ref step).content with
    | none =>
      rw [hc] at hstep
      simpa using hstep
    | some content =>
      have hclean := hstep.mpr ⟨content, hc⟩
      show (∀ v : Violation, v ∈ _ ++ _ → v.isFatal = false) ↔ _
      rw [List.forall_mem_append]
      exact (and_iff_right hclean).trans verifySteps_not_fatal_iff

/-! ## The end -/

theorem endRuleViolation?_eq_none_iff {l : Layout} {verified : VerifiedSteps} :
    endRuleViolation? l verified = none ↔ (l.endProductRules ≠ [] →
      verifyRules l.endProductRules (.forSide .products (finalContent l verified) verified) =
        .explained) := by
  unfold endRuleViolation?
  cases hrules : l.endProductRules with
  | nil => simp
  | cons r rest =>
    simp only [List.isEmpty_cons, Bool.false_eq_true, if_false, ne_eq, reduceCtorEq,
      not_false_eq_true, forall_const]
    cases verifyRules (r :: rest) (.forSide .products (finalContent l verified) verified) <;> simp

theorem mismatch?_eq_none_iff {expected : List Artifact} {products : ArtifactSet} :
    mismatch? expected products = none ↔ ∀ a, a ∈ products ↔ a ∈ expected := by
  have hempty : ∀ s t : ArtifactSet, (s.diff t).isEmpty = true ↔ ∀ a, a ∈ s → a ∈ t := by
    intro s t
    rw [ArtifactSet.isEmpty_iff]
    simp [not_and]
  have hnone : mismatch? expected products = none ↔
      ((ArtifactSet.ofList expected).diff products).isEmpty = true ∧
        (products.diff (.ofList expected)).isEmpty = true := by
    rw [← Bool.and_eq_true]
    simp only [mismatch?]
    split
    · next h => simp [h]
    · next h => simp [h]
  rw [hnone, hempty, hempty]
  simp only [ArtifactSet.mem_ofList]
  constructor
  · intro h a
    obtain ⟨hmissing, hunexpected⟩ := h
    exact ⟨hunexpected a, hmissing a⟩
  · intro h
    exact ⟨fun a => (h a).mpr, fun a => (h a).mp⟩

theorem endRuleViolation?_eq_some {l : Layout} {verified : VerifiedSteps} {v : Violation}
    (h : endRuleViolation? l verified = some v) :
    (∃ index rule, v = .endProductRuleFailed index rule) ∨
      ∃ artifacts, v = .endProductsUnexplained artifacts := by
  unfold endRuleViolation? at h
  split at h
  · exact nomatch h
  · split at h
    · exact nomatch h
    · injection h with h
      exact .inl ⟨_, _, h.symm⟩
    · injection h with h
      exact .inr ⟨_, h.symm⟩

theorem mismatch?_eq_some {expected : List Artifact} {products : ArtifactSet} {v : Violation}
    (h : mismatch? expected products = some v) :
    ∃ missing unexpected, v = .endProductMismatch missing unexpected := by
  simp only [mismatch?] at h
  split at h
  · exact nomatch h
  · injection h with h
    exact ⟨_, _, h.symm⟩

/-- At the end the rules for released artifacts may not be satisfied, and the
products may not be those expected. -/
theorem exists_of_mem_endViolations {request : RunRequest} {verified : VerifiedSteps}
    {v : Violation} (h : v ∈ endViolations request verified) :
    (∃ index rule, v = .endProductRuleFailed index rule) ∨
      (∃ artifacts, v = .endProductsUnexplained artifacts) ∨
      ∃ missing unexpected, v = .endProductMismatch missing unexpected := by
  rcases List.mem_append.mp h with h | h
  · rcases endRuleViolation?_eq_some (Option.mem_toList.mp h) with hrule | hleft
    · exact .inl hrule
    · exact .inr (.inl hleft)
  · exact .inr (.inr (mismatch?_eq_some (Option.mem_toList.mp h)))

/-- Whatever is wrong at the end is fatal. -/
theorem isFatal_of_mem_endViolations {request : RunRequest} {verified : VerifiedSteps}
    {v : Violation} (h : v ∈ endViolations request verified) : v.isFatal = true := by
  rcases exists_of_mem_endViolations h with ⟨_, _, rfl⟩ | ⟨_, rfl⟩ | ⟨_, _, rfl⟩
  · rfl
  · rfl
  · rfl

theorem endViolations_eq_nil_iff {request : RunRequest} {verified : VerifiedSteps} :
    endViolations request verified = [] ↔
      endRuleViolation? request.layout.layout verified = none ∧
        mismatch? request.expected (finalContent request.layout.layout verified).products =
          none := by
  rw [endViolations, List.append_eq_nil_iff, Option.toList_eq_nil_iff, Option.toList_eq_nil_iff]

theorem endViolations_not_fatal_iff {request : RunRequest} {verified : VerifiedSteps} :
    (∀ v ∈ endViolations request verified, v.isFatal = false) ↔
      endRuleViolation? request.layout.layout verified = none ∧
        mismatch? request.expected (finalContent request.layout.layout verified).products =
          none := by
  rw [← endViolations_eq_nil_iff, List.eq_nil_iff_forall_not_mem]
  constructor
  · intro h v hv
    exact absurd (isFatal_of_mem_endViolations hv) (by simp [h v hv])
  · intro h v hv
    exact absurd hv (h v)

/-! ## The run -/

theorem runViolations_eq (policy : LinkPolicy) (request : RunRequest) :
    runViolations policy request =
      (verifySteps policy request .empty request.layout.layout.steps).1 ++
        (verifySteps policy request .empty request.layout.layout.steps).2.elim []
          (endViolations request) := by
  unfold runViolations
  rcases verifySteps policy request .empty request.layout.layout.steps with ⟨violations, _ | last⟩
  · exact (List.append_nil _).symm
  · rfl

theorem runViolations_not_fatal_iff {policy : LinkPolicy} {request : RunRequest} :
    (∀ v ∈ runViolations policy request, v.isFatal = false) ↔
      ∃ last, (verifySteps policy request .empty request.layout.layout.steps).2 = some last ∧
        ∀ v ∈ endViolations request last, v.isFatal = false := by
  have hsteps : (∀ v ∈ (verifySteps policy request .empty request.layout.layout.steps).1,
      v.isFatal = false) ↔ _ := verifySteps_not_fatal_iff
  unfold runViolations
  rcases hrun : verifySteps policy request .empty request.layout.layout.steps with ⟨violations, last⟩
  rw [hrun] at hsteps
  cases last with
  | none => simpa using hsteps
  | some last =>
    have hclean := hsteps.mpr ⟨last, rfl⟩
    rw [List.forall_mem_append]
    refine (and_iff_right hclean).trans ?_
    simp

end Provenance
