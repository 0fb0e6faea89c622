import Provenance.Proofs.Layout.Walk
import Provenance.Proofs.Verification.Selection

/-!
# The trail of a run

A run leaves its violations in one list, to which every step and the comparison at the
end add theirs. The list can be read without the run, for it has one shape
(`IsTrail`):

> `verifyRun_trail`: the violations of a run are those of the steps it looked at, in
> declared order. Each step tells which links it discarded, and only the last one may
> fail, in one way (`Failure`). If none fails, all steps were looked at and the list
> ends with what is wrong with the released artifacts (`Ending`). The run is valid iff
> neither is there.

What one step adds is `verifyStep_cases`. The steps behind it come with a trail of
their own, and `IsTrail.passed` puts the step in front of it.
-/

namespace Provenance

/-! ## What a trail is made of -/

/-- The fatal violations of a step that fails. It fails in one way, and only missing
approvals are told one by one. -/
inductive Failure (ref : StepRef) : List Violation → Prop
  | threshold (required signers : Nat) : Failure ref [.thresholdNotMet ref required signers]
  | conflict (candidates : Nat) : Failure ref [.conflictingLinks ref candidates]
  | approvals {ids : List KeyId} : ids ≠ [] → Failure ref (ids.map (.approvalMissing ref))
  | rule (side : Side) (index : Nat) (rule : String) :
      Failure ref [.ruleFailed ref side index rule]
  | unexplained (side : Side) (artifacts : List Artifact) :
      Failure ref [.unexplainedArtifacts ref side artifacts]

/-- What is wrong with the released artifacts: a rule fails or leaves some of them
over, and they are not the expected ones; each at most once. -/
def Ending (violations : List Violation) : Prop :=
  ∃ rules mismatch : Option Violation, violations = rules.toList ++ mismatch.toList ∧
    (∀ v ∈ rules, (∃ index rule, v = .endProductRuleFailed index rule) ∨
      ∃ artifacts, v = .endProductsUnexplained artifacts) ∧
    ∀ v ∈ mismatch, ∃ missing unexpected, v = .endProductMismatch missing unexpected

/-- What a step that was looked at adds to the trail. -/
structure StepTrail where
  ref : StepRef
  discarded : List Violation
  /-- What makes the step fail; empty if it does not. -/
  fatal : List Violation

/-- All that the step adds. -/
def StepTrail.violations (t : StepTrail) : List Violation := t.discarded ++ t.fatal

/-- The violations tell of links that the step discarded. -/
def Discards (ref : StepRef) (violations : List Violation) : Prop :=
  ∀ v ∈ violations, ∃ runId keyId reason, v = .linkDiscarded ref runId keyId reason

/-- The parts of the trail that a run along these addresses leaves. -/
structure IsTrail (walk : List StepRef) (steps : List StepTrail) (ending : List Violation) :
    Prop where
  /-- The steps are looked at in order, from the first one on. -/
  order : steps.map StepTrail.ref <+: walk
  discards : ∀ t ∈ steps, Discards t.ref t.discarded
  failure : ∀ t ∈ steps, t.fatal = [] ∨ Failure t.ref t.fatal
  /-- Nothing comes after a step that fails. -/
  last : ∀ before t after, steps = before ++ t :: after → t.fatal ≠ [] → after = [] ∧ ending = []
  /-- If no step fails, there is none that was not looked at. -/
  all : (∀ t ∈ steps, t.fatal = []) → steps.map StepTrail.ref = walk ∧ Ending ending

theorem Failure.ne_nil {ref : StepRef} {violations : List Violation}
    (h : Failure ref violations) : violations ≠ [] := by
  cases h with
  | approvals hids => exact fun h => hids (List.map_eq_nil_iff.mp h)
  | _ => exact List.cons_ne_nil _ _

theorem Failure.isFatal {ref : StepRef} {violations : List Violation}
    (h : Failure ref violations) : ∀ v ∈ violations, v.isFatal = true := by
  intro v hv
  cases h with
  | approvals _ =>
    obtain ⟨id, _, rfl⟩ := List.mem_map.mp hv
    rfl
  | _ =>
    rw [List.mem_singleton.mp hv]
    rfl

theorem Discards.isFatal {ref : StepRef} {violations : List Violation}
    (h : Discards ref violations) : ∀ v ∈ violations, v.isFatal = false := by
  intro v hv
  obtain ⟨_, _, _, rfl⟩ := h v hv
  rfl

theorem Ending.isFatal {violations : List Violation} (h : Ending violations) :
    ∀ v ∈ violations, v.isFatal = true := by
  intro v hv
  obtain ⟨rules, mismatch, rfl, hrules, hmismatch⟩ := h
  rcases List.mem_append.mp hv with hv | hv
  · rcases hrules v (Option.mem_toList.mp hv) with ⟨_, _, rfl⟩ | ⟨_, rfl⟩ <;> rfl
  · obtain ⟨_, _, rfl⟩ := hmismatch v (Option.mem_toList.mp hv)
    rfl

namespace IsTrail

variable {ref : StepRef} {walk : List StepRef} {discarded fatal ending : List Violation}
  {steps : List StepTrail}

/-- No step is left. -/
theorem ended (h : Ending ending) : IsTrail [] [] ending where
  order := List.prefix_rfl
  discards := by simp
  failure := by simp
  last := by simp
  all _ := ⟨rfl, h⟩

/-- The first step fails. -/
theorem failed (hd : Discards ref discarded) (hf : Failure ref fatal) :
    IsTrail (ref :: walk) [⟨ref, discarded, fatal⟩] [] where
  order := ⟨walk, rfl⟩
  discards := by simpa using hd
  failure := by simpa using .inr hf
  last before t after h _ := by
    cases before with
    | nil =>
      injection h with _ hafter
      exact ⟨hafter.symm, rfl⟩
    | cons s before =>
      injection h with _ hafter
      exact absurd hafter (by simp)
  all h := absurd (h _ List.mem_cons_self) hf.ne_nil

/-- The first step passes, and the others follow. -/
theorem passed (hd : Discards ref discarded) (h : IsTrail walk steps ending) :
    IsTrail (ref :: walk) (⟨ref, discarded, []⟩ :: steps) ending where
  order := List.cons_prefix_cons.mpr ⟨rfl, h.order⟩
  discards := List.forall_mem_cons.mpr ⟨hd, h.discards⟩
  failure := List.forall_mem_cons.mpr ⟨.inl rfl, h.failure⟩
  last before t after hsteps ht := by
    -- the step that fails is not the first one
    cases before with
    | nil =>
      injection hsteps with hfirst _
      exact absurd (hfirst ▸ rfl) ht
    | cons s before =>
      injection hsteps with _ hsteps
      exact h.last before t after hsteps ht
  all hall := by
    obtain ⟨hwalk, hend⟩ := h.all (List.forall_mem_cons.mp hall).2
    exact ⟨congrArg (ref :: ·) hwalk, hend⟩

/-- Nothing in a trail is fatal iff no step fails and nothing is said at the end. -/
theorem not_fatal_iff (h : IsTrail walk steps ending) :
    (∀ v ∈ steps.flatMap StepTrail.violations ++ ending, v.isFatal = false) ↔
      (∀ t ∈ steps, t.fatal = []) ∧ ending = [] := by
  rw [List.forall_mem_append]
  constructor
  · intro hclean
    obtain ⟨hsteps, hending⟩ := hclean
    have hpassed : ∀ t ∈ steps, t.fatal = [] := by
      intro t ht
      rcases h.failure t ht with hnil | hf
      · exact hnil
      · obtain ⟨v, hv⟩ := List.exists_mem_of_ne_nil _ hf.ne_nil
        have hclean := hsteps v (List.mem_flatMap.mpr ⟨t, ht, List.mem_append_right _ hv⟩)
        rw [hf.isFatal v hv] at hclean
        exact nomatch hclean
    refine ⟨hpassed, List.eq_nil_iff_forall_not_mem.mpr fun v hv => ?_⟩
    have hfatal := (h.all hpassed).2.isFatal v hv
    rw [hending v hv] at hfatal
    exact nomatch hfatal
  · intro hnone
    obtain ⟨hpassed, rfl⟩ := hnone
    refine ⟨fun v hv => ?_, fun v hv => nomatch hv⟩
    obtain ⟨t, ht, hv⟩ := List.mem_flatMap.mp hv
    rw [StepTrail.violations, hpassed t ht, List.append_nil] at hv
    exact (h.discards t ht).isFatal v hv

end IsTrail

/-! ## One step -/

/-- The keys whose approval is asked for at a step and that are not among the signers. -/
def missingKeys (ref : StepRef) (approvals : List Approval) (signers : List KeyId) : List KeyId :=
  (approvals.filter fun a => a.appliesTo ref).flatMap fun a =>
    a.requiredKeyIds.filter fun id => id ∉ signers

theorem missingApprovals_eq (ref : StepRef) (approvals : List Approval) (signers : List KeyId) :
    missingApprovals ref approvals signers =
      (missingKeys ref approvals signers).map (.approvalMissing ref) := by
  rw [missingApprovals, missingKeys, List.map_flatMap]

section Content

variable {ref : StepRef} {step : Step} {approvals : List Approval} {verified : VerifiedSteps}
  {g : SignedContent}

theorem contentViolations_of_approved (h : missingKeys ref approvals g.signers = []) :
    contentViolations ref step approvals verified g =
      (ruleViolation? ref step g.artifacts verified).toList := by
  rw [contentViolations, missingApprovals_eq, h]
  rfl

theorem contentViolations_of_missing (h : missingKeys ref approvals g.signers ≠ []) :
    contentViolations ref step approvals verified g =
      (missingKeys ref approvals g.signers).map (.approvalMissing ref) := by
  obtain ⟨id, rest, hids⟩ := List.exists_cons_of_ne_nil h
  rw [contentViolations, missingApprovals_eq, hids]
  rfl

theorem ruleViolation?_failure {content : StepArtifacts} {v : Violation}
    (h : ruleViolation? ref step content verified = some v) : Failure ref [v] := by
  rcases ruleViolation?_eq_some h with ⟨side, index, rule, rfl⟩ | ⟨side, artifacts, rfl⟩
  · exact .rule side index rule
  · exact .unexplained side artifacts

/-- Approvals are missing, or else one rule list at most is not satisfied. -/
theorem contentViolations_failure (h : contentViolations ref step approvals verified g ≠ []) :
    Failure ref (contentViolations ref step approvals verified g) := by
  by_cases hids : missingKeys ref approvals g.signers = []
  · rw [contentViolations_of_approved hids] at h ⊢
    cases hv : ruleViolation? ref step g.artifacts verified with
    | none => exact absurd (by rw [hv]; rfl) h
    | some v => exact ruleViolation?_failure hv
  · rw [contentViolations_of_missing hids]
    exact .approvals hids

end Content

/-- A step has a content and nothing fatal to tell, or it fails. -/
theorem selectContent_cases (ref : StepRef) (step : Step) (approvals : List Approval)
    (verified : VerifiedSteps) (groups : List SignedContent) :
    (∃ content, selectContent ref step approvals verified groups = ([], some content)) ∨
      ∃ fatal, selectContent ref step approvals verified groups = (fatal, none) ∧
        Failure ref fatal := by
  unfold selectContent
  split
  · exact .inr ⟨_, rfl, .threshold _ _⟩
  · next g _ =>
    have hfailure : contentViolations ref step approvals verified g ≠ [] → Failure ref _ :=
      contentViolations_failure
    cases hv : contentViolations ref step approvals verified g with
    | nil => exact .inl ⟨_, rfl⟩
    | cons v rest =>
      rw [hv] at hfailure
      exact .inr ⟨_, rfl, hfailure (List.cons_ne_nil _ _)⟩
  · exact .inr ⟨_, rfl, .conflict _⟩

theorem verifyStep_cases (policy : LinkPolicy) (request : RunRequest) (verified : VerifiedSteps)
    (ref : StepRef) (step : Step) :
    (∃ content, (verifyStep policy request verified ref step).content = some content ∧
        (verifyStep policy request verified ref step).fatal = []) ∨
      (verifyStep policy request verified ref step).content = none ∧
        Failure ref (verifyStep policy request verified ref step).fatal := by
  rw [verifyStep_content, verifyStep_fatal]
  rcases selectContent_cases ref step request.approvals verified _ with ⟨content, h⟩ | ⟨_, h, hf⟩
  · exact .inl ⟨content, by rw [h], by rw [h]⟩
  · exact .inr ⟨by rw [h], by rw [h]; exact hf⟩

theorem discards_discarded (policy : LinkPolicy) (request : RunRequest) (verified : VerifiedSteps)
    (ref : StepRef) (step : Step) :
    Discards ref (verifyStep policy request verified ref step).discarded := by
  intro v hv
  obtain ⟨_, reason, rfl⟩ := exists_of_mem_discarded hv
  exact ⟨_, _, reason, rfl⟩

theorem ending_endViolations (request : RunRequest) (verified : VerifiedSteps) :
    Ending (endViolations request verified) :=
  ⟨_, _, rfl, fun _ hv => endRuleViolation?_eq_some hv, fun _ hv => mismatch?_eq_some hv⟩

/-! ## All steps -/

/-- What a run has to tell from some of its steps on. -/
def violationsFrom (policy : LinkPolicy) (request : RunRequest) (verified : VerifiedSteps)
    (steps : List (StepRef × Step)) : List Violation :=
  (verifySteps policy request verified steps).1 ++
    (verifySteps policy request verified steps).2.elim [] (endViolations request)

section Steps

variable {policy : LinkPolicy} {request : RunRequest} {verified : VerifiedSteps} {ref : StepRef}
  {step : Step}

theorem violationsFrom_cons_of_some {content : StepArtifacts}
    (hc : (verifyStep policy request verified ref step).content = some content)
    (rest : List (StepRef × Step)) :
    violationsFrom policy request verified ((ref, step) :: rest) =
      (verifyStep policy request verified ref step).violations ++
        violationsFrom policy request (verified.insert ref content) rest := by
  unfold violationsFrom
  rw [verifySteps]
  simp only [hc, List.append_assoc]

theorem violationsFrom_cons_of_none
    (hc : (verifyStep policy request verified ref step).content = none)
    (rest : List (StepRef × Step)) :
    violationsFrom policy request verified ((ref, step) :: rest) =
      (verifyStep policy request verified ref step).violations := by
  unfold violationsFrom
  rw [verifySteps]
  simp only [hc, Option.elim_none, List.append_nil]

/-- A step stands in front of the trail of the steps behind it. -/
theorem exists_isTrail_cons (policy : LinkPolicy) (request : RunRequest) (verified : VerifiedSteps)
    (ref : StepRef) (step : Step) {rest : List (StepRef × Step)}
    (hrest : ∀ verified, ∃ trails ending, IsTrail (rest.map (·.1)) trails ending ∧
      violationsFrom policy request verified rest =
        trails.flatMap StepTrail.violations ++ ending) :
    ∃ after ending, IsTrail (ref :: rest.map (·.1))
        (⟨ref, (verifyStep policy request verified ref step).discarded,
          (verifyStep policy request verified ref step).fatal⟩ :: after) ending ∧
      violationsFrom policy request verified ((ref, step) :: rest) =
        (verifyStep policy request verified ref step).violations ++
          (after.flatMap StepTrail.violations ++ ending) := by
  have hd := discards_discarded policy request verified ref step
  rcases verifyStep_cases policy request verified ref step with ⟨content, hc, hf⟩ | ⟨hc, hf⟩
  · obtain ⟨after, ending, htrail, heq⟩ := hrest (verified.insert ref content)
    refine ⟨after, ending, ?_, ?_⟩
    · rw [hf]
      exact htrail.passed hd
    · rw [violationsFrom_cons_of_some hc, heq]
  · refine ⟨[], [], .failed hd hf, ?_⟩
    rw [violationsFrom_cons_of_none hc]
    exact (List.append_nil _).symm

end Steps

theorem exists_isTrail (policy : LinkPolicy) (request : RunRequest) :
    ∀ (steps : List (StepRef × Step)) (verified : VerifiedSteps),
      ∃ trails ending, IsTrail (steps.map (·.1)) trails ending ∧
        (verifySteps policy request verified steps).1 ++
            (verifySteps policy request verified steps).2.elim [] (endViolations request) =
          trails.flatMap StepTrail.violations ++ ending
  | [], verified => ⟨[], _, .ended (ending_endViolations request verified), rfl⟩
  | (ref, step) :: rest, verified => by
    obtain ⟨after, ending, htrail, heq⟩ := exists_isTrail_cons policy request verified ref step
      (exists_isTrail policy request rest)
    refine ⟨_, ending, htrail, heq.trans ?_⟩
    rw [List.flatMap_cons, List.append_assoc]
    rfl

/-- The violations of a run are a trail along the walk of its layout, and the run is
valid iff no step fails and nothing is said at the end. -/
theorem verifyRun_trail {registry : Registry} {request : RunRequest} {result : RunResult}
    (h : verifyRun registry request = .ok result) :
    ∃ steps ending, IsTrail request.layout.layout.walk steps ending ∧
      result.violations = steps.flatMap StepTrail.violations ++ ending ∧
      (result.isValid = true ↔ (∀ t ∈ steps, t.fatal = []) ∧ ending = []) := by
  obtain ⟨policy, _, rfl⟩ := verifyRun_eq_ok_iff.mp h
  obtain ⟨steps, ending, htrail, heq⟩ :=
    exists_isTrail policy request request.layout.layout.steps .empty
  rw [← runViolations_eq] at heq
  refine ⟨steps, ending, htrail, heq, ?_⟩
  rw [isValid_ofViolations_iff, heq]
  exact htrail.not_fatal_iff

/-! ## A link of another supply chain -/

namespace OneStep

def foreign : LinkBlock := { link with supplyChainId := "other" }

def foreignRequest : RunRequest := request.withLinks [foreign]

theorem runViolations_foreign (ring : KeyRing) :
    runViolations ⟨registry, request.layout.supplyChainId, ring⟩ foreignRequest =
      [.linkDiscarded ref "run" key.keyId .wrongSupplyChain, .thresholdNotMet ref 1 0] := rfl

end OneStep

/-- The only link is discarded, so the step fails and products are not compared. -/
theorem foreignLink_trail : ∃ result, verifyRun OneStep.registry OneStep.foreignRequest = .ok result ∧
    result.violations = [.linkDiscarded OneStep.ref "run" OneStep.key.keyId .wrongSupplyChain,
      .thresholdNotMet OneStep.ref 1 0] ∧
    ∃ steps ending, IsTrail [OneStep.ref] steps ending ∧
      result.violations = steps.flatMap StepTrail.violations ++ ending ∧
      (result.isValid = true ↔ (∀ t ∈ steps, t.fatal = []) ∧ ending = []) := by
  obtain ⟨_, hresult⟩ := OneStep.exists_verifyRun
  obtain ⟨ring, hadmitted, _⟩ := exists_admitted hresult
  have hrun := (hadmitted.withLinks [OneStep.foreign]).verifyRun_eq
  exact ⟨_, hrun, OneStep.runViolations_foreign ring, verifyRun_trail hrun⟩

end Provenance
