import Provenance.Proofs.Verification.Selection

/-!
# The contents that a run selects

A run gives one step after the other a content, up to the first step that fails.
`runContents` lists what it gave, whatever became of the run in the end:

> `Admitted.selected_of_mem`: every content of the list was `Selected` by its step;
>
> `Admitted.isValid_iff_along`: the run is valid iff there is a choice of contents
> along all steps with nothing wrong at the end, and then the list is that choice
> (`Admitted.runContents_along`).

`selectedContents` takes the same way through the steps as `verifySteps` does and
keeps what that forgets when a step fails. Of a run that gets through, nothing is
forgotten: the list has every step, and MATCH rules see the map made of it
(`verifySteps_eq_some_contents`).
-/

namespace Provenance

/-! ## Going through the steps -/

/-- The contents that steps are given, up to the first step that fails. -/
def selectedContents (policy : LinkPolicy) (r : RunRequest) :
    VerifiedSteps → List (StepRef × Step) → List (StepRef × StepArtifacts)
  | _, [] => []
  | verified, (ref, step) :: rest =>
    match (verifyStep policy r verified ref step).content with
    | none => []
    | some content => (ref, content) :: selectedContents policy r (verified.insert ref content) rest

/-- The contents that a run gives to its steps; none if there is no run. -/
def runContents (registry : Registry) (r : RunRequest) : List (StepRef × StepArtifacts) :=
  match runPolicy registry r with
  | .error _ => []
  | .ok policy => selectedContents policy r .empty r.layout.layout.steps

section Steps

variable {policy : LinkPolicy} {r : RunRequest}

theorem selectedContents_cons {verified : VerifiedSteps} {ref : StepRef} {step : Step}
    {content : StepArtifacts} (h : (verifyStep policy r verified ref step).content = some content)
    (rest : List (StepRef × Step)) :
    selectedContents policy r verified ((ref, step) :: rest) =
      (ref, content) :: selectedContents policy r (verified.insert ref content) rest := by
  rw [selectedContents, h]

theorem exists_verifyStep_of_mem {ref : StepRef} {content : StepArtifacts} :
    ∀ {steps : List (StepRef × Step)} {verified : VerifiedSteps},
      (ref, content) ∈ selectedContents policy r verified steps →
      ∃ step verified', (ref, step) ∈ steps ∧
        (verifyStep policy r verified' ref step).content = some content
  | [], _, h => by
    rw [selectedContents] at h
    exact nomatch h
  | (ref', step) :: rest, verified, h => by
    rw [selectedContents] at h
    cases hc : (verifyStep policy r verified ref' step).content with
    | none =>
      rw [hc] at h
      exact nomatch h
    | some content' =>
      rw [hc] at h
      -- it is the content of this step, or one of the steps behind has it
      rcases List.mem_cons.mp h with heq | h
      · injection heq with href hcontent
        subst href hcontent
        exact ⟨step, verified, List.mem_cons_self, hc⟩
      · obtain ⟨step', verified', hs, hv⟩ := exists_verifyStep_of_mem h
        exact ⟨step', verified', List.mem_cons_of_mem _ hs, hv⟩

/-- When no step fails, the map of verified steps is made of the contents, and there
is one for every step. -/
theorem verifySteps_eq_some_contents {last : VerifiedSteps} :
    ∀ {steps : List (StepRef × Step)} {verified : VerifiedSteps},
      (verifySteps policy r verified steps).2 = some last →
      (selectedContents policy r verified steps).map (·.1) = steps.map (·.1) ∧
        last = (selectedContents policy r verified steps).foldl (fun v c => v.insert c.1 c.2) verified
  | [], verified, h => by
    injection h with h
    exact ⟨rfl, h.symm⟩
  | (ref, step) :: rest, verified, h => by
    obtain ⟨content, hcontent, hrest⟩ := verifySteps_cons_eq_some_iff.mp h
    obtain ⟨haddresses, hlast⟩ := verifySteps_eq_some_contents hrest
    rw [selectedContents_cons hcontent, List.map_cons, List.map_cons, haddresses]
    exact ⟨rfl, hlast⟩

end Steps

/-! ## Runs -/

section Run

variable {registry : Registry} {r : RunRequest} {ring : KeyRing} (h : Admitted registry r ring)

include h

theorem Admitted.runContents_eq : runContents registry r =
    selectedContents ⟨registry, r.layout.supplyChainId, ring⟩ r .empty r.layout.layout.steps := by
  rw [runContents, h.policy]

theorem Admitted.content_iff {verified : VerifiedSteps} {s : StepRef × Step}
    (hs : s ∈ r.layout.layout.steps) {content : StepArtifacts} :
    (verifyStep ⟨registry, r.layout.supplyChainId, ring⟩ r verified s.1 s.2).content =
        some content ↔ Selected registry r verified s.1 s.2 content :=
  verifyStep_content_iff h.keys h.wellFormed.keyIds (h.threshold_pos hs)

/-- A content that a run gives to a step is one that the step selects. -/
theorem Admitted.selected_of_mem {ref : StepRef} {content : StepArtifacts}
    (hmem : (ref, content) ∈ runContents registry r) :
    ∃ step verified, (ref, step) ∈ r.layout.layout.steps ∧
      Selected registry r verified ref step content := by
  rw [h.runContents_eq] at hmem
  obtain ⟨step, verified, hs, hcontent⟩ := exists_verifyStep_of_mem hmem
  exact ⟨step, verified, hs, (h.content_iff hs).mp hcontent⟩

theorem Admitted.verifySteps_iff {last : VerifiedSteps} :
    (verifySteps ⟨registry, r.layout.supplyChainId, ring⟩ r .empty r.layout.layout.steps).2 =
        some last ↔
      ∃ sel, last = chosenFrom sel .empty r.layout.layout.steps ∧
        SelectedAlong registry r sel .empty r.layout.layout.steps :=
  verifySteps_eq_some_iff h.keys h.wellFormed.keyIds h.wellFormed.nodup_addresses
    fun _ => h.threshold_pos

/-- The run is valid iff contents can be chosen along its steps and nothing is wrong
with them at the end. -/
theorem Admitted.isValid_iff_along :
    (RunResult.ofViolations
        (runViolations ⟨registry, r.layout.supplyChainId, ring⟩ r)).isValid = true ↔
      ∃ sel, SelectedAlong registry r sel .empty r.layout.layout.steps ∧
        ∀ v ∈ endViolations r (chosenFrom sel .empty r.layout.layout.steps), v.isFatal = false := by
  rw [isValid_ofViolations_iff, runViolations_not_fatal_iff]
  simp only [h.verifySteps_iff]
  constructor
  · intro hvalid
    obtain ⟨_, ⟨sel, rfl, hsel⟩, hend⟩ := hvalid
    exact ⟨sel, hsel, hend⟩
  · intro hvalid
    obtain ⟨sel, hsel, hend⟩ := hvalid
    exact ⟨_, ⟨sel, rfl, hsel⟩, hend⟩

theorem Admitted.selectedContents_along {sel : StepRef → StepArtifacts} :
    ∀ {steps : List (StepRef × Step)} {verified : VerifiedSteps},
      (∀ s ∈ steps, s ∈ r.layout.layout.steps) → SelectedAlong registry r sel verified steps →
      selectedContents ⟨registry, r.layout.supplyChainId, ring⟩ r verified steps =
        steps.map fun s => (s.1, sel s.1)
  | [], _, _, _ => rfl
  | (ref, step) :: rest, verified, hsub, hsel => by
    rw [List.forall_mem_cons] at hsub
    obtain ⟨hfirst, hrest⟩ := selectedAlong_cons_iff.mp hsel
    rw [selectedContents_cons ((h.content_iff hsub.1).mpr hfirst), List.map_cons,
      selectedContents_along hsub.2 hrest]

/-- A choice along all steps is what the run gives to them. -/
theorem Admitted.runContents_along {sel : StepRef → StepArtifacts}
    (hsel : SelectedAlong registry r sel .empty r.layout.layout.steps) :
    runContents registry r = r.layout.layout.steps.map fun s => (s.1, sel s.1) := by
  rw [h.runContents_eq]
  exact h.selectedContents_along (fun _ hs => hs) hsel

end Run

/-! ## A valid run -/

namespace Pipeline

/-- The run is valid. -/
theorem exists_valid : ∃ result, verifyRun OneStep.registry request = .ok result ∧
    result.isValid = true := by
  obtain ⟨result, hresult⟩ := exists_verifyRun
  obtain ⟨ring, hr, rfl⟩ := exists_admitted hresult
  have hend : endViolations request (chosenFrom sel .empty request.layout.layout.steps) = [] := by
    decide +kernel
  refine ⟨_, hresult, hr.isValid_iff_along.mpr ⟨sel, selectedAlong, fun v hv => ?_⟩⟩
  rw [hend] at hv
  exact nomatch hv

end Pipeline

end Provenance
