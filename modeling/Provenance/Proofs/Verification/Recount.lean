import Provenance.Proofs.Verification.Selection

/-!
# One list for a whole run

`verifyStep` gives each step a result of its own, with every discarded link told once.
A run can also hand a single list of violations from step to step, to which a step adds
while it groups its links. When no content has enough signers, the step groups the
links again to say how many there are, and so tells of the discarded ones a second
time; the list is then cut back to the length that it had before. The two come to the
same:

> `runOnto_eq`: a run along one list leaves the violations that `runViolations` gives.

Grouping puts the same violations at the end of whatever list it is given
(`tallyOnto_eq`), so what the cut takes off is what the second grouping put on, however
long the list was and whatever was in it (`recountOnto_eq`).
-/

namespace Provenance

/-! ## Grouping onto a list -/

/-- The list of violations, and the groups of the links seen so far. -/
structure Tally where
  told : List Violation
  groups : List SignedContent

/-- One more candidate: it joins the group of its content, or it is told of. -/
def Tally.add (policy : LinkPolicy) (ref : StepRef) (step : Step) (t : Tally) (b : LinkBlock) :
    Tally :=
  match policy.discard? step b with
  | some reason => { t with told := t.told ++ [discardViolation ref b reason] }
  | none => { t with groups := addSigner b.link.content b.signature.keyId t.groups }

/-- The candidates of a step grouped, onto a list. -/
def tallyOnto (policy : LinkPolicy) (ref : StepRef) (step : Step) (links : List LinkBlock)
    (told : List Violation) : Tally :=
  (candidates ref links).foldl (Tally.add policy ref step) ⟨told, []⟩

/-- Groups the candidates once more to count the signers of the best content. The list
is given back as long as it was. -/
def recountOnto (policy : LinkPolicy) (ref : StepRef) (step : Step) (links : List LinkBlock)
    (told : List Violation) : Nat × List Violation :=
  let again := tallyOnto policy ref step links told
  (bestSignerCount again.groups, again.told.take told.length)

section Tally

variable {policy : LinkPolicy} {ref : StepRef} {step : Step}

theorem foldl_tally_add :
    ∀ (links : List LinkBlock) (t : Tally), links.foldl (Tally.add policy ref step) t =
      ⟨t.told ++ links.filterMap fun b => (policy.discard? step b).map (discardViolation ref b),
        (links.filter fun b => (policy.discard? step b).isNone).foldl
          (fun groups b => addSigner b.link.content b.signature.keyId groups) t.groups⟩
  | [], t => by simp
  | b :: rest, t => by
    rw [List.foldl_cons, foldl_tally_add rest, Tally.add]
    cases h : policy.discard? step b with
    | none => simp [h]
    | some reason => simp [h]

theorem tallyOnto_eq (request : RunRequest) (verified : VerifiedSteps) (told : List Violation) :
    tallyOnto policy ref step request.links told =
      ⟨told ++ (verifyStep policy request verified ref step).discarded,
        signedContents (acceptedLinks policy request.links ref step)⟩ := by
  rw [tallyOnto, foldl_tally_add, verifyStep_discarded]
  rfl

/-- What the second grouping tells is cut off again. -/
theorem recountOnto_eq (request : RunRequest) (told : List Violation) :
    recountOnto policy ref step request.links told =
      (bestSignerCount (signedContents (acceptedLinks policy request.links ref step)), told) := by
  rw [recountOnto, tallyOnto_eq request .empty]
  simp only [List.take_left]

end Tally

/-! ## Steps and runs -/

/-- Verifies a step, onto a list. -/
def stepOnto (policy : LinkPolicy) (request : RunRequest) (verified : VerifiedSteps)
    (ref : StepRef) (step : Step) (told : List Violation) :
    List Violation × Option StepArtifacts :=
  let t := tallyOnto policy ref step request.links told
  match t.groups.filter fun g => step.threshold.val ≤ g.signers.length with
  | [] =>
    let again := recountOnto policy ref step request.links t.told
    (again.2 ++ [.thresholdNotMet ref step.threshold.val again.1], none)
  | [content] =>
    match contentViolations ref step request.approvals verified content with
    | [] => (t.told, some content.artifacts)
    | violations => (t.told ++ violations, none)
  | several => (t.told ++ [.conflictingLinks ref several.length], none)

/-- Verifies steps in order up to the first that fails, onto a list. -/
def stepsOnto (policy : LinkPolicy) (request : RunRequest) :
    VerifiedSteps → List (StepRef × Step) → List Violation → List Violation × Option VerifiedSteps
  | verified, [], told => (told, some verified)
  | verified, (ref, step) :: rest, told =>
    let result := stepOnto policy request verified ref step told
    match result.2 with
    | none => (result.1, none)
    | some content => stepsOnto policy request (verified.insert ref content) rest result.1

/-- All violations of a run, in one list from its first step to its end. -/
def runOnto (policy : LinkPolicy) (request : RunRequest) : List Violation :=
  let result := stepsOnto policy request .empty request.layout.layout.steps []
  result.1 ++ result.2.elim [] (endViolations request)

variable {policy : LinkPolicy} {request : RunRequest}

theorem stepOnto_eq (verified : VerifiedSteps) (ref : StepRef) (step : Step)
    (told : List Violation) :
    stepOnto policy request verified ref step told =
      (told ++ (verifyStep policy request verified ref step).violations,
        (verifyStep policy request verified ref step).content) := by
  rw [StepResult.violations, verifyStep_fatal, verifyStep_content, stepOnto,
    tallyOnto_eq request verified told, selectContent]
  simp only [recountOnto_eq]
  rcases hreached : (signedContents (acceptedLinks policy request.links ref step)).filter
    fun g => step.threshold.val ≤ g.signers.length with _ | ⟨content, _ | ⟨other, rest⟩⟩
  · simp only [hreached, List.append_assoc]
  · simp only [hreached]
    cases contentViolations ref step request.approvals verified content with
    | nil => simp only [List.append_nil]
    | cons v rest => simp only [List.append_assoc]
  · simp only [hreached, List.append_assoc]

theorem stepsOnto_eq :
    ∀ (steps : List (StepRef × Step)) (verified : VerifiedSteps) (told : List Violation),
      stepsOnto policy request verified steps told =
        (told ++ (verifySteps policy request verified steps).1,
          (verifySteps policy request verified steps).2)
  | [], verified, told => by
    rw [stepsOnto, verifySteps, List.append_nil]
  | (ref, step) :: rest, verified, told => by
    rw [stepsOnto, verifySteps, stepOnto_eq]
    cases (verifyStep policy request verified ref step).content with
    | none => rfl
    | some content =>
      show stepsOnto policy request _ rest _ = _
      rw [stepsOnto_eq rest, List.append_assoc]

/-- Keeping one list and cutting it back leaves what separate results do. -/
theorem runOnto_eq (policy : LinkPolicy) (request : RunRequest) :
    runOnto policy request = runViolations policy request := by
  rw [runOnto, stepsOnto_eq, runViolations_eq, List.nil_append]

end Provenance
