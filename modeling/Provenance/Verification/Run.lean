import Provenance.Link
import Provenance.Rule.Evaluation
import Provenance.Verification.Admission
import Provenance.Verification.Violation

/-!
# Verification runs

Steps are looked at in declared order. The links for a step are checked, and those that are accepted
are grouped by their content with the keys that signed it. Exactly one content has to have enough
signers; it becomes the content of the step if approvals and rules allow it. MATCH rules see the
steps before. The first step that fails ends the run; when none does, the products of the last step
are compared with what is going to be released.
-/

namespace Provenance

/-- What a run is about. -/
structure RunRequest where
  layout : LayoutBlock
  links : List LinkBlock
  /-- What is going to be released. -/
  expected : List Artifact
  approvals : List Approval
  deriving Repr, Inhabited

/-- What links are checked against. -/
structure LinkPolicy where
  registry : Registry
  supplyChainId : String
  keys : KeyRing

/-- The artifacts of a link, as sets. -/
def Link.content (l : Link) : StepArtifacts := ⟨.ofList l.materials, .ofList l.products⟩

/-- Tells whether a signature over a link is by that key. -/
def Link.isSignedBy (registry : Registry) (l : Link) (s : Signature) (key : PublicKey) :
    Except CryptoError Bool := isValidText registry l.canonicalText s key

/-- The key by which a link for a step has to be signed: the one it names, if that may sign. -/
def LinkPolicy.signer? (p : LinkPolicy) (step : Step) (s : Signature) : Option PublicKey :=
  if step.isAuthorized s.keyId then p.keys.get? s.keyId else none

/-- Why a link for a step does not count, if it does not. -/
def LinkPolicy.discard? (p : LinkPolicy) (step : Step) (b : LinkBlock) : Option DiscardReason :=
  if b.supplyChainId ≠ p.supplyChainId then some .wrongSupplyChain
  else if !b.link.duplicates.isEmpty then some .duplicateArtifacts
  else
    match p.signer? step b.signature with
    | none => some .unauthorizedSigner
    | some key =>
      match b.link.isSignedBy p.registry b.signature key with
      | .ok true => none
      | .ok false => some .invalidSignature
      | .error _ => some .unusableSignature

/-- The links for a step. -/
def candidates (ref : StepRef) (links : List LinkBlock) : List LinkBlock :=
  links.filter fun b => b.link.step = ref

/-- A content of a step and the different keys that signed it. -/
structure SignedContent where
  artifacts : StepArtifacts
  signers : List KeyId
  deriving DecidableEq, Repr

/-- Adds a signer of a content. -/
def addSigner (artifacts : StepArtifacts) (key : KeyId) : List SignedContent → List SignedContent
  | [] => [⟨artifacts, [key]⟩]
  | g :: rest =>
    if g.artifacts = artifacts then
      (if key ∈ g.signers then g else { g with signers := key :: g.signers }) :: rest
    else g :: addSigner artifacts key rest

/-- The contents of accepted links with their signers. -/
def signedContents (accepted : List LinkBlock) : List SignedContent :=
  accepted.foldl (fun groups b => addSigner b.link.content b.signature.keyId groups) []

/-- The largest number of signers behind one content. -/
def bestSignerCount (groups : List SignedContent) : Nat :=
  groups.foldl (fun n g => max n g.signers.length) 0

/-- The approvals that a content lacks. -/
def missingApprovals (ref : StepRef) (approvals : List Approval) (signers : List KeyId) :
    List Violation :=
  (approvals.filter fun a => a.appliesTo ref).flatMap fun a =>
    (a.requiredKeyIds.filter fun id => id ∉ signers).map fun id => .approvalMissing ref id

/-- What the rules of a step say against one side of a content. -/
def sideViolation? (ref : StepRef) (rules : List Rule) (side : Side) (artifacts : StepArtifacts)
    (verified : VerifiedSteps) : Option Violation :=
  match verifyRules rules (.forSide side artifacts verified) with
  | .explained => none
  | .ruleFailed index rule => some (.ruleFailed ref side index rule.describe)
  | .unexplained artifacts => some (.unexplainedArtifacts ref side artifacts)

/-- What the rules of a step say against a content: the first side that is wrong. -/
def ruleViolation? (ref : StepRef) (step : Step) (artifacts : StepArtifacts)
    (verified : VerifiedSteps) : Option Violation :=
  match sideViolation? ref step.materialRules .materials artifacts verified with
  | some v => some v
  | none => sideViolation? ref step.productRules .products artifacts verified

/-- What approvals and rules say against a content. -/
def contentViolations (ref : StepRef) (step : Step) (approvals : List Approval)
    (verified : VerifiedSteps) (content : SignedContent) : List Violation :=
  match missingApprovals ref approvals content.signers with
  | [] => (ruleViolation? ref step content.artifacts verified).toList
  | missing => missing

/-- How a step turned out. -/
structure StepResult where
  /-- Links that do not count. -/
  discarded : List Violation
  /-- What makes the step fail. -/
  fatal : List Violation
  /-- The content of the step, if it did not fail. -/
  content : Option StepArtifacts
  deriving DecidableEq, Repr

namespace StepResult

/-- All violations. -/
def violations (r : StepResult) : List Violation := r.discarded ++ r.fatal

end StepResult

/-- What becomes of the contents that have signers: the fatal violations of the step and, if there
is none, its content. -/
def selectContent (ref : StepRef) (step : Step) (approvals : List Approval)
    (verified : VerifiedSteps) (groups : List SignedContent) :
    List Violation × Option StepArtifacts :=
  match groups.filter fun g => step.threshold.val ≤ g.signers.length with
  | [] => ([.thresholdNotMet ref step.threshold.val (bestSignerCount groups)], none)
  | [content] =>
    match contentViolations ref step approvals verified content with
    | [] => ([], some content.artifacts)
    | violations => (violations, none)
  | several => ([.conflictingLinks ref several.length], none)

/-- The violation of a link that does not count. -/
def discardViolation (ref : StepRef) (b : LinkBlock) (reason : DiscardReason) : Violation :=
  .linkDiscarded ref b.link.runId b.signature.keyId reason

/-- Verifies a step after the steps that are verified already. -/
def verifyStep (policy : LinkPolicy) (request : RunRequest) (verified : VerifiedSteps)
    (ref : StepRef) (step : Step) : StepResult :=
  let checked := (candidates ref request.links).map fun b => (b, policy.discard? step b)
  let discarded := checked.filterMap fun c => c.2.map (discardViolation ref c.1)
  let accepted := (checked.filter fun c => c.2.isNone).map (·.1)
  let (fatal, content) :=
    selectContent ref step request.approvals verified (signedContents accepted)
  ⟨discarded, fatal, content⟩

/-- Verifies steps in order up to the first that fails. Gives all violations and, if no step failed,
the contents of the steps. -/
def verifySteps (policy : LinkPolicy) (request : RunRequest) :
    VerifiedSteps → List (StepRef × Step) → List Violation × Option VerifiedSteps
  | verified, [] => ([], some verified)
  | verified, (ref, step) :: rest =>
    let result := verifyStep policy request verified ref step
    match result.content with
    | none => (result.violations, none)
    | some content =>
      let (violations, last) :=
        verifySteps policy request (verified.insert ref content) rest
      (result.violations ++ violations, last)

/-- The content of the last step. -/
def finalContent (l : Layout) (verified : VerifiedSteps) : StepArtifacts :=
  (l.finalStep?.bind verified.get?).getD .empty

/-- What the rules for released artifacts say against the last content. -/
def endRuleViolation? (l : Layout) (verified : VerifiedSteps) : Option Violation :=
  if l.endProductRules.isEmpty then none
  else
    match verifyRules l.endProductRules (.forSide .products (finalContent l verified) verified) with
    | .explained => none
    | .ruleFailed index rule => some (.endProductRuleFailed index rule.describe)
    | .unexplained artifacts => some (.endProductsUnexplained artifacts)

/-- How the last products differ from what is expected. -/
def mismatch? (expected : List Artifact) (products : ArtifactSet) : Option Violation :=
  let expected := ArtifactSet.ofList expected
  let missing := expected.diff products
  let unexpected := products.diff expected
  if missing.isEmpty && unexpected.isEmpty then none
  else some (.endProductMismatch missing.toList unexpected.toList)

/-- What is wrong with the products of the last step. -/
def endViolations (request : RunRequest) (verified : VerifiedSteps) : List Violation :=
  let layout := request.layout.layout
  (endRuleViolation? layout verified).toList
    ++ (mismatch? request.expected (finalContent layout verified).products).toList

/-- All violations of a run whose layout and approvals are admitted. -/
def runViolations (policy : LinkPolicy) (request : RunRequest) : List Violation :=
  match verifySteps policy request .empty request.layout.layout.steps with
  | (violations, none) => violations
  | (violations, some verified) => violations ++ endViolations request verified

/-- The policy of a run, once layout and approvals are admitted. -/
def runPolicy (registry : Registry) (request : RunRequest) : Except VerifyError LinkPolicy := do
  let layout := request.layout.layout
  let keys ← (KeyRing.ofKeys registry layout.keys).mapError .crypto
  verifyLayoutSignatures registry keys request.layout
  validateLayout layout
  validateApprovals layout request.approvals
  pure ⟨registry, request.layout.supplyChainId, keys⟩

/-- Verifies a run. An error means that the run cannot be evaluated; whatever is wrong with a run
that can be is in the result. -/
def verifyRun (registry : Registry) (request : RunRequest) : Except VerifyError RunResult := do
  let policy ← runPolicy registry request
  pure (.ofViolations (runViolations policy request))

end Provenance
