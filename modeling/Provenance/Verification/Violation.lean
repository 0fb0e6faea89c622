import Provenance.Artifact.Basic
import Provenance.Key.PublicKey
import Provenance.Rule.Basic

/-!
# Violations

A verification leaves a trail of violations. A link that was discarded is only noted: the step fails
if too few signers are left. Every other violation is fatal, and a run is valid if it has no fatal
violation.
-/

namespace Provenance

/-- Why a link does not count. -/
inductive DiscardReason where
  | wrongSupplyChain
  | unauthorizedSigner
  | invalidSignature
  /-- There is no scheme for the algorithms, or the key cannot be used. -/
  | unusableSignature
  | duplicateArtifacts
  deriving DecidableEq, Repr, Inhabited

namespace DiscardReason

/-- All reasons. -/
def all : List DiscardReason :=
  [wrongSupplyChain, unauthorizedSigner, invalidSignature, unusableSignature, duplicateArtifacts]

/-- The name in documents. -/
def name : DiscardReason → String
  | wrongSupplyChain => "wrong_supply_chain"
  | unauthorizedSigner => "unauthorized_signer"
  | invalidSignature => "invalid_signature"
  | unusableSignature => "unusable_signature"
  | duplicateArtifacts => "duplicate_artifacts"

/-- The name in messages. -/
def label : DiscardReason → String
  | wrongSupplyChain => "WrongSupplyChain"
  | unauthorizedSigner => "UnauthorizedSigner"
  | invalidSignature => "InvalidSignature"
  | unusableSignature => "UnusableSignature"
  | duplicateArtifacts => "DuplicateArtifacts"

end DiscardReason

/-- The name of a side in violations. -/
def Side.plural : Side → String
  | .materials => "materials"
  | .products => "products"

/-- Something that a verification found wrong. -/
inductive Violation where
  | linkDiscarded (step : StepRef) (runId : String) (keyId : KeyId) (reason : DiscardReason)
  /-- `signers` is the largest number of different signers behind one content. -/
  | thresholdNotMet (step : StepRef) (required signers : Nat)
  /-- `candidates` different contents each have enough signers. -/
  | conflictingLinks (step : StepRef) (candidates : Nat)
  | approvalMissing (step : StepRef) (keyId : KeyId)
  | ruleFailed (step : StepRef) (side : Side) (index : Nat) (rule : String)
  | unexplainedArtifacts (step : StepRef) (side : Side) (artifacts : List Artifact)
  | endProductRuleFailed (index : Nat) (rule : String)
  | endProductsUnexplained (artifacts : List Artifact)
  /-- Expected and not produced, and produced and not expected. -/
  | endProductMismatch (missing unexpected : List Artifact)
  deriving DecidableEq, Repr, Inhabited

namespace Violation

/-- The violation alone makes a run invalid. -/
def isFatal : Violation → Bool
  | linkDiscarded .. => false
  | _ => true

/-- The violation in words. -/
def describe : Violation → String
  | linkDiscarded step runId keyId reason =>
    s!"{step.describe}: discarded link {runId} signed by {keyId} ({reason.label})"
  | thresholdNotMet step required signers =>
    s!"{step.describe}: {signers} of {required} required signatures"
  | conflictingLinks step candidates =>
    s!"{step.describe}: {candidates} conflicting links each met the threshold"
  | approvalMissing step keyId => s!"{step.describe}: missing approval from {keyId}"
  | ruleFailed step side index rule =>
    s!"{step.describe}: {side.plural} rule #{index} failed: {rule}"
  | unexplainedArtifacts step side artifacts =>
    s!"{step.describe}: {artifacts.length} unexplained {side.plural}"
  | endProductRuleFailed index rule => s!"end product rule #{index} failed: {rule}"
  | endProductsUnexplained artifacts => s!"{artifacts.length} unexplained end products"
  | endProductMismatch missing unexpected =>
    s!"end products differ from expected: {missing.length} missing, "
      ++ s!"{unexpected.length} unexpected"

/-- Artifacts as a document. -/
def artifactsJson (artifacts : List Artifact) : Json := .arr (artifacts.map Artifact.toJson)

/-- The name of the kind in documents. -/
def kind : Violation → String
  | linkDiscarded .. => "link_discarded"
  | thresholdNotMet .. => "threshold_not_met"
  | conflictingLinks .. => "conflicting_links"
  | approvalMissing .. => "approval_missing"
  | ruleFailed .. => "rule_failed"
  | unexplainedArtifacts .. => "unexplained_artifacts"
  | endProductRuleFailed .. => "end_product_rule_failed"
  | endProductsUnexplained .. => "end_products_unexplained"
  | endProductMismatch .. => "end_product_mismatch"

/-- The members of the document beside its kind. -/
def members : Violation → List (String × Json)
  | linkDiscarded step runId keyId reason =>
    [("step", step.toJson), ("run_id", .str runId), ("key_id", .str keyId),
      ("reason", .str reason.name)]
  | thresholdNotMet step required signers =>
    [("step", step.toJson), ("required", .int required), ("signers", .int signers)]
  | conflictingLinks step candidates => [("step", step.toJson), ("candidates", .int candidates)]
  | approvalMissing step keyId => [("step", step.toJson), ("key_id", .str keyId)]
  | ruleFailed step side index rule =>
    [("step", step.toJson), ("side", .str side.plural), ("index", .int index),
      ("rule", .str rule)]
  | unexplainedArtifacts step side artifacts =>
    [("step", step.toJson), ("side", .str side.plural), ("artifacts", artifactsJson artifacts)]
  | endProductRuleFailed index rule => [("index", .int index), ("rule", .str rule)]
  | endProductsUnexplained artifacts => [("artifacts", artifactsJson artifacts)]
  | endProductMismatch missing unexpected =>
    [("missing", artifactsJson missing), ("unexpected", artifactsJson unexpected)]

/-- As a document. -/
def toJson (v : Violation) : Json := .obj (("kind", .str v.kind) :: v.members)

/-- A side inside a violation. -/
def sideOfJson : Json → Decoded Side :=
  Json.asTaggedChoice ([Side.materials, Side.products].map fun s => (s.plural, s))

/-- A reason inside a violation. -/
def reasonOfJson : Json → Decoded DiscardReason :=
  Json.asTaggedChoice (DiscardReason.all.map fun r => (r.name, r))

/-- A list of artifacts. -/
def artifactsOfJson : Json → Decoded (List Artifact) := Json.asList Artifact.ofJson

/-- How the fields of each kind are read. -/
def readers : List (String × (Json → Decoded Violation)) :=
  [("link_discarded", fun v => do
      let r ← v.record "variant" ["step", "run_id", "key_id", "reason"]
      let step ← r.field "step" StepRef.ofJson
      let runId ← r.field "run_id" Json.asString
      let keyId ← r.field "key_id" Json.asString
      let reason ← r.field "reason" reasonOfJson
      pure (linkDiscarded step runId keyId reason)),
    ("threshold_not_met", fun v => do
      let r ← v.record "variant" ["step", "required", "signers"]
      let step ← r.field "step" StepRef.ofJson
      let required ← r.field "required" (Json.asUnsigned 32)
      let signers ← r.field "signers" (Json.asUnsigned 64)
      pure (thresholdNotMet step required signers)),
    ("conflicting_links", fun v => do
      let r ← v.record "variant" ["step", "candidates"]
      let step ← r.field "step" StepRef.ofJson
      let candidates ← r.field "candidates" (Json.asUnsigned 64)
      pure (conflictingLinks step candidates)),
    ("approval_missing", fun v => do
      let r ← v.record "variant" ["step", "key_id"]
      let step ← r.field "step" StepRef.ofJson
      let keyId ← r.field "key_id" Json.asString
      pure (approvalMissing step keyId)),
    ("rule_failed", fun v => do
      let r ← v.record "variant" ["step", "side", "index", "rule"]
      let step ← r.field "step" StepRef.ofJson
      let side ← r.field "side" sideOfJson
      let index ← r.field "index" (Json.asUnsigned 64)
      let rule ← r.field "rule" Json.asString
      pure (ruleFailed step side index rule)),
    ("unexplained_artifacts", fun v => do
      let r ← v.record "variant" ["step", "side", "artifacts"]
      let step ← r.field "step" StepRef.ofJson
      let side ← r.field "side" sideOfJson
      let artifacts ← r.field "artifacts" artifactsOfJson
      pure (unexplainedArtifacts step side artifacts)),
    ("end_product_rule_failed", fun v => do
      let r ← v.record "variant" ["index", "rule"]
      let index ← r.field "index" (Json.asUnsigned 64)
      let rule ← r.field "rule" Json.asString
      pure (endProductRuleFailed index rule)),
    ("end_products_unexplained", fun v => do
      let r ← v.record "variant" ["artifacts"]
      let artifacts ← r.field "artifacts" artifactsOfJson
      pure (endProductsUnexplained artifacts)),
    ("end_product_mismatch", fun v => do
      let r ← v.record "variant" ["missing", "unexpected"]
      let missing ← r.field "missing" artifactsOfJson
      let unexpected ← r.field "unexpected" artifactsOfJson
      pure (endProductMismatch missing unexpected))]

/-- From a document. -/
def ofJson (v : Json) : Decoded Violation := do
  let (kind, fields) ← Json.tagged "kind" v
  let read ← Json.alternative readers kind
  read fields

end Violation

/-- What a verification found. -/
structure RunResult where
  isValid : Bool
  /-- Everything that is wrong, discarded links too. -/
  violations : List Violation
  deriving DecidableEq, Repr, Inhabited

namespace RunResult

/-- The result with these violations. -/
def ofViolations (violations : List Violation) : RunResult :=
  ⟨!violations.any Violation.isFatal, violations⟩

/-- The violations that make the run invalid. -/
def fatal (r : RunResult) : List Violation := r.violations.filter Violation.isFatal

/-- As a document. -/
def toJson (r : RunResult) : Json :=
  .obj [("run_is_valid", .bool r.isValid), ("violations", .arr (r.violations.map Violation.toJson))]

/-- From a document. -/
def ofJson (v : Json) : Decoded RunResult := do
  let r ← v.record "VerificationRunResult" ["run_is_valid", "violations"]
  let isValid ← r.field "run_is_valid" Json.asBool
  let violations ← r.field "violations" (Json.asList Violation.ofJson)
  pure ⟨isValid, violations⟩

end RunResult

end Provenance
