import Provenance.Rule.Destination
import Provenance.Key.PublicKey

/-!
# Approvals

An approval demands that certain keys are among those that signed the content of a step, beyond the
number of signatures that the step itself demands.
-/

namespace Provenance

/-- Keys that have to be among the signers of a step. -/
structure Approval where
  step : StepRef
  requiredKeyIds : List KeyId
  deriving DecidableEq, Repr, Inhabited

namespace Approval

/-- The approval is for that step. -/
def appliesTo (a : Approval) (step : StepRef) : Bool := a.step = step

/-- As a document. -/
def toJson (a : Approval) : Json :=
  .obj [("segmentName", .str a.step.segmentName), ("stepName", .str a.step.stepName),
    ("requiredKeyIds", .arr (a.requiredKeyIds.map .str))]

/-- From a document. -/
def ofJson (v : Json) : Decoded Approval := do
  let r ← v.record "ApprovalConfiguration" ["segmentName", "stepName", "requiredKeyIds"]
  let segmentName ← r.field "segmentName" Json.asString
  let stepName ← r.field "stepName" Json.asString
  let requiredKeyIds ← r.field "requiredKeyIds" (Json.asList Json.asString)
  pure ⟨⟨segmentName, stepName⟩, requiredKeyIds⟩

end Approval

end Provenance
