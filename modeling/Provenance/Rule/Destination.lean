import Provenance.Json.Record

/-!
# Addresses of steps

A step is found in a layout by the name of its segment and its own name.
-/

namespace Provenance

/-- The address of a step: its segment and its name. -/
structure StepRef where
  segmentName : String
  stepName : String
  deriving DecidableEq, Repr, Inhabited

namespace StepRef

/-- The names, with a slash between them. -/
def describe (r : StepRef) : String := s!"{r.segmentName}/{r.stepName}"

/-- As a document. -/
def toJson (r : StepRef) : Json :=
  .obj [("segmentName", .str r.segmentName), ("stepName", .str r.stepName)]

/-- From a document. -/
def ofJson (v : Json) : Decoded StepRef := do
  let r ← v.record "StepRef" ["segmentName", "stepName"]
  let segmentName ← r.field "segmentName" Json.asString
  let stepName ← r.field "stepName" Json.asString
  pure ⟨segmentName, stepName⟩

end StepRef

/-- What a step consumes or what it produces. -/
inductive Side where
  | materials
  | products
  deriving DecidableEq, Repr, Inhabited

end Provenance
