import Provenance.Artifact.Set
import Provenance.Json.Canonical
import Provenance.Rule.Basic
import Provenance.Signature.Basic

/-!
# Links

A link tells what a step consumed and what it produced when it was run. Its canonical text is what
gets signed; the order in which artifacts are listed is no part of it.
-/

namespace Provenance

/-- What a step consumed and produced in one run. -/
structure Link where
  stepName : String
  runId : String
  segmentName : String
  /-- The command line, if it was recorded. -/
  command : Option (List String)
  materials : List Artifact
  products : List Artifact
  deriving DecidableEq, Repr, Inhabited

namespace Link

/-- The address of the step. -/
def step (l : Link) : StepRef := ⟨l.segmentName, l.stepName⟩

/-- As a document. -/
def toJson (l : Link) : Json :=
  .obj ([("stepName", .str l.stepName), ("runId", .str l.runId),
      ("layoutSegmentName", .str l.segmentName)]
    ++ Json.optional "command" (fun c => .arr (c.map .str)) l.command
    ++ [("materials", .arr (l.materials.map Artifact.toJson)),
      ("products", .arr (l.products.map Artifact.toJson))])

/-- From a document. -/
def ofJson (v : Json) : Decoded Link := do
  let r ← v.record "Link"
    ["stepName", "runId", "layoutSegmentName", "command", "materials", "products"]
  let stepName ← r.field "stepName" Json.asString
  let runId ← r.field "runId" Json.asString
  let segmentName ← r.field "layoutSegmentName" Json.asString
  let command ← r.fieldD "command" none (Json.asOption (Json.asList Json.asString))
  let materials ← r.field "materials" (Json.asList Artifact.ofJson)
  let products ← r.field "products" (Json.asList Artifact.ofJson)
  pure ⟨stepName, runId, segmentName, command, materials, products⟩

/-- The link with its artifacts in order. -/
def canonicalForm (l : Link) : Link :=
  { l with materials := Artifact.sort l.materials, products := Artifact.sort l.products }

/-- The text that gets signed. -/
def canonicalText (l : Link) : String := l.canonicalForm.toJson.canonical

/-- The artifacts that are listed again on one side, materials first. -/
def duplicates (l : Link) : List Artifact :=
  Artifact.repeated l.materials ++ Artifact.repeated l.products

end Link

/-- A link with its signature, as part of a supply chain. -/
structure LinkBlock where
  supplyChainId : String
  link : Link
  signature : Signature
  deriving DecidableEq, Repr, Inhabited

namespace LinkBlock

/-- As a document. -/
def toJson (b : LinkBlock) : Json :=
  .obj [("supplyChainId", .str b.supplyChainId), ("link", b.link.toJson),
    ("signature", b.signature.toJson)]

/-- From a document. -/
def ofJson (v : Json) : Decoded LinkBlock := do
  let r ← v.record "LinkMetaBlock" ["supplyChainId", "link", "signature"]
  let supplyChainId ← r.field "supplyChainId" Json.asString
  let link ← r.field "link" Link.ofJson
  let signature ← r.field "signature" Signature.ofJson
  pure ⟨supplyChainId, link, signature⟩

end LinkBlock

end Provenance
