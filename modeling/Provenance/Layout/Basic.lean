import Provenance.Json.Canonical
import Provenance.Rule.Basic
import Provenance.Signature.Basic

/-!
# Layouts

A layout declares the expected supply chain: which steps there are, in which order, who may sign
for them and what may happen to artifacts in them. Steps are grouped into segments. The canonical
text, which gets signed, does not depend on the order of keys, segments and steps; it does depend on
the order of rules.
-/

namespace Provenance

/-- A number of signatures, as far as documents can demand them. -/
abbrev SignatureCount := Fin 4294967296

/-- There is a count, so that numbers can be written as counts. -/
instance SignatureCount.neZero : @NeZero Nat Zero.ofOfNat0 4294967296 := ⟨by decide⟩

/-- A step of the supply chain. -/
structure Step where
  name : String
  authorizedKeyIds : List KeyId
  /-- How many different authorized keys have to sign the same content. -/
  threshold : SignatureCount
  materialRules : List Rule
  productRules : List Rule
  deriving DecidableEq, Repr, Inhabited

namespace Step

/-- A step with that name, for which nobody may sign yet. -/
def named (name : String) : Step := ⟨name, [], 1, [], []⟩

/-- A key may sign for the step. -/
def isAuthorized (s : Step) (key : KeyId) : Bool := key ∈ s.authorizedKeyIds

/-- As a document. -/
def toJson (s : Step) : Json :=
  .obj [("name", .str s.name), ("authorizedKeyIds", .arr (s.authorizedKeyIds.map .str)),
    ("requiredNumberOfSignatures", .int s.threshold.val),
    ("expectedMaterialRules", .arr (s.materialRules.map Rule.toJson)),
    ("expectedProductRules", .arr (s.productRules.map Rule.toJson))]

/-- From a document. -/
def ofJson (v : Json) : Decoded Step := do
  let r ← v.record "Step" ["name", "authorizedKeyIds", "requiredNumberOfSignatures",
    "expectedMaterialRules", "expectedProductRules"]
  let name ← r.field "name" Json.asString
  let authorizedKeyIds ← r.field "authorizedKeyIds" (Json.asList Json.asString)
  let threshold ← r.field "requiredNumberOfSignatures" (Json.asUnsigned 32)
  let materialRules ← r.field "expectedMaterialRules" (Json.asList Rule.ofJson)
  let productRules ← r.field "expectedProductRules" (Json.asList Rule.ofJson)
  pure ⟨name, authorizedKeyIds, Fin.ofNat _ threshold, materialRules, productRules⟩

end Step

/-- A named group of steps. -/
structure Segment where
  name : String
  steps : List Step
  deriving DecidableEq, Repr, Inhabited

namespace Segment

/-- As a document. -/
def toJson (s : Segment) : Json :=
  .obj [("name", .str s.name), ("steps", .arr (s.steps.map Step.toJson))]

/-- From a document. -/
def ofJson (v : Json) : Decoded Segment := do
  let r ← v.record "LayoutSegment" ["name", "steps"]
  let name ← r.field "name" Json.asString
  let steps ← r.field "steps" (Json.asList Step.ofJson)
  pure ⟨name, steps⟩

/-- The steps with their addresses. -/
def addressed (s : Segment) : List (StepRef × Step) :=
  s.steps.map fun step => (⟨s.name, step.name⟩, step)

end Segment

/-- The expected supply chain. -/
structure Layout where
  keys : List PublicKey
  /-- Keys that may sign the layout itself. -/
  authorizedKeyIds : List KeyId
  segments : List Segment
  /-- Rules for the artifacts that are released. -/
  endProductRules : List Rule
  deriving DecidableEq, Repr, Inhabited

namespace Layout

/-- The first key with an id. -/
def publicKey? (l : Layout) (id : KeyId) : Option PublicKey := l.keys.find? fun k => k.keyId = id

/-- The first segment with a name. -/
def segment? (l : Layout) (name : String) : Option Segment :=
  l.segments.find? fun s => s.name = name

/-- The first step at an address. -/
def step? (l : Layout) (step : StepRef) : Option Step := do
  let segment ← l.segment? step.segmentName
  segment.steps.find? fun s => s.name = step.stepName

/-- All steps with their addresses, in declared order. -/
def steps (l : Layout) : List (StepRef × Step) := l.segments.flatMap Segment.addressed

/-- The address of the last step. -/
def finalStep? (l : Layout) : Option StepRef := l.steps.getLast?.map (·.1)

/-- As a document. -/
def toJson (l : Layout) : Json :=
  .obj [("keys", .arr (l.keys.map PublicKey.toJson)),
    ("authorizedKeyIds", .arr (l.authorizedKeyIds.map .str)),
    ("layoutSegments", .arr (l.segments.map Segment.toJson)),
    ("expectedEndProducts", .arr (l.endProductRules.map Rule.toJson))]

/-- From a document. -/
def ofJson (v : Json) : Decoded Layout := do
  let r ← v.record "Layout"
    ["keys", "authorizedKeyIds", "layoutSegments", "expectedEndProducts"]
  let keys ← r.field "keys" (Json.asList PublicKey.ofJson)
  let authorizedKeyIds ← r.field "authorizedKeyIds" (Json.asList Json.asString)
  let segments ← r.field "layoutSegments" (Json.asList Segment.ofJson)
  let endProductRules ← r.field "expectedEndProducts" (Json.asList Rule.ofJson)
  pure ⟨keys, authorizedKeyIds, segments, endProductRules⟩

end Layout

/-- A list ordered by a text of each entry; entries with the same text keep their order. -/
def sortByText {α : Type} (text : α → String) (entries : List α) : List α :=
  entries.mergeSort fun a b => decide (text a ≤ text b)

/-- The step with its key ids in order. -/
def Step.canonicalForm (s : Step) : Step :=
  { s with authorizedKeyIds := sortByText id s.authorizedKeyIds }

/-- The segment with its steps in order. -/
def Segment.canonicalForm (s : Segment) : Segment :=
  { s with steps := (sortByText Step.name s.steps).map Step.canonicalForm }

namespace Layout

/-- The layout with everything in order that has no order of its own. -/
def canonicalForm (l : Layout) : Layout where
  keys := sortByText PublicKey.keyId l.keys
  authorizedKeyIds := sortByText id l.authorizedKeyIds
  segments := (sortByText Segment.name l.segments).map Segment.canonicalForm
  endProductRules := l.endProductRules

/-- The text that gets signed. -/
def canonicalText (l : Layout) : String := l.canonicalForm.toJson.canonical

end Layout

/-- A layout with its signatures, for a supply chain. -/
structure LayoutBlock where
  supplyChainId : String
  layout : Layout
  signatures : List Signature
  deriving DecidableEq, Repr, Inhabited

namespace LayoutBlock

/-- As a document. -/
def toJson (b : LayoutBlock) : Json :=
  .obj [("supplyChainId", .str b.supplyChainId), ("layout", b.layout.toJson),
    ("signatures", .arr (b.signatures.map Signature.toJson))]

/-- From a document. -/
def ofJson (v : Json) : Decoded LayoutBlock := do
  let r ← v.record "LayoutMetaBlock" ["supplyChainId", "layout", "signatures"]
  let supplyChainId ← r.field "supplyChainId" Json.asString
  let layout ← r.field "layout" Layout.ofJson
  let signatures ← r.field "signatures" (Json.asList Signature.ofJson)
  pure ⟨supplyChainId, layout, signatures⟩

/-- The block with one more signature, in place of those in its slot. -/
def addSignature (b : LayoutBlock) (s : Signature) : LayoutBlock :=
  { b with signatures := s.replaceIn b.signatures }

end LayoutBlock

end Provenance
