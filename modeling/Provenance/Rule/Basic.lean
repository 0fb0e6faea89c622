import Provenance.Rule.Destination

/-!
# Artifact rules

A rule list says what may happen to the artifacts of a step. A rule names artifacts by a pattern,
and its kind says what has to be true of them. A MATCH rule looks for them in another step, where
they may be in another directory.
-/

namespace Provenance

/-- A rule that compares with what another step consumed or produced. -/
structure MatchRule where
  pattern : String
  /-- The directory the artifacts are in; they are matched by the rest of their paths. -/
  sourcePrefix : Option String
  side : Side
  /-- The directory the artifacts have to be in at the destination. -/
  destinationPrefix : Option String
  destination : StepRef
  deriving DecidableEq, Repr, Inhabited

/-- An artifact rule. -/
inductive Rule where
  | matching (rule : MatchRule)
  | create (pattern : String)
  | delete (pattern : String)
  | modify (pattern : String)
  | createOrModify (pattern : String)
  | allow (pattern : String)
  | disallow (pattern : String)
  /-- The pattern is a path, taken literally. -/
  | require (uri : String)
  deriving DecidableEq, Repr, Inhabited

namespace Side

/-- The name in documents. -/
def name : Side → String
  | materials => "MATERIALS"
  | products => "PRODUCTS"

/-- The name in messages about rules. -/
def label : Side → String
  | materials => "Materials"
  | products => "Products"

/-- The sides by their names in documents. -/
def byName : List (String × Side) := [materials, products].map fun s => (s.name, s)

/-- From a document of its own. -/
def ofJson : Json → Decoded Side := Json.asChoice byName

end Side

namespace Rule

/-- The name of the kind. -/
def kind : Rule → String
  | matching _ => "MATCH"
  | create _ => "CREATE"
  | delete _ => "DELETE"
  | modify _ => "MODIFY"
  | createOrModify _ => "CREATEORMODIFY"
  | allow _ => "ALLOW"
  | disallow _ => "DISALLOW"
  | require _ => "REQUIRE"

/-- What the rule names artifacts by. -/
def pattern : Rule → String
  | matching m => m.pattern
  | create p | delete p | modify p | createOrModify p | allow p | disallow p | require p => p

/-- The rule in words. -/
def describe : Rule → String
  | matching m => s!"MATCH {m.pattern} WITH {m.side.label} FROM {m.destination.describe}"
  | r => s!"{r.kind} {r.pattern}"

end Rule

namespace MatchRule

/-- The members of the document. -/
def members (m : MatchRule) : List (String × Json) :=
  [("pattern", .str m.pattern)] ++ Json.optional "sourcePathPrefix" .str m.sourcePrefix
    ++ [("destinationType", .str m.side.name)]
    ++ Json.optional "destinationPathPrefix" .str m.destinationPrefix
    ++ [("destinationSegmentName", .str m.destination.segmentName),
      ("destinationStepName", .str m.destination.stepName)]

/-- From the document of its fields. -/
def ofJson (v : Json) : Decoded MatchRule := do
  let r ← v.record "MatchRule" ["pattern", "sourcePathPrefix", "destinationType",
    "destinationPathPrefix", "destinationSegmentName", "destinationStepName"]
  let pattern ← r.field "pattern" Json.asString
  let sourcePrefix ← r.fieldD "sourcePathPrefix" none (Json.asOption Json.asString)
  let side ← r.field "destinationType" (Json.asTaggedChoice Side.byName)
  let destinationPrefix ← r.fieldD "destinationPathPrefix" none (Json.asOption Json.asString)
  let segmentName ← r.field "destinationSegmentName" Json.asString
  let stepName ← r.field "destinationStepName" Json.asString
  pure ⟨pattern, sourcePrefix, side, destinationPrefix, ⟨segmentName, stepName⟩⟩

end MatchRule

namespace Rule

/-- As a document. -/
def toJson : Rule → Json
  | matching m => .obj (("ruleType", .str "MATCH") :: m.members)
  | r => .obj [("ruleType", .str r.kind), ("pattern", .str r.pattern)]

/-- The one pattern of a rule, from the document of its fields. -/
def patternOfJson (v : Json) : Decoded String := do
  let r ← v.record "PatternRule" ["pattern"]
  r.field "pattern" Json.asString

/-- How the fields of each kind are read. -/
def readers : List (String × (Json → Decoded Rule)) :=
  [("MATCH", fun v => (MatchRule.ofJson v).map matching),
    ("CREATE", fun v => (patternOfJson v).map create),
    ("DELETE", fun v => (patternOfJson v).map delete),
    ("MODIFY", fun v => (patternOfJson v).map modify),
    ("CREATEORMODIFY", fun v => (patternOfJson v).map createOrModify),
    ("ALLOW", fun v => (patternOfJson v).map allow),
    ("DISALLOW", fun v => (patternOfJson v).map disallow),
    ("REQUIRE", fun v => (patternOfJson v).map require)]

/-- From a document. -/
def ofJson (v : Json) : Decoded Rule := do
  let (kind, fields) ← Json.tagged "ruleType" v
  let read ← Json.alternative readers kind
  read fields

end Rule

end Provenance
