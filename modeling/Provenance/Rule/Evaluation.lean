import Provenance.Rule.Context

/-!
# Evaluation of rules

`RuleContext.evaluate` says whether a rule holds and gives the context after it. A rule that holds
explains the artifacts it names, except that DISALLOW names what must not be there and explains
nothing; a rule that does not hold leaves the context as it is. `verifyRules` evaluates a list up to
the first rule that does not hold and reports what stays unexplained.
-/

namespace Provenance

namespace RuleContext

/-- An artifact that was produced and not consumed. -/
def isCreated (c : RuleContext) (a : Artifact) : Bool := a ∈ c.products && a ∉ c.materials

/-- An artifact that was consumed and not produced. -/
def isDeleted (c : RuleContext) (a : Artifact) : Bool := a ∈ c.materials && a ∉ c.products

/-- A path that is on both sides, with no digest in common. -/
def isModified (c : RuleContext) (uri : String) : Bool :=
  let consumed := c.materials.atUri uri
  let produced := c.products.atUri uri
  !consumed.isEmpty && !produced.isEmpty
    && consumed.all fun m => produced.all fun p => m.hash ≠ p.hash

/-- An artifact whose path was produced, and modified if it was consumed too. -/
def isCreatedOrModified (c : RuleContext) (a : Artifact) : Bool :=
  if a ∈ c.materials ∧ a ∈ c.products then false
  else if (c.products.atUri a.uri).isEmpty then false
  else if (c.materials.atUri a.uri).isEmpty then true
  else c.isModified a.uri

/-- The context in which some artifacts are explained, if a condition holds. -/
def explainIf (c : RuleContext) (holds : Bool) (explained : ArtifactSet) : Bool × RuleContext :=
  if holds then (true, c.consume explained) else (false, c)

/-- All artifacts at the path of one of some artifacts, with these artifacts. -/
def bothSides (c : RuleContext) (artifacts : ArtifactSet) : ArtifactSet :=
  artifacts.toList.foldl
    (fun acc a => (c.products.atUri a.uri).foldl ArtifactSet.insert
      ((c.materials.atUri a.uri).foldl ArtifactSet.insert acc))
    artifacts

/-- Where a MATCH rule looks for an artifact. -/
def counterpart (m : MatchRule) (a : Artifact) : Artifact :=
  let rest := (pathBelow? (directoryPrefix m.sourcePrefix) a.uri).getD a.uri
  ⟨directoryPrefix m.destinationPrefix ++ rest, a.hash⟩

/-- Evaluates a MATCH rule. Its destination has to be verified. -/
def evaluateMatch (c : RuleContext) (m : MatchRule) (p : PathPattern) : Bool × RuleContext :=
  match c.verified.get? m.destination with
  | none => (false, c)
  | some destination =>
    let named := c.selectedBelow m.sourcePrefix p
    let found := named.toList.all fun a => counterpart m a ∈ destination.side m.side
    c.explainIf found named

/-- Evaluates a rule with the pattern that it was compiled to. -/
def evaluateWith (c : RuleContext) (p : PathPattern) (r : Rule) : Bool × RuleContext :=
  let named := c.selected p
  match r with
  | .matching m => c.evaluateMatch m p
  | .create _ => c.explainIf (named.toList.all c.isCreated) named
  | .delete _ => c.explainIf (named.toList.all c.isDeleted) named
  | .modify _ =>
    c.explainIf (named.toList.all fun a => c.isModified a.uri) (c.bothSides named)
  | .createOrModify _ => c.explainIf (named.toList.all c.isCreatedOrModified) named
  | .allow _ => c.explainIf true named
  | .disallow _ => (named.isEmpty, c)
  | .require _ => c.explainIf (!named.isEmpty) named

/-- Evaluates a rule. A pattern that is no glob fails. -/
def evaluate (c : RuleContext) (r : Rule) : Bool × RuleContext :=
  match PathPattern.ofRule r with
  | .ok p => c.evaluateWith p r
  | .error _ => (false, c)

end RuleContext

/-- How a rule list turned out. -/
inductive RuleOutcome where
  | explained
  /-- The rule at an index does not hold; later ones were not evaluated. -/
  | ruleFailed (index : Nat) (rule : Rule)
  | unexplained (artifacts : List Artifact)
  deriving DecidableEq, Repr

namespace RuleOutcome

/-- Nothing is wrong and nothing is left. -/
def isExplained : RuleOutcome → Bool
  | explained => true
  | _ => false

/-- The outcome when no rule failed. -/
def ofRemaining (remaining : ArtifactSet) : RuleOutcome :=
  if remaining.isEmpty then explained else unexplained remaining.toList

end RuleOutcome

/-- The outcome of the rules from an index on. -/
def verifyRulesFrom (index : Nat) : List Rule → RuleContext → RuleOutcome
  | [], c => .ofRemaining c.unexplained
  | r :: rest, c =>
    match c.evaluate r with
    | (true, c) => verifyRulesFrom (index + 1) rest c
    | (false, _) => .ruleFailed index r

/-- The outcome of a rule list. -/
def verifyRules (rules : List Rule) (c : RuleContext) : RuleOutcome := verifyRulesFrom 0 rules c

end Provenance
