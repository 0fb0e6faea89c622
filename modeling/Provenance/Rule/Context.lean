import Provenance.Artifact.Set
import Provenance.Rule.Pattern

/-!
# What rules are evaluated against

A step has consumed some artifacts and produced some. While its rules are evaluated one after the
other, a pool of artifacts that no rule has explained yet gets smaller; everything else in a
`RuleContext` stays as it is. Other steps are seen only once they are verified.
-/

namespace Provenance

/-- What a step consumed and what it produced. -/
structure StepArtifacts where
  materials : ArtifactSet
  products : ArtifactSet
  deriving DecidableEq, Repr, Inhabited

namespace StepArtifacts

/-- No artifacts. -/
def empty : StepArtifacts := ⟨.empty, .empty⟩

/-- The artifacts of one side. -/
def side (s : StepArtifacts) : Side → ArtifactSet
  | .materials => s.materials
  | .products => s.products

end StepArtifacts

/-- Verified steps with their artifacts, the latest first. -/
structure VerifiedSteps where
  entries : List (StepRef × StepArtifacts)
  deriving DecidableEq, Repr, Inhabited

namespace VerifiedSteps

/-- No step. -/
def empty : VerifiedSteps := ⟨[]⟩

/-- One more step, in place of one at its address. -/
def insert (v : VerifiedSteps) (step : StepRef) (artifacts : StepArtifacts) : VerifiedSteps :=
  ⟨(step, artifacts) :: v.entries.filter fun e => e.1 ≠ step⟩

/-- The artifacts of the step at an address. -/
def get? (v : VerifiedSteps) (step : StepRef) : Option StepArtifacts :=
  (v.entries.find? fun e => e.1 = step).map (·.2)

end VerifiedSteps

/-- What rules are evaluated against. -/
structure RuleContext where
  materials : ArtifactSet
  products : ArtifactSet
  /-- The artifacts that no rule has explained yet. -/
  unexplained : ArtifactSet
  verified : VerifiedSteps
  deriving Inhabited

namespace RuleContext

/-- The context of a step's rules for one side: all artifacts of that side are to be explained. -/
def forSide (side : Side) (artifacts : StepArtifacts) (verified : VerifiedSteps) : RuleContext :=
  ⟨artifacts.materials, artifacts.products, artifacts.side side, verified⟩

/-- The unexplained artifacts whose paths a pattern names. -/
def selected (c : RuleContext) (p : PathPattern) : ArtifactSet :=
  c.unexplained.filter fun a => p.matches? a.uri

/-- The unexplained artifacts in a directory, where a pattern names the rest of their paths. -/
def selectedBelow (c : RuleContext) (directory : Option String) (p : PathPattern) : ArtifactSet :=
  c.unexplained.filter fun a =>
    match pathBelow? (directoryPrefix directory) a.uri with
    | some rest => p.matches? rest
    | none => false

/-- The context in which some artifacts are explained. -/
def consume (c : RuleContext) (explained : ArtifactSet) : RuleContext :=
  { c with unexplained := c.unexplained.diff explained }

end RuleContext

end Provenance
