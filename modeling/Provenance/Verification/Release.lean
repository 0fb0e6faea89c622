import Provenance.Verification.Run

/-!
# Releases

A release is a run whose expected products are all the artifacts that are going to be shipped. It is
identified by the digest of their canonical text.
-/

namespace Provenance

/-- The digest of a list of artifacts. -/
def releaseDigest (artifacts : List Artifact) : String :=
  let text := (Json.arr (artifacts.map Artifact.toJson)).canonical
  Hex.encode (HashFunction.sha256.digest (textBytes text))

/-- What is released and what its verification found. -/
structure ReleaseResult where
  supplyChainId : String
  isValid : Bool
  digest : String
  artifacts : List Artifact
  violations : List Violation
  deriving DecidableEq, Repr, Inhabited

namespace ReleaseResult

/-- As a document, without violations if there are none. -/
def toJson (r : ReleaseResult) : Json :=
  .obj ([("supplyChainId", .str r.supplyChainId), ("releaseIsValid", .bool r.isValid),
      ("releaseDigest", .str r.digest), ("artifacts", .arr (r.artifacts.map Artifact.toJson))]
    ++ if r.violations.isEmpty then []
      else [("violations", .arr (r.violations.map Violation.toJson))])

/-- From a document. -/
def ofJson (v : Json) : Decoded ReleaseResult := do
  let r ← v.record "ReleaseResult"
    ["supplyChainId", "releaseIsValid", "releaseDigest", "artifacts", "violations"]
  let supplyChainId ← r.field "supplyChainId" Json.asString
  let isValid ← r.field "releaseIsValid" Json.asBool
  let digest ← r.field "releaseDigest" Json.asString
  let artifacts ← r.field "artifacts" (Json.asList Artifact.ofJson)
  let violations ← r.fieldD "violations" [] (Json.asList Violation.ofJson)
  pure ⟨supplyChainId, isValid, digest, artifacts, violations⟩

end ReleaseResult

/-- Verifies a run in which all artifacts of some lists are expected, and describes the release. -/
def createRelease (registry : Registry) (layout : LayoutBlock) (links : List LinkBlock)
    (artifactSets : List (List Artifact)) : Except VerifyError ReleaseResult := do
  let artifacts := (ArtifactSet.ofList artifactSets.flatten).toList
  let result ← verifyRun registry ⟨layout, links, artifacts, []⟩
  pure ⟨layout.supplyChainId, result.isValid, releaseDigest artifacts, artifacts, result.violations⟩

end Provenance
