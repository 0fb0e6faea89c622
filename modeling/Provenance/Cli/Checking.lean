import Provenance.Cli.Plan
import Provenance.Cli.Surroundings
import Provenance.File.Hashing
import Provenance.Verification.Release
import Provenance.Verification.Report

/-!
# Hashing and verifying

The commands that need no secret. The verdict of a verification is the exit status; what is printed
and what is reported come from the same result.
-/

namespace Provenance.Cli

/-- The name under which a file is recorded: its path with slashes only. -/
def recordedUri (path : String) : String :=
  String.ofList (path.toList.map fun c => if c = '\\' then '/' else c)

/-- Lists artifacts, a line each. -/
def artifactLines (artifacts : List Artifact) : String :=
  String.join (artifacts.map fun a => s!"{a.hash}  {a.uri}\n")

/-- A document as it is printed. -/
def printed (v : Json) : String := v.pretty ++ "\n"

/-- Hashes files. -/
def hash (s : Surroundings) (settings : Settings) (paths : List String) (normalize json : Bool) :
    Except CliError Plan :=
  match settings.hashAlgorithm? with
  | none => .error (.configuration (.settings (.unknownHash settings.hashing.algorithm)))
  | some algorithm => do
    let normalize := normalize || settings.hashing.normalizeLineEndings
    let artifacts ← paths.mapM fun path =>
      (s.files.artifact algorithm normalize (recordedUri path) path).mapError .hashing
    let output := if json then printed (.arr (artifacts.map Artifact.toJson))
      else artifactLines artifacts
    pure ⟨[], output, true⟩

/-- The verdict in words: that a run is valid, or what is wrong with it. -/
def verdictLines (supplyChainId : String) (result : RunResult) : String :=
  if result.isValid then s!"PASS {supplyChainId}\n"
  else s!"FAIL {supplyChainId}\n" ++ String.join (result.fatal.map fun v => s!"  {v.describe}\n")

/-- What a verification that came to a result writes and prints. -/
def reportResult (supplyChainId : String) (result : RunResult) (report : Report)
    (reportPath : Option String) (json : Bool) : Plan where
  steps := reportPath.toList.map fun path => .write .report path report.toJson.pretty
  output := if json then printed report.toJson else verdictLines supplyChainId result
  isValid := result.isValid

/-- Verifies a run. -/
def verify (s : Surroundings) (registry : Registry) (config : EffectiveConfig) (layoutPath : String)
    (linkPaths : List String) (expectedPath : String) (approvalsPath reportPath : Option String)
    (json : Bool) : Except CliError Plan := do
  let limit := config.settings.verification.maxDocumentBytes
  let layout ← s.layout limit layoutPath
  let links ← linkPaths.mapM (s.link limit)
  let expected ← s.artifacts limit expectedPath
  let approvals ← match approvalsPath with
    | some path => s.input limit (Json.asList Approval.ofJson) path
    | none => pure []
  let result ← (verifyRun registry ⟨layout, links, expected, approvals⟩).mapError .verification
  let report := Report.ofRun layout.supplyChainId result config.sources s.now
  pure (reportResult layout.supplyChainId result report reportPath json)

/-- Verifies and describes a release. -/
def release (s : Surroundings) (registry : Registry) (settings : Settings) (layoutPath : String)
    (linkPaths artifactPaths : List String) : Except CliError Plan := do
  let limit := settings.verification.maxDocumentBytes
  let layout ← s.layout limit layoutPath
  let links ← linkPaths.mapM (s.link limit)
  let sets ← artifactPaths.mapM (s.artifacts limit)
  let result ← (createRelease registry layout links sets).mapError .verification
  pure ⟨[], printed result.toJson, result.isValid⟩

end Provenance.Cli
