import Provenance.Config.Source
import Provenance.Time.Text
import Provenance.Verification.Violation

/-!
# Verification reports

A report keeps what a run found, when it was made and under which configuration.
-/

namespace Provenance

/-- What a run found, as it is kept. -/
structure Report where
  schemaVersion : Nat
  schemaId : String
  createdAt : Instant
  supplyChainId : String
  isValid : Bool
  violations : List Violation
  configSources : List ConfigSource
  deriving DecidableEq, Repr, Inhabited

namespace Report

/-- The name of this form of report. -/
def standardSchemaId : String := "chainwitness/verification_report@1"

/-- The report of a run. -/
def ofRun (supplyChainId : String) (result : RunResult) (sources : List ConfigSource)
    (now : Instant) : Report :=
  ⟨1, standardSchemaId, now, supplyChainId, result.isValid, result.violations, sources⟩

/-- As a document. -/
def toJson (r : Report) : Json :=
  .obj [("schema_version", .int r.schemaVersion), ("schema_id", .str r.schemaId),
    ("created_at", .str r.createdAt.text), ("supply_chain_id", .str r.supplyChainId),
    ("run_is_valid", .bool r.isValid), ("violations", .arr (r.violations.map Violation.toJson)),
    ("config_sources", .arr (r.configSources.map ConfigSource.toJson))]

/-- An instant. -/
def instantOfJson (v : Json) : Decoded Instant := do
  let s ← v.asString
  match Instant.read? s with
  | some t => pure t
  | none => .error (.unreadable "not an instant")

/-- From a document. -/
def ofJson (v : Json) : Decoded Report := do
  let r ← v.record "VerificationReport" ["schema_version", "schema_id", "created_at",
    "supply_chain_id", "run_is_valid", "violations", "config_sources"]
  let schemaVersion ← r.field "schema_version" (Json.asUnsigned 32)
  let schemaId ← r.field "schema_id" Json.asString
  let createdAt ← r.field "created_at" instantOfJson
  let supplyChainId ← r.field "supply_chain_id" Json.asString
  let isValid ← r.field "run_is_valid" Json.asBool
  let violations ← r.field "violations" (Json.asList Violation.ofJson)
  let configSources ← r.fieldD "config_sources" [] (Json.asList ConfigSource.ofJson)
  pure ⟨schemaVersion, schemaId, createdAt, supplyChainId, isValid, violations, configSources⟩

end Report

end Provenance
