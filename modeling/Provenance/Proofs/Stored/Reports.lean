import Provenance.Proofs.Stored.Releases
import Provenance.Verification.Report

/-!
# A report has the result of its run

A report has the members of a result among its own, under the same names. So what reads
results can read reports, and it reads what the run came to:

> `Report.document?_pretty`: the text of a report is read as the result that the report was
> made of, if the counts of its violations are in the ranges that documents have for them.
-/

namespace Provenance

open Json Checks

theorem ConfigSource.stored (s : ConfigSource) : Stored 1 s.toJson := by
  refine .obj fun m hm => ?_
  obtain ⟨origin, path, digest⟩ := s
  cases path <;> cases digest <;>
    (simp only [Json.optional, List.mem_append, List.mem_cons, List.not_mem_nil, or_false] at hm
     rcases hm with (rfl | rfl) | rfl <;> exact .str _)

namespace Report

variable {supplyChainId : String} {result : RunResult} {sources : List ConfigSource}
  {now : Instant}

theorem stored (h : ∀ v ∈ result.violations, v.Storable) :
    Stored 5 (ofRun supplyChainId result sources now).toJson := by
  have hviolations : Stored 4 (.arr (result.violations.map Violation.toJson)) :=
    .list fun v hv => (h v hv).stored
  have hsources : Stored 4 (.arr (sources.map ConfigSource.toJson)) :=
    .list fun s _ => s.stored.mono (by omega)
  refine .obj ?_
  simp only [List.forall_mem_cons]
  exact ⟨.count (n := 1) (by decide), .str _, .str _, .str _, .bool _, hviolations, hsources,
    fun _ h => nomatch h⟩

theorem ofJson_toJson (h : ∀ v ∈ result.violations, v.Storable) :
    RunResult.ofJson (ofRun supplyChainId result sources now).toJson = .ok result := by
  have hnames : ["schema_version", "schema_id", "created_at", "supply_chain_id", "run_is_valid",
      "violations", "config_sources"].Nodup := by decide
  have hlist : eachItem Violation.ofJson (result.violations.map Violation.toJson) =
      .ok result.violations := eachItem_map fun v hv => (h v hv).ofJson_toJson
  exact bind_eq_ok (record_obj hnames) <| bind_eq_ok (restores_bool.field rfl) <|
    bind_eq_ok hlist rfl

theorem document?_pretty (h : ∀ v ∈ result.violations, v.Storable) :
    Json.document? RunResult.ofJson (ofRun supplyChainId result sources now).toJson.pretty =
      some result := by
  rw [document?, read?_pretty ((stored h).mono (by decide)), Option.bind_some, ofJson_toJson h]
  rfl

end Report

end Provenance
