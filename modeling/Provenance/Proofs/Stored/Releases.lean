import Provenance.Proofs.Stored.Blocks
import Provenance.Verification.Release

/-!
# Releases are read as they were written

A release keeps the violations of its run, and a violation may carry counts: documents
have thirty-two bits for a demanded number of signatures and sixty-four bits for every
other count (`Violation.Storable`). Within these ranges nothing is lost, and nothing
outside of them can be read.

> `ReleaseResult.ofJson_toJson_iff`: reading a release gives back what was written iff
> the counts of its violations are in range.
-/

namespace Provenance

open Json Checks

/-! ## Parts of violations -/

theorem StepRef.namesDiffer (r : StepRef) :
    NamesDiffer [("segmentName", .str r.segmentName), ("stepName", .str r.stepName)] := by
  show ["segmentName", "stepName"].Nodup
  decide

theorem StepRef.stored (r : StepRef) : Stored 1 r.toJson := by
  refine .obj ?_
  simp only [List.forall_mem_cons]
  exact ⟨.str _, .str _, fun _ h => nomatch h⟩

theorem StepRef.restores : Restores StepRef.toJson StepRef.ofJson := by
  intro r
  exact bind_eq_ok (record_obj r.namesDiffer) <| bind_eq_ok (restores_str.field rfl) <|
    bind_eq_ok (restores_str.field rfl) rfl

theorem Side.restores_plural : Restores (fun s : Side => .str s.plural) Violation.sideOfJson := by
  intro s
  cases s <;> rfl

theorem DiscardReason.restores :
    Restores (fun r : DiscardReason => .str r.name) Violation.reasonOfJson := by
  intro r
  cases r <;> rfl

namespace Violation

theorem restores_artifacts : Restores artifactsJson artifactsOfJson := Artifact.reads.restores.list

theorem stored_artifacts (artifacts : List Artifact) : Stored 2 (artifactsJson artifacts) :=
  .list fun a _ => a.plain_toJson.stored

/-! ## Violations -/

/-- The counts are in the ranges that documents have for them. -/
def Storable : Violation → Prop
  | thresholdNotMet _ required signers => required < Nat.pow 2 32 ∧ signers < Nat.pow 2 64
  | conflictingLinks _ count => count < Nat.pow 2 64
  | ruleFailed _ _ index _ => index < Nat.pow 2 64
  | endProductRuleFailed index _ => index < Nat.pow 2 64
  | _ => True

theorem namesDiffer_members (v : Violation) : NamesDiffer (("kind", .str v.kind) :: v.members) := by
  cases v <;> simp [NamesDiffer, members]

theorem Storable.stored {v : Violation} (h : v.Storable) : Stored 3 v.toJson := by
  have hlt : Nat.pow 2 32 < Nat.pow 2 64 := by decide
  have hstep : ∀ step : StepRef, Stored 2 step.toJson := fun step => step.stored.mono (by omega)
  refine .obj ?_
  cases v <;> simp only [members, List.forall_mem_cons]
  case linkDiscarded => exact ⟨.str _, hstep _, .str _, .str _, .str _, fun _ h => nomatch h⟩
  case thresholdNotMet =>
    exact ⟨.str _, hstep _, .count (Nat.lt_trans h.1 hlt), .count h.2, fun _ h => nomatch h⟩
  case conflictingLinks => exact ⟨.str _, hstep _, .count h, fun _ h => nomatch h⟩
  case approvalMissing => exact ⟨.str _, hstep _, .str _, fun _ h => nomatch h⟩
  case ruleFailed => exact ⟨.str _, hstep _, .str _, .count h, .str _, fun _ h => nomatch h⟩
  case unexplainedArtifacts =>
    exact ⟨.str _, hstep _, .str _, stored_artifacts _, fun _ h => nomatch h⟩
  case endProductRuleFailed => exact ⟨.str _, .count h, .str _, fun _ h => nomatch h⟩
  case endProductsUnexplained => exact ⟨.str _, stored_artifacts _, fun _ h => nomatch h⟩
  case endProductMismatch =>
    exact ⟨.str _, stored_artifacts _, stored_artifacts _, fun _ h => nomatch h⟩

/-- The reader of the kind reads the other members. -/
theorem Storable.exists_reader {v : Violation} (h : v.Storable) :
    ∃ read, alternative readers v.kind = .ok read ∧ read (.obj v.members) = .ok v := by
  have hrecord : ∀ names : List String, record "variant" names (.obj v.members) =
      .ok ⟨v.members, false⟩ :=
    fun names => record_obj (List.nodup_cons.mp v.namesDiffer_members).2
  cases v
  case linkDiscarded =>
    exact ⟨_, rfl, bind_eq_ok (hrecord _) <| bind_eq_ok (StepRef.restores.field rfl) <|
      bind_eq_ok (restores_str.field rfl) <| bind_eq_ok (restores_str.field rfl) <|
      bind_eq_ok (DiscardReason.restores.field rfl) rfl⟩
  case thresholdNotMet =>
    exact ⟨_, rfl, bind_eq_ok (hrecord _) <| bind_eq_ok (StepRef.restores.field rfl) <|
      bind_eq_ok (Record.field_count rfl h.1) <| bind_eq_ok (Record.field_count rfl h.2) rfl⟩
  case conflictingLinks =>
    exact ⟨_, rfl, bind_eq_ok (hrecord _) <| bind_eq_ok (StepRef.restores.field rfl) <|
      bind_eq_ok (Record.field_count rfl h) rfl⟩
  case approvalMissing =>
    exact ⟨_, rfl, bind_eq_ok (hrecord _) <| bind_eq_ok (StepRef.restores.field rfl) <|
      bind_eq_ok (restores_str.field rfl) rfl⟩
  case ruleFailed =>
    exact ⟨_, rfl, bind_eq_ok (hrecord _) <| bind_eq_ok (StepRef.restores.field rfl) <|
      bind_eq_ok (Side.restores_plural.field rfl) <| bind_eq_ok (Record.field_count rfl h) <|
      bind_eq_ok (restores_str.field rfl) rfl⟩
  case unexplainedArtifacts =>
    exact ⟨_, rfl, bind_eq_ok (hrecord _) <| bind_eq_ok (StepRef.restores.field rfl) <|
      bind_eq_ok (Side.restores_plural.field rfl) <|
      bind_eq_ok (restores_artifacts.field rfl) rfl⟩
  case endProductRuleFailed =>
    exact ⟨_, rfl, bind_eq_ok (hrecord _) <| bind_eq_ok (Record.field_count rfl h) <|
      bind_eq_ok (restores_str.field rfl) rfl⟩
  case endProductsUnexplained =>
    exact ⟨_, rfl, bind_eq_ok (hrecord _) <| bind_eq_ok (restores_artifacts.field rfl) rfl⟩
  case endProductMismatch =>
    exact ⟨_, rfl, bind_eq_ok (hrecord _) <| bind_eq_ok (restores_artifacts.field rfl) <|
      bind_eq_ok (restores_artifacts.field rfl) rfl⟩

theorem Storable.ofJson_toJson {v : Violation} (h : v.Storable) : ofJson v.toJson = .ok v := by
  obtain ⟨read, hread, hv⟩ := h.exists_reader
  exact variant_obj v.namesDiffer_members h.stored hread hv

/-- Only counts in range can be read. -/
theorem yields_storable : Yields ofJson Storable := by
  refine Yields.variant fun entry hentry fields => ?_
  have hsmall := yields_unsigned 32
  have hcount := yields_unsigned 64
  simp only [readers, List.mem_cons, List.not_mem_nil, or_false] at hentry
  -- one case for each kind, in the order of the readers; only counts and indices have a range
  rcases hentry with rfl | rfl | rfl | rfl | rfl | rfl | rfl | rfl | rfl
  · exact forall_bind fun r _ => forall_bind fun step _ => forall_bind fun runId _ =>
      forall_bind fun keyId _ => forall_bind fun reason _ => forall_pure trivial
  · exact forall_bind fun r _ => forall_bind fun step _ => forall_bind fun required hrequired =>
      forall_bind fun signers hsigners =>
        forall_pure ⟨hsmall.field hrequired, hcount.field hsigners⟩
  · exact forall_bind fun r _ => forall_bind fun step _ => forall_bind fun count h =>
      forall_pure (hcount.field h)
  · exact forall_bind fun r _ => forall_bind fun step _ => forall_bind fun keyId _ =>
      forall_pure trivial
  · exact forall_bind fun r _ => forall_bind fun step _ => forall_bind fun side _ =>
      forall_bind fun index h => forall_bind fun rule _ => forall_pure (hcount.field h)
  · exact forall_bind fun r _ => forall_bind fun step _ => forall_bind fun side _ =>
      forall_bind fun artifacts _ => forall_pure trivial
  · exact forall_bind fun r _ => forall_bind fun index h => forall_bind fun rule _ =>
      forall_pure (hcount.field h)
  · exact forall_bind fun r _ => forall_bind fun artifacts _ => forall_pure trivial
  · exact forall_bind fun r _ => forall_bind fun missing _ => forall_bind fun unexpected _ =>
      forall_pure trivial

end Violation

/-! ## Releases -/

namespace ReleaseResult

/-- The members of the document of a release. -/
def members (r : ReleaseResult) : List (String × Json) :=
  [("supplyChainId", .str r.supplyChainId), ("releaseIsValid", .bool r.isValid),
      ("releaseDigest", .str r.digest), ("artifacts", .arr (r.artifacts.map Artifact.toJson))]
    ++ if r.violations.isEmpty then []
      else [("violations", .arr (r.violations.map Violation.toJson))]

theorem toJson_eq (r : ReleaseResult) : r.toJson = .obj r.members := rfl

theorem namesDiffer_members (r : ReleaseResult) : NamesDiffer r.members := by
  obtain ⟨chain, isValid, digest, artifacts, violations⟩ := r
  cases violations with
  | nil =>
    show ["supplyChainId", "releaseIsValid", "releaseDigest", "artifacts"].Nodup
    decide
  | cons v rest =>
    show ["supplyChainId", "releaseIsValid", "releaseDigest", "artifacts", "violations"].Nodup
    decide

/-- The counts of all violations are in range. -/
def Storable (r : ReleaseResult) : Prop := ∀ v ∈ r.violations, v.Storable

theorem Storable.stored {r : ReleaseResult} (h : r.Storable) : Stored 5 r.toJson := by
  have hartifacts : Stored 4 (.arr (r.artifacts.map Artifact.toJson)) :=
    (Violation.stored_artifacts r.artifacts).mono (by omega)
  have hviolations : Stored 4 (.arr (r.violations.map Violation.toJson)) :=
    .list fun v hv => (h v hv).stored
  rw [toJson_eq]
  refine .obj ?_
  simp only [members, List.forall_mem_append, List.forall_mem_cons]
  refine ⟨⟨.str _, .bool _, .str _, hartifacts, fun _ h => nomatch h⟩, ?_⟩
  split
  · exact fun _ h => nomatch h
  · exact List.forall_mem_cons.mpr ⟨hviolations, fun _ h => nomatch h⟩

theorem Storable.field_violations {r : ReleaseResult} (h : r.Storable) :
    Record.fieldD ⟨r.members, false⟩ "violations" [] (asList Violation.ofJson) =
      .ok r.violations := by
  have hlist : eachItem Violation.ofJson (r.violations.map Violation.toJson) = .ok r.violations :=
    eachItem_map fun v hv => (h v hv).ofJson_toJson
  obtain ⟨chain, isValid, digest, artifacts, violations⟩ := r
  -- they are left out when there are none
  cases violations with
  | nil => rfl
  | cons v rest => exact hlist

theorem Storable.ofJson_toJson {r : ReleaseResult} (h : r.Storable) : ofJson r.toJson = .ok r := by
  have hchain : Record.field ⟨r.members, false⟩ "supplyChainId" asString = .ok r.supplyChainId :=
    restores_str.field rfl
  have hvalid : Record.field ⟨r.members, false⟩ "releaseIsValid" asBool = .ok r.isValid :=
    restores_bool.field rfl
  have hdigest : Record.field ⟨r.members, false⟩ "releaseDigest" asString = .ok r.digest :=
    restores_str.field rfl
  have hartifacts : Record.field ⟨r.members, false⟩ "artifacts" (asList Artifact.ofJson) =
      .ok r.artifacts := Artifact.reads.restores.list.field rfl
  rw [toJson_eq]
  exact bind_eq_ok (record_obj r.namesDiffer_members) <| bind_eq_ok hchain <|
    bind_eq_ok hvalid <| bind_eq_ok hdigest <| bind_eq_ok hartifacts <|
    bind_eq_ok h.field_violations rfl

theorem yields_storable : Yields ofJson Storable := by
  have hviolations := Violation.yields_storable.list
  intro v
  exact forall_bind fun _ _ => forall_bind fun _ _ => forall_bind fun _ _ =>
    forall_bind fun _ _ => forall_bind fun _ _ => forall_bind fun _ h =>
    forall_pure (hviolations.fieldD (List.forall_mem_nil _) h)

theorem ofJson_toJson_iff {r : ReleaseResult} : ofJson r.toJson = .ok r ↔ r.Storable :=
  ⟨fun h => yields_storable _ _ h, Storable.ofJson_toJson⟩

end ReleaseResult

end Provenance
