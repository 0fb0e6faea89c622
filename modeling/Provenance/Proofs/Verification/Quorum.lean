import Mathlib.Data.Finset.Card
import Provenance.Proofs.Verification.Discards
import Provenance.Proofs.Verification.Minority

/-!
# Keys behind a conflict

A step has conflicting links when several contents each have enough signers. The
signers are different keys and all of them may sign for the step, so two contents
with more signers than there are keys have a signer in common:

> `conflict_exposes_signer`: when a step asks for the signatures of a majority of its
> keys and a run reports a conflict there, some key signed two contents for it. Where
> no key does so, no links make a run report a conflict.

`HasSigners.common` counts how many keys the two contents share at least. A key that
is listed twice for a step is one key, so the keys are counted as a set.
-/

namespace Provenance

/-- More than half of the different keys that may sign for the step have to. -/
def Step.AsksMajority (s : Step) : Prop := s.authorizedKeyIds.toFinset.card < 2 * s.threshold.val

/-- Links that count carry two different contents for the step under the key. -/
def SignsTwo (registry : Registry) (r : RunRequest) (ref : StepRef) (step : Step) (id : KeyId) :
    Prop :=
  ∃ content content', content ≠ content' ∧ SignedBy registry r ref step content id ∧
    SignedBy registry r ref step content' id

section Common

variable {registry : Registry} {r : RunRequest} {ref : StepRef} {step : Step}
  {content content' : StepArtifacts}

theorem HasSigners.exists_finset {n : Nat} (h : HasSigners registry r ref step n content) :
    ∃ ids ⊆ step.authorizedKeyIds.toFinset, n ≤ ids.card ∧
      ∀ id ∈ ids, SignedBy registry r ref step content id := by
  obtain ⟨ids, hnodup, hcount, hsigned⟩ := h
  refine ⟨ids.toFinset, ?_, ?_, ?_⟩
  · intro id hid
    rw [List.mem_toFinset] at hid ⊢
    exact (hsigned id hid).authorized
  · rw [List.toFinset_card_of_nodup hnodup]
    exact hcount
  · intro id hid
    rw [List.mem_toFinset] at hid
    exact hsigned id hid

/-- What the signers of two contents are more than the keys of the step, they have in
common. -/
theorem HasSigners.common {n : Nat} (h : HasSigners registry r ref step n content)
    (h' : HasSigners registry r ref step n content') :
    ∃ ids : Finset KeyId, 2 * n ≤ ids.card + step.authorizedKeyIds.toFinset.card ∧
      ∀ id ∈ ids, SignedBy registry r ref step content id ∧
        SignedBy registry r ref step content' id := by
  obtain ⟨ids, hsub, hcount, hsigned⟩ := h.exists_finset
  obtain ⟨ids', hsub', hcount', hsigned'⟩ := h'.exists_finset
  refine ⟨ids ∩ ids', ?_, ?_⟩
  · have hunion : (ids ∪ ids').card ≤ step.authorizedKeyIds.toFinset.card :=
      Finset.card_le_card (Finset.union_subset hsub hsub')
    have hboth := Finset.card_union_add_card_inter ids ids'
    omega
  · intro id hid
    obtain ⟨hid, hid'⟩ := Finset.mem_inter.mp hid
    exact ⟨hsigned id hid, hsigned' id hid'⟩

theorem SignsTwo.authorized {id : KeyId} (h : SignsTwo registry r ref step id) :
    id ∈ step.authorizedKeyIds := by
  obtain ⟨_, _, _, hsigned, _⟩ := h
  exact hsigned.authorized

end Common

/-- The contents of a conflict share signers: as many at least as the threshold,
taken twice, exceeds the keys of the step. -/
theorem Admitted.common_of_conflict {registry : Registry} {r : RunRequest} {ring : KeyRing}
    (hr : Admitted registry r ring) {ref : StepRef} {step : Step}
    (hs : (ref, step) ∈ r.layout.layout.steps) {n : Nat}
    (h : .conflictingLinks ref n ∈ runViolations ⟨registry, r.layout.supplyChainId, ring⟩ r) :
    ∃ content content', content ≠ content' ∧ ∃ ids : Finset KeyId,
      2 * step.threshold.val ≤ ids.card + step.authorizedKeyIds.toFinset.card ∧
      ∀ id ∈ ids, SignedBy registry r ref step content id ∧
        SignedBy registry r ref step content' id := by
  obtain ⟨step', hs', htwo, contents, hnodup, hlength, hcontents⟩ :=
    hr.exists_contents_of_conflict h
  obtain rfl := hr.wellFormed.step_unique hs hs'
  -- there are two contents, and they differ
  match contents, hlength with
  | content :: content' :: rest, _ =>
    have hne : content ≠ content' := by
      intro heq
      rw [heq] at hnodup
      exact (List.nodup_cons.mp hnodup).1 List.mem_cons_self
    have hsigned := (hcontents content).mp List.mem_cons_self
    have hsigned' := (hcontents content').mp (List.mem_cons_of_mem _ List.mem_cons_self)
    exact ⟨content, content', hne, hsigned.common hsigned'⟩
  | [_], hlength =>
    simp only [List.length_singleton] at hlength
    omega
  | [], hlength =>
    simp only [List.length_nil] at hlength
    omega

/-- **Majorities meet.** When a step asks for a majority of its keys, a conflict
reported there means that one of these keys signed two contents for the step; as long
as no key does, there is no conflict, whatever the links. If the same holds for all
steps, a run reports no conflict at all. -/
theorem conflict_exposes_signer {registry : Registry} {r : RunRequest} {result : RunResult}
    (hrun : verifyRun registry r = .ok result) :
    (∀ ref step, (ref, step) ∈ r.layout.layout.steps → step.AsksMajority →
      (∀ n, .conflictingLinks ref n ∈ result.violations →
        ∃ id ∈ step.authorizedKeyIds, SignsTwo registry r ref step id) ∧
      ((∀ id, ¬SignsTwo registry r ref step id) →
        ∀ n, .conflictingLinks ref n ∉ result.violations)) ∧
    ((∀ ref step, (ref, step) ∈ r.layout.layout.steps →
      step.AsksMajority ∧ ∀ id, ¬SignsTwo registry r ref step id) →
        ∀ ref n, .conflictingLinks ref n ∉ result.violations) := by
  obtain ⟨ring, hr, rfl⟩ := exists_admitted hrun
  have hexposed : ∀ ref step, (ref, step) ∈ r.layout.layout.steps → step.AsksMajority →
      ∀ n, .conflictingLinks ref n ∈ runViolations ⟨registry, r.layout.supplyChainId, ring⟩ r →
        ∃ id ∈ step.authorizedKeyIds, SignsTwo registry r ref step id := by
    intro ref step hs hmajority n h
    obtain ⟨content, content', hne, ids, hcount, hids⟩ := hr.common_of_conflict hs h
    have hpos : 0 < ids.card := by
      unfold Step.AsksMajority at hmajority
      omega
    obtain ⟨id, hid⟩ := Finset.card_pos.mp hpos
    have htwo : SignsTwo registry r ref step id := ⟨content, content', hne, hids id hid⟩
    exact ⟨id, htwo.authorized, htwo⟩
  refine ⟨?_, ?_⟩
  · intro ref step hs hmajority
    refine ⟨hexposed ref step hs hmajority, ?_⟩
    intro hnone n h
    obtain ⟨id, _, htwo⟩ := hexposed ref step hs hmajority n h
    exact hnone id htwo
  · intro hall ref n h
    -- a conflict is reported of a step of the layout
    obtain ⟨step, hs, _⟩ := hr.exists_contents_of_conflict h
    obtain ⟨hmajority, hnone⟩ := hall ref step hs
    obtain ⟨id, _, htwo⟩ := hexposed ref step hs hmajority n h
    exact hnone id htwo

/-- Two of three keys have to sign for the build. Two packages with two signers each
were signed by one key both. -/
theorem pipeline_signsTwo :
    ∃ result, verifyRun OneStep.registry Pipeline.divided = .ok result ∧
      .conflictingLinks Pipeline.buildRef 2 ∈ result.violations ∧
      ∃ id ∈ Pipeline.build.authorizedKeyIds,
        SignsTwo OneStep.registry Pipeline.divided Pipeline.buildRef Pipeline.build id := by
  obtain ⟨result, hrun, hconflict⟩ := Pipeline.exists_divided
  have hmajority : Pipeline.build.AsksMajority := by
    have hcount : Pipeline.build.authorizedKeyIds.toFinset.card ≤ 3 :=
      List.toFinset_card_le Pipeline.build.authorizedKeyIds
    show _ < 2 * 2
    omega
  have hs : (Pipeline.buildRef, Pipeline.build) ∈ Pipeline.divided.layout.layout.steps :=
    List.mem_cons_self
  obtain ⟨hexposed, _⟩ := (conflict_exposes_signer hrun).1 _ _ hs hmajority
  exact ⟨result, hrun, hconflict, hexposed 2 hconflict⟩

end Provenance
