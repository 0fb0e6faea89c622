import Mathlib.Order.Bounds.Basic
import Provenance.Proofs.Verification.Selection

/-!
# The numbers that a step reports

A step that fails because of its signers tells a number. When no content has enough of
them, it tells how many the best one has; when several have, it tells how many there
are. Both are counted over the groups that the loop over the links has made. Here they
are read off the links themselves:

> `isGreatest_of_thresholdNotMet`: the number is the largest `n` for which some content
> has `n` signers, and is below the threshold;
>
> `exists_contents_of_conflict`: the number is that of the contents with as many
> signers as the threshold asks for, and is two at least.

A group stands for a content, whose signers are those of the group (`hasSigners_iff`).
What is left is to say which of the groups the number comes from
(`isGreatest_bestSignerCount`) and that only the step itself reports it
(`exists_selectContent_of_mem`).
-/

namespace Provenance

/-! ## What a step does with its groups -/

section Groups

variable {ref ref' : StepRef} {step : Step} {approvals : List Approval} {verified : VerifiedSteps}
  {groups : List SignedContent}

theorem isGreatest_foldl_signers :
    ∀ (groups : List SignedContent) (k : Nat),
      IsGreatest {n | n = k ∨ ∃ g ∈ groups, n = g.signers.length}
        (groups.foldl (fun n g => max n g.signers.length) k)
  | [], k => by simp
  | g :: rest, k => by
    obtain ⟨hmem, hle⟩ := isGreatest_foldl_signers rest (max k g.signers.length)
    rw [List.foldl_cons]
    constructor
    · rcases hmem with heq | ⟨g', hg', heq⟩
      · -- the larger of the first two is one of them
        rcases Nat.le_total k g.signers.length with h | h
        · exact .inr ⟨g, List.mem_cons_self, heq.trans (Nat.max_eq_right h)⟩
        · exact .inl (heq.trans (Nat.max_eq_left h))
      · exact .inr ⟨g', List.mem_cons_of_mem _ hg', heq⟩
    · intro n hn
      have hmax : max k g.signers.length ≤ _ := hle (.inl rfl)
      rcases hn with rfl | ⟨g', hg', rfl⟩
      · omega
      · rcases List.mem_cons.mp hg' with rfl | hg'
        · omega
        · exact hle (.inr ⟨g', hg', rfl⟩)

theorem isGreatest_bestSignerCount (groups : List SignedContent) :
    IsGreatest {n | n = 0 ∨ ∃ g ∈ groups, n = g.signers.length} (bestSignerCount groups) :=
  isGreatest_foldl_signers groups 0

theorem bestSignerCount_lt {k : Nat} (hk : 0 < k) (h : ∀ g ∈ groups, g.signers.length < k) :
    bestSignerCount groups < k := by
  rcases (isGreatest_bestSignerCount groups).1 with hzero | ⟨g, hg, hcount⟩
  · omega
  · rw [hcount]
    exact h g hg

/-- The threshold is not met when no group meets it. -/
theorem thresholdNotMet_of_mem_selectContent {required signers : Nat}
    (h : .thresholdNotMet ref' required signers ∈
      (selectContent ref step approvals verified groups).1) :
    ref' = ref ∧ required = step.threshold.val ∧ signers = bestSignerCount groups ∧
      ∀ g ∈ groups, g.signers.length < step.threshold.val := by
  unfold selectContent at h
  split at h
  · next hnone =>
    injection List.mem_singleton.mp h with href hrequired hsigners
    refine ⟨href, hrequired, hsigners, fun g hg => ?_⟩
    simpa using List.filter_eq_nil_iff.mp hnone g hg
  · split at h
    · exact nomatch h
    · have hcontent := exists_of_mem_contentViolations h
      simp at hcontent
  · exact absurd (List.mem_singleton.mp h) (by simp)

/-- There is a conflict when several groups meet the threshold. -/
theorem conflict_of_mem_selectContent {n : Nat}
    (h : .conflictingLinks ref' n ∈ (selectContent ref step approvals verified groups).1) :
    ref' = ref ∧ 2 ≤ n ∧
      n = (groups.filter fun g => step.threshold.val ≤ g.signers.length).length := by
  unfold selectContent at h
  split at h
  · exact absurd (List.mem_singleton.mp h) (by simp)
  · split at h
    · exact nomatch h
    · have hcontent := exists_of_mem_contentViolations h
      simp at hcontent
  · next hnil hone =>
    injection List.mem_singleton.mp h with href hn
    refine ⟨href, ?_, hn⟩
    have hzero : n ≠ 0 := fun h => hnil (List.length_eq_zero_iff.mp (hn.symm.trans h))
    have hsingle : n ≠ 1 := by
      intro h
      obtain ⟨g, hg⟩ := List.length_eq_one_iff.mp (hn.symm.trans h)
      exact hone g hg
    omega

end Groups

/-! ## Where a violation comes from -/

theorem RunResult.mem_ofViolations_iff {violations : List Violation} {v : Violation} :
    v ∈ (RunResult.ofViolations violations).violations ↔ v ∈ violations := Iff.rfl

section Run

variable {registry : Registry} {r : RunRequest} {ring : KeyRing} {ref : StepRef}

theorem exists_verifyStep_of_mem_violations {policy : LinkPolicy} {v : Violation} :
    ∀ {steps : List (StepRef × Step)} {verified : VerifiedSteps},
      v ∈ (verifySteps policy r verified steps).1 →
      ∃ s ∈ steps, ∃ verified', v ∈ (verifyStep policy r verified' s.1 s.2).violations
  | [], _, h => nomatch h
  | (ref, step) :: rest, verified, h => by
    rw [verifySteps] at h
    cases hc : (verifyStep policy r verified ref step).content with
    | none =>
      rw [hc] at h
      exact ⟨(ref, step), List.mem_cons_self, verified, h⟩
    | some content =>
      rw [hc] at h
      rcases List.mem_append.mp h with h | h
      · exact ⟨(ref, step), List.mem_cons_self, verified, h⟩
      · obtain ⟨s, hs, verified', hv⟩ := exists_verifyStep_of_mem_violations h
        exact ⟨s, List.mem_cons_of_mem _ hs, verified', hv⟩

theorem mem_verifySteps_of_first {policy : LinkPolicy} {verified : VerifiedSteps} {step : Step}
    {rest : List (StepRef × Step)} {v : Violation}
    (hv : v ∈ (verifyStep policy r verified ref step).fatal) :
    v ∈ (verifySteps policy r verified ((ref, step) :: rest)).1 := by
  have hmem : v ∈ (verifyStep policy r verified ref step).violations :=
    List.mem_append_right _ hv
  rw [verifySteps]
  cases (verifyStep policy r verified ref step).content with
  | none => exact hmem
  | some content => exact List.mem_append_left _ hmem

/-- Behind a step that fails nothing is looked at. -/
theorem verifySteps_append_of_none {policy : LinkPolicy} (after : List (StepRef × Step)) :
    ∀ {before : List (StepRef × Step)} {verified : VerifiedSteps},
      (verifySteps policy r verified before).2 = none →
      verifySteps policy r verified (before ++ after) = verifySteps policy r verified before
  | [], _, h => nomatch h
  | (ref, step) :: before, verified, h => by
    rw [List.cons_append, verifySteps, verifySteps]
    rw [verifySteps] at h
    cases hc : (verifyStep policy r verified ref step).content with
    | none => rfl
    | some content =>
      rw [hc] at h
      simp only [verifySteps_append_of_none after h]

theorem verifySteps_append_of_some {policy : LinkPolicy} (after : List (StepRef × Step))
    {last : VerifiedSteps} :
    ∀ {before : List (StepRef × Step)} {verified : VerifiedSteps},
      (verifySteps policy r verified before).2 = some last →
      (verifySteps policy r verified (before ++ after)).1 =
        (verifySteps policy r verified before).1 ++ (verifySteps policy r last after).1
  | [], verified, h => by
    injection h with h
    rw [h]
    rfl
  | (ref, step) :: before, verified, h => by
    obtain ⟨content, hc, hrest⟩ := verifySteps_cons_eq_some_iff.mp h
    rw [List.cons_append, verifySteps, verifySteps]
    simp only [hc, verifySteps_append_of_some after hrest, List.append_assoc]

/-- What is fatal and not said at the end is said of the groups of some step. -/
theorem exists_selectContent_of_mem {policy : LinkPolicy} {v : Violation}
    (h : v ∈ runViolations policy r) (hfatal : v.isFatal = true)
    (hend : ∀ verified, v ∉ endViolations r verified) :
    ∃ ref step, (ref, step) ∈ r.layout.layout.steps ∧ ∃ verified,
      v ∈ (selectContent ref step r.approvals verified
        (signedContents (acceptedLinks policy r.links ref step))).1 := by
  rw [runViolations_eq, List.mem_append] at h
  rcases h with h | h
  · obtain ⟨⟨ref, step⟩, hs, verified, hv⟩ := exists_verifyStep_of_mem_violations h
    rcases List.mem_append.mp hv with hv | hv
    · rw [isFatal_of_mem_discarded hv] at hfatal
      exact nomatch hfatal
    · rw [verifyStep_fatal] at hv
      exact ⟨ref, step, hs, verified, hv⟩
  · cases hlast : (verifySteps policy r .empty r.layout.layout.steps).2 with
    | none =>
      rw [hlast] at h
      exact nomatch h
    | some last =>
      rw [hlast] at h
      exact absurd h (hend last)

/-- The best group has as many signers as any content has. -/
theorem Admitted.isGreatest_signers (hr : Admitted registry r ring) (ref : StepRef) (step : Step) :
    IsGreatest {n | ∃ content, HasSigners registry r ref step n content}
      (bestSignerCount (signedContents
        (acceptedLinks ⟨registry, r.layout.supplyChainId, ring⟩ r.links ref step))) := by
  obtain ⟨hmem, hle⟩ := isGreatest_bestSignerCount
    (signedContents (acceptedLinks ⟨registry, r.layout.supplyChainId, ring⟩ r.links ref step))
  constructor
  · rcases Nat.eq_zero_or_pos (bestSignerCount (signedContents
        (acceptedLinks ⟨registry, r.layout.supplyChainId, ring⟩ r.links ref step))) with hzero | hn
    · -- any content has no signers
      rw [hzero]
      exact ⟨.empty, [], List.nodup_nil, Nat.le_refl _, by simp⟩
    · rcases hmem with hzero | ⟨g, hg, hcount⟩
      · omega
      · exact ⟨g.artifacts, (hasSigners_iff hr.keys hr.wellFormed.keyIds hn).mpr
          ⟨g, hg, Nat.le_of_eq hcount, rfl⟩⟩
  · rintro n ⟨content, hsigners⟩
    rcases Nat.eq_zero_or_pos n with rfl | hn
    · exact Nat.zero_le _
    · obtain ⟨g, hg, hcount, _⟩ :=
        (hasSigners_iff hr.keys hr.wellFormed.keyIds hn).mp hsigners
      exact Nat.le_trans hcount (hle (.inr ⟨g, hg, rfl⟩))

/-- The signers that are reported are those of the best content, and are too few. -/
theorem Admitted.isGreatest_of_thresholdNotMet (hr : Admitted registry r ring)
    {required signers : Nat} (h : .thresholdNotMet ref required signers ∈
      runViolations ⟨registry, r.layout.supplyChainId, ring⟩ r) :
    ∃ step, (ref, step) ∈ r.layout.layout.steps ∧ required = step.threshold.val ∧
      signers < required ∧
      IsGreatest {n | ∃ content, HasSigners registry r ref step n content} signers := by
  obtain ⟨ref', step, hs, verified, hv⟩ := exists_selectContent_of_mem h rfl fun verified hend => by
    simpa using exists_of_mem_endViolations hend
  obtain ⟨rfl, rfl, rfl, hfew⟩ := thresholdNotMet_of_mem_selectContent hv
  refine ⟨step, hs, rfl, ?_, hr.isGreatest_signers ref step⟩
  exact bestSignerCount_lt (hr.threshold_pos hs) hfew

/-- The contents of a conflict are those with enough signers, and there are several. -/
theorem Admitted.exists_contents_of_conflict (hr : Admitted registry r ring) {n : Nat}
    (h : .conflictingLinks ref n ∈ runViolations ⟨registry, r.layout.supplyChainId, ring⟩ r) :
    ∃ step, (ref, step) ∈ r.layout.layout.steps ∧ 2 ≤ n ∧
      ∃ contents : List StepArtifacts, contents.Nodup ∧ contents.length = n ∧
        ∀ content, content ∈ contents ↔
          HasSigners registry r ref step step.threshold.val content := by
  obtain ⟨ref', step, hs, verified, hv⟩ := exists_selectContent_of_mem h rfl fun verified hend => by
    simpa using exists_of_mem_endViolations hend
  obtain ⟨rfl, htwo, hn⟩ := conflict_of_mem_selectContent hv
  have hgrouped := grouped_signedContents
    (acceptedLinks ⟨registry, r.layout.supplyChainId, ring⟩ r.links ref step)
  refine ⟨step, hs, htwo, _, hgrouped.contents.sublist (List.filter_sublist.map _),
    (List.length_map _).trans hn.symm, fun content => ?_⟩
  rw [hasSigners_iff hr.keys hr.wellFormed.keyIds (hr.threshold_pos hs), List.mem_map]
  simp only [List.mem_filter, decide_eq_true_eq, and_assoc]

end Run

end Provenance
