import Provenance.Proofs.Verification.Discards
import Provenance.Proofs.Verification.Order
import Provenance.Proofs.Verification.Trail

/-!
# More approvals, stricter runs

An approval asks for the signatures of certain keys at a step. It never makes anything
good that was bad before:

> `approvals_restrict`: a run that is valid with some approvals is valid with fewer of
> them and tells the same. Where two such runs differ, they tell the same up to the
> links that some step discarded; there the one with more approvals ends, for keys that
> did not approve, and the other one ends for some of these keys or does not lack any.
> A key that is told of may sign for its step and did not sign the content that was
> selected.

Links are discarded, grouped and counted before anyone looks at approvals. So at each
step the two runs have the same content in hand, and the keys that the one lacks the
other lacks too (`missingKeys_subset`). Either they do the same with it, or the one with
more approvals ends there (`selectContent_more`). As long as they do the same, their maps
of verified steps agree, and that is what carries the induction (`eq_or_exists_isFork`).
-/

namespace Provenance

/-- The same request with other approvals. -/
def RunRequest.withApprovals (r : RunRequest) (approvals : List Approval) : RunRequest :=
  { r with approvals := approvals }

/-! ## One step -/

section Step

variable {ref ref' : StepRef} {step : Step} {approvals more : List Approval}
  {verified : VerifiedSteps} {groups : List SignedContent} {g : SignedContent}
  {signers : List KeyId}

theorem mem_missingKeys_iff {id : KeyId} : id ∈ missingKeys ref approvals signers ↔
    id ∉ signers ∧ ∃ a ∈ approvals, a.step = ref ∧ id ∈ a.requiredKeyIds := by
  rw [missingKeys, List.mem_flatMap]
  simp only [List.mem_filter, Approval.appliesTo, decide_eq_true_eq]
  constructor
  · intro h
    obtain ⟨a, ⟨ha, href⟩, hid, hnot⟩ := h
    exact ⟨hnot, a, ha, href, hid⟩
  · intro h
    obtain ⟨hnot, a, ha, href, hid⟩ := h
    exact ⟨a, ⟨ha, href⟩, hid, hnot⟩

theorem missingKeys_subset (hsub : approvals ⊆ more) :
    missingKeys ref approvals signers ⊆ missingKeys ref more signers := by
  intro id hid
  obtain ⟨hnot, a, ha, href, hrequired⟩ := mem_missingKeys_iff.mp hid
  exact mem_missingKeys_iff.mpr ⟨hnot, a, hsub ha, href, hrequired⟩

/-- Of the keys some are missing, and that is all that is wrong with the step, or else no
approval is missing there. -/
def LacksSome (ref : StepRef) (keys : List KeyId) (fatal : List Violation) : Prop :=
  (∃ ids, ids ≠ [] ∧ ids ⊆ keys ∧ fatal = ids.map (.approvalMissing ref)) ∨
    ∀ id, .approvalMissing ref id ∉ fatal

/-- Rules are not about approvals. -/
theorem ruleViolation?_ne_approvalMissing {content : StepArtifacts} {id : KeyId} :
    ruleViolation? ref step content verified ≠ some (.approvalMissing ref' id) := by
  intro h
  have hrule := ruleViolation?_eq_some h
  simp at hrule

/-- With more approvals the content is judged in the same way, or some are missing. -/
theorem contentViolations_more (hsub : approvals ⊆ more) (ref : StepRef) (step : Step)
    (verified : VerifiedSteps) (g : SignedContent) :
    contentViolations ref step more verified g = contentViolations ref step approvals verified g ∨
      missingKeys ref more g.signers ≠ [] ∧ LacksSome ref (missingKeys ref more g.signers)
        (contentViolations ref step approvals verified g) := by
  have hkeys : missingKeys ref approvals g.signers ⊆ missingKeys ref more g.signers :=
    missingKeys_subset hsub
  by_cases hmore : missingKeys ref more g.signers = []
  · -- nothing is missing in either run
    rw [hmore] at hkeys
    have hnone := List.subset_nil.mp hkeys
    rw [contentViolations_of_approved hmore, contentViolations_of_approved hnone]
    exact .inl rfl
  · refine .inr ⟨hmore, ?_⟩
    by_cases hfew : missingKeys ref approvals g.signers = []
    · rw [contentViolations_of_approved hfew]
      exact .inr fun id hid => ruleViolation?_ne_approvalMissing (Option.mem_toList.mp hid)
    · exact .inl ⟨_, hfew, hkeys, contentViolations_of_missing hfew⟩

/-- When one group meets the threshold, what is fatal is what is wrong with its content. -/
theorem selectContent_fst_of_one
    (hone : (groups.filter fun g => step.threshold.val ≤ g.signers.length) = [g]) :
    (selectContent ref step approvals verified groups).1 =
      contentViolations ref step approvals verified g := by
  rw [selectContent, hone]
  cases hg : contentViolations ref step approvals verified g with
  | nil => simp only [hg]
  | cons v rest => simp only [hg]

theorem selectContent_of_missing
    (hone : (groups.filter fun g => step.threshold.val ≤ g.signers.length) = [g])
    (h : missingKeys ref approvals g.signers ≠ []) :
    selectContent ref step approvals verified groups =
      ((missingKeys ref approvals g.signers).map (.approvalMissing ref), none) := by
  have hg : contentViolations ref step approvals verified g = _ := contentViolations_of_missing h
  obtain ⟨id, rest, hids⟩ := List.exists_cons_of_ne_nil h
  rw [hids, List.map_cons] at hg
  rw [selectContent, hone, hids]
  simp only [hg, List.map_cons]

/-- The step goes the same way under both lists, or it ends the run under the longer
one, where approvals are missing. -/
theorem selectContent_more (hsub : approvals ⊆ more) (ref : StepRef) (step : Step)
    (verified : VerifiedSteps) (groups : List SignedContent) :
    selectContent ref step more verified groups = selectContent ref step approvals verified groups ∨
      ∃ keys, keys ≠ [] ∧
        selectContent ref step more verified groups = (keys.map (.approvalMissing ref), none) ∧
        LacksSome ref keys (selectContent ref step approvals verified groups).1 := by
  -- approvals are looked at only when one group meets the threshold
  rcases hone : groups.filter fun g => step.threshold.val ≤ g.signers.length
    with _ | ⟨g, _ | ⟨other, rest⟩⟩
  · exact .inl (by simp only [selectContent, hone])
  · rcases contentViolations_more hsub ref step verified g with heq | ⟨hmissing, hlacks⟩
    · exact .inl (by simp only [selectContent, hone, heq])
    · rw [← selectContent_fst_of_one hone] at hlacks
      exact .inr ⟨_, hmissing, selectContent_of_missing hone hmissing, hlacks⟩
  · exact .inl (by simp only [selectContent, hone])

end Step

/-! ## Where two runs part -/

/-- Two trails with the same beginning. They part at a step, after the links that it
discarded, and the second one ends there with approvals that are missing. -/
structure Fork where
  /-- The steps that both runs got past. -/
  before : List StepTrail
  ref : StepRef
  discarded : List Violation
  /-- What the first trail goes on with. -/
  fatal : List Violation
  after : List StepTrail
  ending : List Violation
  /-- The keys that did not approve in the second one. -/
  missing : List KeyId

namespace Fork

/-- What is told up to the discards of the step. -/
def common (f : Fork) : List Violation := f.before.flatMap StepTrail.violations ++ f.discarded

def firstSteps (f : Fork) : List StepTrail := f.before ++ ⟨f.ref, f.discarded, f.fatal⟩ :: f.after

def secondSteps (f : Fork) : List StepTrail :=
  f.before ++ [⟨f.ref, f.discarded, f.missing.map (.approvalMissing f.ref)⟩]

end Fork

/-- The violations of two runs along these addresses part in this way. The first run ends
at the same step for some of the missing approvals, or lacks none there. -/
structure IsFork (walk : List StepRef) (first second : List Violation) (f : Fork) : Prop where
  firstTrail : IsTrail walk f.firstSteps f.ending
  secondTrail : IsTrail walk f.secondSteps []
  first_eq : first = f.common ++ (f.fatal ++ (f.after.flatMap StepTrail.violations ++ f.ending))
  second_eq : second = f.common ++ f.missing.map (.approvalMissing f.ref)
  missing_ne_nil : f.missing ≠ []
  lacks : (∃ ids, ids ≠ [] ∧ ids ⊆ f.missing ∧
      first = f.common ++ ids.map (.approvalMissing f.ref)) ∨
    ∀ id, .approvalMissing f.ref id ∉ f.fatal

section Fork

variable {walk : List StepRef} {ref : StepRef} {after : List StepTrail}
  {discarded fatal ending first second : List Violation} {keys : List KeyId}

/-- The runs part at the first step. -/
theorem IsFork.here (hd : Discards ref discarded)
    (h : IsTrail (ref :: walk) (⟨ref, discarded, fatal⟩ :: after) ending) (hkeys : keys ≠ [])
    (hlacks : LacksSome ref keys fatal) :
    IsFork (ref :: walk)
      (discarded ++ fatal ++ (after.flatMap StepTrail.violations ++ ending))
      (discarded ++ keys.map (.approvalMissing ref))
      ⟨[], ref, discarded, fatal, after, ending, keys⟩ where
  firstTrail := h
  secondTrail := .failed hd (.approvals hkeys)
  first_eq := List.append_assoc _ _ _
  second_eq := rfl
  missing_ne_nil := hkeys
  lacks := by
    rcases hlacks with ⟨ids, hne, hsub, rfl⟩ | hnone
    · -- a step that fails is the last one
      obtain ⟨rfl, rfl⟩ := h.last [] _ after rfl fun hnil => hne (List.map_eq_nil_iff.mp hnil)
      exact .inl ⟨ids, hne, hsub, List.append_nil _⟩
    · exact .inr hnone

/-- The runs part behind the first step. -/
theorem IsFork.passed {f : Fork} (hd : Discards ref discarded) (h : IsFork walk first second f) :
    IsFork (ref :: walk) (discarded ++ first) (discarded ++ second)
      { f with before := ⟨ref, discarded, []⟩ :: f.before } := by
  have hcommon : Fork.common { f with before := ⟨ref, discarded, []⟩ :: f.before } =
      discarded ++ f.common := by
    simp [Fork.common, StepTrail.violations]
  refine ⟨h.firstTrail.passed hd, h.secondTrail.passed hd, ?_, ?_, h.missing_ne_nil, ?_⟩
  · rw [hcommon, h.first_eq, List.append_assoc]
  · rw [hcommon, h.second_eq, List.append_assoc]
  · rw [hcommon]
    rcases h.lacks with ⟨ids, hne, hsub, heq⟩ | hnone
    · exact .inl ⟨ids, hne, hsub, by rw [heq, List.append_assoc]⟩
    · exact .inr hnone

/-- Missing approvals are fatal. -/
theorem IsFork.exists_isFatal {f : Fork} (h : IsFork walk first second f) :
    ∃ v ∈ second, v.isFatal = true := by
  obtain ⟨id, hid⟩ := List.exists_mem_of_ne_nil _ h.missing_ne_nil
  refine ⟨.approvalMissing f.ref id, ?_, rfl⟩
  rw [h.second_eq]
  exact List.mem_append_right _ (List.mem_map_of_mem hid)

end Fork

/-! ## All steps -/

section Steps

variable {policy : LinkPolicy} {r : RunRequest} {more : List Approval}

/-- Under other approvals a step has the same links, discarded and grouped. -/
theorem verifyStep_withApprovals (verified : VerifiedSteps) (ref : StepRef) (step : Step) :
    verifyStep policy (r.withApprovals more) verified ref step =
      ⟨(verifyStep policy r verified ref step).discarded,
        (selectContent ref step more verified
          (signedContents (acceptedLinks policy r.links ref step))).1,
        (selectContent ref step more verified
          (signedContents (acceptedLinks policy r.links ref step))).2⟩ := by
  show StepResult.mk (verifyStep policy (r.withApprovals more) verified ref step).discarded
    (verifyStep policy (r.withApprovals more) verified ref step).fatal
    (verifyStep policy (r.withApprovals more) verified ref step).content = _
  rw [verifyStep_fatal, verifyStep_content, verifyStep_discarded, verifyStep_discarded]
  rfl

/-- The step goes the same way in both runs, or they part there. -/
theorem verifyStep_more (hsub : r.approvals ⊆ more) (verified : VerifiedSteps) (ref : StepRef)
    (step : Step) :
    verifyStep policy (r.withApprovals more) verified ref step =
        verifyStep policy r verified ref step ∨
      ∃ keys, keys ≠ [] ∧
        verifyStep policy (r.withApprovals more) verified ref step =
          ⟨(verifyStep policy r verified ref step).discarded,
            keys.map (.approvalMissing ref), none⟩ ∧
        LacksSome ref keys (verifyStep policy r verified ref step).fatal := by
  rw [verifyStep_withApprovals]
  have hfew : verifyStep policy (r.withApprovals r.approvals) verified ref step = _ :=
    verifyStep_withApprovals verified ref step
  rcases selectContent_more hsub ref step verified
    (signedContents (acceptedLinks policy r.links ref step)) with heq | ⟨keys, hne, heq, hlacks⟩
  · rw [heq]
    exact .inl hfew.symm
  · rw [heq]
    refine .inr ⟨keys, hne, rfl, ?_⟩
    rw [verifyStep_fatal]
    exact hlacks

/-- Two runs tell the same to the end, or they part. -/
theorem eq_or_exists_isFork (hsub : r.approvals ⊆ more) (steps : List (StepRef × Step))
    (verified : VerifiedSteps) :
    violationsFrom policy (r.withApprovals more) verified steps =
        violationsFrom policy r verified steps ∨
      ∃ f, IsFork (steps.map (·.1)) (violationsFrom policy r verified steps)
        (violationsFrom policy (r.withApprovals more) verified steps) f := by
  induction steps generalizing verified with
  | nil => exact .inl rfl
  | cons s rest ih =>
    obtain ⟨ref, step⟩ := s
    have hd := discards_discarded policy r verified ref step
    rcases verifyStep_more hsub verified ref step with heq | ⟨keys, hne, hmore, hlacks⟩
    · rcases verifyStep_cases policy r verified ref step with ⟨content, hc, hf⟩ | ⟨hc, _⟩
      · -- both runs go on with the same map
        rw [violationsFrom_cons_of_some hc, violationsFrom_cons_of_some (heq ▸ hc), heq]
        rcases ih (verified.insert ref content) with hrest | ⟨f, hfork⟩
        · rw [hrest]
          exact .inl rfl
        · rw [StepResult.violations, hf, List.append_nil]
          exact .inr ⟨_, hfork.passed hd⟩
      · rw [violationsFrom_cons_of_none hc, violationsFrom_cons_of_none (heq ▸ hc), heq]
        exact .inl rfl
    · obtain ⟨after, ending, htrail, hfirst⟩ :=
        exists_isTrail_cons policy r verified ref step (exists_isTrail policy r rest)
      rw [hfirst, violationsFrom_cons_of_none (by rw [hmore]), hmore]
      exact .inr ⟨_, .here hd htrail hne hlacks⟩

end Steps

/-! ## Keys that did not approve -/

/-- The approval of the key is asked for at the step and it may sign for it, but it did
not sign what was selected there, the only content with enough signers. -/
def Withheld (registry : Registry) (r : RunRequest) (ref : StepRef) (id : KeyId) : Prop :=
  ∃ step content, (ref, step) ∈ r.layout.layout.steps ∧ id ∈ step.authorizedKeyIds ∧
    (∃ a ∈ r.approvals, a.step = ref ∧ id ∈ a.requiredKeyIds) ∧
    (∀ other, HasSigners registry r ref step step.threshold.val other ↔ other = content) ∧
    ¬SignedBy registry r ref step content id

/-- Approvals are missing when one group meets the threshold and its signers are not all
that are asked for. -/
theorem approvalMissing_of_mem_selectContent {ref ref' : StepRef} {step : Step}
    {approvals : List Approval} {verified : VerifiedSteps} {groups : List SignedContent}
    {id : KeyId} (h : .approvalMissing ref' id ∈ (selectContent ref step approvals verified groups).1) :
    ref' = ref ∧ ∃ g, (groups.filter fun g => step.threshold.val ≤ g.signers.length) = [g] ∧
      id ∈ missingKeys ref approvals g.signers := by
  rcases hone : groups.filter fun g => step.threshold.val ≤ g.signers.length
    with _ | ⟨g, _ | ⟨other, rest⟩⟩
  · simp [selectContent, hone] at h
  · rw [selectContent_fst_of_one hone] at h
    by_cases hids : missingKeys ref approvals g.signers = []
    · rw [contentViolations_of_approved hids] at h
      exact absurd (Option.mem_toList.mp h) ruleViolation?_ne_approvalMissing
    · rw [contentViolations_of_missing hids] at h
      obtain ⟨_, hid, heq⟩ := List.mem_map.mp h
      injection heq with href hsame
      subst href hsame
      exact ⟨rfl, g, hone, hid⟩
  · simp [selectContent, hone] at h

section Run

variable {registry : Registry} {r : RunRequest} {ring : KeyRing}

theorem Admitted.approvalFits (hr : Admitted registry r ring) :
    ∀ a ∈ r.approvals, r.layout.layout.ApprovalFits a := by
  obtain ⟨_, _, _, _, happrovals, _⟩ := runPolicy_eq_ok_iff.mp hr.policy
  exact validateApprovals_eq_ok_iff.mp happrovals

theorem Admitted.withheld (hr : Admitted registry r ring) {ref : StepRef} {id : KeyId}
    (h : .approvalMissing ref id ∈ runViolations ⟨registry, r.layout.supplyChainId, ring⟩ r) :
    Withheld registry r ref id := by
  obtain ⟨ref', step, hs, verified, hv⟩ := exists_selectContent_of_mem h rfl fun verified hend => by
    simpa using exists_of_mem_endViolations hend
  obtain ⟨rfl, g, hone, hid⟩ := approvalMissing_of_mem_selectContent hv
  obtain ⟨hnot, a, ha, hstep, hrequired⟩ := mem_missingKeys_iff.mp hid
  have hg : g ∈ signedContents (acceptedLinks ⟨registry, r.layout.supplyChainId, ring⟩ r.links
      ref step) := List.mem_of_mem_filter (hone ▸ List.mem_singleton_self g)
  refine ⟨step, g.artifacts, hs, ?_, ⟨a, ha, hstep, hrequired⟩, fun other => ?_, ?_⟩
  · obtain ⟨step', hstep', hkeys⟩ := hr.approvalFits a ha
    rw [hstep, hr.wellFormed.step?_eq_some_iff] at hstep'
    rw [hr.wellFormed.step_unique hs hstep']
    exact of_decide_eq_true (hkeys id hrequired)
  · exact hasSigners_iff_of_one hr.keys hr.wellFormed.keyIds (hr.threshold_pos hs) hone
  · rw [← mem_signers_iff hr.keys hr.wellFormed.keyIds hg]
    exact hnot

/-! ## Runs -/

theorem runPolicy_withApprovals {more : List Approval}
    (hfew : validateApprovals r.layout.layout r.approvals = .ok ())
    (hmore : validateApprovals r.layout.layout more = .ok ()) :
    runPolicy registry (r.withApprovals more) = runPolicy registry r := by
  unfold runPolicy RunRequest.withApprovals
  simp only [hfew, hmore]

theorem runViolations_eq_or_isFork (policy : LinkPolicy) {more : List Approval}
    (hsub : r.approvals ⊆ more) :
    runViolations policy (r.withApprovals more) = runViolations policy r ∨
      ∃ f, IsFork r.layout.layout.walk (runViolations policy r)
        (runViolations policy (r.withApprovals more)) f := by
  rw [runViolations_eq, runViolations_eq]
  exact eq_or_exists_isFork hsub r.layout.layout.steps .empty

/-- **Approvals can only restrict a run.** With more approvals that all fit the layout,
there is a run iff there was one before, and otherwise the same error. If the new run is
valid, so was the old one, and it told the same. If they differ, they tell the same up to
the discards of one step. There the new run ends with approvals that are missing; the old
run ends there with some of them, or lacks none. A missing approval is always that of a
key which may sign for the step and did not sign the content selected there. -/
theorem approvals_restrict (registry : Registry) (r : RunRequest) :
    (∀ more, r.approvals ⊆ more → validateApprovals r.layout.layout more = .ok () →
      (∃ e, verifyRun registry r = .error e ∧
        verifyRun registry (r.withApprovals more) = .error e) ∨
      ∃ result result', verifyRun registry r = .ok result ∧
        verifyRun registry (r.withApprovals more) = .ok result' ∧
        (result'.isValid = true →
          result.isValid = true ∧ result.violations = result'.violations) ∧
        (result ≠ result' →
          ∃ f, IsFork r.layout.layout.walk result.violations result'.violations f)) ∧
    ∀ result, verifyRun registry r = .ok result →
      ∀ ref id, .approvalMissing ref id ∈ result.violations → Withheld registry r ref id := by
  refine ⟨fun more hsub hmore => ?_, fun result hrun ref id hmissing => ?_⟩
  · have hfew : validateApprovals r.layout.layout r.approvals = .ok () :=
      validateApprovals_eq_ok_iff.mpr fun a ha => validateApprovals_eq_ok_iff.mp hmore a (hsub ha)
    have hpolicy : runPolicy registry (r.withApprovals more) = runPolicy registry r :=
      runPolicy_withApprovals hfew hmore
    cases hrun : runPolicy registry r with
    | error e =>
      rw [hrun] at hpolicy
      exact .inl ⟨e, verifyRun_eq_error_iff.mpr (runPolicy_eq_error_iff.mp hrun),
        verifyRun_eq_error_iff.mpr (runPolicy_eq_error_iff.mp hpolicy)⟩
    | ok policy =>
      rw [hrun] at hpolicy
      refine .inr ⟨_, _, verifyRun_eq_ok_iff.mpr ⟨policy, hrun, rfl⟩,
        verifyRun_eq_ok_iff.mpr ⟨policy, hpolicy, rfl⟩, ?_⟩
      rcases runViolations_eq_or_isFork policy hsub with heq | ⟨f, hfork⟩
      · rw [heq]
        exact ⟨fun hvalid => ⟨hvalid, rfl⟩, fun hne => absurd rfl hne⟩
      · refine ⟨fun hvalid => ?_, fun _ => ⟨f, hfork⟩⟩
        obtain ⟨v, hv, hfatal⟩ := hfork.exists_isFatal
        rw [isValid_ofViolations_iff.mp hvalid v hv] at hfatal
        exact nomatch hfatal
  · obtain ⟨ring, hr, rfl⟩ := exists_admitted hrun
    exact hr.withheld hmissing

end Run

namespace Pipeline

/-- The third key has to approve of the build. -/
def thirdApproves : Approval := ⟨buildRef, [third.keyId]⟩

theorem approvalFits_third : layout.ApprovalFits thirdApproves := by
  refine ⟨build, rfl, fun id hid => ?_⟩
  rw [List.mem_singleton.mp hid]
  exact decide_eq_true (by simp [build])

theorem validateApprovals_third : validateApprovals layout [thirdApproves] = .ok () := by
  refine validateApprovals_eq_ok_iff.mpr fun a ha => ?_
  rw [List.mem_singleton.mp ha]
  exact approvalFits_third

theorem signedContents_built : signedContents [built "00" first, built "00" second] =
    [⟨(built "00" first).link.content, [second.keyId, first.keyId]⟩] := by
  have hnot : second.keyId ∉ [first.keyId] := by
    have hnodup := nodup_keyIds
    simp only [List.nodup_cons, List.mem_cons, not_or] at hnodup
    exact fun hmem => hnodup.1.1 (List.mem_singleton.mp hmem).symm
  show addSigner (built "00" first).link.content second.keyId
    [⟨(built "00" first).link.content, [first.keyId]⟩] = _
  rw [addSigner, if_pos rfl, if_neg hnot]

theorem missingKeys_built :
    missingKeys buildRef [thirdApproves] [second.keyId, first.keyId] = [third.keyId] := by
  simp [missingKeys, thirdApproves, Approval.appliesTo, third_ne]

/-- Two keys signed for the build, and the third did not. -/
theorem verifyStep_build {ring : KeyRing} (hr : Admitted OneStep.registry request ring) :
    verifyStep ⟨OneStep.registry, "chain", ring⟩ (request.withApprovals [thirdApproves]) .empty
      buildRef build = ⟨[], [.approvalMissing buildRef third.keyId], none⟩ := by
  have hcandidates : candidates buildRef request.links =
      [built "00" first, built "00" second] := rfl
  have hfirst := discard?_built hr (List.mem_cons_self : first ∈ layout.keys) "00"
  have hsecond := discard?_built hr (by simp [layout] : second ∈ layout.keys) "00"
  have haccepted : acceptedLinks ⟨OneStep.registry, "chain", ring⟩ request.links buildRef build =
      [built "00" first, built "00" second] := by
    rw [acceptedLinks, hcandidates]
    simp [hfirst, hsecond]
  have hselect : selectContent buildRef build [thirdApproves] .empty
      [⟨(built "00" first).link.content, [second.keyId, first.keyId]⟩] =
        ([.approvalMissing buildRef third.keyId], none) := by
    rw [selectContent_of_missing rfl (by rw [missingKeys_built]; simp), missingKeys_built]
    rfl
  rw [verifyStep_withApprovals, haccepted, signedContents_built, hselect, verifyStep_discarded,
    hcandidates]
  simp [hfirst, hsecond]

theorem verifyRun_unapproved :
    verifyRun OneStep.registry (request.withApprovals [thirdApproves]) =
      .ok (.ofViolations [.approvalMissing buildRef third.keyId]) := by
  obtain ⟨_, hresult⟩ := exists_verifyRun
  obtain ⟨ring, hr, _⟩ := exists_admitted hresult
  have hpolicy : runPolicy OneStep.registry (request.withApprovals [thirdApproves]) =
      runPolicy OneStep.registry request := runPolicy_withApprovals rfl validateApprovals_third
  have hstep := verifyStep_build hr
  have hviolations : violationsFrom ⟨OneStep.registry, "chain", ring⟩
      (request.withApprovals [thirdApproves]) .empty [(buildRef, build), (deployRef, deploy)] =
        [.approvalMissing buildRef third.keyId] := by
    rw [violationsFrom_cons_of_none (by rw [hstep]), hstep]
    rfl
  refine verifyRun_eq_ok_iff.mpr ⟨_, hpolicy.trans hr.policy, congrArg _ ?_⟩
  rw [runViolations_eq]
  exact hviolations.symm

end Pipeline

/-- Two signatures are enough for the build as long as nobody has to approve; when the
third key does, the run ends there. -/
theorem pipeline_unapproved : ∃ result result',
    verifyRun OneStep.registry Pipeline.request = .ok result ∧
    verifyRun OneStep.registry (Pipeline.request.withApprovals [Pipeline.thirdApproves]) =
      .ok result' ∧
    result.isValid = true ∧
    result'.violations = [.approvalMissing Pipeline.buildRef Pipeline.third.keyId] ∧
    (∃ f, IsFork Pipeline.layout.walk result.violations result'.violations f) ∧
    Withheld OneStep.registry (Pipeline.request.withApprovals [Pipeline.thirdApproves])
      Pipeline.buildRef Pipeline.third.keyId := by
  obtain ⟨result, hrun, hvalid⟩ := Pipeline.exists_valid
  have hrun' := Pipeline.verifyRun_unapproved
  obtain ⟨hrestrict, _⟩ := approvals_restrict OneStep.registry Pipeline.request
  obtain ⟨_, hwithheld⟩ := approvals_restrict OneStep.registry
    (Pipeline.request.withApprovals [Pipeline.thirdApproves])
  refine ⟨result, _, hrun, hrun', hvalid, rfl, ?_,
    hwithheld _ hrun' _ _ (List.mem_singleton_self _)⟩
  rcases hrestrict [Pipeline.thirdApproves] (List.nil_subset _) Pipeline.validateApprovals_third
    with ⟨_, herror, _⟩ | ⟨_, _, hfew, hmore, _, hforks⟩
  · rw [hrun] at herror
    exact nomatch herror
  · rw [hrun] at hfew
    rw [hrun'] at hmore
    injection hfew with hfew
    injection hmore with hmore
    subst hfew hmore
    -- the one run is valid and the other one is not
    exact hforks fun heq => nomatch heq ▸ hvalid

end Provenance
