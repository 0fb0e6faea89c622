import Provenance.Proofs.Link.Document
import Provenance.Proofs.Verification.Contents
import Provenance.Verification.Release

/-!
# What a release is made of

Artifacts that are going to be shipped are handed over in lists, one for each place
where they were found. A release is about their union:

> `createRelease_union`: however the artifacts are spread over lists, repeated and
> ordered, the release is the same, down to its digest, or it fails with the same
> error. It lists the union in order and tells what a run tells that expects just
> that; if it is valid, the artifacts are the products of the last step.

The lists go into one `ArtifactSet`, and equal sets are equal values, so nothing of the
lists is left in what is verified or digested. The digest is made from a text that keeps
the order of the artifacts (`artifactsText_injective`). As a set is listed in one order
only, the text and the digest belong to the set.
-/

namespace Provenance

open Json

/-! ## What is released -/

theorem ArtifactSet.ofList_congr {l m : List Artifact} (h : ∀ a, a ∈ l ↔ a ∈ m) :
    ofList l = ofList m := by
  ext a
  rw [mem_ofList, mem_ofList]
  exact h a

theorem ArtifactSet.ofList_toList (s : ArtifactSet) : ofList s.toList = s := by
  ext a
  exact mem_ofList

/-- The artifacts of some lists. -/
def released (sets : List (List Artifact)) : ArtifactSet := .ofList sets.flatten

/-- The run behind a release. -/
def releaseRequest (b : LayoutBlock) (links : List LinkBlock) (sets : List (List Artifact)) :
    RunRequest := ⟨b, links, (released sets).toList, []⟩

/-- The text that the digest of some artifacts is made from. -/
def artifactsText (artifacts : List Artifact) : String :=
  (Json.arr (artifacts.map Artifact.toJson)).canonical

theorem mem_released {sets : List (List Artifact)} {a : Artifact} :
    a ∈ released sets ↔ ∃ set ∈ sets, a ∈ set := by
  rw [released, ArtifactSet.mem_ofList, List.mem_flatten]

theorem released_congr {sets sets' : List (List Artifact)}
    (h : ∀ a, (∃ set ∈ sets, a ∈ set) ↔ ∃ set ∈ sets', a ∈ set) :
    released sets = released sets' := by
  refine ArtifactSet.ofList_congr fun a => ?_
  rw [List.mem_flatten, List.mem_flatten]
  exact h a

/-- No list of artifacts has the text of another one. -/
theorem artifactsText_injective {l m : List Artifact} (h : artifactsText l = artifactsText m) :
    l = m := by
  have hplain : ∀ artifacts : List Artifact,
      Plain maxDepth (.arr (artifacts.map Artifact.toJson)) := by
    intro artifacts
    have hlist : Plain 2 (.arr (artifacts.map Artifact.toJson)) :=
      .list fun a _ => a.plain_toJson
    exact hlist.mono (by decide)
  exact Artifact.faithful_toJson.arr l m (sorted_eq_of_canonical_eq (hplain l) (hplain m) h)

/-! ## The run behind a release -/

section Run

variable {registry : Registry} {b : LayoutBlock} {links : List LinkBlock}
  {sets : List (List Artifact)}

theorem createRelease_eq_ok_iff {release : ReleaseResult} :
    createRelease registry b links sets = .ok release ↔
      ∃ result, verifyRun registry (releaseRequest b links sets) = .ok result ∧
        release = ⟨b.supplyChainId, result.isValid, releaseDigest (released sets).toList,
          (released sets).toList, result.violations⟩ := by
  unfold createRelease
  rw [Checks.bind_eq_ok_iff]
  constructor
  · intro h
    obtain ⟨result, hrun, hrelease⟩ := h
    injection hrelease with hrelease
    exact ⟨result, hrun, hrelease.symm⟩
  · intro h
    obtain ⟨result, hrun, rfl⟩ := h
    exact ⟨result, hrun, rfl⟩

theorem createRelease_eq_error_iff {e : VerifyError} :
    createRelease registry b links sets = .error e ↔
      verifyRun registry (releaseRequest b links sets) = .error e := by
  unfold createRelease
  rw [Checks.bind_eq_error_iff]
  constructor
  · intro h
    rcases h with h | ⟨_, _, h⟩
    · exact h
    · exact nomatch h
  · exact .inl

/-- What is expected is of no concern to the steps. -/
theorem verifySteps_expected (policy : LinkPolicy) (r : RunRequest) (expected : List Artifact)
    (steps : List (StepRef × Step)) (verified : VerifiedSteps) :
    verifySteps policy { r with expected := expected } verified steps =
      verifySteps policy r verified steps := by
  induction steps generalizing verified with
  | nil => rfl
  | cons s rest ih =>
    obtain ⟨ref, step⟩ := s
    have hstep : verifyStep policy { r with expected := expected } verified ref step =
        verifyStep policy r verified ref step := rfl
    unfold verifySteps
    simp only [hstep, ih]

/-- At the end the expected artifacts are compared as a set. -/
theorem verifyRun_expected {r : RunRequest} {expected : List Artifact}
    (h : ∀ a, a ∈ expected ↔ a ∈ r.expected) :
    verifyRun registry { r with expected := expected } = verifyRun registry r := by
  have hset : ArtifactSet.ofList expected = .ofList r.expected := ArtifactSet.ofList_congr h
  have hend : endViolations { r with expected := expected } = endViolations r := by
    funext verified
    simp only [endViolations, mismatch?, hset]
  have hrun : ∀ policy,
      runViolations policy { r with expected := expected } = runViolations policy r := by
    intro policy
    rw [runViolations_eq, runViolations_eq, verifySteps_expected, hend]
  have hpolicy : runPolicy registry { r with expected := expected } = runPolicy registry r := rfl
  unfold verifyRun
  simp only [hpolicy, hrun]

/-- The run gives the content to the last step of the layout, where no other content has
enough signers. -/
def LastContent (registry : Registry) (r : RunRequest) (content : StepArtifacts) : Prop :=
  ∃ before ref step, r.layout.layout.steps = before ++ [(ref, step)] ∧
    r.layout.layout.finalStep? = some ref ∧
    (runContents registry r).getLast? = some (ref, content) ∧
    ∀ other, HasSigners registry r ref step step.threshold.val other ↔ other = content

/-- The products of the last step of a valid run are what was expected. -/
theorem exists_lastContent {r : RunRequest} {result : RunResult}
    (h : verifyRun registry r = .ok result) (hvalid : result.isValid = true) :
    ∃ content, LastContent registry r content ∧ content.products = .ofList r.expected := by
  obtain ⟨ring, hr, rfl⟩ := exists_admitted h
  obtain ⟨sel, hsel, hend⟩ := hr.isValid_iff_along.mp hvalid
  obtain ⟨before, ref, step, hl, hfinal⟩ := hr.wellFormed.exists_finalStep
  have hlast := hsel before ref step [] hl
  have hgiven : (runContents registry r).getLast? = some (ref, sel ref) := by
    rw [hr.runContents_along hsel, hl, List.map_append, List.map_singleton,
      List.getLast?_concat]
  refine ⟨sel ref, ⟨before, ref, step, hl, hfinal, hgiven, fun other => ?_⟩, ?_⟩
  · constructor
    · exact hlast.only other
    · rintro rfl
      exact hlast.signed
  · have hexpected := mismatch?_eq_none_iff.mp (endViolations_not_fatal_iff.mp hend).2
    rw [finalContent_chosenFrom hl hfinal] at hexpected
    ext a
    rw [ArtifactSet.mem_ofList]
    exact hexpected a

end Run

/-! ## Releases -/

/-- What a release tells is what becomes of the union of some lists: it is listed in
order, and the verdict is that of a run which expects it. -/
structure ReleaseResult.Describes (registry : Registry) (b : LayoutBlock) (links : List LinkBlock)
    (sets : List (List Artifact)) (release : ReleaseResult) : Prop where
  supplyChainId : release.supplyChainId = b.supplyChainId
  increasing : release.artifacts.Pairwise (· < ·)
  union : ∀ a, a ∈ release.artifacts ↔ ∃ set ∈ sets, a ∈ set
  /-- The run expects these artifacts, in whatever list, and there are no approvals. -/
  run : ∀ expected, (∀ a, a ∈ expected ↔ a ∈ release.artifacts) →
    verifyRun registry ⟨b, links, expected, []⟩ = .ok ⟨release.isValid, release.violations⟩
  products : release.isValid = true → ∃ content,
    LastContent registry ⟨b, links, release.artifacts, []⟩ content ∧
      release.artifacts = content.products.toList
  digest : release.digest =
    Hex.encode (HashFunction.sha256.digest (textBytes (artifactsText release.artifacts)))

theorem describes_of_createRelease {registry : Registry} {b : LayoutBlock} {links : List LinkBlock}
    {sets : List (List Artifact)} {release : ReleaseResult}
    (h : createRelease registry b links sets = .ok release) :
    release.Describes registry b links sets := by
  obtain ⟨result, hrun, rfl⟩ := createRelease_eq_ok_iff.mp h
  refine ⟨rfl, (released sets).increasing, fun _ => mem_released, fun expected hexpected => ?_,
    fun hvalid => ?_, rfl⟩
  · have hexpects : ∀ a, a ∈ expected ↔ a ∈ (releaseRequest b links sets).expected := hexpected
    exact (verifyRun_expected hexpects).trans hrun
  · obtain ⟨content, hlast, hproducts⟩ := exists_lastContent hrun hvalid
    refine ⟨content, hlast, ?_⟩
    have hset : content.products = released sets := hproducts.trans (ArtifactSet.ofList_toList _)
    rw [hset]

/-- **A release depends on the union of its lists alone.** Lists with the same artifacts
give the same release, or the error of the run behind it. The release lists the union in
increasing order, its verdict and violations are those of a run without approvals that
expects the union, and if it is valid the union is what the last step produced. Texts of
different lists of artifacts differ. -/
theorem createRelease_union (registry : Registry) (b : LayoutBlock) (links : List LinkBlock)
    {sets sets' : List (List Artifact)}
    (h : ∀ a, (∃ set ∈ sets, a ∈ set) ↔ ∃ set ∈ sets', a ∈ set) :
    createRelease registry b links sets = createRelease registry b links sets' ∧
    (∀ e, createRelease registry b links sets = .error e ↔
      verifyRun registry ⟨b, links, sets.flatten, []⟩ = .error e) ∧
    (∀ release, createRelease registry b links sets = .ok release →
      release.Describes registry b links sets) ∧
    ∀ l m : List Artifact, artifactsText l = artifactsText m → l = m := by
  refine ⟨?_, fun e => ?_, fun _ => describes_of_createRelease, fun _ _ => artifactsText_injective⟩
  · have hset : ArtifactSet.ofList sets.flatten = .ofList sets'.flatten := released_congr h
    unfold createRelease
    rw [hset]
  · rw [createRelease_eq_error_iff]
    exact verifyRun_error_congr ⟨b, links, sets.flatten, []⟩ links _ e

/-- A package that is found twice is released once, and is what was deployed. -/
theorem pipeline_released : ∃ release,
    createRelease OneStep.registry Pipeline.request.layout Pipeline.request.links
      [[⟨"app", "00"⟩], [], [⟨"app", "00"⟩]] = .ok release ∧
    createRelease OneStep.registry Pipeline.request.layout Pipeline.request.links
      [[⟨"app", "00"⟩]] = .ok release ∧
    release.isValid = true ∧ release.artifacts = [⟨"app", "00"⟩] ∧
    ∃ content, LastContent OneStep.registry Pipeline.request content ∧
      content.products.toList = [⟨"app", "00"⟩] := by
  obtain ⟨result, hrun, hvalid⟩ := Pipeline.exists_valid
  have hsame : ∀ a : Artifact,
      (∃ set ∈ [[⟨"app", "00"⟩], [], [⟨"app", "00"⟩]], a ∈ set) ↔
        ∃ set ∈ [[(⟨"app", "00"⟩ : Artifact)]], a ∈ set := by
    intro a
    simp
  obtain ⟨heq, _, hdescribes, _⟩ := createRelease_union OneStep.registry Pipeline.request.layout
    Pipeline.request.links hsame
  have hreleased : createRelease OneStep.registry Pipeline.request.layout Pipeline.request.links
      [[⟨"app", "00"⟩]] = .ok _ := createRelease_eq_ok_iff.mpr ⟨result, hrun, rfl⟩
  obtain ⟨content, hlast, hproducts⟩ := (hdescribes _ (heq.trans hreleased)).products hvalid
  exact ⟨_, heq.trans hreleased, hreleased, hvalid, rfl, content, hlast, hproducts.symm⟩

end Provenance
