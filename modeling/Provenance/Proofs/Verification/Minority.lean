import Mathlib.Data.Set.Basic
import Provenance.Proofs.Verification.Contents
import Provenance.Proofs.Verification.Counts

/-!
# Keys that are too few

Some keys are compromised: anything may be signed with them, for any step and as
often as wanted. When for no step they are as many as it takes, and the links of all
other keys tell one story, they are `Outnumbered` and have no say:

> `runContents_of_outnumbered`: a run selects what the other keys signed or nothing,
> reports no conflict, and is valid with the contents that it has without the links
> of the compromised keys, if it is valid without these.

Enough signers of a content always include one of the other keys
(`Minority.exists_honest`), so no content gets through that those did not sign
(`Outnumbered.content_eq`). Nor is a content lost, as more links never make fewer
signers (`Selected.of_without`).
-/

namespace Provenance

variable {registry : Registry} {r : RunRequest} {K : Set KeyId} {ref : StepRef} {step : Step}

/-! ## Links without those of some keys -/

/-- The request without the links signed by keys of the set. -/
def RunRequest.without (r : RunRequest) (K : Set KeyId) [DecidablePred (· ∈ K)] : RunRequest :=
  r.withLinks (r.links.filter fun b => b.signature.keyId ∉ K)

theorem SignedBy.authorized {content : StepArtifacts} {id : KeyId}
    (h : SignedBy registry r ref step content id) : id ∈ step.authorizedKeyIds := by
  obtain ⟨_, _, haccepted, _, rfl⟩ := h
  exact haccepted.authorized

section Without

variable [DecidablePred (· ∈ K)]

theorem SignedBy.of_without {content : StepArtifacts} {id : KeyId}
    (h : SignedBy registry (r.without K) ref step content id) :
    SignedBy registry r ref step content id := by
  obtain ⟨link, hlink, h⟩ := h
  exact ⟨link, List.mem_of_mem_filter hlink, h⟩

theorem HasSigners.of_without {n : Nat} {content : StepArtifacts}
    (h : HasSigners registry (r.without K) ref step n content) :
    HasSigners registry r ref step n content := by
  obtain ⟨ids, hnodup, hcount, hsigned⟩ := h
  exact ⟨ids, hnodup, hcount, fun id hid => (hsigned id hid).of_without⟩

end Without

/-! ## Outnumbered keys -/

/-- Fewer keys of the set may sign for the step than it takes. -/
def Minority (K : Set KeyId) (step : Step) : Prop :=
  ∀ ids : List KeyId, ids.Nodup → (∀ id ∈ ids, id ∈ K ∧ id ∈ step.authorizedKeyIds) →
    ids.length < step.threshold.val

/-- For every step the keys of the set are too few, and all links that count and are
signed by other keys have one content. -/
structure Outnumbered (registry : Registry) (r : RunRequest) (K : Set KeyId)
    (told : StepRef → StepArtifacts) : Prop where
  minority : ∀ ref step, (ref, step) ∈ r.layout.layout.steps → Minority K step
  agreed : ∀ ref step, (ref, step) ∈ r.layout.layout.steps → ∀ content id, id ∉ K →
    SignedBy registry r ref step content id → content = told ref

/-- Enough signers are not all in the set. -/
theorem Minority.exists_honest (hK : Minority K step) {content : StepArtifacts}
    (h : HasSigners registry r ref step step.threshold.val content) :
    ∃ id, id ∉ K ∧ SignedBy registry r ref step content id := by
  obtain ⟨ids, hnodup, hcount, hsigned⟩ := h
  by_contra hnone
  have hall : ∀ id ∈ ids, id ∈ K ∧ id ∈ step.authorizedKeyIds := by
    intro id hid
    refine ⟨?_, (hsigned id hid).authorized⟩
    by_contra hK
    exact hnone ⟨id, hK, hsigned id hid⟩
  have hfew := hK ids hnodup hall
  omega

section Outnumbered

variable {told : StepRef → StepArtifacts} (ho : Outnumbered registry r K told)

include ho

/-- Only the content of the other keys has enough signers. -/
theorem Outnumbered.content_eq (hs : (ref, step) ∈ r.layout.layout.steps)
    {content : StepArtifacts}
    (h : HasSigners registry r ref step step.threshold.val content) : content = told ref := by
  obtain ⟨id, hid, hsigned⟩ := (ho.minority ref step hs).exists_honest h
  exact ho.agreed ref step hs content id hid hsigned

/-- What a step selects without the links, it selects with them. -/
theorem Selected.of_without [DecidablePred (· ∈ K)] (hs : (ref, step) ∈ r.layout.layout.steps)
    {verified : VerifiedSteps} {content : StepArtifacts}
    (h : Selected registry (r.without K) verified ref step content) :
    Selected registry r verified ref step content where
  signed := h.signed.of_without
  only other hother := by
    rw [ho.content_eq hs hother, ho.content_eq hs h.signed.of_without]
  approved a ha href id hid := (h.approved a ha href id hid).of_without
  materials := h.materials
  products := h.products

theorem SelectedAlong.of_without [DecidablePred (· ∈ K)] {sel : StepRef → StepArtifacts}
    (h : SelectedAlong registry (r.without K) sel .empty r.layout.layout.steps) :
    SelectedAlong registry r sel .empty r.layout.layout.steps := by
  intro before ref step after hl
  have hs : (ref, step) ∈ r.layout.layout.steps := hl ▸ by simp
  exact Selected.of_without ho hs (h before ref step after hl)

end Outnumbered

/-! ## The run -/

/-- Whoever is outnumbered causes no conflict. -/
theorem Outnumbered.no_conflict {told : StepRef → StepArtifacts} {ring : KeyRing}
    (ho : Outnumbered registry r K told) (hr : Admitted registry r ring) (n : Nat) :
    .conflictingLinks ref n ∉ runViolations ⟨registry, r.layout.supplyChainId, ring⟩ r := by
  intro h
  obtain ⟨step, hs, htwo, contents, hnodup, hlength, hcontents⟩ :=
    hr.exists_contents_of_conflict h
  -- all contents of the conflict are what the other keys signed
  have htold : contents ⊆ [told ref] := fun content hcontent =>
    List.mem_singleton.mpr (ho.content_eq hs ((hcontents content).mp hcontent))
  have hone : contents.length ≤ 1 := hnodup.length_le_of_subset htold
  omega

/-- Keys that are outnumbered neither steer a run nor block it. For every step only
the content that the other keys signed has enough signers, so the run selects no
other and reports no conflict; and if it is valid without the links of these keys,
it is valid with them and selects the same contents. -/
theorem runContents_of_outnumbered [DecidablePred (· ∈ K)] {result : RunResult}
    {told : StepRef → StepArtifacts} (hrun : verifyRun registry r = .ok result)
    (ho : Outnumbered registry r K told) :
    (∀ ref step, (ref, step) ∈ r.layout.layout.steps → ∀ content,
      HasSigners registry r ref step step.threshold.val content → content = told ref) ∧
    (∀ ref content, (ref, content) ∈ runContents registry r → content = told ref) ∧
    (∀ ref n, .conflictingLinks ref n ∉ result.violations) ∧
    ∃ honest, verifyRun registry (r.without K) = .ok honest ∧
      (honest.isValid = true → result.isValid = true ∧
        runContents registry r = runContents registry (r.without K)) := by
  obtain ⟨ring, hr, rfl⟩ := exists_admitted hrun
  have hr' : Admitted registry (r.without K) ring := hr.withLinks _
  refine ⟨fun _ _ hs _ => ho.content_eq hs, fun ref content hmem => ?_,
    fun ref n => ho.no_conflict hr n, _, hr'.verifyRun_eq, fun hvalid => ?_⟩
  · obtain ⟨step, verified, hs, hselected⟩ := hr.selected_of_mem hmem
    exact ho.content_eq hs hselected.signed
  · obtain ⟨sel, hsel, hend⟩ := hr'.isValid_iff_along.mp hvalid
    have hfull := SelectedAlong.of_without ho hsel
    refine ⟨hr.isValid_iff_along.mpr ⟨sel, hfull, hend⟩, ?_⟩
    rw [hr.runContents_along hfull, hr'.runContents_along hsel]
    rfl

namespace Pipeline

/-- With a link for another package, signed by the third key. -/
def attacked : RunRequest := request.withLinks (built "66" third :: request.links)

theorem outnumbered : Outnumbered OneStep.registry attacked {id | id = third.keyId} sel where
  minority ref step hs ids hnodup hall := by
    have hsteps : attacked.layout.layout.steps = [(buildRef, build), (deployRef, deploy)] := rfl
    have hthird : ids ⊆ [third.keyId] := fun id hid => List.mem_singleton.mpr (hall id hid).1
    have hcount : ids.length ≤ 1 := hnodup.length_le_of_subset hthird
    rw [hsteps] at hs
    rcases List.mem_cons.mp hs with heq | hs
    · injection heq with _ hstep
      subst hstep
      exact Nat.lt_of_le_of_lt hcount (by decide)
    · injection List.mem_singleton.mp hs with _ hstep
      subst hstep
      -- the third key may not sign for the deployment at all
      cases ids with
      | nil => exact Nat.zero_lt_one
      | cons id rest =>
        obtain ⟨hid, hauth⟩ := hall id List.mem_cons_self
        have hsame : first.keyId = third.keyId := (List.mem_singleton.mp hauth).symm.trans hid
        exact absurd hsame third_ne.1.symm
  agreed ref step _ content id hid hsigned := by
    rcases signedBy_cons.mp hsigned with ⟨_, _, hkey⟩ | hsigned
    · exact absurd hkey.symm hid
    · exact content_eq hsigned

theorem attacked_without : attacked.without {id | id = third.keyId} = request := by
  have hfirst : first.keyId ≠ third.keyId := third_ne.1.symm
  have hsecond : second.keyId ≠ third.keyId := third_ne.2.symm
  have hlinks : attacked.links.filter (fun b => b.signature.keyId ∉ {id | id = third.keyId}) =
      request.links := by
    simp [attacked, RunRequest.withLinks, request, built, deployed, signature, hfirst, hsecond]
  rw [RunRequest.without, hlinks]
  rfl

theorem exists_attacked : ∃ result, verifyRun OneStep.registry attacked = .ok result := by
  obtain ⟨_, hresult⟩ := exists_verifyRun
  obtain ⟨ring, hr, _⟩ := exists_admitted hresult
  exact ⟨_, (hr.withLinks attacked.links).verifyRun_eq⟩

end Pipeline

/-- The third key tells of another package, and nothing comes of it. -/
theorem pipeline_outnumbered :
    ∃ result, verifyRun OneStep.registry Pipeline.attacked = .ok result ∧ result.isValid = true ∧
      runContents OneStep.registry Pipeline.attacked =
        runContents OneStep.registry Pipeline.request := by
  obtain ⟨result, hresult⟩ := Pipeline.exists_attacked
  obtain ⟨_, _, _, honest, hhonest, hsame⟩ :=
    runContents_of_outnumbered hresult Pipeline.outnumbered
  -- without the link of the third key it is the valid run
  rw [Pipeline.attacked_without] at hhonest hsame
  obtain ⟨honest', hhonest', hvalid⟩ := Pipeline.exists_valid
  rw [hhonest'] at hhonest
  injection hhonest with heq
  exact ⟨result, hresult, hsame (heq ▸ hvalid)⟩

end Provenance
