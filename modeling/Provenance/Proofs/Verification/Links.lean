import Mathlib.Logic.Relation
import Provenance.Proofs.Verification.Selection

/-!
# What a run takes from its links

A link that counts tells a run three things: two sets of artifacts and a signer. In
which order links come, how often the same is told, and what is told by links that
do not count has no influence on the verdict or on anything that makes a run
invalid:

> `fatal_of_sameSupport`: link lists in which the same signers stand behind the same
> contents, step by step, give the same verdict and the same fatal violations.

Both lists are grouped on their own, and the groups come out in different orders
with signers in different orders. `Grouped.permBy` pairs them off, and everything a
step does with its groups (`selectContent_permBy`) is blind to both orders: it counts
groups, it counts signers, it looks for keys among them. From there the runs go in
step (`verifySteps_fatal_congr`).
-/

namespace Provenance

/-! ## Groups up to order -/

/-- The same content with the same signers, in any order. -/
structure SignedContent.Similar (g h : SignedContent) : Prop where
  artifacts : g.artifacts = h.artifacts
  signers : g.signers.Perm h.signers

theorem signers_ne_nil_addSigner {artifacts : StepArtifacts} {key : KeyId} :
    ∀ {groups : List SignedContent}, (∀ g ∈ groups, g.signers ≠ []) →
      ∀ g ∈ addSigner artifacts key groups, g.signers ≠ []
  | [], _ => by simp [addSigner]
  | g :: rest, h => by
    rw [List.forall_mem_cons] at h
    unfold addSigner
    split
    · rw [List.forall_mem_cons]
      refine ⟨?_, h.2⟩
      split
      · exact h.1
      · exact List.cons_ne_nil _ _
    · rw [List.forall_mem_cons]
      exact ⟨h.1, signers_ne_nil_addSigner h.2⟩

/-- A group is made for a signer, so it has one. -/
theorem signers_ne_nil (links : List LinkBlock) : ∀ g ∈ signedContents links, g.signers ≠ [] := by
  have hfold : ∀ (links : List LinkBlock) {groups : List SignedContent},
      (∀ g ∈ groups, g.signers ≠ []) → ∀ g ∈ links.foldl
        (fun groups b => addSigner b.link.content b.signature.keyId groups) groups,
        g.signers ≠ [] := by
    intro links
    induction links with
    | nil => exact fun h => h
    | cons b rest ih => exact fun h => ih (signers_ne_nil_addSigner h)
  exact hfold links (by simp)

theorem mem_contents_iff {groups : List SignedContent} (hne : ∀ g ∈ groups, g.signers ≠ [])
    {content : StepArtifacts} :
    content ∈ groups.map SignedContent.artifacts ↔ ∃ id, KeptWith groups content id := by
  rw [List.mem_map]
  constructor
  · intro h
    obtain ⟨g, hg, hcontent⟩ := h
    obtain ⟨id, hid⟩ := List.exists_mem_of_ne_nil _ (hne g hg)
    exact ⟨id, g, hg, hcontent, hid⟩
  · intro h
    obtain ⟨_, g, hg, hcontent, _⟩ := h
    exact ⟨g, hg, hcontent⟩

/-- Links that tell the same are grouped in the same way. -/
theorem Grouped.permBy {links links' : List LinkBlock} {groups groups' : List SignedContent}
    (h : Grouped links groups) (h' : Grouped links' groups')
    (hne : ∀ g ∈ groups, g.signers ≠ []) (hne' : ∀ g ∈ groups', g.signers ≠ [])
    (hsame : ∀ content id,
      (∃ link ∈ links, link.link.content = content ∧ link.signature.keyId = id) ↔
        ∃ link ∈ links', link.link.content = content ∧ link.signature.keyId = id) :
    PermBy SignedContent.Similar groups groups' := by
  have hcontents : (groups.map SignedContent.artifacts).Perm
      (groups'.map SignedContent.artifacts) := by
    refine (List.perm_ext_iff_of_nodup h.contents h'.contents).mpr fun content => ?_
    rw [mem_contents_iff hne, mem_contents_iff hne']
    simp only [h.kept, h'.kept, hsame]
  refine (perm_map_iff.mp hcontents).imp_of_mem fun g hg g' hg' hcontent => ⟨hcontent, ?_⟩
  refine (List.perm_ext_iff_of_nodup (h.signers g hg) (h'.signers g' hg')).mpr fun id => ?_
  rw [h.mem_signers_iff hg, h'.mem_signers_iff hg', hsame, hcontent]

/-! ## What a step does with its groups -/

section Groups

variable {groups groups' : List SignedContent}

theorem bestSignerCount_permBy (h : PermBy SignedContent.Similar groups groups') :
    bestSignerCount groups = bestSignerCount groups' := by
  have hcounts : (groups.map fun g => g.signers.length).Perm
      (groups'.map fun g => g.signers.length) := by
    rw [perm_map_iff]
    exact h.imp_of_mem fun _ _ _ _ hg => hg.signers.length_eq
  have hmax : ∀ groups, bestSignerCount groups =
      (groups.map fun g => g.signers.length).foldl max 0 := by
    intro groups
    rw [List.foldl_map]
    rfl
  have : RightCommutative (max : Nat → Nat → Nat) := ⟨fun a b c => by omega⟩
  rw [hmax, hmax, hcounts.foldl_eq]

theorem missingApprovals_perm {ref : StepRef} {approvals : List Approval}
    {signers signers' : List KeyId} (h : signers.Perm signers') :
    missingApprovals ref approvals signers = missingApprovals ref approvals signers' := by
  simp only [missingApprovals, h.mem_iff]

theorem contentViolations_similar {ref : StepRef} {step : Step} {approvals : List Approval}
    {verified : VerifiedSteps} {g g' : SignedContent} (h : g.Similar g') :
    contentViolations ref step approvals verified g =
      contentViolations ref step approvals verified g' := by
  unfold contentViolations
  rw [missingApprovals_perm h.signers, h.artifacts]

theorem selectContent_permBy (h : PermBy SignedContent.Similar groups groups') (ref : StepRef)
    (step : Step) (approvals : List Approval) (verified : VerifiedSteps) :
    selectContent ref step approvals verified groups =
      selectContent ref step approvals verified groups' := by
  have hfilter := h.filter (p := fun g => step.threshold.val ≤ g.signers.length)
    fun g g' hg => by rw [hg.signers.length_eq]
  have hlength := hfilter.length_eq
  unfold selectContent
  rw [bestSignerCount_permBy h]
  revert hfilter hlength
  -- as many groups reach the threshold on either side: none, one, or several
  generalize groups.filter _ = reached
  generalize groups'.filter _ = reached'
  intro hreached hlength
  match reached, reached', hlength with
  | [], [], _ => rfl
  | [g], [g'], _ =>
    obtain ⟨_, hg', hsim⟩ := hreached.exists_right (List.mem_singleton_self g)
    rw [List.mem_singleton.mp hg'] at hsim
    simp only [contentViolations_similar hsim, hsim.artifacts]
  | _ :: _ :: _, _ :: _ :: _, hlength =>
    show ([Violation.conflictingLinks ref (List.length _)], none) =
      ([Violation.conflictingLinks ref (List.length _)], none)
    rw [hlength]

end Groups

/-! ## Two runs in step -/

/-- For every step the same signers stand behind the same contents. -/
def SameSupport (registry : Registry) (r : RunRequest) (links links' : List LinkBlock) : Prop :=
  ∀ ref step, (ref, step) ∈ r.layout.layout.steps → ∀ content id,
    SignedBy registry (r.withLinks links) ref step content id ↔
      SignedBy registry (r.withLinks links') ref step content id

theorem filter_isFatal_violations (policy : LinkPolicy) (request : RunRequest)
    (verified : VerifiedSteps) (ref : StepRef) (step : Step) :
    (verifyStep policy request verified ref step).violations.filter Violation.isFatal =
      (verifyStep policy request verified ref step).fatal := by
  rw [StepResult.violations, List.filter_append]
  have hdiscarded : (verifyStep policy request verified ref step).discarded.filter
      Violation.isFatal = [] :=
    List.filter_eq_nil_iff.mpr fun v hv => by simp [isFatal_of_mem_discarded hv]
  rw [hdiscarded, List.nil_append]
  exact List.filter_eq_self.mpr fun v hv => isFatal_of_mem_fatal hv

/-- Runs in which every step ends alike end alike. -/
theorem verifySteps_fatal_congr {policy : LinkPolicy} {r r' : RunRequest} :
    ∀ {steps : List (StepRef × Step)},
      (∀ s ∈ steps, ∀ verified, (verifyStep policy r verified s.1 s.2).fatal =
        (verifyStep policy r' verified s.1 s.2).fatal ∧
        (verifyStep policy r verified s.1 s.2).content =
          (verifyStep policy r' verified s.1 s.2).content) → ∀ verified,
      (verifySteps policy r verified steps).1.filter Violation.isFatal =
        (verifySteps policy r' verified steps).1.filter Violation.isFatal ∧
      (verifySteps policy r verified steps).2 = (verifySteps policy r' verified steps).2
  | [], _, _ => ⟨rfl, rfl⟩
  | (ref, step) :: rest, h, verified => by
    rw [List.forall_mem_cons] at h
    obtain ⟨hfatal, hcontent⟩ := h.1 verified
    rw [← filter_isFatal_violations, ← filter_isFatal_violations policy r'] at hfatal
    rw [verifySteps, verifySteps]
    simp only [hcontent]
    -- the steps behind are gone through on both sides or on neither
    cases hc : (verifyStep policy r' verified ref step).content with
    | none => exact ⟨hfatal, rfl⟩
    | some content =>
      obtain ⟨hrest, hlast⟩ := verifySteps_fatal_congr h.2 (verified.insert ref content)
      refine ⟨?_, hlast⟩
      show List.filter _ (_ ++ _) = List.filter _ (_ ++ _)
      rw [List.filter_append, List.filter_append, hfatal, hrest]

theorem isValid_eq_of_filter_eq {violations violations' : List Violation}
    (h : violations.filter Violation.isFatal = violations'.filter Violation.isFatal) :
    (RunResult.ofViolations violations).isValid = (RunResult.ofViolations violations').isValid := by
  have hnil : ∀ violations, (RunResult.ofViolations violations).isValid = true ↔
      violations.filter Violation.isFatal = [] := by
    intro violations
    rw [isValid_ofViolations_iff, List.filter_eq_nil_iff]
    simp
  rw [Bool.eq_iff_iff, hnil, hnil, h]

section Support

variable {registry : Registry} {r : RunRequest} {links links' : List LinkBlock}

/-- A step ends alike whichever of the links it is given. -/
theorem verifyStep_sameSupport {ring : KeyRing}
    (hring : KeyRing.ofKeys registry r.layout.layout.keys = .ok ring)
    (hkeys : r.layout.layout.keyIds.Nodup) {ref : StepRef} {step : Step}
    (h : ∀ content id, SignedBy registry r ref step content id ↔
      SignedBy registry (r.withLinks links) ref step content id) (verified : VerifiedSteps) :
    (verifyStep ⟨registry, r.layout.supplyChainId, ring⟩ r verified ref step).fatal =
      (verifyStep ⟨registry, r.layout.supplyChainId, ring⟩ (r.withLinks links) verified ref
        step).fatal ∧
    (verifyStep ⟨registry, r.layout.supplyChainId, ring⟩ r verified ref step).content =
      (verifyStep ⟨registry, r.layout.supplyChainId, ring⟩ (r.withLinks links) verified ref
        step).content := by
  have htold : ∀ (r : RunRequest), r.layout.layout.keyIds.Nodup →
      KeyRing.ofKeys registry r.layout.layout.keys = .ok ring → ∀ content id,
      (∃ link ∈ acceptedLinks ⟨registry, r.layout.supplyChainId, ring⟩ r.links ref step,
        link.link.content = content ∧ link.signature.keyId = id) ↔
        SignedBy registry r ref step content id := by
    intro r hkeys hring content id
    simp only [mem_acceptedLinks_iff hring hkeys, SignedBy, and_assoc]
  have hgroups := (grouped_signedContents
    (acceptedLinks ⟨registry, r.layout.supplyChainId, ring⟩ r.links ref step)).permBy
    (grouped_signedContents
      (acceptedLinks ⟨registry, r.layout.supplyChainId, ring⟩ links ref step))
    (signers_ne_nil _) (signers_ne_nil _) fun content id => by
      rw [htold r hkeys hring, h, ← htold (r.withLinks links) hkeys hring]
      rfl
  have hselect := (verifyStep_select ⟨registry, r.layout.supplyChainId, ring⟩ r verified ref
    step).trans (selectContent_permBy hgroups ref step r.approvals verified)
  rw [← Prod.mk.injEq, hselect]
  exact (verifyStep_select _ (r.withLinks links) verified ref step).symm

theorem runViolations_sameSupport {ring : KeyRing}
    (hring : KeyRing.ofKeys registry r.layout.layout.keys = .ok ring)
    (hkeys : r.layout.layout.keyIds.Nodup) (h : SameSupport registry r r.links links) :
    (runViolations ⟨registry, r.layout.supplyChainId, ring⟩ r).filter Violation.isFatal =
      (runViolations ⟨registry, r.layout.supplyChainId, ring⟩ (r.withLinks links)).filter
        Violation.isFatal := by
  obtain ⟨hfatal, hlast⟩ := verifySteps_fatal_congr
    (fun s hs => verifyStep_sameSupport hring hkeys (h s.1 s.2 hs)) .empty
  rw [runViolations_eq, runViolations_eq, List.filter_append, List.filter_append]
  -- the steps are those of the one layout, and what is said at the end reads no link
  show List.filter _ (verifySteps _ r _ _).1 ++ _ =
    List.filter _ (verifySteps _ (r.withLinks links) _ r.layout.layout.steps).1 ++
      List.filter _ ((verifySteps _ (r.withLinks links) _ r.layout.layout.steps).2.elim [] _)
  rw [hfatal, hlast]
  rfl

theorem verifyRun_sameSupport {result : RunResult} (hrun : verifyRun registry r = .ok result)
    (h : SameSupport registry r r.links links) :
    ∃ result', verifyRun registry (r.withLinks links) = .ok result' ∧
      result'.isValid = result.isValid ∧ result'.fatal = result.fatal := by
  obtain ⟨ring, hr, rfl⟩ := exists_admitted hrun
  have hfatal := runViolations_sameSupport hr.keys hr.wellFormed.keyIds h
  exact ⟨_, (hr.withLinks links).verifyRun_eq, (isValid_eq_of_filter_eq hfatal).symm, hfatal.symm⟩

end Support

/-! ## Edits of a link list -/

/-- The second link tells the same as the first of another run, perhaps of another
command, and was signed by the same key, well if the first was. -/
structure Resigned (registry : Registry) (b : LayoutBlock) (link link' : LinkBlock) : Prop where
  supplyChain : link'.supplyChainId = link.supplyChainId
  told : ∃ runId command, link'.link = { link.link with runId := runId, command := command }
  signer : link'.signature.keyId = link.signature.keyId
  signed : ∀ key ∈ b.layout.keys, key.keyId = link.signature.keyId →
    (link'.link.isSignedBy registry link'.signature key = .ok true ↔
      link.link.isSignedBy registry link.signature key = .ok true)

/-- Changes of a link list that tell a run nothing new. -/
inductive Edit (registry : Registry) (b : LayoutBlock) : List LinkBlock → List LinkBlock → Prop
  | reorder {links links'} : links.Perm links' → Edit registry b links links'
  | again {links link} : link ∈ links → Edit registry b links (link :: links)
  | resign {links link link'} : Resigned registry b link link' →
      Edit registry b (link :: links) (link' :: links)
  /-- A link that counts for no step. -/
  | rejected {links link} :
      (∀ ref step, (ref, step) ∈ b.layout.steps → ¬Accepted registry b ref step link) →
      Edit registry b links (link :: links)
  /-- A link of a step that is not in the layout. -/
  | elsewhere {links link} : link.link.step ∉ b.layout.steps.map (·.1) →
      Edit registry b links (link :: links)

section Edits

variable {registry : Registry} {r : RunRequest} {ref : StepRef} {step : Step}

theorem signedBy_cons_of_not_accepted {link : LinkBlock} {links : List LinkBlock}
    {content : StepArtifacts} {id : KeyId} (h : ¬Accepted registry r.layout ref step link) :
    SignedBy registry (r.withLinks (link :: links)) ref step content id ↔
      SignedBy registry (r.withLinks links) ref step content id := by
  rw [signedBy_cons]
  exact or_iff_right fun hlink => h hlink.1

theorem Accepted.step_eq {link : LinkBlock} {b : LayoutBlock}
    (h : Accepted registry b ref step link) : link.link.step = ref :=
  Link.step_eq_iff.mpr h.address

theorem Resigned.symm {b : LayoutBlock} {link link' : LinkBlock}
    (h : Resigned registry b link link') : Resigned registry b link' link where
  supplyChain := h.supplyChain.symm
  told := by
    obtain ⟨runId, command, hlink⟩ := h.told
    exact ⟨link.link.runId, link.link.command, by rw [hlink]⟩
  signer := h.signer.symm
  signed key hkey hid := (h.signed key hkey (hid.trans h.signer)).symm

theorem Resigned.content_eq {b : LayoutBlock} {link link' : LinkBlock}
    (h : Resigned registry b link link') : link'.link.content = link.link.content := by
  obtain ⟨_, _, hlink⟩ := h.told
  rw [hlink]
  rfl

theorem Resigned.accepted {b : LayoutBlock} {link link' : LinkBlock}
    (h : Resigned registry b link link') (ha : Accepted registry b ref step link) :
    Accepted registry b ref step link' := by
  obtain ⟨key, hkey, hid, hvalid⟩ := ha.signed
  have hsigned : ∃ key ∈ b.layout.keys, key.keyId = link'.signature.keyId ∧
      link'.link.isSignedBy registry link'.signature key = .ok true :=
    ⟨key, hkey, hid.trans h.signer.symm, (h.signed key hkey hid).mpr hvalid⟩
  obtain ⟨_, _, hlink⟩ := h.told
  refine ⟨?_, h.supplyChain.trans ha.supplyChain, ?_, ?_, h.signer ▸ ha.authorized, hsigned⟩
  · rw [hlink]
    exact ha.address
  · rw [hlink]
    exact ha.materials
  · rw [hlink]
    exact ha.products

theorem Resigned.accepted_iff {b : LayoutBlock} {link link' : LinkBlock}
    (h : Resigned registry b link link') :
    Accepted registry b ref step link ↔ Accepted registry b ref step link' :=
  ⟨h.accepted, h.symm.accepted⟩

theorem Edit.sameSupport {links links' : List LinkBlock} (h : Edit registry r.layout links links') :
    SameSupport registry r links links' := by
  intro ref step hs content id
  cases h with
  | reorder hperm =>
    simp only [SignedBy, RunRequest.withLinks, hperm.mem_iff]
  | again hmem =>
    rw [signedBy_cons]
    refine (or_iff_right_of_imp fun hlink => ?_).symm
    exact ⟨_, hmem, hlink⟩
  | resign hresigned =>
    rw [signedBy_cons, signedBy_cons, hresigned.accepted_iff, hresigned.content_eq,
      hresigned.signer]
  | rejected hnone => exact (signedBy_cons_of_not_accepted (hnone ref step hs)).symm
  | elsewhere hnot =>
    refine (signedBy_cons_of_not_accepted fun ha => hnot ?_).symm
    rw [ha.step_eq]
    exact List.mem_map.mpr ⟨_, hs, rfl⟩

theorem sameSupport_of_edits {links links' : List LinkBlock}
    (h : Relation.EqvGen (Edit registry r.layout) links links') :
    SameSupport registry r links links' := by
  induction h with
  | rel _ _ hedit => exact hedit.sameSupport
  | refl _ => exact fun _ _ _ _ _ => Iff.rfl
  | symm _ _ _ ih => exact fun ref step hs content id => (ih ref step hs content id).symm
  | trans _ _ _ _ _ ih ih' =>
    exact fun ref step hs content id => (ih ref step hs content id).trans (ih' ref step hs content id)

end Edits

/-- A run depends on its links only through who validly signed what: with the same
signers behind the same contents in every step, the verdict is the same and so is
everything that makes the run invalid. So nothing depends on the order of links, on
links that are listed again, on run ids and commands, or on links that are rejected
or belong to no step. -/
theorem fatal_of_sameSupport {registry : Registry} {r : RunRequest} {result : RunResult}
    (hrun : verifyRun registry r = .ok result) :
    (∀ links, SameSupport registry r r.links links →
      ∃ result', verifyRun registry (r.withLinks links) = .ok result' ∧
        result'.isValid = result.isValid ∧ result'.fatal = result.fatal) ∧
    ∀ links, Relation.EqvGen (Edit registry r.layout) r.links links →
      ∃ result', verifyRun registry (r.withLinks links) = .ok result' ∧
        result'.isValid = result.isValid ∧ result'.fatal = result.fatal :=
  ⟨fun _ => verifyRun_sameSupport hrun,
    fun _ hedits => verifyRun_sameSupport hrun (sameSupport_of_edits hedits)⟩

namespace OneStep

/-- The link again, of another run. -/
def rerun : LinkBlock := { link with link := { link.link with runId := "again" } }

/-- A link of a step that the layout does not have. -/
def stray : LinkBlock := { link with link := { link.link with stepName := "test" } }

theorem resigned_rerun : Resigned registry request.layout link rerun := by
  refine ⟨rfl, ⟨"again", none, rfl⟩, rfl, fun key hkey _ => ?_⟩
  rw [List.mem_singleton.mp hkey]
  exact ⟨fun _ => isValidText_eq _, fun _ => isValidText_eq _⟩

theorem edits : Relation.EqvGen (Edit registry request.layout) [link] [stray, rerun, link] := by
  have hagain : Edit registry request.layout [link] [link, link] := .again List.mem_cons_self
  have hstray : Edit registry request.layout [rerun, link] [stray, rerun, link] :=
    .elsewhere (by decide)
  exact (Relation.EqvGen.rel _ _ hagain).trans _ _ _
    ((Relation.EqvGen.rel _ _ (.resign resigned_rerun)).trans _ _ _ (.rel _ _ hstray))

end OneStep

/-- The link of the run is listed twice, once as one of another run, behind a link of
a step that there is not. -/
theorem oneStep_edited :
    ∃ result result', verifyRun OneStep.registry OneStep.request = .ok result ∧
      verifyRun OneStep.registry
        (OneStep.request.withLinks [OneStep.stray, OneStep.rerun, OneStep.link]) = .ok result' ∧
      result'.isValid = result.isValid ∧ result'.fatal = result.fatal := by
  obtain ⟨result, hresult⟩ := OneStep.exists_verifyRun
  obtain ⟨result', hresult', hsame⟩ := (fatal_of_sameSupport hresult).2 _ OneStep.edits
  exact ⟨result, result', hresult, hresult', hsame⟩

end Provenance
