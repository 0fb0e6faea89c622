import Provenance.Proofs.Verification.Reordering

/-!
# Supply chain ids

The id of a supply chain stands beside a layout and beside a link, outside of what is
signed. A run compares the two and looks at neither in any other way:

> `verifyRun_chains`: other ids give the same run, error or result, as long as the links
> that are of the supply chain of the layout stay the same ones.

So the check of ids keeps out links that are filed under another supply chain. It does
not keep out a whole chain that is filed under another id, nor one link whose id is
changed to fit: the ids are whatever the blocks say.

The proof follows the links on their way into a run. Blocks that are `LinkBlock.Alike`
are discarded for the same reasons (`discard?_alike`) and leave the same contents
(`signedContents_alike`), so each step turns out the same (`verifyStep_alike`), and by
induction all of them do.
-/

namespace Provenance

/-! ## Blocks under other ids -/

/-- The same link under the same signature, and of the supply chain of its layout in
both places or in neither. -/
structure LinkBlock.Alike (chain chain' : String) (b b' : LinkBlock) : Prop where
  link : b.link = b'.link
  signature : b.signature = b'.signature
  supplyChain : b.supplyChainId = chain ↔ b'.supplyChainId = chain'

/-- The same request with other supply chain ids, under which the same links are of the
supply chain of the layout. -/
structure RunRequest.Alike (r r' : RunRequest) : Prop where
  layout : r.layout.layout = r'.layout.layout
  signatures : r.layout.signatures = r'.layout.signatures
  links : List.Forall₂ (LinkBlock.Alike r.layout.supplyChainId r'.layout.supplyChainId)
    r.links r'.links
  expected : r.expected = r'.expected
  approvals : r.approvals = r'.approvals

/-- The block under the image of its id. -/
def LinkBlock.renamed (f : String → String) (b : LinkBlock) : LinkBlock :=
  { b with supplyChainId := f b.supplyChainId }

/-- The block under the image of its id. -/
def LayoutBlock.renamed (f : String → String) (b : LayoutBlock) : LayoutBlock :=
  { b with supplyChainId := f b.supplyChainId }

/-- The request with the image of every supply chain id, and nothing else changed. -/
def RunRequest.renamed (f : String → String) (r : RunRequest) : RunRequest :=
  { r with layout := r.layout.renamed f, links := r.links.map (LinkBlock.renamed f) }

theorem LinkBlock.alike_renamed {f : String → String} (hf : Function.Injective f) (chain : String)
    (b : LinkBlock) : b.Alike chain (f chain) (b.renamed f) :=
  ⟨rfl, rfl, hf.eq_iff.symm⟩

theorem RunRequest.alike_renamed {f : String → String} (hf : Function.Injective f)
    (r : RunRequest) : r.Alike (r.renamed f) where
  layout := rfl
  signatures := rfl
  links := by
    refine List.forall₂_map_right_iff.mpr (List.forall₂_same.mpr fun b _ => ?_)
    exact LinkBlock.alike_renamed hf r.layout.supplyChainId b
  expected := rfl
  approvals := rfl

/-! ## One step -/

section Step

variable {registry : Registry} {keys : KeyRing} {chain chain' : String} {ref : StepRef}
  {step : Step} {links links' : List LinkBlock}

theorem discard?_alike {b b' : LinkBlock} (h : b.Alike chain chain' b') :
    LinkPolicy.discard? ⟨registry, chain, keys⟩ step b =
      LinkPolicy.discard? ⟨registry, chain', keys⟩ step b' := by
  obtain ⟨id, link, s⟩ := b
  obtain ⟨id', link', s'⟩ := b'
  obtain ⟨rfl, rfl, hchain⟩ := h
  -- the id is compared first, and nothing after that reads it
  by_cases hid : id = chain
  · have hid' : id' = chain' := hchain.mp hid
    subst hid hid'
    unfold LinkPolicy.discard?
    rw [if_neg (not_not_intro rfl), if_neg (not_not_intro rfl)]
    rfl
  · have hid' : id' ≠ chain' := fun heq => hid (hchain.mpr heq)
    unfold LinkPolicy.discard?
    rw [if_pos hid, if_pos hid']

theorem candidates_alike (h : List.Forall₂ (LinkBlock.Alike chain chain') links links') :
    List.Forall₂ (LinkBlock.Alike chain chain') (candidates ref links) (candidates ref links') :=
  List.rel_filter (fun b b' hb => by simp only [hb.link]) h

theorem acceptedLinks_alike (h : List.Forall₂ (LinkBlock.Alike chain chain') links links') :
    List.Forall₂ (LinkBlock.Alike chain chain')
      (acceptedLinks ⟨registry, chain, keys⟩ links ref step)
      (acceptedLinks ⟨registry, chain', keys⟩ links' ref step) :=
  List.rel_filter (fun b b' hb => by simp only [discard?_alike hb]) (candidates_alike h)

/-- Contents and signers are read off links and signatures. -/
theorem signedContents_alike (h : List.Forall₂ (LinkBlock.Alike chain chain') links links') :
    signedContents links = signedContents links' := by
  refine List.rel_foldl (P := Eq) (fun groups _ hgroups b b' hb => ?_) rfl h
  rw [hgroups, hb.link, hb.signature]

/-- So are the violations of links that do not count. -/
theorem discardViolations_alike
    (h : List.Forall₂ (LinkBlock.Alike chain chain') links links') :
    (links.filterMap fun b => (LinkPolicy.discard? ⟨registry, chain, keys⟩ step b).map
        (discardViolation ref b)) =
      links'.filterMap fun b => (LinkPolicy.discard? ⟨registry, chain', keys⟩ step b).map
        (discardViolation ref b) := by
  induction h with
  | nil => rfl
  | @cons b b' _ _ hb _ ih =>
    have hviolation : discardViolation ref b = discardViolation ref b' := by
      funext reason
      rw [discardViolation, discardViolation, hb.link, hb.signature]
    rw [List.filterMap_cons, List.filterMap_cons, ih, discard?_alike hb, hviolation]

end Step

/-! ## All steps -/

theorem StepResult.eq_of_parts {s t : StepResult} (hdiscarded : s.discarded = t.discarded)
    (hfatal : s.fatal = t.fatal) (hcontent : s.content = t.content) : s = t := by
  obtain ⟨_, _, _⟩ := s
  obtain ⟨_, _, _⟩ := t
  rw [StepResult.mk.injEq]
  exact ⟨hdiscarded, hfatal, hcontent⟩

section Run

variable {registry : Registry} {keys : KeyRing} {r r' : RunRequest}

theorem verifyStep_alike (h : r.Alike r') (verified : VerifiedSteps) (ref : StepRef)
    (step : Step) :
    verifyStep ⟨registry, r.layout.supplyChainId, keys⟩ r verified ref step =
      verifyStep ⟨registry, r'.layout.supplyChainId, keys⟩ r' verified ref step := by
  have haccepted : List.Forall₂ _
      (acceptedLinks ⟨registry, r.layout.supplyChainId, keys⟩ r.links ref step)
      (acceptedLinks ⟨registry, r'.layout.supplyChainId, keys⟩ r'.links ref step) :=
    acceptedLinks_alike h.links
  have hselect := signedContents_alike haccepted
  refine StepResult.eq_of_parts ?_ ?_ ?_
  · rw [verifyStep_discarded, verifyStep_discarded]
    exact discardViolations_alike (candidates_alike h.links)
  · rw [verifyStep_fatal, verifyStep_fatal, hselect, h.approvals]
  · rw [verifyStep_content, verifyStep_content, hselect, h.approvals]

theorem verifySteps_alike (h : r.Alike r') :
    ∀ (steps : List (StepRef × Step)) (verified : VerifiedSteps),
      verifySteps ⟨registry, r.layout.supplyChainId, keys⟩ r verified steps =
        verifySteps ⟨registry, r'.layout.supplyChainId, keys⟩ r' verified steps
  | [], _ => rfl
  | (ref, step) :: rest, verified => by
    rw [verifySteps, verifySteps, verifyStep_alike h]
    simp only [verifySteps_alike h rest]

/-- What is compared at the end has no id. -/
theorem endViolations_alike (h : r.Alike r') : endViolations r = endViolations r' := by
  funext verified
  rw [endViolations, endViolations, h.layout, h.expected]

theorem runViolations_alike (h : r.Alike r') :
    runViolations ⟨registry, r.layout.supplyChainId, keys⟩ r =
      runViolations ⟨registry, r'.layout.supplyChainId, keys⟩ r' := by
  rw [runViolations_eq, runViolations_eq, verifySteps_alike h, endViolations_alike h, h.layout]

/-- Before the links are looked at, no id is. -/
theorem GateError.alike (h : r.Alike r') {e : VerifyError} (he : GateError registry r e) :
    GateError registry r' e := by
  obtain ⟨⟨_, layout, signatures⟩, _, _, approvals⟩ := r
  obtain ⟨⟨_, layout', signatures'⟩, _, _, approvals'⟩ := r'
  obtain rfl : layout = layout' := h.layout
  obtain rfl : signatures = signatures' := h.signatures
  obtain rfl : approvals = approvals' := h.approvals
  cases he with
  | key hkeys => exact .key hkeys
  | unsigned husable hnone => exact .unsigned husable hnone
  | signature husable hl hbefore hs => exact .signature husable hl hbefore hs
  | layout husable hsigned hlayout => exact .layout husable hsigned hlayout
  | approval husable hsigned hlayout happrovals =>
    exact .approval husable hsigned hlayout happrovals

theorem exists_runPolicy_alike (h : r.Alike r') {policy : LinkPolicy}
    (hpolicy : runPolicy registry r = .ok policy) :
    ∃ keys, policy = ⟨registry, r.layout.supplyChainId, keys⟩ ∧
      runPolicy registry r' = .ok ⟨registry, r'.layout.supplyChainId, keys⟩ := by
  obtain ⟨keys, hkeys, hsigned, hlayout, happrovals, rfl⟩ := runPolicy_eq_ok_iff.mp hpolicy
  refine ⟨keys, rfl, runPolicy_eq_ok_iff.mpr ⟨keys, ?_, ?_, ?_, ?_, rfl⟩⟩
  · rw [← h.layout]
    exact hkeys
  · rw [ProperlySigned, ← h.layout, ← h.signatures]
    exact hsigned
  · rw [← h.layout]
    exact hlayout
  · rw [← h.layout, ← h.approvals]
    exact happrovals

theorem verifyRun_alike (h : r.Alike r') : verifyRun registry r' = verifyRun registry r := by
  cases hrun : verifyRun registry r with
  | error e => exact verifyRun_eq_error_iff.mpr ((verifyRun_eq_error_iff.mp hrun).alike h)
  | ok result =>
    obtain ⟨policy, hpolicy, rfl⟩ := verifyRun_eq_ok_iff.mp hrun
    obtain ⟨keys, rfl, hpolicy'⟩ := exists_runPolicy_alike h hpolicy
    refine verifyRun_eq_ok_iff.mpr ⟨_, hpolicy', ?_⟩
    rw [runViolations_alike h]

end Run

/-- Supply chain ids matter to a run only in that the id of a link is that of the layout
or is not. So all ids can be replaced, one by one, without a change to the error or to
the result. -/
theorem verifyRun_chains (registry : Registry) (r : RunRequest) :
    (∀ f : String → String, Function.Injective f →
      verifyRun registry (r.renamed f) = verifyRun registry r) ∧
    ∀ r', r.Alike r' → verifyRun registry r' = verifyRun registry r := by
  exact ⟨fun f hf => verifyRun_alike (r.alike_renamed hf), fun r' h => verifyRun_alike h⟩

namespace Pipeline

/-- The run with a link of another supply chain, all of it filed elsewhere. -/
def refiled : RunRequest :=
  { strayed with
    layout := { twiceSigned with supplyChainId := "here" }
    links := [{ foreign with supplyChainId := "there" }] }

theorem alike_refiled : strayed.Alike refiled where
  layout := rfl
  signatures := rfl
  links := .cons ⟨rfl, rfl, by decide⟩ .nil
  expected := rfl
  approvals := rfl

end Pipeline

/-- The link of another supply chain is told of under all ids in the same way. -/
theorem pipeline_refiled : ∃ result,
    verifyRun OneStep.registry Pipeline.strayed = .ok result ∧
    result.violations =
      [.linkDiscarded Pipeline.buildRef "run" Pipeline.first.keyId .wrongSupplyChain,
        .thresholdNotMet Pipeline.buildRef 2 0] ∧
    verifyRun OneStep.registry (Pipeline.strayed.renamed ("x" ++ ·)) = .ok result ∧
    verifyRun OneStep.registry Pipeline.refiled = .ok result := by
  obtain ⟨result, hresult⟩ := Pipeline.exists_strayed
  obtain ⟨ring, _, heq⟩ := exists_admitted hresult
  have hinjective : Function.Injective fun id : String => "x" ++ id := fun _ _ h =>
    String.append_right_inj _ |>.mp h
  obtain ⟨hrenamed, halike⟩ := verifyRun_chains OneStep.registry Pipeline.strayed
  refine ⟨result, hresult, ?_, ?_, ?_⟩
  · rw [heq]
    exact Pipeline.runViolations_strayed ring
  · rw [hrenamed _ hinjective, hresult]
  · rw [halike _ Pipeline.alike_refiled, hresult]

end Provenance
