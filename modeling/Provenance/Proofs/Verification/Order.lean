import Provenance.Proofs.Layout.Walk
import Provenance.Proofs.Payload
import Provenance.Proofs.Verification.Gate

/-!
# What a layout signature says about the order of steps

The text that gets signed lists segments and steps by name, whereas a run goes
through them as they are declared. So a signature says which steps there are and
nothing of their order:

> `sameText_walks`: the walks under one signed text are the rearrangements of one
> of them; but of two layouts with one signed text and one walk, a run cannot tell
> which it was given.

`twoSegments_walk_ne` shows that the order is left open indeed. The second half
goes through the run from the gate (`validateApprovals_eq_ok_iff`, `GoodSignature.similar`)
over one step (`verifyStep_congr`) to all of them (`verifySteps_congr`); what is
read of a layout on the way is what similar layouts share. Of the signatures a run
asks only that each of them is good, so it does not matter which they are as long as
there is one (`verifyRun_withBlock`).
-/

namespace Provenance

/-! ## Approvals -/

/-- The approval is for a step of the layout and for keys that may sign for it. -/
def Layout.ApprovalFits (l : Layout) (a : Approval) : Prop :=
  ∃ step, l.step? a.step = some step ∧ ∀ id ∈ a.requiredKeyIds, step.isAuthorized id = true

theorem checkApproval_eq_ok_iff {l : Layout} {a : Approval} :
    checkApproval l a = .ok () ↔ l.ApprovalFits a := by
  unfold checkApproval Layout.ApprovalFits
  cases l.step? a.step with
  | none => simp
  | some step =>
    simp only [Option.some.injEq, exists_eq_left']
    -- the first key that may not sign is at fault
    cases hkey : a.requiredKeyIds.find? fun id => !step.isAuthorized id with
    | some key =>
      have hno := List.find?_some hkey
      refine ⟨fun h => (nomatch h), fun hall => ?_⟩
      rw [hall key (List.mem_of_find?_eq_some hkey)] at hno
      exact nomatch hno
    | none =>
      refine ⟨fun _ id hid => ?_, fun _ => rfl⟩
      simpa using List.find?_eq_none.mp hkey id hid

theorem checkApprovals_eq_each {l : Layout} :
    ∀ approvals, checkApprovals l approvals = Checks.each (checkApproval l) approvals
  | [] => rfl
  | a :: rest => by
    unfold checkApprovals Checks.each
    rw [checkApprovals_eq_each rest]

theorem validateApprovals_eq_ok_iff {l : Layout} {approvals : List Approval} :
    validateApprovals l approvals = .ok () ↔ ∀ a ∈ approvals, l.ApprovalFits a := by
  rw [validateApprovals, Checks.mapError_eq_ok_iff, checkApprovals_eq_each, Checks.each_eq_ok_iff]
  simp only [checkApproval_eq_ok_iff]

theorem Layout.ApprovalFits.similar {l m : Layout} (hl : l.WellFormed) (hm : m.WellFormed)
    (h : l.Similar m) {a : Approval} (ha : l.ApprovalFits a) : m.ApprovalFits a := by
  obtain ⟨step, hstep, hkeys⟩ := ha
  obtain ⟨step', hmem, hsim⟩ := h.exists_step (hl.step?_eq_some_iff.mp hstep)
  refine ⟨step', hm.step?_eq_some_iff.mpr hmem, fun id hid => ?_⟩
  rw [← hsim.isAuthorized]
  exact hkeys id hid

/-! ## Keys and signatures -/

theorem Layout.Similar.listedKey?_eq {l m : Layout} (h : l.Similar m) (hl : l.WellFormed)
    (id : KeyId) : l.listedKey? id = m.listedKey? id := by
  have hm : m.keyIds.Nodup := h.keyIds_perm.nodup_iff.mp hl.keyIds
  refine Option.ext fun key => ?_
  rw [Layout.listedKey?_eq_some_iff hl.keyIds, Layout.listedKey?_eq_some_iff hm, h.keys.mem_iff]

section Signatures

variable {registry : Registry} {l m : Layout}

theorem KeysUsable.similar (h : l.Similar m) (hkeys : KeysUsable registry l) :
    KeysUsable registry m := fun k hk => hkeys k (h.keys.mem_iff.mpr hk)

/-- A signature of one layout is a signature of the other. -/
theorem GoodSignature.similar (hl : l.WellFormed) (htext : l.canonicalText = m.canonicalText)
    {s : Signature} (hs : GoodSignature registry l s) : GoodSignature registry m s := by
  have h := hl.canonicalText_eq_iff.mp htext
  obtain ⟨hauth, key, hkey, hvalid⟩ := hs
  refine ⟨h.keyIds.mem_iff.mp hauth, key, (h.listedKey?_eq hl _) ▸ hkey, ?_⟩
  rw [Layout.isSignedBy, ← htext]
  exact hvalid

end Signatures

/-! ## The run -/

/-- The policies check links in the same way. -/
structure LinkPolicy.Agrees (p q : LinkPolicy) : Prop where
  registry : p.registry = q.registry
  supplyChainId : p.supplyChainId = q.supplyChainId
  keys : ∀ id, p.keys.get? id = q.keys.get? id

/-- The same request, about another layout with its signatures. -/
def RunRequest.withBlock (r : RunRequest) (b : LayoutBlock) : RunRequest := { r with layout := b }

/-- The same request, about another layout under the same signatures. -/
def RunRequest.withLayout (r : RunRequest) (m : Layout) : RunRequest :=
  { r with layout := { r.layout with layout := m } }

section Run

variable {p q : LinkPolicy} {s t : Step}

theorem discard?_congr (hp : p.Agrees q) (hs : s.Similar t) : p.discard? s = q.discard? t := by
  funext b
  have hsigner : p.signer? s b.signature = q.signer? t b.signature := by
    unfold LinkPolicy.signer?
    rw [hs.isAuthorized, hp.keys]
  unfold LinkPolicy.discard?
  rw [hp.supplyChainId, hp.registry, hsigner]

theorem selectContent_congr (hs : s.Similar t) (ref : StepRef) :
    selectContent ref s = selectContent ref t := by
  funext approvals verified groups
  simp only [selectContent, contentViolations, ruleViolation?, hs.threshold, hs.materialRules,
    hs.productRules]

theorem verifyStep_congr (hp : p.Agrees q) (hs : s.Similar t) (r : RunRequest) (b : LayoutBlock)
    (verified : VerifiedSteps) (ref : StepRef) :
    verifyStep p r verified ref s = verifyStep q (r.withBlock b) verified ref t := by
  unfold verifyStep
  rw [discard?_congr hp hs, selectContent_congr hs]
  rfl

theorem verifySteps_congr (hp : p.Agrees q) (r : RunRequest) (b : LayoutBlock)
    {steps steps' : List (StepRef × Step)}
    (h : List.Forall₂ (fun s t => s.1 = t.1 ∧ s.2.Similar t.2) steps steps') :
    ∀ verified, verifySteps p r verified steps = verifySteps q (r.withBlock b) verified steps' := by
  induction h with
  | nil => exact fun _ => rfl
  | @cons s t _ _ hst _ ih =>
    obtain ⟨ref, s⟩ := s
    obtain ⟨ref', t⟩ := t
    obtain ⟨href, hst⟩ := hst
    subst href
    intro verified
    rw [verifySteps, verifySteps, verifyStep_congr hp hst r b]
    simp only [ih]

theorem runViolations_congr (hp : p.Agrees q) (r : RunRequest) {b : LayoutBlock}
    (hb : b.layout.WellFormed) (h : r.layout.layout.Similar b.layout)
    (hwalk : r.layout.layout.walk = b.layout.walk) :
    runViolations p r = runViolations q (r.withBlock b) := by
  have hsteps := verifySteps_congr hp r b (h.steps_of_walk_eq hb hwalk) .empty
  have hend : ∀ verified, endViolations r verified = endViolations (r.withBlock b) verified := by
    intro verified
    simp only [endViolations, endRuleViolation?, finalContent, RunRequest.withBlock,
      Layout.finalStep?_eq, hwalk, h.endProductRules]
  unfold runViolations
  rw [hsteps]
  simp only [hend]
  rfl

/-- A run cannot tell layouts with the same text and the same walk apart, whichever of
the signatures they are under. -/
theorem verifyRun_withBlock {registry : Registry} {r : RunRequest} {b : LayoutBlock}
    {result : RunResult} (hb : b.layout.WellFormed)
    (htext : r.layout.layout.canonicalText = b.layout.canonicalText)
    (hwalk : r.layout.layout.walk = b.layout.walk)
    (hchain : r.layout.supplyChainId = b.supplyChainId) (hne : b.signatures ≠ [])
    (hsub : b.signatures ⊆ r.layout.signatures) (hrun : verifyRun registry r = .ok result) :
    verifyRun registry (r.withBlock b) = .ok result := by
  obtain ⟨policy, hpolicy, rfl⟩ := verifyRun_eq_ok_iff.mp hrun
  obtain ⟨ring, hring, hsigned, hlayout, happrovals, rfl⟩ := runPolicy_eq_ok_iff.mp hpolicy
  have hl := validateLayout_eq_ok_iff.mp hlayout
  have h := hl.canonicalText_eq_iff.mp htext
  have hkeys : KeysUsable registry r.layout.layout := exists_ofKeys_iff.mp ⟨ring, hring⟩
  obtain ⟨ring', hring'⟩ := exists_ofKeys_iff.mpr (hkeys.similar h)
  have hsigned' : ProperlySigned registry b :=
    ⟨hne, fun s hs => (hsigned.2 s (hsub hs)).similar hl htext⟩
  have happrovals' : validateApprovals b.layout r.approvals = .ok () :=
    validateApprovals_eq_ok_iff.mpr fun a ha =>
      (validateApprovals_eq_ok_iff.mp happrovals a ha).similar hl hb h
  have hagrees : LinkPolicy.Agrees ⟨registry, r.layout.supplyChainId, ring⟩
      ⟨registry, b.supplyChainId, ring'⟩ := by
    refine ⟨rfl, hchain, fun id => ?_⟩
    show ring.get? id = ring'.get? id
    rw [KeyRing.get?_ofKeys hring, KeyRing.get?_ofKeys hring']
    exact h.listedKey?_eq hl id
  refine verifyRun_eq_ok_iff.mpr ⟨_, runPolicy_eq_ok_iff.mpr ⟨ring', hring', hsigned',
    validateLayout_eq_ok_iff.mpr hb, happrovals', rfl⟩, ?_⟩
  rw [runViolations_congr hagrees r hb h hwalk]
  rfl

theorem verifyRun_withLayout {registry : Registry} {r : RunRequest} {m : Layout}
    {result : RunResult} (hm : m.WellFormed)
    (htext : r.layout.layout.canonicalText = m.canonicalText)
    (hwalk : r.layout.layout.walk = m.walk) (hrun : verifyRun registry r = .ok result) :
    verifyRun registry (r.withLayout m) = .ok result := by
  obtain ⟨policy, hpolicy, _⟩ := verifyRun_eq_ok_iff.mp hrun
  obtain ⟨_, _, hsigned, _⟩ := runPolicy_eq_ok_iff.mp hpolicy
  exact verifyRun_withBlock hm htext hwalk rfl hsigned.1 (List.Subset.refl _) hrun

end Run

/-! ## What is signed of the walk -/

/-- A signed text fixes the walk up to the order of segments and of the steps in
each, and nothing less: all rearrangements are walks under it. The order is all that
is left open. The same steps are declared under every such layout, and where the
walks agree, the last steps and all runs do. -/
theorem sameText_walks {l : Layout} (hl : validateLayout l = .ok ()) :
    (∀ walk, (∃ m, validateLayout m = .ok () ∧ l.canonicalText = m.canonicalText ∧
      m.walk = walk) ↔ l.Rearranges walk) ∧
    ∀ m, validateLayout m = .ok () → l.canonicalText = m.canonicalText →
      l.walk.Perm m.walk ∧
      (∀ ref step, (ref, step) ∈ l.steps →
        ∃ step', (ref, step') ∈ m.steps ∧ step.Similar step') ∧
      (l.walk = m.walk → l.finalStep? = m.finalStep? ∧
        ∀ (registry : Registry) (r : RunRequest) (result : RunResult), r.layout.layout = l →
          (verifyRun registry r = .ok result ↔
            verifyRun registry (r.withLayout m) = .ok result)) := by
  have hwell := validateLayout_eq_ok_iff.mp hl
  refine ⟨fun walk => ?_, fun m hm htext => ?_⟩
  · rw [← hwell.exists_similar_iff]
    simp only [validateLayout_eq_ok_iff, hwell.canonicalText_eq_iff]
  · have hwell' := validateLayout_eq_ok_iff.mp hm
    have h := hwell.canonicalText_eq_iff.mp htext
    refine ⟨h.rearranges.perm, fun _ _ => h.exists_step, fun hwalk => ⟨?_, ?_⟩⟩
    · rw [Layout.finalStep?_eq, Layout.finalStep?_eq, hwalk]
    · intro registry r result hr
      subst hr
      -- back again, the first layout takes the place of the other
      have hback : verifyRun registry (r.withLayout m) = .ok result →
          verifyRun registry ((r.withLayout m).withLayout r.layout.layout) = .ok result :=
        verifyRun_withLayout hwell htext.symm hwalk.symm
      exact ⟨verifyRun_withLayout hwell' htext hwalk, hback⟩

/-- The steps of two segments, the second segment first. -/
theorem twoSegments_rearranged :
    ∃ m, validateLayout m = .ok () ∧
      (TwoSegments.layout "one" "two").canonicalText = m.canonicalText ∧
      m.walk = [⟨"two", "build"⟩, ⟨"one", "build"⟩] := by
  refine ((sameText_walks (TwoSegments.validate_layout (by decide))).1 _).mpr ?_
  refine ⟨[[⟨"two", "build"⟩], [⟨"one", "build"⟩]], ⟨_, .swap _ _ [], ?_⟩, rfl⟩
  exact .cons (.refl _) (.cons (.refl _) .nil)

/-- Neither the walk nor the last step is determined by what is signed. -/
theorem twoSegments_walk_ne :
    validateLayout (TwoSegments.layout "one" "two") = .ok () ∧
      validateLayout (TwoSegments.layout "two" "one") = .ok () ∧
      (TwoSegments.layout "one" "two").canonicalText =
        (TwoSegments.layout "two" "one").canonicalText ∧
      (TwoSegments.layout "one" "two").walk ≠ (TwoSegments.layout "two" "one").walk ∧
      (TwoSegments.layout "one" "two").finalStep? ≠
        (TwoSegments.layout "two" "one").finalStep? := by
  have hone : validateLayout (TwoSegments.layout "one" "two") = .ok () :=
    TwoSegments.validate_layout (by decide)
  have htwo : validateLayout (TwoSegments.layout "two" "one") = .ok () :=
    TwoSegments.validate_layout (by decide)
  refine ⟨hone, htwo, ?_, by decide, by decide⟩
  refine (validateLayout_eq_ok_iff.mp hone).canonicalText_eq_iff.mpr ⟨.refl _, .refl _, ?_, rfl⟩
  have hsame : ∀ s : Segment, s.Similar s := fun s =>
    ⟨rfl, s.steps, .refl _, List.forall₂_same.mpr fun t _ => .refl t⟩
  exact ⟨_, .swap _ _ _, .cons (hsame _) (.cons (hsame _) .nil)⟩

end Provenance
