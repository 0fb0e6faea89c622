import Mathlib.Data.List.Induction
import Provenance.Proofs.Rule.Usable
import Provenance.Proofs.Verification.Contents
import Provenance.Proofs.Verification.Counts

/-!
# What a run never falls back on

In some places a run has an answer ready for a case that the checks before it leave no room
for: a rule whose pattern is no glob fails, a path outside of a directory is looked up as it
is, and without a last step the released artifacts are compared with nothing.

> `never_falls_back`: in a run that is past its checks none of these cases comes up.

The rules were read when the layout was checked. The last step is found because of what
the map of verified steps is at any time: the steps before, and nothing else, each with the
content that was selected when it was its turn (`HoldsExactly`). One step keeps this up
because no address comes twice (`HoldsExactly.insert`), and so the whole way through the
steps does (`holdsExactly_of_verifySteps`).
-/

namespace Provenance

/-- All rules that are evaluated in a run. -/
def Layout.rules (l : Layout) : List Rule :=
  l.steps.flatMap (fun s => s.2.materialRules ++ s.2.productRules) ++ l.endProductRules

/-! ## Rules -/

theorem Rule.readable_of_check {rule : Rule} (h : rule.check = .ok ()) : rule.Readable :=
  readable_iff.mpr (Rule.check_eq_ok_iff.mp h).pattern

theorem Layout.WellFormed.readable {l : Layout} (h : l.WellFormed) {rule : Rule}
    (hrule : rule ∈ l.rules) : rule.Readable := by
  rcases List.mem_append.mp hrule with hstep | hend
  · obtain ⟨s, hs, hrule⟩ := List.mem_flatMap.mp hstep
    exact Rule.readable_of_check ((h.stepFits hs).rules rule hrule).1
  · exact Rule.readable_of_check (h.endRules rule hend).1

namespace RuleContext

variable {c : RuleContext} {m : MatchRule} {p : PathPattern} {a : Artifact}

theorem evaluate_of_ofRule {rule : Rule} (h : PathPattern.ofRule rule = .ok p) (c : RuleContext) :
    c.evaluate rule = c.evaluateWith p rule := by
  rw [evaluate, h]

/-- Whatever a MATCH rule is about is inside of its directory. -/
theorem exists_below_of_mem (h : a ∈ c.selectedBelow m.sourcePrefix p) :
    ∃ rest, a.uri = directoryPrefix m.sourcePrefix ++ rest ∧ p.matches? rest = true ∧
      counterpart m a = ⟨directoryPrefix m.destinationPrefix ++ rest, a.hash⟩ := by
  obtain ⟨_, hnamed⟩ := ArtifactSet.mem_filter.mp h
  cases hrest : pathBelow? (directoryPrefix m.sourcePrefix) a.uri with
  | none =>
    rw [hrest] at hnamed
    exact nomatch hnamed
  | some rest =>
    rw [hrest] at hnamed
    refine ⟨rest, pathBelow?_eq_some_iff.mp hrest, hnamed, ?_⟩
    rw [counterpart, hrest, Option.getD_some]

end RuleContext

/-! ## The way through the steps -/

section Steps

variable {policy : LinkPolicy} {r : RunRequest} {ref : StepRef} {step : Step}
  {content : StepArtifacts} {before : List (StepRef × Step)} {verified : VerifiedSteps}

/-- The content that was selected for the step at an address, when the steps in front of it
were verified. -/
def SelectedIn (policy : LinkPolicy) (r : RunRequest) (steps : List (StepRef × Step))
    (ref : StepRef) (content : StepArtifacts) : Prop :=
  ∃ earlier step later verified, steps = earlier ++ (ref, step) :: later ∧
    (verifySteps policy r .empty earlier).2 = some verified ∧
    (verifyStep policy r verified ref step).content = some content

/-- The map has an entry for each of the steps and no other, and under the address of a step
is the content that was selected for it. -/
structure HoldsExactly (policy : LinkPolicy) (r : RunRequest) (steps : List (StepRef × Step))
    (verified : VerifiedSteps) : Prop where
  addresses : verified.entries.map (·.1) = (steps.map (·.1)).reverse
  contents : ∀ ref content,
    verified.get? ref = some content ↔ SelectedIn policy r steps ref content

theorem verifySteps_concat_eq_some_iff : ∀ {before : List (StepRef × Step)}
    {verified last : VerifiedSteps},
    (verifySteps policy r verified (before ++ [(ref, step)])).2 = some last ↔
      ∃ mid content, (verifySteps policy r verified before).2 = some mid ∧
        (verifyStep policy r mid ref step).content = some content ∧ last = mid.insert ref content
  | [], verified, last => by
    rw [List.nil_append, verifySteps_cons_eq_some_iff]
    simp [verifySteps, eq_comm]
  | (ref', step') :: before, verified, last => by
    rw [List.cons_append, verifySteps_cons_eq_some_iff]
    simp only [verifySteps_concat_eq_some_iff, verifySteps_cons_eq_some_iff]
    constructor
    · intro h
      obtain ⟨content', hfirst, mid, content, hmid, hcontent, hlast⟩ := h
      exact ⟨mid, content, ⟨content', hfirst, hmid⟩, hcontent, hlast⟩
    · intro h
      obtain ⟨mid, content, ⟨content', hfirst, hmid⟩, hcontent, hlast⟩ := h
      exact ⟨content', hfirst, mid, content, hmid, hcontent, hlast⟩

theorem SelectedIn.address_mem {steps : List (StepRef × Step)}
    (h : SelectedIn policy r steps ref content) : ref ∈ steps.map (·.1) := by
  obtain ⟨earlier, step, later, _, rfl, _⟩ := h
  simp

/-- The steps before have their contents still; the last one has its own. -/
theorem selectedIn_concat_iff (hnew : ref ∉ before.map (·.1))
    (hbefore : (verifySteps policy r .empty before).2 = some verified) {ref' : StepRef}
    {content' : StepArtifacts} :
    SelectedIn policy r (before ++ [(ref, step)]) ref' content' ↔
      if ref = ref' then (verifyStep policy r verified ref step).content = some content'
      else SelectedIn policy r before ref' content' := by
  constructor
  · intro h
    obtain ⟨earlier, step', later, verified', hsteps, hearlier, hcontent⟩ := h
    -- it is the last step or one of those before
    rcases List.eq_nil_or_concat later with rfl | ⟨later, x, rfl⟩
    · obtain ⟨rfl, hlast⟩ := List.append_inj' hsteps rfl
      rw [List.cons.injEq, Prod.mk.injEq] at hlast
      obtain ⟨⟨rfl, rfl⟩, -⟩ := hlast
      rw [if_pos rfl, Option.some.inj (hbefore.symm.trans hearlier)]
      exact hcontent
    · rw [List.concat_eq_append, ← List.cons_append, ← List.append_assoc] at hsteps
      obtain ⟨rfl, -⟩ := List.append_inj' hsteps rfl
      have hselected : SelectedIn policy r (earlier ++ (ref', step') :: later) ref' content' :=
        ⟨earlier, step', later, verified', rfl, hearlier, hcontent⟩
      rw [if_neg]
      · exact hselected
      · rintro rfl
        exact hnew hselected.address_mem
  · intro h
    split at h
    · next heq =>
      subst heq
      exact ⟨before, step, [], verified, rfl, hbefore, h⟩
    · obtain ⟨earlier, step', later, verified', rfl, hearlier, hcontent⟩ := h
      exact ⟨earlier, step', later ++ [(ref, step)], verified', by simp, hearlier, hcontent⟩

theorem HoldsExactly.empty : HoldsExactly policy r [] .empty where
  addresses := rfl
  contents ref content := by
    constructor
    · intro h
      exact nomatch h
    · intro h
      exact nomatch h.address_mem

/-- One step more: its address is new, so that nothing is lost from the map. -/
theorem HoldsExactly.insert (h : HoldsExactly policy r before verified)
    (hnew : ref ∉ before.map (·.1))
    (hbefore : (verifySteps policy r .empty before).2 = some verified)
    (hcontent : (verifyStep policy r verified ref step).content = some content) :
    HoldsExactly policy r (before ++ [(ref, step)]) (verified.insert ref content) where
  addresses := by
    have hkeep : verified.entries.filter (fun e => e.1 ≠ ref) = verified.entries := by
      refine List.filter_eq_self.mpr fun e he => decide_eq_true ?_
      rintro rfl
      have hmem : e.1 ∈ verified.entries.map (·.1) := List.mem_map_of_mem he
      rw [h.addresses, List.mem_reverse] at hmem
      exact hnew hmem
    rw [VerifiedSteps.insert, hkeep, List.map_cons, h.addresses, List.map_append,
      List.reverse_append]
    rfl
  contents ref' content' := by
    rw [selectedIn_concat_iff hnew hbefore, VerifiedSteps.get?_insert, hcontent]
    split
    · rfl
    · exact h.contents ref' content'

theorem holdsExactly_of_verifySteps (hnodup : (before.map (·.1)).Nodup)
    (h : (verifySteps policy r .empty before).2 = some verified) :
    HoldsExactly policy r before verified := by
  induction before using List.reverseRecOn generalizing verified with
  | nil =>
    injection h with h
    subst h
    exact .empty
  | append_singleton before s ih =>
    obtain ⟨mid, content, hmid, hcontent, rfl⟩ := verifySteps_concat_eq_some_iff.mp h
    rw [List.map_append, List.nodup_append] at hnodup
    obtain ⟨hbefore, _, hdisjoint⟩ := hnodup
    refine (ih hbefore hmid).insert (fun hmem => ?_) hmid hcontent
    exact hdisjoint _ hmem _ (List.mem_singleton_self _) rfl

/-- When all steps are verified, the last one has its content in the map. -/
theorem exists_finalContent {l : Layout} (hl : l.WellFormed)
    (h : (verifySteps policy r .empty l.steps).2 = some verified) :
    ∃ before ref step content, l.steps = before ++ [(ref, step)] ∧ l.finalStep? = some ref ∧
      SelectedIn policy r l.steps ref content ∧ verified.get? ref = some content ∧
      finalContent l verified = content := by
  obtain ⟨before, ref, step, hsteps, hfinal⟩ := hl.exists_finalStep
  obtain ⟨mid, content, hmid, hcontent, _⟩ := verifySteps_concat_eq_some_iff.mp (hsteps ▸ h)
  have hselected : SelectedIn policy r l.steps ref content :=
    ⟨before, step, [], mid, hsteps, hmid, hcontent⟩
  have hget := ((holdsExactly_of_verifySteps hl.nodup_addresses h).contents ref content).mpr
    hselected
  refine ⟨before, ref, step, content, hsteps, hfinal, hselected, hget, ?_⟩
  rw [finalContent, hfinal, Option.bind_some, hget, Option.getD_some]

end Steps

/-! ## Runs -/

/-- **No fallback is used.** When a run is past its checks: every rule that is evaluated has
been read; a MATCH rule translates only paths that are inside of its directory; when it is the
turn of a step, the map has the steps before it and nothing else, each with its own content;
at the end it has the last step; and a content that enough keys signed has a signer. -/
theorem never_falls_back {registry : Registry} {r : RunRequest} {policy : LinkPolicy}
    (h : runPolicy registry r = .ok policy) :
    (∀ rule ∈ r.layout.layout.rules, ∃ p, PathPattern.ofRule rule = .ok p ∧
      ∀ c : RuleContext, c.evaluate rule = c.evaluateWith p rule) ∧
    (∀ (m : MatchRule) (p : PathPattern) (c : RuleContext), ∀ a ∈ c.selectedBelow m.sourcePrefix p,
      ∃ rest, a.uri = directoryPrefix m.sourcePrefix ++ rest ∧ p.matches? rest = true ∧
        RuleContext.counterpart m a = ⟨directoryPrefix m.destinationPrefix ++ rest, a.hash⟩) ∧
    (∀ before ref step after verified,
      r.layout.layout.steps = before ++ (ref, step) :: after →
      (verifySteps policy r .empty before).2 = some verified →
      HoldsExactly policy r before verified ∧
        (verifySteps policy r .empty r.layout.layout.steps).1 =
          (verifySteps policy r .empty before).1 ++
            (verifySteps policy r verified ((ref, step) :: after)).1) ∧
    (∀ verified, (verifySteps policy r .empty r.layout.layout.steps).2 = some verified →
      HoldsExactly policy r r.layout.layout.steps verified ∧
      ∃ before ref step content, r.layout.layout.steps = before ++ [(ref, step)] ∧
        r.layout.layout.finalStep? = some ref ∧
        SelectedIn policy r r.layout.layout.steps ref content ∧
        verified.get? ref = some content ∧ finalContent r.layout.layout verified = content) ∧
    (∀ ref step, (ref, step) ∈ r.layout.layout.steps →
      ∀ g ∈ signedContents (acceptedLinks policy r.links ref step),
        step.threshold.val ≤ g.signers.length → g.signers ≠ []) := by
  obtain ⟨_, _, _, hlayout, _, _⟩ := runPolicy_eq_ok_iff.mp h
  have hwf := validateLayout_eq_ok_iff.mp hlayout
  refine ⟨fun rule hrule => ?_, fun m p c a ha => RuleContext.exists_below_of_mem ha, ?_, ?_, ?_⟩
  · obtain ⟨p, hp⟩ := hwf.readable hrule
    exact ⟨p, hp, RuleContext.evaluate_of_ofRule hp⟩
  · intro before ref step after verified hsteps hbefore
    have hnodup := hwf.nodup_addresses
    rw [hsteps, List.map_append, List.nodup_append] at hnodup
    refine ⟨holdsExactly_of_verifySteps hnodup.1 hbefore, ?_⟩
    rw [hsteps, verifySteps_append_of_some _ hbefore]
  · intro verified hall
    exact ⟨holdsExactly_of_verifySteps hwf.nodup_addresses hall, exists_finalContent hwf hall⟩
  · intro ref step hs g _ hcount hnil
    have hpos := (hwf.stepFits hs).threshold_pos
    rw [hnil] at hcount
    exact absurd hcount (Nat.not_le.mpr hpos)

/-- When the deployment is looked at, the build is in the map with what was built, and nothing
else is. -/
theorem never_falls_back_pipeline : ∃ policy verified,
    runPolicy OneStep.registry Pipeline.request = .ok policy ∧
      (verifySteps policy Pipeline.request .empty [(Pipeline.buildRef, Pipeline.build)]).2 =
        some verified ∧
      HoldsExactly policy Pipeline.request [(Pipeline.buildRef, Pipeline.build)] verified ∧
      verified.get? Pipeline.buildRef = some (Pipeline.sel Pipeline.buildRef) ∧
      verified.get? Pipeline.deployRef = none := by
  obtain ⟨result, hresult⟩ := Pipeline.exists_verifyRun
  obtain ⟨ring, hr, _⟩ := exists_admitted hresult
  have hsteps : Pipeline.request.layout.layout.steps =
      [(Pipeline.buildRef, Pipeline.build)] ++ [(Pipeline.deployRef, Pipeline.deploy)] := rfl
  have hmem : (Pipeline.buildRef, Pipeline.build) ∈ Pipeline.request.layout.layout.steps :=
    List.mem_cons_self
  have hbuild := (hr.content_iff hmem).mpr Pipeline.selected_build
  have hfirst : (verifySteps _ Pipeline.request .empty [(Pipeline.buildRef, Pipeline.build)]).2 =
      some (VerifiedSteps.empty.insert Pipeline.buildRef (Pipeline.sel Pipeline.buildRef)) :=
    verifySteps_cons_eq_some_iff.mpr ⟨_, hbuild, rfl⟩
  obtain ⟨_, _, hbefore, _, _⟩ := never_falls_back hr.policy
  obtain ⟨hholds, _⟩ := hbefore _ _ _ _ _ hsteps hfirst
  exact ⟨_, _, hr.policy, hfirst, hholds, rfl, rfl⟩

end Provenance
