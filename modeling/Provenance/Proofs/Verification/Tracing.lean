import Provenance.Proofs.Layout.Walk
import Provenance.Proofs.Rule.FirstMatch
import Provenance.Proofs.Verification.Contents

/-!
# Where artifacts come from

MATCH rules compare a step with those before it. A rule list with no other rules
than MATCH and DISALLOW leaves no artifact without an origin, as DISALLOW explains
nothing:

> `traced_of_isValid`: in a valid run every artifact that such a list is about is
> `TracedTo` a content that an earlier step selected, with the same hash and the same
> path but for the directory.

What a list explains was in the share of some rule that claims it, and here such a
rule is a MATCH rule (`exists_match_of_explained`). That the content at the
destination is one that enough keys signed is what the run has seen to before any
rule could look at it.
-/

namespace Provenance

/-! ## Rule lists of MATCH and DISALLOW -/

/-- There are only MATCH and DISALLOW rules in the list. -/
def OnlyMatches (rules : List Rule) : Prop :=
  ∀ r ∈ rules, (∃ m, r = .matching m) ∨ ∃ pattern, r = .disallow pattern

/-- An artifact that only MATCH rules can explain has its counterpart. -/
theorem exists_match_of_explained {rules : List Rule} {c : RuleContext}
    (h : verifyRules rules c = .explained) (hrules : OnlyMatches rules) {a : Artifact}
    (ha : a ∈ c.unexplained) :
    ∃ m rest origin, .matching m ∈ rules ∧ (Rule.matching m).selects a = true ∧
      a.uri = directoryPrefix m.sourcePrefix ++ rest ∧
      c.verified.get? m.destination = some origin ∧
      (⟨directoryPrefix m.destinationPrefix ++ rest, a.hash⟩ : Artifact) ∈ origin.side m.side := by
  obtain ⟨r, hr, i, hclaims, hshare, _, hholds⟩ := exists_share_of_explained h ha
  rcases hrules r hr with ⟨m, rfl⟩ | ⟨_, rfl⟩
  · obtain ⟨_, _, rest, huri, _⟩ := Rule.selects_iff.mp hclaims
    obtain ⟨origin, horigin, hall⟩ := hholds
    exact ⟨m, rest, origin, hr, hclaims, huri, horigin, hall a hshare rest huri⟩
  · -- DISALLOW claims nothing
    exact nomatch hclaims

/-! ## Origins -/

/-- The rules for one side of a step. -/
def Step.rulesFor (s : Step) : Side → List Rule
  | .materials => s.materialRules
  | .products => s.productRules

/-- A MATCH rule of the list selects the artifact by the rest of its path. The step
it looks at has a content already, which enough keys signed, and in that content the
rule finds the same hash under the same rest. -/
structure TracedTo (registry : Registry) (r : RunRequest)
    (earlier : List (StepRef × StepArtifacts)) (rules : List Rule) (a : Artifact) (m : MatchRule)
    (rest : String) (origin : StepArtifacts) : Prop where
  rule : .matching m ∈ rules
  selects : (Rule.matching m).selects a = true
  uri : a.uri = directoryPrefix m.sourcePrefix ++ rest
  destination : (m.destination, origin) ∈ earlier
  counterpart : (⟨directoryPrefix m.destinationPrefix ++ rest, a.hash⟩ : Artifact) ∈
    origin.side m.side
  signed : ∃ step, (m.destination, step) ∈ r.layout.layout.steps ∧
    HasSigners registry r m.destination step step.threshold.val origin

section Origins

variable {registry : Registry} {r : RunRequest}

theorem Selected.explained {verified : VerifiedSteps} {ref : StepRef} {step : Step}
    {content : StepArtifacts} (h : Selected registry r verified ref step content) :
    ∀ side, verifyRules (step.rulesFor side) (.forSide side content verified) = .explained
  | .materials => h.materials
  | .products => h.products

/-- What was chosen for a step has enough signers. -/
theorem SelectedAlong.hasSigners {sel : StepRef → StepArtifacts} {verified : VerifiedSteps}
    {steps : List (StepRef × Step)} (h : SelectedAlong registry r sel verified steps)
    {ref : StepRef} {step : Step} (hs : (ref, step) ∈ steps) :
    HasSigners registry r ref step step.threshold.val (sel ref) := by
  obtain ⟨before, after, hl⟩ := List.append_of_mem hs
  exact (h before ref step after hl).signed

theorem SelectedAlong.exists_tracedTo {sel : StepRef → StepArtifacts}
    (h : SelectedAlong registry r sel .empty r.layout.layout.steps)
    {earlier : List (StepRef × Step)} (hearlier : earlier ⊆ r.layout.layout.steps)
    {rules : List Rule} {side : Side} {content : StepArtifacts}
    (hexplained : verifyRules rules (.forSide side content (chosenFrom sel .empty earlier)) =
      .explained) (hrules : OnlyMatches rules) {a : Artifact} (ha : a ∈ content.side side) :
    ∃ m rest origin,
      TracedTo registry r (earlier.map fun s => (s.1, sel s.1)) rules a m rest origin := by
  obtain ⟨m, rest, origin, hrule, hselects, huri, horigin, hcounterpart⟩ :=
    exists_match_of_explained hexplained hrules ha
  have hget : (chosenFrom sel .empty earlier).get? m.destination = some origin := horigin
  rw [get?_chosenFrom] at hget
  -- only steps gone through are found
  by_cases hmem : m.destination ∈ earlier.map (·.1)
  · rw [if_pos hmem] at hget
    injection hget with hsel
    subst hsel
    obtain ⟨⟨_, step⟩, hs, rfl⟩ := List.mem_map.mp hmem
    exact ⟨m, rest, _, hrule, hselects, huri, List.mem_map.mpr ⟨_, hs, rfl⟩, hcounterpart,
      step, hearlier hs, h.hasSigners (hearlier hs)⟩
  · rw [if_neg hmem] at hget
    exact nomatch hget

end Origins

/-- In a valid run, what lists of MATCH and DISALLOW rules are about comes from
earlier steps: for every step and either side, from a step declared before it; for
released artifacts, from any step. Its origin is a content that was selected, and
that links carry which enough different keys signed. -/
theorem traced_of_isValid {registry : Registry} {r : RunRequest} {result : RunResult}
    (hrun : verifyRun registry r = .ok result) (hvalid : result.isValid = true) :
    (runContents registry r).map (·.1) = r.layout.layout.walk ∧
    (∀ before ref content after, runContents registry r = before ++ (ref, content) :: after →
      ∀ step, (ref, step) ∈ r.layout.layout.steps → ∀ side, OnlyMatches (step.rulesFor side) →
      ∀ a ∈ content.side side, ∃ m rest origin,
        TracedTo registry r before (step.rulesFor side) a m rest origin) ∧
    ∃ before ref content, runContents registry r = before ++ [(ref, content)] ∧
      (r.layout.layout.endProductRules ≠ [] → OnlyMatches r.layout.layout.endProductRules →
        ∀ a ∈ content.products, ∃ m rest origin, TracedTo registry r (runContents registry r)
          r.layout.layout.endProductRules a m rest origin) := by
  obtain ⟨ring, hr, rfl⟩ := exists_admitted hrun
  obtain ⟨sel, hsel, hend⟩ := hr.isValid_iff_along.mp hvalid
  rw [hr.runContents_along hsel]
  refine ⟨?_, fun before ref content after hl step hs side hrules a ha => ?_, ?_⟩
  · rw [List.map_map]
    rfl
  · obtain ⟨earlier, later, hsteps, rfl, hlater⟩ := List.map_eq_append_iff.mp hl
    obtain ⟨⟨ref', step'⟩, rest, rfl, hcontent, _⟩ := List.map_eq_cons_iff.mp hlater
    injection hcontent with href hcontent
    subst href hcontent
    -- there is one step at the address
    have hs' : (ref', step') ∈ r.layout.layout.steps := hsteps ▸ by simp
    have hsame := List.inj_on_of_nodup_map hr.wellFormed.nodup_addresses hs hs' rfl
    injection hsame with _ hstep
    subst hstep
    have hearlier : earlier ⊆ r.layout.layout.steps := hsteps ▸ List.subset_append_left _ _
    exact hsel.exists_tracedTo hearlier ((hsel earlier ref' step rest hsteps).explained side)
      hrules ha
  · obtain ⟨before, ref, step, hl, hfinal⟩ := hr.wellFormed.exists_finalStep
    obtain ⟨hrule, _⟩ := endViolations_not_fatal_iff.mp hend
    refine ⟨before.map fun s => (s.1, sel s.1), ref, sel ref, ?_, fun hne hrules a ha => ?_⟩
    · rw [hl, List.map_append]
      rfl
    · have hexplained := endRuleViolation?_eq_none_iff.mp hrule hne
      rw [finalContent_chosenFrom hl hfinal] at hexplained
      exact hsel.exists_tracedTo (List.Subset.refl _) hexplained hrules ha

/-- The package that is deployed in the directory is the one that was built. -/
theorem pipeline_traced : ∃ m rest origin,
    TracedTo OneStep.registry Pipeline.request
      [(Pipeline.buildRef, Pipeline.sel Pipeline.buildRef)] Pipeline.deploy.materialRules
      ⟨"in/app", "00"⟩ m rest origin := by
  obtain ⟨result, hresult, hvalid⟩ := Pipeline.exists_valid
  obtain ⟨_, hsteps, _⟩ := traced_of_isValid hresult hvalid
  obtain ⟨ring, hr, _⟩ := exists_admitted hresult
  refine hsteps [(Pipeline.buildRef, Pipeline.sel Pipeline.buildRef)] Pipeline.deployRef
    (Pipeline.sel Pipeline.deployRef) [] (hr.runContents_along Pipeline.selectedAlong)
    Pipeline.deploy ?_ .materials ?_ _ (by decide)
  · exact List.mem_cons_of_mem _ List.mem_cons_self
  · intro rule hrule
    rcases List.mem_cons.mp hrule with rfl | hrule
    · exact .inl ⟨_, rfl⟩
    · exact .inr ⟨_, List.mem_singleton.mp hrule⟩

end Provenance
