import Provenance.Proofs.Verification.Contents
import Provenance.Proofs.Verification.Counts
import Provenance.Proofs.Verification.Recount

/-!
# What a run tells of its links

A step looks at each link that names it. One that counts goes without a word, any other
is told of with the reason. That is all there is to read in a run of the links that did
not count, and of those that did it tells only a number, when they are too few or
disagree:

> `discards_and_counts_exact`: for a step that was looked at, the discards told are
> those of its links that do not count, one by one and in order; for any other step
> there are none. The numbers are `Admitted.isGreatest_of_thresholdNotMet` and
> `Admitted.exists_contents_of_conflict`.

`Rejected` gives the reasons in the order in which they are asked for, each with all
that was in order before it, so a link is rejected for one of them
(`discard?_eq_some_iff`). `Discarding` goes through a list of links with it. A step
finds its discards in a list with everything else that the run had to say, before it
and behind it; what others put there is not about its links
(`filter_discardsAt_eq_nil`), and addresses do not repeat.
-/

namespace Provenance

/-! ## Links that do not count -/

/-- The link is of the supply chain and repeats no artifact on a side. -/
structure Proper (b : LayoutBlock) (link : LinkBlock) : Prop where
  supplyChain : link.supplyChainId = b.supplyChainId
  materials : link.link.materials.Nodup
  products : link.link.products.Nodup

/-- The key of the layout that the signature names, if it may sign for the step. -/
structure MaySign (b : LayoutBlock) (step : Step) (s : Signature) (key : PublicKey) : Prop where
  authorized : s.keyId ∈ step.authorizedKeyIds
  listed : key ∈ b.layout.keys
  keyId : key.keyId = s.keyId

/-- Why a link for the step does not count: the first of the reasons that applies. -/
inductive Rejected (registry : Registry) (b : LayoutBlock) (step : Step) (link : LinkBlock) :
    DiscardReason → Prop
  | wrongSupplyChain : link.supplyChainId ≠ b.supplyChainId →
      Rejected registry b step link .wrongSupplyChain
  | duplicateArtifacts : link.supplyChainId = b.supplyChainId →
      ¬(link.link.materials.Nodup ∧ link.link.products.Nodup) →
      Rejected registry b step link .duplicateArtifacts
  | unauthorizedSigner : Proper b link → (∀ key, ¬MaySign b step link.signature key) →
      Rejected registry b step link .unauthorizedSigner
  | invalidSignature {key} : Proper b link → MaySign b step link.signature key →
      link.link.isSignedBy registry link.signature key = .ok false →
      Rejected registry b step link .invalidSignature
  | unusableSignature {key e} : Proper b link → MaySign b step link.signature key →
      link.link.isSignedBy registry link.signature key = .error e →
      Rejected registry b step link .unusableSignature

/-- What is told of a list of links at a step. Links for other steps and links that
count are passed over. -/
inductive Discarding (registry : Registry) (b : LayoutBlock) (ref : StepRef) (step : Step) :
    List LinkBlock → List Violation → Prop
  | nil : Discarding registry b ref step [] []
  | elsewhere {link links told} : link.link.step ≠ ref →
      Discarding registry b ref step links told → Discarding registry b ref step (link :: links) told
  | accepted {link links told} : Accepted registry b ref step link →
      Discarding registry b ref step links told → Discarding registry b ref step (link :: links) told
  | rejected {link links told reason} : link.link.step = ref →
      Rejected registry b step link reason → Discarding registry b ref step links told →
      Discarding registry b ref step (link :: links)
        (.linkDiscarded ref link.link.runId link.signature.keyId reason :: told)

section Links

variable {registry : Registry} {b : LayoutBlock} {ring : KeyRing}
  (hring : KeyRing.ofKeys registry b.layout.keys = .ok ring) (hkeys : b.layout.keyIds.Nodup)
  {ref : StepRef} {step : Step}

theorem proper_iff {link : LinkBlock} :
    Proper b link ↔ link.supplyChainId = b.supplyChainId ∧ link.link.duplicates = [] := by
  rw [Link.duplicates_eq_nil_iff]
  exact ⟨fun h => ⟨h.supplyChain, h.materials, h.products⟩, fun h => ⟨h.1, h.2.1, h.2.2⟩⟩

include hring hkeys

theorem signer?_eq_some_iff_maySign {s : Signature} {key : PublicKey} :
    LinkPolicy.signer? ⟨registry, b.supplyChainId, ring⟩ step s = some key ↔
      MaySign b step s key := by
  rw [signer?_eq_some_iff hring hkeys]
  exact ⟨fun h => ⟨h.1, h.2.1, h.2.2⟩, fun h => ⟨h.authorized, h.listed, h.keyId⟩⟩

theorem rejected_of_discard? {link : LinkBlock} {reason : DiscardReason}
    (h : LinkPolicy.discard? ⟨registry, b.supplyChainId, ring⟩ step link = some reason) :
    Rejected registry b step link reason := by
  -- the checks one after the other, each with those before it passed
  unfold LinkPolicy.discard? at h
  split at h
  · next hchain =>
    injection h with h
    exact h ▸ .wrongSupplyChain hchain
  next hchain =>
  split at h
  · next hdup =>
    injection h with h
    refine h ▸ .duplicateArtifacts (not_not.mp hchain) ?_
    rw [← Link.duplicates_eq_nil_iff]
    simpa using hdup
  next hdup =>
  have hproper := proper_iff.mpr ⟨not_not.mp hchain, by simpa using hdup⟩
  split at h
  · next hnone =>
    injection h with h
    refine h ▸ .unauthorizedSigner hproper fun key hkey => ?_
    rw [(signer?_eq_some_iff_maySign hring hkeys).mpr hkey] at hnone
    exact nomatch hnone
  next key hkey =>
  have hmay := (signer?_eq_some_iff_maySign hring hkeys).mp hkey
  split at h
  · exact nomatch h
  · next hinvalid =>
    injection h with h
    exact h ▸ .invalidSignature hproper hmay hinvalid
  · next hunusable =>
    injection h with h
    exact h ▸ .unusableSignature hproper hmay hunusable

theorem Rejected.discard?_eq {link : LinkBlock} {reason : DiscardReason}
    (h : Rejected registry b step link reason) :
    LinkPolicy.discard? ⟨registry, b.supplyChainId, ring⟩ step link = some reason := by
  unfold LinkPolicy.discard?
  cases h with
  | wrongSupplyChain hchain => rw [if_pos hchain]
  | duplicateArtifacts hchain hdup =>
    rw [← Link.duplicates_eq_nil_iff] at hdup
    rw [if_neg (not_not_intro hchain), if_pos (by simpa using hdup)]
  | unauthorizedSigner hproper hnone =>
    obtain ⟨hchain, hdup⟩ := proper_iff.mp hproper
    have hsigner : LinkPolicy.signer? ⟨registry, b.supplyChainId, ring⟩ step link.signature = none :=
      Option.eq_none_iff_forall_ne_some.mpr fun key hkey =>
        hnone key ((signer?_eq_some_iff_maySign hring hkeys).mp hkey)
    rw [if_neg (not_not_intro hchain), if_neg (by simp [hdup]), hsigner]
  | invalidSignature hproper hmay hinvalid =>
    obtain ⟨hchain, hdup⟩ := proper_iff.mp hproper
    rw [if_neg (not_not_intro hchain), if_neg (by simp [hdup]),
      (signer?_eq_some_iff_maySign hring hkeys).mpr hmay]
    simp only [hinvalid]
  | unusableSignature hproper hmay hunusable =>
    obtain ⟨hchain, hdup⟩ := proper_iff.mp hproper
    rw [if_neg (not_not_intro hchain), if_neg (by simp [hdup]),
      (signer?_eq_some_iff_maySign hring hkeys).mpr hmay]
    simp only [hunusable]

theorem discard?_eq_some_iff {link : LinkBlock} {reason : DiscardReason} :
    LinkPolicy.discard? ⟨registry, b.supplyChainId, ring⟩ step link = some reason ↔
      Rejected registry b step link reason :=
  ⟨rejected_of_discard? hring hkeys, fun h => h.discard?_eq hring hkeys⟩

/-- What is told of the links is what the step makes of its candidates. -/
theorem discarding_iff {told : List Violation} {links : List LinkBlock} :
    Discarding registry b ref step links told ↔
      told = (candidates ref links).filterMap fun link =>
        (LinkPolicy.discard? ⟨registry, b.supplyChainId, ring⟩ step link).map
          (discardViolation ref link) := by
  constructor
  · intro h
    induction h with
    | nil => rfl
    | elsewhere hstep _ ih => rw [ih, candidates, candidates, List.filter_cons_of_neg (by simpa)]
    | accepted haccepted _ ih =>
      obtain ⟨hstep, hnone⟩ := (accepted_iff hring hkeys).mp haccepted
      rw [ih, candidates, candidates, List.filter_cons_of_pos (by simpa), List.filterMap_cons, hnone]
      rfl
    | rejected hstep hrejected _ ih =>
      rw [ih, candidates, candidates, List.filter_cons_of_pos (by simpa), List.filterMap_cons,
        hrejected.discard?_eq hring hkeys]
      rfl
  · intro h
    subst h
    induction links with
    | nil => exact .nil
    | cons link rest ih =>
      by_cases hstep : link.link.step = ref
      · rw [candidates, List.filter_cons_of_pos (by simpa), List.filterMap_cons]
        cases hreason : LinkPolicy.discard? ⟨registry, b.supplyChainId, ring⟩ step link with
        | none => exact .accepted ((accepted_iff hring hkeys).mpr ⟨hstep, hreason⟩) ih
        | some reason => exact .rejected hstep (rejected_of_discard? hring hkeys hreason) ih
      · rw [candidates, List.filter_cons_of_neg (by simpa)]
        exact .elsewhere hstep ih

end Links

/-! ## The discards of one step among all violations -/

/-- The violation tells of a link that was discarded at the step. -/
def Violation.discardsAt (ref : StepRef) : Violation → Bool
  | linkDiscarded step .. => step = ref
  | _ => false

/-- Every step of the list is given a content, so that a run gets past them all. -/
def Passed (registry : Registry) (r : RunRequest) (steps : List (StepRef × Step)) : Prop :=
  ∃ sel, SelectedAlong registry r sel .empty steps

section Entries

variable {policy : LinkPolicy} {r : RunRequest} {ref : StepRef}

theorem not_discardsAt_of_isFatal {v : Violation} (h : v.isFatal = true) :
    v.discardsAt ref = false := by
  cases v with
  | linkDiscarded => exact nomatch h
  | _ => rfl

theorem filter_discardsAt_of_isFatal {violations : List Violation}
    (h : ∀ v ∈ violations, v.isFatal = true) : violations.filter (Violation.discardsAt ref) = [] :=
  List.filter_eq_nil_iff.mpr fun v hv => by simp [not_discardsAt_of_isFatal (h v hv)]

theorem filter_discardsAt_verifyStep (verified : VerifiedSteps) (step : Step) :
    (verifyStep policy r verified ref step).violations.filter (Violation.discardsAt ref) =
      (verifyStep policy r verified ref step).discarded := by
  rw [StepResult.violations, List.filter_append,
    filter_discardsAt_of_isFatal fun _ => isFatal_of_mem_fatal, List.append_nil]
  refine List.filter_eq_self.mpr fun v hv => ?_
  obtain ⟨_, _, rfl⟩ := exists_of_mem_discarded hv
  exact decide_eq_true rfl

/-- Other steps tell nothing of the links for this one. -/
theorem filter_discardsAt_eq_nil {steps : List (StepRef × Step)} {verified : VerifiedSteps}
    (href : ref ∉ steps.map (·.1)) :
    (verifySteps policy r verified steps).1.filter (Violation.discardsAt ref) = [] := by
  refine List.filter_eq_nil_iff.mpr fun v hv hat => ?_
  obtain ⟨s, hs, verified', hv⟩ := exists_verifyStep_of_mem_violations hv
  rcases List.mem_append.mp hv with hv | hv
  · obtain ⟨_, _, rfl⟩ := exists_of_mem_discarded hv
    exact href (List.mem_map.mpr ⟨s, hs, of_decide_eq_true hat⟩)
  · rw [not_discardsAt_of_isFatal (isFatal_of_mem_fatal hv)] at hat
    exact nomatch hat

theorem filter_discardsAt_runViolations :
    (runViolations policy r).filter (Violation.discardsAt ref) =
      (verifySteps policy r .empty r.layout.layout.steps).1.filter (Violation.discardsAt ref) := by
  rw [runViolations_eq, List.filter_append]
  cases (verifySteps policy r .empty r.layout.layout.steps).2 with
  | none => exact List.append_nil _
  | some last =>
    have hend : (endViolations r last).filter (Violation.discardsAt ref) = [] :=
      filter_discardsAt_of_isFatal fun _ => isFatal_of_mem_endViolations
    rw [Option.elim_some, hend, List.append_nil]

end Entries

section Run

variable {registry : Registry} {r : RunRequest} {ring : KeyRing} (hr : Admitted registry r ring)
  {before after : List (StepRef × Step)} {ref : StepRef} {step : Step}
  (hl : r.layout.layout.steps = before ++ (ref, step) :: after)

include hr hl

theorem Admitted.passed_iff :
    Passed registry r before ↔
      ∃ last, (verifySteps ⟨registry, r.layout.supplyChainId, ring⟩ r .empty before).2 =
        some last := by
  have hsub : before.Sublist r.layout.layout.steps := hl ▸ List.sublist_append_left _ _
  simp only [verifySteps_eq_some_iff hr.keys hr.wellFormed.keyIds
    (hr.wellFormed.nodup_addresses.sublist (hsub.map _)) fun s hs => hr.threshold_pos (hsub.subset hs)]
  exact ⟨fun ⟨sel, hsel⟩ => ⟨_, sel, rfl, hsel⟩, fun ⟨_, sel, _, hsel⟩ => ⟨sel, hsel⟩⟩

theorem Admitted.address_not_mem : ref ∉ before.map (·.1) ∧ ref ∉ after.map (·.1) := by
  have hnodup := hr.wellFormed.nodup_addresses
  rw [hl, List.map_append, List.map_cons, List.nodup_middle, List.nodup_cons, List.mem_append,
    not_or] at hnodup
  exact hnodup.1

/-- A step that was looked at has told all its discards and nobody else has. -/
theorem Admitted.filter_discardsAt_of_passed (hpassed : Passed registry r before) :
    (runViolations ⟨registry, r.layout.supplyChainId, ring⟩ r).filter (Violation.discardsAt ref) =
      (candidates ref r.links).filterMap fun link =>
        (LinkPolicy.discard? ⟨registry, r.layout.supplyChainId, ring⟩ step link).map
          (discardViolation ref link) := by
  obtain ⟨last, hlast⟩ := (hr.passed_iff hl).mp hpassed
  obtain ⟨hbefore, hafter⟩ := hr.address_not_mem hl
  rw [filter_discardsAt_runViolations, hl, verifySteps_append_of_some _ hlast, List.filter_append,
    filter_discardsAt_eq_nil hbefore, List.nil_append, ← verifyStep_discarded _ _ last,
    ← filter_discardsAt_verifyStep, verifySteps]
  cases (verifyStep ⟨registry, r.layout.supplyChainId, ring⟩ r last ref step).content with
  | none => rfl
  | some content =>
    show List.filter _ (_ ++ _) = _
    rw [List.filter_append, filter_discardsAt_eq_nil hafter, List.append_nil]

/-- Of a step that was not looked at there is nothing to tell. -/
theorem Admitted.filter_discardsAt_of_not_passed (hpassed : ¬Passed registry r before) :
    (runViolations ⟨registry, r.layout.supplyChainId, ring⟩ r).filter (Violation.discardsAt ref) =
      [] := by
  have hnone : (verifySteps ⟨registry, r.layout.supplyChainId, ring⟩ r .empty before).2 = none :=
    Option.eq_none_iff_forall_ne_some.mpr fun last hlast =>
      hpassed ((hr.passed_iff hl).mpr ⟨last, hlast⟩)
  rw [filter_discardsAt_runViolations, hl, verifySteps_append_of_none _ hnone]
  exact filter_discardsAt_eq_nil (hr.address_not_mem hl).1

end Run

/-! ## The run -/

/-- **What a run tells of its links is exact.** The discards of a step that was looked
at are those of its links that do not count, each with the first reason against it, in
the order of the links, also when the links are grouped twice along one list; a step
that was not looked at has none. If too few signed, the number is that of the content
most signed, and less than the threshold; if contents conflict, it is the number of
those with enough signers, and two at least. -/
theorem discards_and_counts_exact {registry : Registry} {request : RunRequest}
    {result : RunResult} (h : verifyRun registry request = .ok result) :
    (∀ before ref step after, request.layout.layout.steps = before ++ (ref, step) :: after →
      (Passed registry request before → ∀ told,
        Discarding registry request.layout ref step request.links told ↔
          told = result.violations.filter (Violation.discardsAt ref)) ∧
      (¬Passed registry request before →
        result.violations.filter (Violation.discardsAt ref) = [])) ∧
    (∃ policy, runPolicy registry request = .ok policy ∧
      runOnto policy request = result.violations) ∧
    (∀ ref required signers, .thresholdNotMet ref required signers ∈ result.violations →
      ∃ step, (ref, step) ∈ request.layout.layout.steps ∧ required = step.threshold.val ∧
        signers < required ∧
        IsGreatest {n | ∃ content, HasSigners registry request ref step n content} signers) ∧
    ∀ ref n, .conflictingLinks ref n ∈ result.violations →
      ∃ step, (ref, step) ∈ request.layout.layout.steps ∧ 2 ≤ n ∧
        ∃ contents : List StepArtifacts, contents.Nodup ∧ contents.length = n ∧
          ∀ content, content ∈ contents ↔
            HasSigners registry request ref step step.threshold.val content := by
  obtain ⟨ring, hr, rfl⟩ := exists_admitted h
  refine ⟨fun before ref step after hl => ⟨fun hpassed told => ?_, fun hpassed => ?_⟩,
    ⟨_, hr.policy, runOnto_eq _ _⟩, fun _ _ _ => hr.isGreatest_of_thresholdNotMet,
    fun _ _ => hr.exists_contents_of_conflict⟩
  · rw [discarding_iff hr.keys hr.wellFormed.keyIds]
    exact (hr.filter_discardsAt_of_passed hl hpassed).symm ▸ Iff.rfl
  · exact hr.filter_discardsAt_of_not_passed hl hpassed

namespace Pipeline

/-- One key signed for the build, and two links for it are of another supply chain. -/
def lonely : RunRequest := request.withLinks [foreign, built "00" first, foreign]

/-- Two keys signed for two packages each. -/
def divided : RunRequest :=
  request.withLinks [built "00" first, built "66" first, built "00" second, built "66" second]

def foreignDiscarded : Violation :=
  .linkDiscarded buildRef foreign.link.runId foreign.signature.keyId .wrongSupplyChain

theorem rejected_foreign :
    Rejected OneStep.registry request.layout build foreign .wrongSupplyChain :=
  .wrongSupplyChain (by decide)

theorem discarding_lonely : Discarding OneStep.registry request.layout buildRef build lonely.links
    [foreignDiscarded, foreignDiscarded] :=
  .rejected rfl rejected_foreign
    (.accepted (accepted_built List.mem_cons_self _) (.rejected rfl rejected_foreign .nil))

theorem discard?_built {ring : KeyRing} (hr : Admitted OneStep.registry request ring)
    {key : PublicKey} (hkey : key ∈ layout.keys) (hash : String) :
    LinkPolicy.discard? ⟨OneStep.registry, "chain", ring⟩ build (built hash key) = none :=
  ((accepted_iff hr.keys hr.wellFormed.keyIds).mp (accepted_built hkey hash)).2

/-- What is fatal in the build is told in the run. -/
theorem exists_run_of_build {links accepted : List LinkBlock} {v : Violation}
    (haccepted : ∀ ring, Admitted OneStep.registry request ring →
      acceptedLinks ⟨OneStep.registry, "chain", ring⟩ links buildRef build = accepted)
    (hv : v ∈ (selectContent buildRef build [] .empty (signedContents accepted)).1) :
    ∃ result, verifyRun OneStep.registry (request.withLinks links) = .ok result ∧
      v ∈ result.violations := by
  obtain ⟨_, hresult⟩ := exists_verifyRun
  obtain ⟨ring, hr, _⟩ := exists_admitted hresult
  refine ⟨_, (hr.withLinks links).verifyRun_eq, RunResult.mem_ofViolations_iff.mpr ?_⟩
  rw [runViolations_eq]
  refine List.mem_append_left _ (mem_verifySteps_of_first ?_)
  rw [verifyStep_fatal]
  show v ∈ (selectContent _ _ _ _
    (signedContents (acceptedLinks ⟨OneStep.registry, "chain", ring⟩ links buildRef build))).1
  rw [haccepted ring hr]
  exact hv

theorem exists_lonely : ∃ result, verifyRun OneStep.registry lonely = .ok result ∧
    .thresholdNotMet buildRef 2 1 ∈ result.violations := by
  have haccepted : ∀ ring, Admitted OneStep.registry request ring →
      acceptedLinks ⟨OneStep.registry, "chain", ring⟩ lonely.links buildRef build =
        [built "00" first] := by
    intro ring hr
    have hforeign : LinkPolicy.discard? ⟨OneStep.registry, "chain", ring⟩ build foreign =
        some .wrongSupplyChain := rejected_foreign.discard?_eq hr.keys hr.wellFormed.keyIds
    have hbuilt := discard?_built hr (List.mem_cons_self : first ∈ layout.keys) "00"
    have hcandidates : candidates buildRef lonely.links = [foreign, built "00" first, foreign] := rfl
    rw [acceptedLinks, hcandidates]
    simp [hforeign, hbuilt]
  exact exists_run_of_build haccepted (by decide +kernel)

theorem exists_divided : ∃ result, verifyRun OneStep.registry divided = .ok result ∧
    .conflictingLinks buildRef 2 ∈ result.violations := by
  have haccepted : ∀ ring, Admitted OneStep.registry request ring →
      acceptedLinks ⟨OneStep.registry, "chain", ring⟩ divided.links buildRef build =
        divided.links := by
    intro ring hr
    have hcandidates : candidates buildRef divided.links = divided.links := rfl
    have hfirst := discard?_built hr (List.mem_cons_self : first ∈ layout.keys)
    have hsecond := discard?_built hr (by simp [layout] : second ∈ layout.keys)
    rw [acceptedLinks, hcandidates]
    simp [divided, RunRequest.withLinks, hfirst, hsecond]
  exact exists_run_of_build haccepted (by decide +kernel)

end Pipeline

/-- One signer of two is reported, after the two links that were discarded; and of two
packages that two keys signed each, both. -/
theorem pipeline_reported :
    (∃ result, verifyRun OneStep.registry Pipeline.lonely = .ok result ∧
      result.violations.filter (Violation.discardsAt Pipeline.buildRef) =
        [Pipeline.foreignDiscarded, Pipeline.foreignDiscarded] ∧
      .thresholdNotMet Pipeline.buildRef 2 1 ∈ result.violations ∧
      ∃ step, IsGreatest {n | ∃ content, HasSigners OneStep.registry Pipeline.lonely
        Pipeline.buildRef step n content} 1) ∧
    ∃ result, verifyRun OneStep.registry Pipeline.divided = .ok result ∧
      .conflictingLinks Pipeline.buildRef 2 ∈ result.violations ∧
      ∃ step, ∃ contents : List StepArtifacts, contents.Nodup ∧ contents.length = 2 ∧
        ∀ content, content ∈ contents ↔ HasSigners OneStep.registry Pipeline.divided
          Pipeline.buildRef step step.threshold.val content := by
  constructor
  · obtain ⟨result, hrun, hlonely⟩ := Pipeline.exists_lonely
    obtain ⟨hdiscards, _, hthreshold, _⟩ := discards_and_counts_exact hrun
    obtain ⟨step, _, _, _, hgreatest⟩ := hthreshold _ _ _ hlonely
    -- the build is the first step, so it was looked at
    have hpassed : Passed OneStep.registry Pipeline.lonely [] := ⟨fun _ => .empty, selectedAlong_nil⟩
    have htold := (hdiscards [] Pipeline.buildRef Pipeline.build _ rfl).1 hpassed
    exact ⟨result, hrun, ((htold _).mp Pipeline.discarding_lonely).symm, hlonely, step, hgreatest⟩
  · obtain ⟨result, hrun, hdivided⟩ := Pipeline.exists_divided
    obtain ⟨_, _, _, hconflict⟩ := discards_and_counts_exact hrun
    obtain ⟨step, _, _, hcontents⟩ := hconflict _ _ hdivided
    exact ⟨result, hrun, hdivided, step, hcontents⟩

end Provenance
