import Provenance.Proofs.Verification.Fatal

/-!
# What a valid run means

A run goes through the steps one after the other and then looks at what is going to be
released. `Selection` says the same of one choice of a content for every step, with no
map and no order of checks:

> `isValid_iff_selection`: a run that is evaluated is valid iff some choice of
> contents is a `Selection`.

The choice is the one along which the steps get their contents
(`verifySteps_eq_some_iff`), and the end looks at the content chosen for the last step
(`finalContent_chosenFrom`).
-/

namespace Provenance

/-- A choice of contents under which nothing is wrong with a run. -/
structure Selection (registry : Registry) (request : RunRequest)
    (sel : StepRef → StepArtifacts) : Prop where
  /-- MATCH rules of a step see the steps declared before it. -/
  steps : ∀ before ref step after, request.layout.layout.steps = before ++ (ref, step) :: after →
    Selected registry request (chosenFrom sel .empty before) ref step (sel ref)
  /-- The rules for released artifacts see all steps; the products of the last step
  are what is expected. -/
  released : ∃ before ref step, request.layout.layout.steps = before ++ [(ref, step)] ∧
    (request.layout.layout.endProductRules ≠ [] →
      verifyRules request.layout.layout.endProductRules (.forSide .products (sel ref)
        (chosenFrom sel .empty request.layout.layout.steps)) = .explained) ∧
    ∀ a, a ∈ (sel ref).products ↔ a ∈ request.expected

/-! ## The run -/

theorem finalContent_chosenFrom {l : Layout} {ref : StepRef} {step : Step}
    {before : List (StepRef × Step)} (hl : l.steps = before ++ [(ref, step)])
    (hfinal : l.finalStep? = some ref) (sel : StepRef → StepArtifacts) :
    finalContent l (chosenFrom sel .empty l.steps) = sel ref := by
  have hmem : ref ∈ l.steps.map (·.1) := by
    rw [hl]
    simp
  rw [finalContent, hfinal, Option.bind_some, get?_chosenFrom, if_pos hmem, Option.getD_some]

/-- A run that is evaluated is valid exactly when there is a choice of contents,
one for each step, under which nothing is wrong. -/
theorem isValid_iff_selection {registry : Registry} {request : RunRequest} {result : RunResult}
    (h : verifyRun registry request = .ok result) :
    result.isValid = true ↔ ∃ sel, Selection registry request sel := by
  obtain ⟨policy, hpolicy, rfl⟩ := verifyRun_eq_ok_iff.mp h
  obtain ⟨ring, hring, _, hlayout, _, rfl⟩ := runPolicy_eq_ok_iff.mp hpolicy
  have hwell := validateLayout_eq_ok_iff.mp hlayout
  have hpos : ∀ s ∈ request.layout.layout.steps, 0 < s.2.threshold.val := fun s hs =>
    (hwell.stepFits hs).threshold_pos
  -- what the loop needs of the layout: addresses that differ, positive thresholds, a last step
  obtain ⟨before, ref, step, hl, hfinal⟩ := hwell.exists_finalStep
  rw [isValid_ofViolations_iff, runViolations_not_fatal_iff]
  simp only [verifySteps_eq_some_iff hring hwell.keyIds hwell.nodup_addresses hpos,
    endViolations_not_fatal_iff, endRuleViolation?_eq_none_iff, mismatch?_eq_none_iff]
  constructor
  · intro h
    obtain ⟨_, ⟨sel, rfl, hsteps⟩, hrules, hexpected⟩ := h
    rw [finalContent_chosenFrom hl hfinal] at hrules hexpected
    exact ⟨sel, hsteps, before, ref, step, hl, hrules, hexpected⟩
  · intro h
    obtain ⟨sel, hsteps, before', ref', step', hl', hrules, hexpected⟩ := h
    -- there is one last step, whoever names it
    obtain ⟨_, hlast⟩ := List.append_inj' (hl.symm.trans hl') rfl
    injection hlast with hlast _
    injection hlast with href _
    subst href
    refine ⟨_, ⟨sel, rfl, hsteps⟩, ?_⟩
    rw [finalContent_chosenFrom hl hfinal]
    exact ⟨hrules, hexpected⟩

/-! ## A run of one step

One key signs the layout and the only link; one product is made, demanded by the
step and by the release. The scheme of the registry accepts every signature. -/

namespace OneStep

/-- A scheme that accepts everything. -/
def scheme : Scheme where
  keyAlgorithm := .ed25519
  hashAlgorithm := .sha512
  generate _ := .ok ([], [])
  checkPublicKey _ := .ok ()
  sign _ _ := .ok []
  verify _ _ _ := .ok true

def registry : Registry := .ofList [scheme]

def key : PublicKey := .ofBytes .ed25519 []

def signature : Signature := ⟨key.keyId, "", .ed25519, .sha512⟩

def app : Artifact := ⟨"app", "00"⟩

def step : Step := ⟨"build", [key.keyId], 1, [], [.require "app"]⟩

def ref : StepRef := ⟨"main", "build"⟩

def layout : Layout := ⟨[key], [key.keyId], [⟨"main", [step]⟩], [.require "app"]⟩

def link : LinkBlock := ⟨"chain", ⟨"build", "run", "main", none, [], [app]⟩, signature⟩

def request : RunRequest := ⟨⟨"chain", layout, [signature]⟩, [link], [app], []⟩

/-- Every hexadecimal text is a valid signature by the key. -/
theorem isValidText_hex (text : String) (bytes : Bytes) {hex : String} {signed : Bytes}
    (hhex : Hex.decode? hex = some signed) :
    isValidText registry text ⟨keyIdOf bytes, hex, .ed25519, .sha512⟩ (.ofBytes .ed25519 bytes) =
      .ok true := by
  have hscheme : registry.scheme .ed25519 .sha512 = .ok scheme := rfl
  rw [isValidText_of_scheme hscheme, if_neg (by simp [PublicKey.ofBytes]), hhex]
  rfl

theorem isValidText_ofBytes (text : String) (bytes : Bytes) :
    isValidText registry text ⟨keyIdOf bytes, "", .ed25519, .sha512⟩ (.ofBytes .ed25519 bytes) =
      .ok true := isValidText_hex text bytes rfl

theorem isValidText_eq (text : String) : isValidText registry text signature key = .ok true :=
  isValidText_ofBytes text []

theorem wellFormed : layout.WellFormed where
  segments_ne_nil := by simp [layout]
  keyIds := by simp [layout, Layout.keyIds]
  names := by simp [layout]
  segments := by
    have hrule : layout.RuleFits (.require "app") := ⟨rfl, by simp⟩
    have hstep : layout.StepFits step := by
      refine ⟨by decide, ?_, ?_, ?_⟩
      · simp [step, distinctTexts, sortByText, List.eraseDups_cons]
      · simp [step, layout, Layout.keyIds]
      · simpa [step] using hrule
    intro s hs
    obtain rfl := List.mem_singleton.mp hs
    refine ⟨by simp, by simp, fun t ht => ?_⟩
    rw [List.mem_singleton.mp ht]
    exact hstep
  endRules := by
    intro r hr
    rw [List.mem_singleton.mp hr]
    exact ⟨rfl, by simp⟩
  signers := by simp [layout, Layout.keyIds]

theorem accepted : Accepted registry request.layout ref step link where
  address := ⟨rfl, rfl⟩
  supplyChain := rfl
  materials := by simp [link]
  products := by simp [link]
  authorized := by simp [link, step, signature]
  signed := ⟨key, by simp [request, layout], rfl, isValidText_eq _⟩

theorem selected :
    Selected registry request .empty ref step link.link.content where
  signed := ⟨[key.keyId], by simp, by decide, by
    simpa [SignedBy] using ⟨link, by simp [request], accepted, rfl, rfl⟩⟩
  only other h := by
    obtain ⟨_, l, hl, _, rfl, _⟩ := h.exists_signedBy (by decide)
    rw [List.mem_singleton.mp hl]
  approved a ha := by simp [request] at ha
  materials := by decide
  products := by decide

theorem goodSignature : GoodSignature registry layout signature :=
  ⟨by simp [layout, signature], key, by simp [Layout.listedKey?, layout, signature],
    isValidText_eq _⟩

theorem exists_verifyRun : ∃ result, verifyRun registry request = .ok result := by
  refine exists_verifyRun_iff.mpr ⟨?_, ⟨by simp [request], ?_⟩,
    validateLayout_eq_ok_iff.mpr wellFormed, rfl⟩
  · intro k hk
    rw [List.mem_singleton.mp hk]
    exact ⟨rfl, scheme, rfl, rfl⟩
  · intro s hs
    rw [List.mem_singleton.mp hs]
    exact goodSignature

end OneStep

/-! ## A run of two steps

A package is built and then deployed. Two of three keys have to sign for the build,
and the deployment starts from what was built, in a directory. -/

namespace Pipeline

def first : PublicKey := .ofBytes .ed25519 [1]

def second : PublicKey := .ofBytes .ed25519 [2]

def third : PublicKey := .ofBytes .ed25519 [3]

def signature (key : PublicKey) : Signature := ⟨key.keyId, "", .ed25519, .sha512⟩

def build : Step :=
  ⟨"build", [first.keyId, second.keyId, third.keyId], 2, [], [.create "app"]⟩

def buildRef : StepRef := ⟨"main", "build"⟩

/-- What was built, by the rest of its path. -/
def fromBuild (directory : Option String) : MatchRule :=
  ⟨"app", directory, .products, none, buildRef⟩

def deploy : Step :=
  ⟨"deploy", [first.keyId], 1, [.matching (fromBuild (some "in")), .disallow "**"],
    [.create "app"]⟩

def deployRef : StepRef := ⟨"main", "deploy"⟩

def layout : Layout :=
  ⟨[first, second, third], [first.keyId], [⟨"main", [build, deploy]⟩],
    [.matching (fromBuild none)]⟩

def built (hash : String) (key : PublicKey) : LinkBlock :=
  ⟨"chain", ⟨"build", "run", "main", none, [], [⟨"app", hash⟩]⟩, signature key⟩

/-- A link for the build that is of another supply chain. -/
def foreign : LinkBlock := { built "00" first with supplyChainId := "other" }

def deployed : LinkBlock :=
  ⟨"chain", ⟨"deploy", "run", "main", none, [⟨"in/app", "00"⟩], [⟨"app", "00"⟩]⟩, signature first⟩

def request : RunRequest :=
  ⟨⟨"chain", layout, [signature first]⟩, [built "00" first, built "00" second, deployed],
    [⟨"app", "00"⟩], []⟩

/-- The content of the step at an address. -/
def sel (ref : StepRef) : StepArtifacts :=
  if ref = buildRef then (built "00" first).link.content else deployed.link.content

theorem nodup_keyIds : [first.keyId, second.keyId, third.keyId].Nodup := by decide +kernel

theorem third_ne : third.keyId ≠ first.keyId ∧ third.keyId ≠ second.keyId := by
  have h := nodup_keyIds
  simp only [List.nodup_cons, List.mem_cons, List.not_mem_nil, or_false, not_or] at h
  exact ⟨Ne.symm h.1.2, Ne.symm h.2.1⟩

theorem exists_ofBytes {key : PublicKey} (hkey : key ∈ layout.keys) :
    ∃ bytes, key = .ofBytes .ed25519 bytes := by
  simp only [layout, List.mem_cons, List.not_mem_nil, or_false] at hkey
  rcases hkey with rfl | rfl | rfl
  · exact ⟨[1], rfl⟩
  · exact ⟨[2], rfl⟩
  · exact ⟨[3], rfl⟩

theorem isValidText_eq {key : PublicKey} (hkey : key ∈ layout.keys) (text : String) :
    isValidText OneStep.registry text (signature key) key = .ok true := by
  obtain ⟨bytes, rfl⟩ := exists_ofBytes hkey
  exact OneStep.isValidText_ofBytes text bytes

theorem keysUsable : KeysUsable OneStep.registry layout := by
  intro key hkey
  obtain ⟨bytes, rfl⟩ := exists_ofBytes hkey
  exact ⟨rfl, OneStep.scheme, rfl, rfl⟩

theorem ruleFits : ∀ r ∈ (build.materialRules ++ build.productRules) ++
    (deploy.materialRules ++ deploy.productRules) ++ layout.endProductRules, layout.RuleFits r := by
  have hcheck : ∀ r ∈ (build.materialRules ++ build.productRules) ++
      (deploy.materialRules ++ deploy.productRules) ++ layout.endProductRules,
      r.check = .ok () := by decide
  have hbuild : (layout.step? buildRef).isSome := by decide
  intro r hr
  refine ⟨hcheck r hr, ?_⟩
  rintro m rfl
  -- there are two MATCH rules, which look at the build
  have hm : m = fromBuild (some "in") ∨ m = fromBuild none := by
    simpa [build, deploy, layout] using hr
  rcases hm with rfl | rfl
  · exact hbuild
  · exact hbuild

theorem wellFormed : layout.WellFormed where
  segments_ne_nil := by simp [layout]
  keyIds := nodup_keyIds
  names := by simp [layout]
  segments := by
    have hbuild : layout.StepFits build := by
      refine ⟨by decide, ?_, by simp [build, layout, Layout.keyIds], fun r hr => ruleFits r ?_⟩
      · have hcount : build.authorizedKeyIds.length ≤ _ := length_le_distinctTexts nodup_keyIds
        exact Nat.le_trans (by decide) hcount
      · exact List.mem_append_left _ (List.mem_append_left _ hr)
    have hdeploy : layout.StepFits deploy := by
      refine ⟨by decide, ?_, by simp [deploy, layout, Layout.keyIds], fun r hr => ruleFits r ?_⟩
      · exact length_le_distinctTexts (List.nodup_singleton first.keyId)
      · exact List.mem_append_left _ (List.mem_append_right _ hr)
    intro s hs
    obtain rfl := List.mem_singleton.mp hs
    refine ⟨by simp, by decide, ?_⟩
    simpa using ⟨hbuild, hdeploy⟩
  endRules r hr := ruleFits r (List.mem_append_right _ hr)
  signers := by simp [layout, Layout.keyIds]

theorem accepted_built {key : PublicKey} (hkey : key ∈ layout.keys) (hash : String) :
    Accepted OneStep.registry request.layout buildRef build (built hash key) where
  address := ⟨rfl, rfl⟩
  supplyChain := rfl
  materials := List.nodup_nil
  products := List.nodup_singleton _
  authorized := List.mem_map_of_mem hkey
  signed := ⟨key, hkey, rfl, isValidText_eq hkey _⟩

theorem accepted_deployed : Accepted OneStep.registry request.layout deployRef deploy deployed where
  address := ⟨rfl, rfl⟩
  supplyChain := rfl
  materials := List.nodup_singleton _
  products := List.nodup_singleton _
  authorized := List.mem_singleton_self _
  signed := ⟨first, List.mem_cons_self, rfl, isValidText_eq List.mem_cons_self _⟩

/-- Every link that counts for a step has the content of the step. -/
theorem content_eq {ref : StepRef} {step : Step} {content : StepArtifacts} {id : KeyId}
    (h : SignedBy OneStep.registry request ref step content id) : content = sel ref := by
  obtain ⟨link, hlink, haccepted, rfl, _⟩ := h
  have haddress := Link.step_eq_iff.mpr haccepted.address
  simp only [request, List.mem_cons, List.not_mem_nil, or_false] at hlink
  rcases hlink with rfl | rfl | rfl
  · rw [← haddress]
    rfl
  · rw [← haddress]
    rfl
  · rw [← haddress]
    rfl

theorem signedBy_built {key : PublicKey} (hkey : key ∈ layout.keys)
    (hlink : built "00" key ∈ request.links) :
    SignedBy OneStep.registry request buildRef build (sel buildRef) key.keyId :=
  ⟨built "00" key, hlink, accepted_built hkey _, rfl, rfl⟩

theorem selected_build :
    Selected OneStep.registry request .empty buildRef build (sel buildRef) where
  signed := by
    have hnodup : ([first.keyId, second.keyId] ++ [third.keyId]).Nodup := nodup_keyIds
    refine ⟨[first.keyId, second.keyId], hnodup.of_append_left, by decide, fun id hid => ?_⟩
    rcases List.mem_cons.mp hid with rfl | hid
    · exact signedBy_built List.mem_cons_self List.mem_cons_self
    · rw [List.mem_singleton.mp hid]
      exact signedBy_built (by simp [layout]) (List.mem_cons_of_mem _ List.mem_cons_self)
  only _ h := by
    obtain ⟨_, hsigned⟩ := h.exists_signedBy (by decide)
    exact content_eq hsigned
  approved a ha := nomatch ha
  materials := by decide +kernel
  products := by decide +kernel

theorem selected_deploy : Selected OneStep.registry request
    (chosenFrom sel .empty [(buildRef, build)]) deployRef deploy (sel deployRef) where
  signed := by
    refine ⟨[first.keyId], by simp, by decide, fun id hid => ?_⟩
    rw [List.mem_singleton.mp hid]
    exact ⟨deployed, by simp [request], accepted_deployed, rfl, rfl⟩
  only _ h := by
    obtain ⟨_, hsigned⟩ := h.exists_signedBy (by decide)
    exact content_eq hsigned
  approved a ha := nomatch ha
  materials := by decide +kernel
  products := by decide +kernel

theorem selectedAlong :
    SelectedAlong OneStep.registry request sel .empty request.layout.layout.steps := by
  have hsteps : request.layout.layout.steps = [(buildRef, build), (deployRef, deploy)] := rfl
  rw [hsteps, selectedAlong_cons_iff, selectedAlong_cons_iff]
  exact ⟨selected_build, selected_deploy, selectedAlong_nil⟩

/-- Every hexadecimal text is a good signature of the first key. -/
theorem goodSignature {hex : String} {signed : Bytes} (hhex : Hex.decode? hex = some signed) :
    GoodSignature OneStep.registry layout ⟨first.keyId, hex, .ed25519, .sha512⟩ := by
  have hlisted : layout.listedKey? first.keyId = some first :=
    (Layout.listedKey?_eq_some_iff wellFormed.keyIds).mpr ⟨List.mem_cons_self, rfl⟩
  exact ⟨List.mem_singleton_self _, first, hlisted, OneStep.isValidText_hex _ [1] hhex⟩

theorem exists_verifyRun : ∃ result, verifyRun OneStep.registry request = .ok result := by
  refine exists_verifyRun_iff.mpr ⟨keysUsable, ⟨List.cons_ne_nil _ _, fun s hs => ?_⟩,
    validateLayout_eq_ok_iff.mpr wellFormed, rfl⟩
  rw [List.mem_singleton.mp hs]
  exact goodSignature rfl

def secondApproves : Approval := ⟨buildRef, [second.keyId]⟩

/-- The same run, where the second key has to approve of the build. -/
def approved : RunRequest := { request with approvals := [secondApproves] }

theorem exists_approved : ∃ result, verifyRun OneStep.registry approved = .ok result := by
  obtain ⟨husable, hsigned, hlayout, _⟩ := exists_verifyRun_iff.mp exists_verifyRun
  exact exists_verifyRun_iff.mpr ⟨husable, hsigned, hlayout, by decide +kernel⟩

theorem selectedAlong_approved :
    SelectedAlong OneStep.registry approved sel .empty approved.layout.layout.steps := by
  have hsteps : approved.layout.layout.steps = [(buildRef, build), (deployRef, deploy)] := rfl
  rw [hsteps, selectedAlong_cons_iff, selectedAlong_cons_iff]
  refine ⟨{ selected_build with approved := fun a ha _ id hid => ?_ },
    { selected_deploy with approved := fun a ha href => ?_ }, selectedAlong_nil⟩
  · obtain rfl := List.mem_singleton.mp ha
    rw [List.mem_singleton.mp hid]
    exact signedBy_built (by simp [layout]) (by simp [request])
  · -- it is the build that has to be approved
    obtain rfl := List.mem_singleton.mp ha
    exact absurd href (by decide)

end Pipeline

/-- The run is valid: what was built and what was deployed from it are a selection. -/
theorem pipeline_isValid : ∃ result, verifyRun OneStep.registry Pipeline.approved = .ok result ∧
    result.isValid = true := by
  obtain ⟨result, hresult⟩ := Pipeline.exists_approved
  have hreleased : verifyRules Pipeline.layout.endProductRules
      (.forSide .products (Pipeline.sel Pipeline.deployRef)
        (chosenFrom Pipeline.sel .empty Pipeline.layout.steps)) = .explained := by decide +kernel
  refine ⟨result, hresult, (isValid_iff_selection hresult).mpr
    ⟨Pipeline.sel, Pipeline.selectedAlong_approved, [(Pipeline.buildRef, Pipeline.build)],
      Pipeline.deployRef, Pipeline.deploy, rfl, fun _ => hreleased, fun a => ?_⟩⟩
  exact ArtifactSet.mem_ofList

end Provenance
