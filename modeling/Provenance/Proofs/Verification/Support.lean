import Provenance.Proofs.Layout.WellFormed
import Provenance.Proofs.Link.Repeats
import Provenance.Proofs.Verification.Gate

/-!
# Who stands behind a content

Of the links for a step some count, and those that do are grouped by what they
list. `Accepted` says when a link counts, `SignedBy` that some link that counts
has a certain content and signer:

> `mem_acceptedLinks_iff`: the links that verification keeps are the accepted ones;
>
> `mem_signers_iff`: the signers kept with a content are those who signed it;
>
> `hasSigners_iff`: a content has `n` signers iff it is kept with `n` of them.

A signer counts once however many links it signed, so a group keeps different
signers, and a content is kept once (`Grouped`). That is the invariant of the
loop over the links.
-/

namespace Provenance

/-! ## Links that count -/

/-- The link is for the step and of the supply chain, repeats no artifact on a
side, and is signed by a key of the layout that may sign for the step. -/
structure Accepted (registry : Registry) (b : LayoutBlock) (ref : StepRef) (step : Step)
    (link : LinkBlock) : Prop where
  address : link.link.segmentName = ref.segmentName ∧ link.link.stepName = ref.stepName
  supplyChain : link.supplyChainId = b.supplyChainId
  materials : link.link.materials.Nodup
  products : link.link.products.Nodup
  authorized : link.signature.keyId ∈ step.authorizedKeyIds
  signed : ∃ key ∈ b.layout.keys, key.keyId = link.signature.keyId ∧
    link.link.isSignedBy registry link.signature key = .ok true

/-- Some link that counts has the content and the signer. -/
def SignedBy (registry : Registry) (request : RunRequest) (ref : StepRef) (step : Step)
    (content : StepArtifacts) (id : KeyId) : Prop :=
  ∃ link ∈ request.links, Accepted registry request.layout ref step link ∧
    link.link.content = content ∧ link.signature.keyId = id

/-- At least `n` different keys signed the content. -/
def HasSigners (registry : Registry) (request : RunRequest) (ref : StepRef) (step : Step)
    (n : Nat) (content : StepArtifacts) : Prop :=
  ∃ ids : List KeyId, ids.Nodup ∧ n ≤ ids.length ∧
    ∀ id ∈ ids, SignedBy registry request ref step content id

/-- What has signers is signed by some key. -/
theorem HasSigners.exists_signedBy {registry : Registry} {request : RunRequest} {ref : StepRef}
    {step : Step} {n : Nat} (hn : 0 < n) {content : StepArtifacts}
    (h : HasSigners registry request ref step n content) :
    ∃ id, SignedBy registry request ref step content id := by
  obtain ⟨ids, _, hcount, hsigned⟩ := h
  obtain ⟨id, hid⟩ := List.exists_mem_of_length_pos (Nat.lt_of_lt_of_le hn hcount)
  exact ⟨id, hsigned id hid⟩

/-- The same request with other links. -/
def RunRequest.withLinks (r : RunRequest) (links : List LinkBlock) : RunRequest :=
  { r with links := links }

/-- The request gets a run, in which keys are looked up in the ring. -/
structure Admitted (registry : Registry) (r : RunRequest) (ring : KeyRing) : Prop where
  keys : KeyRing.ofKeys registry r.layout.layout.keys = .ok ring
  wellFormed : r.layout.layout.WellFormed
  policy : runPolicy registry r = .ok ⟨registry, r.layout.supplyChainId, ring⟩

section Admitted

variable {registry : Registry} {r : RunRequest} {ring : KeyRing}

theorem exists_admitted {result : RunResult} (h : verifyRun registry r = .ok result) :
    ∃ ring, Admitted registry r ring ∧
      result = .ofViolations (runViolations ⟨registry, r.layout.supplyChainId, ring⟩ r) := by
  obtain ⟨policy, hpolicy, rfl⟩ := verifyRun_eq_ok_iff.mp h
  obtain ⟨ring, hring, _, hlayout, _, rfl⟩ := runPolicy_eq_ok_iff.mp hpolicy
  exact ⟨ring, ⟨hring, validateLayout_eq_ok_iff.mp hlayout, hpolicy⟩, rfl⟩

theorem Admitted.verifyRun_eq (h : Admitted registry r ring) : verifyRun registry r =
    .ok (.ofViolations (runViolations ⟨registry, r.layout.supplyChainId, ring⟩ r)) :=
  verifyRun_eq_ok_iff.mpr ⟨_, h.policy, rfl⟩

/-- Whether there is a run is decided without a look at the links. -/
theorem Admitted.withLinks (h : Admitted registry r ring) (links : List LinkBlock) :
    Admitted registry (r.withLinks links) ring := ⟨h.keys, h.wellFormed, h.policy⟩

theorem Admitted.threshold_pos (h : Admitted registry r ring) {s : StepRef × Step}
    (hs : s ∈ r.layout.layout.steps) : 0 < s.2.threshold.val :=
  (h.wellFormed.stepFits hs).threshold_pos

theorem signedBy_cons {ref : StepRef} {step : Step} {link : LinkBlock} {links : List LinkBlock}
    {content : StepArtifacts} {id : KeyId} :
    SignedBy registry (r.withLinks (link :: links)) ref step content id ↔
      (Accepted registry r.layout ref step link ∧ link.link.content = content ∧
        link.signature.keyId = id) ∨ SignedBy registry (r.withLinks links) ref step content id := by
  simp [SignedBy, RunRequest.withLinks]

end Admitted

theorem Link.step_eq_iff {l : Link} {ref : StepRef} :
    l.step = ref ↔ l.segmentName = ref.segmentName ∧ l.stepName = ref.stepName := by
  cases ref
  simp [Link.step]

/-- A link counts iff it is of the supply chain, repeats nothing and is validly
signed by its signer. -/
theorem discard?_eq_none_iff {p : LinkPolicy} {step : Step} {b : LinkBlock} :
    p.discard? step b = none ↔ b.supplyChainId = p.supplyChainId ∧ b.link.duplicates = [] ∧
      ∃ key, p.signer? step b.signature = some key ∧
        b.link.isSignedBy p.registry b.signature key = .ok true := by
  unfold LinkPolicy.discard?
  by_cases hchain : b.supplyChainId = p.supplyChainId
  · by_cases hdup : b.link.duplicates = []
    · rw [if_neg (not_not_intro hchain), hdup]
      cases hk : p.signer? step b.signature with
      | none => simp
      | some key =>
        -- a signature is valid, or it is not, or it cannot be looked at
        cases hv : b.link.isSignedBy p.registry b.signature key with
        | error cause => simp [hv]
        | ok valid => cases valid <;> simp [hv, hchain]
    · simp [hchain, hdup]
  · simp [hchain]

/-- The signer of a link is the one key of the layout with the id that it names. -/
theorem signer?_eq_some_iff {registry : Registry} {b : LayoutBlock} {ring : KeyRing}
    (hring : KeyRing.ofKeys registry b.layout.keys = .ok ring) (hkeys : b.layout.keyIds.Nodup)
    {step : Step} {s : Signature} {key : PublicKey} :
    LinkPolicy.signer? ⟨registry, b.supplyChainId, ring⟩ step s = some key ↔
      s.keyId ∈ step.authorizedKeyIds ∧ key ∈ b.layout.keys ∧ key.keyId = s.keyId := by
  rw [← KeyRing.get?_ofKeys_of_nodup hring hkeys]
  unfold LinkPolicy.signer? Step.isAuthorized
  by_cases hauth : s.keyId ∈ step.authorizedKeyIds
  · rw [if_pos (decide_eq_true hauth), and_iff_right hauth]
  · simp [hauth]

/-- A link counts iff it is for the step and there is no reason to discard it. -/
theorem accepted_iff {registry : Registry} {b : LayoutBlock} {ring : KeyRing}
    (hring : KeyRing.ofKeys registry b.layout.keys = .ok ring) (hkeys : b.layout.keyIds.Nodup)
    {ref : StepRef} {step : Step} {link : LinkBlock} :
    Accepted registry b ref step link ↔ link.link.step = ref ∧
      LinkPolicy.discard? ⟨registry, b.supplyChainId, ring⟩ step link = none := by
  rw [discard?_eq_none_iff, Link.duplicates_eq_nil_iff, Link.step_eq_iff]
  simp only [signer?_eq_some_iff hring hkeys]
  constructor
  · intro h
    obtain ⟨key, hkey, hid, hv⟩ := h.signed
    exact ⟨h.address, h.supplyChain, ⟨h.materials, h.products⟩, key,
      ⟨h.authorized, hkey, hid⟩, hv⟩
  · intro h
    obtain ⟨haddress, hchain, ⟨hm, hp⟩, key, ⟨hauth, hkey, hid⟩, hv⟩ := h
    exact ⟨haddress, hchain, hm, hp, hauth, key, hkey, hid, hv⟩

/-- The links that verification keeps for a step. -/
def acceptedLinks (policy : LinkPolicy) (links : List LinkBlock) (ref : StepRef) (step : Step) :
    List LinkBlock :=
  (candidates ref links).filter fun b => (policy.discard? step b).isNone

theorem mem_acceptedLinks_iff {registry : Registry} {request : RunRequest} {ring : KeyRing}
    (hring : KeyRing.ofKeys registry request.layout.layout.keys = .ok ring)
    (hkeys : request.layout.layout.keyIds.Nodup) {ref : StepRef} {step : Step} {link : LinkBlock} :
    link ∈ acceptedLinks ⟨registry, request.layout.supplyChainId, ring⟩ request.links ref step ↔
      link ∈ request.links ∧ Accepted registry request.layout ref step link := by
  rw [acceptedLinks, candidates, List.mem_filter, List.mem_filter, Option.isNone_iff_eq_none,
    decide_eq_true_eq, accepted_iff hring hkeys, and_assoc]

/-! ## Grouping -/

/-- Some group has the content and the signer. -/
def KeptWith (groups : List SignedContent) (content : StepArtifacts) (id : KeyId) : Prop :=
  ∃ g ∈ groups, g.artifacts = content ∧ id ∈ g.signers

/-- Every content is kept once, with different signers, and the links have these
signers and no others. -/
structure Grouped (links : List LinkBlock) (groups : List SignedContent) : Prop where
  contents : (groups.map SignedContent.artifacts).Nodup
  signers : ∀ g ∈ groups, g.signers.Nodup
  kept : ∀ content id, KeptWith groups content id ↔
    ∃ link ∈ links, link.link.content = content ∧ link.signature.keyId = id

section AddSigner

variable {artifacts : StepArtifacts} {key : KeyId}

theorem mem_contents_addSigner {content : StepArtifacts} :
    ∀ {groups : List SignedContent},
      content ∈ (addSigner artifacts key groups).map SignedContent.artifacts ↔
        content = artifacts ∨ content ∈ groups.map SignedContent.artifacts
  | [] => by simp [addSigner]
  | g :: rest => by
    unfold addSigner
    by_cases hg : g.artifacts = artifacts
    · rw [if_pos hg, List.map_cons, List.map_cons, List.mem_cons, List.mem_cons, ← hg]
      split <;> simp
    · rw [if_neg hg, List.map_cons, List.map_cons, List.mem_cons, List.mem_cons,
        mem_contents_addSigner]
      exact or_left_comm

theorem nodup_contents_addSigner :
    ∀ {groups : List SignedContent}, (groups.map SignedContent.artifacts).Nodup →
      ((addSigner artifacts key groups).map SignedContent.artifacts).Nodup
  | [], _ => by simp [addSigner]
  | g :: rest, h => by
    unfold addSigner
    rw [List.map_cons, List.nodup_cons] at h
    by_cases hg : g.artifacts = artifacts
    · rw [if_pos hg, List.map_cons, List.nodup_cons]
      split <;> exact h
    · rw [if_neg hg, List.map_cons, List.nodup_cons]
      refine ⟨fun hmem => ?_, nodup_contents_addSigner h.2⟩
      rcases mem_contents_addSigner.mp hmem with heq | hmem
      · exact hg heq
      · exact h.1 hmem

theorem nodup_signers_addSigner :
    ∀ {groups : List SignedContent}, (∀ g ∈ groups, g.signers.Nodup) →
      ∀ g ∈ addSigner artifacts key groups, g.signers.Nodup
  | [], _ => by simp [addSigner]
  | g :: rest, h => by
    rw [List.forall_mem_cons] at h
    unfold addSigner
    by_cases hg : g.artifacts = artifacts
    · rw [if_pos hg, List.forall_mem_cons]
      refine ⟨?_, h.2⟩
      -- a key that is among the signers is not added again
      by_cases hk : key ∈ g.signers
      · rw [if_pos hk]
        exact h.1
      · rw [if_neg hk]
        exact List.nodup_cons.mpr ⟨hk, h.1⟩
    · rw [if_neg hg, List.forall_mem_cons]
      exact ⟨h.1, nodup_signers_addSigner h.2⟩

theorem keptWith_cons {g : SignedContent} {rest : List SignedContent} {content : StepArtifacts}
    {id : KeyId} : KeptWith (g :: rest) content id ↔
      (g.artifacts = content ∧ id ∈ g.signers) ∨ KeptWith rest content id := by
  simp [KeptWith]

theorem keptWith_addSigner {content : StepArtifacts} {id : KeyId} :
    ∀ {groups : List SignedContent}, KeptWith (addSigner artifacts key groups) content id ↔
      KeptWith groups content id ∨ (artifacts = content ∧ key = id)
  | [] => by simp [addSigner, KeptWith, eq_comm]
  | g :: rest => by
    unfold addSigner
    by_cases hg : g.artifacts = artifacts
    · rw [if_pos hg, keptWith_cons, keptWith_cons, ← hg]
      -- the signer is new to the group, or it was there
      by_cases hk : key ∈ g.signers
      · rw [if_pos hk]
        refine ⟨.inl, ?_⟩
        intro h
        rcases h with h | ⟨hc, rfl⟩
        · exact h
        · exact .inl ⟨hc, hk⟩
      · rw [if_neg hk]
        show (g.artifacts = content ∧ id ∈ key :: g.signers) ∨ _ ↔ _
        rw [List.mem_cons, eq_comm (a := id)]
        constructor
        · intro h
          rcases h with ⟨hc, hid | hid⟩ | h
          · exact .inr ⟨hc, hid⟩
          · exact .inl (.inl ⟨hc, hid⟩)
          · exact .inl (.inr h)
        · intro h
          rcases h with (⟨hc, hid⟩ | h) | ⟨hc, hid⟩
          · exact .inl ⟨hc, .inr hid⟩
          · exact .inr h
          · exact .inl ⟨hc, .inl hid⟩
    · rw [if_neg hg, keptWith_cons, keptWith_cons, keptWith_addSigner, or_assoc]

end AddSigner

/-- One more link keeps the invariant. -/
theorem Grouped.add {links : List LinkBlock} {groups : List SignedContent}
    (h : Grouped links groups) (b : LinkBlock) :
    Grouped (links ++ [b]) (addSigner b.link.content b.signature.keyId groups) where
  contents := nodup_contents_addSigner h.contents
  signers := nodup_signers_addSigner h.signers
  kept content id := by
    rw [keptWith_addSigner, h.kept]
    constructor
    · intro h
      rcases h with ⟨link, hlink, heq⟩ | heq
      · exact ⟨link, List.mem_append_left _ hlink, heq⟩
      · exact ⟨b, by simp, heq⟩
    · intro h
      obtain ⟨link, hlink, heq⟩ := h
      rcases List.mem_append.mp hlink with hlink | hlink
      · exact .inl ⟨link, hlink, heq⟩
      · rw [List.mem_singleton.mp hlink] at heq
        exact .inr heq

theorem Grouped.foldl :
    ∀ (rest : List LinkBlock) {links : List LinkBlock} {groups : List SignedContent},
      Grouped links groups → Grouped (links ++ rest)
        (rest.foldl (fun groups b => addSigner b.link.content b.signature.keyId groups) groups)
  | [], links, groups, h => by
    rw [List.append_nil]
    exact h
  | b :: rest, links, groups, h => by
    rw [List.foldl_cons, List.append_cons]
    exact Grouped.foldl rest (h.add b)

theorem grouped_signedContents (links : List LinkBlock) : Grouped links (signedContents links) := by
  have hnil : Grouped [] [] := ⟨by simp, by simp, by simp [KeptWith]⟩
  exact Grouped.foldl links hnil

/-! ## Counting signers -/

/-- A content is kept once, so its signers are those of its group. -/
theorem Grouped.mem_signers_iff {links : List LinkBlock} {groups : List SignedContent}
    (h : Grouped links groups) {g : SignedContent} (hg : g ∈ groups) {id : KeyId} :
    id ∈ g.signers ↔
      ∃ link ∈ links, link.link.content = g.artifacts ∧ link.signature.keyId = id := by
  rw [← h.kept]
  constructor
  · intro hid
    exact ⟨g, hg, rfl, hid⟩
  · intro h
    obtain ⟨g', hg', hcontent, hid⟩ := h
    exact List.inj_on_of_nodup_map h.contents hg' hg hcontent ▸ hid

section Signers

variable {registry : Registry} {request : RunRequest} {ring : KeyRing}
  (hring : KeyRing.ofKeys registry request.layout.layout.keys = .ok ring)
  (hkeys : request.layout.layout.keyIds.Nodup) {ref : StepRef} {step : Step}

include hring hkeys

theorem mem_signers_iff {g : SignedContent}
    (hg : g ∈ signedContents (acceptedLinks ⟨registry, request.layout.supplyChainId, ring⟩
      request.links ref step)) {id : KeyId} :
    id ∈ g.signers ↔ SignedBy registry request ref step g.artifacts id := by
  rw [(grouped_signedContents _).mem_signers_iff hg]
  simp only [mem_acceptedLinks_iff hring hkeys, SignedBy, and_assoc]

theorem hasSigners_iff {n : Nat} (hn : 0 < n) {content : StepArtifacts} :
    HasSigners registry request ref step n content ↔
      ∃ g ∈ signedContents (acceptedLinks ⟨registry, request.layout.supplyChainId, ring⟩
        request.links ref step), n ≤ g.signers.length ∧ g.artifacts = content := by
  have hgrouped := grouped_signedContents
    (acceptedLinks ⟨registry, request.layout.supplyChainId, ring⟩ request.links ref step)
  constructor
  · intro h
    -- some key signed the content, so there is a group of it
    obtain ⟨id, link, hlink, haccepted, hcontent, hkey⟩ := h.exists_signedBy hn
    obtain ⟨ids, hnodup, hcount, hsigned⟩ := h
    have hkept : KeptWith _ content id := (hgrouped.kept content id).mpr
      ⟨link, (mem_acceptedLinks_iff hring hkeys).mpr ⟨hlink, haccepted⟩, hcontent, hkey⟩
    obtain ⟨g, hg, rfl, _⟩ := hkept
    refine ⟨g, hg, Nat.le_trans hcount (hnodup.length_le_of_subset fun other hother => ?_), rfl⟩
    exact (mem_signers_iff hring hkeys hg).mpr (hsigned other hother)
  · intro h
    obtain ⟨g, hg, hcount, rfl⟩ := h
    refine ⟨g.signers, hgrouped.signers g hg, hcount, fun id hid => ?_⟩
    exact (mem_signers_iff hring hkeys hg).mp hid

end Signers

end Provenance
