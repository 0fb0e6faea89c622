import Provenance.Proofs.Curve.Neutral
import Provenance.Proofs.Verification.Discards

/-!
# When a signature is unusable

A link whose signer may sign is discarded for one of two reasons: its signature is not
valid, or it cannot be checked. The second is not a matter of keys, since all keys of a
run come from a ring:

> `standard_unusable_iff_unsupported`: a signature under a key of a ring is an error iff
> its pair of algorithms has no scheme, and a link is discarded as unusable iff that is so
> and there is nothing else against it before.

The ring of a run is made of the layout's keys, so all in it is usable
(`KeyRing.allUsable_of_ofKeys`), and a signer is found in it (`mem_keys_of_signer?`).
-/

namespace Provenance

open Checks

/-! ## One link -/

section Link

variable {registry : Registry} {policy : LinkPolicy} {step : Step} {link : LinkBlock}
  {key : PublicKey}

theorem mem_keys_of_signer? {s : Signature} (h : policy.signer? step s = some key) :
    key ∈ policy.keys.keys := by
  unfold LinkPolicy.signer? at h
  split at h
  · exact List.mem_of_find?_eq_some h
  · exact nomatch h

/-- A link that gets as far as its signature is unusable iff verifying is an error. -/
theorem discard?_eq_unusable_iff_error (hchain : link.supplyChainId = policy.supplyChainId)
    (hdup : link.link.duplicates = []) (hkey : policy.signer? step link.signature = some key) :
    policy.discard? step link = some .unusableSignature ↔
      ∃ e, link.link.isSignedBy policy.registry link.signature key = .error e := by
  unfold LinkPolicy.discard?
  rw [if_neg (not_not_intro hchain), if_neg (by simp [hdup]), hkey]
  cases hverdict : link.link.isSignedBy policy.registry link.signature key with
  | error e => simp [hverdict]
  | ok valid => cases valid <;> simp [hverdict]

theorem discard?_eq_unusable_iff (hr : policy.registry.Answers)
    (husable : policy.keys.AllUsable policy.registry)
    (hchain : link.supplyChainId = policy.supplyChainId)
    (hdup : link.link.duplicates = []) (hkey : policy.signer? step link.signature = some key) :
    policy.discard? step link = some .unusableSignature ↔
      ¬link.signature.IsSupported policy.registry := by
  have hown := husable key (mem_keys_of_signer? hkey)
  rw [discard?_eq_unusable_iff_error hchain hdup hkey]
  simp only [Link.isSignedBy, hr.isValidText_eq_error_iff hown]
  constructor
  · intro h
    obtain ⟨_, hsupported, _⟩ := h
    exact hsupported
  · exact fun h => ⟨_, h, rfl⟩

end Link

/-! ## The run -/

section Run

variable {registry : Registry} {r : RunRequest} {ring : KeyRing} (hr : Admitted registry r ring)
include hr

/-- A link is unusable iff it gets as far as its signature and the pair of that has no
scheme. -/
theorem Admitted.rejected_unusable_iff (ha : registry.Answers) {step : Step} {link : LinkBlock} :
    Rejected registry r.layout step link .unusableSignature ↔
      Proper r.layout link ∧ (∃ key, MaySign r.layout step link.signature key) ∧
        ¬link.signature.IsSupported registry := by
  have hiff : ∀ key, Proper r.layout link → MaySign r.layout step link.signature key →
      (Rejected registry r.layout step link .unusableSignature ↔
        ¬link.signature.IsSupported registry) := by
    intro key hproper hmay
    obtain ⟨hchain, hdup⟩ := proper_iff.mp hproper
    rw [← discard?_eq_some_iff hr.keys hr.wellFormed.keyIds]
    exact discard?_eq_unusable_iff ha (KeyRing.allUsable_of_ofKeys hr.keys) hchain hdup
      ((signer?_eq_some_iff_maySign hr.keys hr.wellFormed.keyIds).mpr hmay)
  constructor
  · intro h
    cases h with
    | @unusableSignature key e hproper hmay herror =>
      exact ⟨hproper, ⟨key, hmay⟩, (hiff key hproper hmay).mp (.unusableSignature hproper hmay herror)⟩
  · intro h
    obtain ⟨hproper, ⟨key, hmay⟩, hsupported⟩ := h
    exact (hiff key hproper hmay).mpr hsupported

/-- A discard that is told at a step that was looked at is of one of its links. -/
theorem Admitted.mem_discards_iff {before after : List (StepRef × Step)} {ref : StepRef}
    {step : Step} (hl : r.layout.layout.steps = before ++ (ref, step) :: after)
    (hpassed : Passed registry r before) {runId : String} {keyId : KeyId}
    {reason : DiscardReason} :
    .linkDiscarded ref runId keyId reason ∈
        runViolations ⟨registry, r.layout.supplyChainId, ring⟩ r ↔
      ∃ link ∈ r.links, link.link.step = ref ∧ link.link.runId = runId ∧
        link.signature.keyId = keyId ∧ Rejected registry r.layout step link reason := by
  have htold : .linkDiscarded ref runId keyId reason ∈
      runViolations ⟨registry, r.layout.supplyChainId, ring⟩ r ↔
        .linkDiscarded ref runId keyId reason ∈
          (runViolations ⟨registry, r.layout.supplyChainId, ring⟩ r).filter
            (Violation.discardsAt ref) := by
    simp [Violation.discardsAt]
  rw [htold, hr.filter_discardsAt_of_passed hl hpassed, List.mem_filterMap]
  simp only [candidates, List.mem_filter, decide_eq_true_eq, Option.map_eq_some_iff,
    discard?_eq_some_iff hr.keys hr.wellFormed.keyIds, discardViolation, Violation.linkDiscarded.injEq]
  constructor
  · intro h
    obtain ⟨link, ⟨hmem, hstep⟩, reason', hrejected, _, hrun, hid, rfl⟩ := h
    exact ⟨link, hmem, hstep, hrun, hid, hrejected⟩
  · intro h
    obtain ⟨link, hmem, hstep, hrun, hid, hrejected⟩ := h
    exact ⟨link, ⟨hmem, hstep⟩, reason, hrejected, trivial, hrun, hid, rfl⟩

end Run

/-- **A bad key is not a bad signature, and neither is a bad pair of algorithms.** Under
a key of a ring, whatever was offered to the ring and whatever the text of the document,
a signature is an error iff its pair has no scheme, and the error names the pair. Any
other signature is valid or not; and it is valid iff it names the key and its algorithm,
and the scheme of the pair verifies the bytes that it writes. So of the links that get as
far as their signature those are unusable whose pair has no scheme, and these are told of
in a run. -/
theorem standard_unusable_iff_unsupported :
    (∀ keys, ∀ key ∈ (KeyRing.offered .standard keys).keys, ∀ (s : Signature) (text : String),
      (∀ e, isValidText .standard text s key = .error e ↔
        ¬s.IsSupported .standard ∧ e = .unsupportedAlgorithm s.keyAlgorithm s.hashAlgorithm) ∧
      (s.IsSupported .standard → ∃ valid, isValidText .standard text s key = .ok valid) ∧
      (isValidText .standard text s key = .ok true ↔
        s.keyId = key.keyId ∧ s.keyAlgorithm = key.algorithm ∧ ∃ scheme bytes,
          Registry.standard.scheme s.keyAlgorithm s.hashAlgorithm = .ok scheme ∧
            Hex.decode? s.signature = some bytes ∧
            scheme.verify key.key (textBytes text) bytes = .ok true)) ∧
    (∀ request policy, runPolicy .standard request = .ok policy → ∀ step link key,
      link.supplyChainId = policy.supplyChainId → link.link.duplicates = [] →
      policy.signer? step link.signature = some key →
      (policy.discard? step link = some .unusableSignature ↔
        ¬link.signature.IsSupported .standard)) ∧
    ∀ request result, verifyRun .standard request = .ok result →
      ∀ before ref step after, request.layout.layout.steps = before ++ (ref, step) :: after →
      Passed .standard request before → ∀ runId keyId,
        .linkDiscarded ref runId keyId .unusableSignature ∈ result.violations ↔
          ∃ link ∈ request.links, link.link.step = ref ∧ link.link.runId = runId ∧
            link.signature.keyId = keyId ∧ Proper request.layout link ∧
            (∃ key, MaySign request.layout step link.signature key) ∧
            ¬link.signature.IsSupported .standard := by
  have ha := Registry.answers_standard
  refine ⟨fun keys key hkey s text => ?_, fun request policy hpolicy step link key hchain hdup
    hsigner => ?_, fun request result hrun before ref step after hl hpassed runId keyId => ?_⟩
  · have husable := KeyRing.allUsable_offered keys key hkey
    exact ⟨fun e => ha.isValidText_eq_error_iff husable, ha.exists_isValidText husable,
      isValidText_eq_true_iff⟩
  · obtain ⟨ring, hring, _, _, _, rfl⟩ := runPolicy_eq_ok_iff.mp hpolicy
    exact discard?_eq_unusable_iff ha (KeyRing.allUsable_of_ofKeys hring) hchain hdup hsigner
  · obtain ⟨ring, hr, rfl⟩ := exists_admitted hrun
    rw [RunResult.mem_ofViolations_iff, hr.mem_discards_iff hl hpassed]
    simp only [hr.rejected_unusable_iff ha]

/-! ### A run with the neutral key -/

namespace NeutralKey

open Ed25519 (neutralKey neutralSignature)

def key : PublicKey := .ofBytes .ed25519 neutralKey

/-- It signs everything with the same bytes, and may say that they go with any hash. -/
def signature (hash : HashAlgorithm) : Signature :=
  ⟨key.keyId, Hex.encode neutralSignature, .ed25519, hash⟩

def step : Step := ⟨"build", [key.keyId], 1, [], []⟩

def ref : StepRef := ⟨"main", "build"⟩

def layout : Layout := ⟨[key], [key.keyId], [⟨"main", [step]⟩], []⟩

/-- The signature of the link is with a hash that no scheme goes with. -/
def link : LinkBlock := ⟨"chain", ⟨"build", "run", "main", none, [], []⟩, signature .sha256⟩

def request : RunRequest := ⟨⟨"chain", layout, [signature .sha512]⟩, [link], [], []⟩

theorem usable : key.Usable .standard :=
  ⟨rfl, Scheme.ed25519, rfl, Ed25519.checkPublicKey_neutralKey⟩

theorem mem_offered : key ∈ (KeyRing.offered .standard [key]).keys := by
  rw [KeyRing.offered, List.foldl_cons, KeyRing.offer_of_usable usable]
  exact List.mem_cons_self

theorem isValidText_eq (text : String) :
    isValidText .standard text (signature .sha512) key = .ok true :=
  isValidText_eq_true_iff.mpr ⟨rfl, rfl, Scheme.ed25519, neutralSignature, rfl,
    Hex.decode?_encode neutralSignature, Ed25519.verify_neutralKey _⟩

theorem wellFormed : layout.WellFormed where
  segments_ne_nil := by simp [layout]
  keyIds := by simp [layout, Layout.keyIds]
  names := by simp [layout]
  segments := by
    have hstep : layout.StepFits step := by
      refine ⟨by decide, ?_, ?_, by simp [step]⟩
      · simp [step, distinctTexts, sortByText, List.eraseDups_cons]
      · simp [step, layout, Layout.keyIds]
    intro s hs
    obtain rfl := List.mem_singleton.mp hs
    refine ⟨by simp, by simp, fun t ht => ?_⟩
    rw [List.mem_singleton.mp ht]
    exact hstep
  endRules := by simp [layout]
  signers := by simp [layout, Layout.keyIds]

theorem goodSignature : GoodSignature .standard layout (signature .sha512) :=
  ⟨by simp [layout, signature], key, by simp [Layout.listedKey?, layout, signature],
    isValidText_eq _⟩

theorem exists_verifyRun : ∃ result, verifyRun .standard request = .ok result := by
  refine exists_verifyRun_iff.mpr ⟨?_, ⟨by simp [request], ?_⟩,
    validateLayout_eq_ok_iff.mpr wellFormed, rfl⟩
  · intro k hk
    rw [List.mem_singleton.mp hk]
    exact usable
  · intro s hs
    rw [List.mem_singleton.mp hs]
    exact goodSignature

theorem not_isSupported : ¬(signature .sha256).IsSupported .standard := by decide

theorem proper : Proper request.layout link := ⟨rfl, List.nodup_nil, List.nodup_nil⟩

theorem maySign : MaySign request.layout step link.signature key :=
  ⟨by simp [link, step, signature], by simp [request, layout], rfl⟩

end NeutralKey

/-- With a hash that has a scheme the key's signature is valid, with another one it is an
error that names both, and a link that carries it is told of as unusable. -/
theorem neutralKey_unusable :
    isValidText .standard "" (NeutralKey.signature .sha256) NeutralKey.key =
        .error (.unsupportedAlgorithm .ed25519 .sha256) ∧
      isValidText .standard "" (NeutralKey.signature .sha512) NeutralKey.key = .ok true ∧
      ∃ policy result, runPolicy .standard NeutralKey.request = .ok policy ∧
        policy.discard? NeutralKey.step NeutralKey.link = some .unusableSignature ∧
        verifyRun .standard NeutralKey.request = .ok result ∧
        .linkDiscarded NeutralKey.ref "run" NeutralKey.key.keyId .unusableSignature ∈
          result.violations := by
  obtain ⟨hring, hpolicy, hrun⟩ := standard_unusable_iff_unsupported
  obtain ⟨herror, _, _⟩ := hring [NeutralKey.key] _ NeutralKey.mem_offered
    (NeutralKey.signature .sha256) ""
  obtain ⟨_, _, hvalid⟩ := hring [NeutralKey.key] _ NeutralKey.mem_offered
    (NeutralKey.signature .sha512) ""
  obtain ⟨result, hresult⟩ := NeutralKey.exists_verifyRun
  obtain ⟨ring, hr, _⟩ := exists_admitted hresult
  have hsigner := (signer?_eq_some_iff_maySign hr.keys hr.wellFormed.keyIds).mpr NeutralKey.maySign
  have hpassed : Passed .standard NeutralKey.request [] := ⟨fun _ => .empty, selectedAlong_nil⟩
  refine ⟨(herror _).mpr ⟨NeutralKey.not_isSupported, rfl⟩, ?_, _, result, hr.policy, ?_, hresult, ?_⟩
  · exact hvalid.mpr ⟨rfl, rfl, Scheme.ed25519, Ed25519.neutralSignature, rfl,
      Hex.decode?_encode _, Ed25519.verify_neutralKey _⟩
  · exact (hpolicy _ _ hr.policy _ _ _ rfl rfl hsigner).mpr NeutralKey.not_isSupported
  · exact (hrun _ _ hresult [] NeutralKey.ref NeutralKey.step [] rfl hpassed _ _).mpr
      ⟨NeutralKey.link, List.mem_cons_self, rfl, rfl, rfl, NeutralKey.proper,
        ⟨_, NeutralKey.maySign⟩, NeutralKey.not_isSupported⟩

end Provenance
