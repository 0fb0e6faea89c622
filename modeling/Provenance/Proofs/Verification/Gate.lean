import Provenance.Proofs.Key.Ring
import Provenance.Proofs.Signature.Signing
import Provenance.Proofs.Text.Utf8
import Provenance.Verification.Run

/-!
# What has to be right before a run is evaluated

Four groups of checks stand in front of a run: the keys of the layout, its
signatures, its form, and the approvals. This file says of each group what it
demands (`KeysUsable`, `ProperlySigned`, and the two validations themselves) and
which error it gives:

> `runPolicy_eq_ok_iff`: all four groups pass, and nothing else is asked;
>
> `runPolicy_eq_error_iff`: the error is that of the first group that does not
> pass (`GateError`).

`verifyRun_gate` puts this together. The links of a request and its expected
products occur in none of the four groups, so they decide neither whether there
is an error nor which.
-/

namespace Provenance

/-! ## The four groups -/

/-- Every key of the layout is usable. -/
def KeysUsable (registry : Registry) (l : Layout) : Prop := ∀ k ∈ l.keys, k.Usable registry

/-- The key that a layout lists under an id; of several the last. -/
def Layout.listedKey? (l : Layout) (id : KeyId) : Option PublicKey :=
  l.keys.findRev? fun k => k.keyId = id

theorem Layout.listedKey?_eq_some_iff {l : Layout} (h : l.keyIds.Nodup) {id : KeyId}
    {key : PublicKey} : l.listedKey? id = some key ↔ key ∈ l.keys ∧ key.keyId = id :=
  findRev?_eq_some_iff_of_nodup h

/-- The signature is by a key that may sign the layout and is listed in it, and it
is a valid signature of the layout under that key. -/
def GoodSignature (registry : Registry) (l : Layout) (s : Signature) : Prop :=
  s.keyId ∈ l.authorizedKeyIds ∧
    ∃ key, l.listedKey? s.keyId = some key ∧ l.isSignedBy registry s key = .ok true

/-- The layout is signed at all, and every signature is good. -/
def ProperlySigned (registry : Registry) (b : LayoutBlock) : Prop :=
  b.signatures ≠ [] ∧ ∀ s ∈ b.signatures, GoodSignature registry b.layout s

/-- What a bad signature is refused for. -/
inductive SignatureError (registry : Registry) (l : Layout) (s : Signature) : VerifyError → Prop
  | notAuthorized : s.keyId ∉ l.authorizedKeyIds →
      SignatureError registry l s (.layoutSignature (.notAuthorized s.keyId))
  | unknownKey : s.keyId ∈ l.authorizedKeyIds → l.listedKey? s.keyId = none →
      SignatureError registry l s (.layoutSignature (.unknownKey s.keyId))
  | unusable {key cause} : s.keyId ∈ l.authorizedKeyIds → l.listedKey? s.keyId = some key →
      l.isSignedBy registry s key = .error cause → SignatureError registry l s (.crypto cause)
  | mismatch {key} : s.keyId ∈ l.authorizedKeyIds → l.listedKey? s.keyId = some key →
      l.isSignedBy registry s key = .ok false →
      SignatureError registry l s (.layoutSignature (.mismatch s.keyId))

/-- The error of the first group that does not pass, and in a group that of its
first entry at fault. -/
inductive GateError (registry : Registry) (request : RunRequest) : VerifyError → Prop
  | key {cause} :
      Checks.FirstError (KeyRing.check registry) request.layout.layout.keys cause →
      GateError registry request (.crypto cause)
  | unsigned : KeysUsable registry request.layout.layout → request.layout.signatures = [] →
      GateError registry request (.layoutSignature .unsigned)
  | signature {before s after e} : KeysUsable registry request.layout.layout →
      request.layout.signatures = before ++ s :: after →
      (∀ s' ∈ before, GoodSignature registry request.layout.layout s') →
      SignatureError registry request.layout.layout s e → GateError registry request e
  | layout {e} : KeysUsable registry request.layout.layout →
      ProperlySigned registry request.layout → validateLayout request.layout.layout = .error e →
      GateError registry request e
  | approval {e} : KeysUsable registry request.layout.layout →
      ProperlySigned registry request.layout → validateLayout request.layout.layout = .ok () →
      validateApprovals request.layout.layout request.approvals = .error e →
      GateError registry request e

/-! ## Signatures -/

section Signatures

variable {registry : Registry} {l : Layout} {ring : KeyRing}

theorem checkLayoutSignature_eq_ok_iff (h : KeyRing.ofKeys registry l.keys = .ok ring)
    (s : Signature) :
    checkLayoutSignature registry ring l s = .ok () ↔ GoodSignature registry l s := by
  unfold checkLayoutSignature GoodSignature Layout.listedKey?
  rw [KeyRing.get?_ofKeys h]
  by_cases ha : s.keyId ∈ l.authorizedKeyIds
  · rw [if_pos ha]
    -- a signer that may sign is looked up, and then the signature is looked at
    cases hk : l.keys.findRev? fun k => k.keyId = s.keyId with
    | none => simp
    | some key =>
      cases hv : l.isSignedBy registry s key with
      | error cause => simp [hv, bind, Except.bind]
      | ok valid => cases valid <;> simp [hv, ha, bind, Except.bind]
  · rw [if_neg ha]
    simp [ha]

theorem checkLayoutSignature_eq_error_iff (h : KeyRing.ofKeys registry l.keys = .ok ring)
    (s : Signature) (e : VerifyError) :
    checkLayoutSignature registry ring l s = .error e ↔ SignatureError registry l s e := by
  unfold checkLayoutSignature
  have hget := KeyRing.get?_ofKeys h s.keyId
  constructor
  · intro he
    by_cases ha : s.keyId ∈ l.authorizedKeyIds
    · rw [if_pos ha] at he
      cases hk : ring.get? s.keyId with
      | none =>
        rw [hk] at he hget
        injection he with he
        exact he ▸ .unknownKey ha hget.symm
      | some key =>
        rw [hk] at he hget
        cases hv : l.isSignedBy registry s key with
        | error cause =>
          simp only [hv] at he
          injection he with he
          exact he ▸ .unusable ha hget.symm hv
        | ok valid =>
          simp only [hv] at he
          cases valid with
          | true => exact nomatch he
          | false =>
            injection he with he
            exact he ▸ .mismatch ha hget.symm hv
    · rw [if_neg ha] at he
      injection he with he
      exact he ▸ .notAuthorized ha
  · intro he
    cases he with
    | notAuthorized ha => rw [if_neg ha]
    | unknownKey ha hk => rw [if_pos ha, hget, show l.keys.findRev? _ = none from hk]
    | unusable ha hk hv =>
      rw [if_pos ha, hget, show l.keys.findRev? _ = some _ from hk]
      simp [hv, bind, Except.bind]
    | mismatch ha hk hv =>
      rw [if_pos ha, hget, show l.keys.findRev? _ = some _ from hk]
      simp [hv, bind, Except.bind]

theorem checkLayoutSignatures_eq_each :
    ∀ signatures, checkLayoutSignatures registry ring l signatures =
      Checks.each (checkLayoutSignature registry ring l) signatures
  | [] => rfl
  | s :: rest => by
    unfold checkLayoutSignatures Checks.each
    rw [checkLayoutSignatures_eq_each rest]

end Signatures

variable {registry : Registry}

theorem verifyLayoutSignatures_eq_ok_iff {b : LayoutBlock} {ring : KeyRing}
    (h : KeyRing.ofKeys registry b.layout.keys = .ok ring) :
    verifyLayoutSignatures registry ring b = .ok () ↔ ProperlySigned registry b := by
  unfold verifyLayoutSignatures ProperlySigned
  rw [checkLayoutSignatures_eq_each]
  cases hs : b.signatures with
  | nil => simp
  | cons s rest =>
    simp only [List.isEmpty_cons, Bool.false_eq_true, if_false, Checks.each_eq_ok_iff,
      checkLayoutSignature_eq_ok_iff h, ne_eq, reduceCtorEq, not_false_eq_true, true_and]

theorem verifyLayoutSignatures_eq_error_iff {b : LayoutBlock} {ring : KeyRing}
    (h : KeyRing.ofKeys registry b.layout.keys = .ok ring) (e : VerifyError) :
    verifyLayoutSignatures registry ring b = .error e ↔
      (b.signatures = [] ∧ e = .layoutSignature .unsigned) ∨
      ∃ before s after, b.signatures = before ++ s :: after ∧
        (∀ s' ∈ before, GoodSignature registry b.layout s') ∧
        SignatureError registry b.layout s e := by
  unfold verifyLayoutSignatures
  rw [checkLayoutSignatures_eq_each]
  cases hs : b.signatures with
  | nil => simp [eq_comm]
  | cons s rest =>
    simp only [List.isEmpty_cons, Bool.false_eq_true, if_false, Checks.each_eq_error_iff,
      Checks.FirstError, checkLayoutSignature_eq_ok_iff h, checkLayoutSignature_eq_error_iff h,
      reduceCtorEq, false_and, false_or]

/-! ## The gate -/

theorem exists_ofKeys_iff {keys : List PublicKey} :
    (∃ ring, KeyRing.ofKeys registry keys = .ok ring) ↔ ∀ k ∈ keys, k.Usable registry := by
  constructor
  · intro h
    obtain ⟨ring, h⟩ := h
    exact (KeyRing.ofKeys_eq_ok_iff.mp h).1
  · intro h
    exact ⟨_, KeyRing.ofKeys_eq_ok_iff.mpr ⟨h, rfl⟩⟩

/-- The policy of an admitted run is the one with the ring of the layout's keys. -/
theorem runPolicy_eq_ok_iff {request : RunRequest} {policy : LinkPolicy} :
    runPolicy registry request = .ok policy ↔
      ∃ ring, KeyRing.ofKeys registry request.layout.layout.keys = .ok ring ∧
        ProperlySigned registry request.layout ∧
        validateLayout request.layout.layout = .ok () ∧
        validateApprovals request.layout.layout request.approvals = .ok () ∧
        policy = ⟨registry, request.layout.supplyChainId, ring⟩ := by
  unfold runPolicy
  simp only [Checks.bind_eq_ok_iff, Checks.mapError_eq_ok_iff]
  constructor
  · intro h
    obtain ⟨ring, hring, ⟨⟩, hsigned, ⟨⟩, hlayout, ⟨⟩, happrovals, hp⟩ := h
    injection hp with hp
    exact ⟨ring, hring, (verifyLayoutSignatures_eq_ok_iff hring).mp hsigned, hlayout,
      happrovals, hp.symm⟩
  · intro h
    obtain ⟨ring, hring, hsigned, hlayout, happrovals, rfl⟩ := h
    exact ⟨ring, hring, (), (verifyLayoutSignatures_eq_ok_iff hring).mpr hsigned, (), hlayout, (),
      happrovals, rfl⟩

theorem runPolicy_eq_error_iff {request : RunRequest} {e : VerifyError} :
    runPolicy registry request = .error e ↔ GateError registry request e := by
  unfold runPolicy
  simp only [Checks.bind_eq_error_iff, Checks.mapError_eq_error_iff, Checks.mapError_eq_ok_iff]
  constructor
  · intro h
    rcases h with ⟨cause, hkeys, rfl⟩ | ⟨ring, hring, hrest⟩
    · exact .key (KeyRing.ofKeys_eq_error_iff.mp hkeys)
    · have husable : KeysUsable registry request.layout.layout :=
        exists_ofKeys_iff.mp ⟨ring, hring⟩
      rcases hrest with hsig | ⟨⟨⟩, hsig, hrest⟩
      · rcases (verifyLayoutSignatures_eq_error_iff hring e).mp hsig with
          ⟨hnone, rfl⟩ | ⟨before, s, after, hl, hbefore, hs⟩
        · exact .unsigned husable hnone
        · exact .signature husable hl hbefore hs
      · have hsigned := (verifyLayoutSignatures_eq_ok_iff hring).mp hsig
        rcases hrest with hlayout | ⟨⟨⟩, hlayout, happrovals | ⟨_, _, h⟩⟩
        · exact .layout husable hsigned hlayout
        · exact .approval husable hsigned hlayout happrovals
        · exact nomatch h
  · intro he
    -- every group is reached through those in front of it
    have hring : KeysUsable registry request.layout.layout →
        ∃ ring, KeyRing.ofKeys registry request.layout.layout.keys = .ok ring :=
      exists_ofKeys_iff.mpr
    cases he with
    | key hkeys => exact .inl ⟨_, KeyRing.ofKeys_eq_error_iff.mpr hkeys, rfl⟩
    | unsigned husable hnone =>
      obtain ⟨ring, hring⟩ := hring husable
      have hsig := (verifyLayoutSignatures_eq_error_iff hring _).mpr (.inl ⟨hnone, rfl⟩)
      exact .inr ⟨ring, hring, .inl hsig⟩
    | signature husable hl hbefore hs =>
      obtain ⟨ring, hring⟩ := hring husable
      have hsig := (verifyLayoutSignatures_eq_error_iff hring _).mpr
        (.inr ⟨_, _, _, hl, hbefore, hs⟩)
      exact .inr ⟨ring, hring, .inl hsig⟩
    | layout husable hsigned hlayout =>
      obtain ⟨ring, hring⟩ := hring husable
      have hsig := (verifyLayoutSignatures_eq_ok_iff hring).mpr hsigned
      exact .inr ⟨ring, hring, .inr ⟨(), hsig, .inl hlayout⟩⟩
    | approval husable hsigned hlayout happrovals =>
      obtain ⟨ring, hring⟩ := hring husable
      have hsig := (verifyLayoutSignatures_eq_ok_iff hring).mpr hsigned
      exact .inr ⟨ring, hring, .inr ⟨(), hsig, .inr ⟨(), hlayout, .inl happrovals⟩⟩⟩

theorem verifyRun_eq_ok_iff {request : RunRequest} {result : RunResult} :
    verifyRun registry request = .ok result ↔
      ∃ policy, runPolicy registry request = .ok policy ∧
        result = .ofViolations (runViolations policy request) := by
  unfold verifyRun
  rw [Checks.bind_eq_ok_iff]
  constructor
  · intro h
    obtain ⟨policy, hp, hr⟩ := h
    injection hr with hr
    exact ⟨policy, hp, hr.symm⟩
  · intro h
    obtain ⟨policy, hp, rfl⟩ := h
    exact ⟨policy, hp, rfl⟩

theorem verifyRun_eq_error_iff {request : RunRequest} {e : VerifyError} :
    verifyRun registry request = .error e ↔ GateError registry request e := by
  unfold verifyRun
  rw [Checks.bind_eq_error_iff, runPolicy_eq_error_iff]
  constructor
  · intro h
    rcases h with h | ⟨_, _, h⟩
    · exact h
    · exact nomatch h
  · exact .inl

theorem exists_verifyRun_iff {request : RunRequest} :
    (∃ result, verifyRun registry request = .ok result) ↔
      KeysUsable registry request.layout.layout ∧ ProperlySigned registry request.layout ∧
        validateLayout request.layout.layout = .ok () ∧
        validateApprovals request.layout.layout request.approvals = .ok () := by
  simp only [verifyRun_eq_ok_iff, runPolicy_eq_ok_iff]
  constructor
  · intro h
    obtain ⟨_, _, ⟨ring, hring, hsigned, hlayout, happrovals, _⟩, _⟩ := h
    exact ⟨exists_ofKeys_iff.mp ⟨ring, hring⟩, hsigned, hlayout, happrovals⟩
  · intro h
    obtain ⟨husable, hsigned, hlayout, happrovals⟩ := h
    obtain ⟨ring, hring⟩ := exists_ofKeys_iff.mpr husable
    exact ⟨_, _, ⟨ring, hring, hsigned, hlayout, happrovals, rfl⟩, rfl⟩

/-! ## Which group an error comes from -/

theorem validateLayout_eq_error {l : Layout} {e : VerifyError} (h : validateLayout l = .error e) :
    ∃ fault, e = .malformedLayout fault := by
  obtain ⟨fault, _, rfl⟩ := Checks.mapError_eq_error_iff.mp h
  exact ⟨fault, rfl⟩

theorem validateApprovals_eq_error {l : Layout} {approvals : List Approval} {e : VerifyError}
    (h : validateApprovals l approvals = .error e) : ∃ fault, e = .approval fault := by
  obtain ⟨fault, _, rfl⟩ := Checks.mapError_eq_error_iff.mp h
  exact ⟨fault, rfl⟩

theorem SignatureError.isSecurity {l : Layout} {s : Signature} {e : VerifyError}
    (h : SignatureError registry l s e) : e.isSecurity = true := by
  cases h <;> rfl

/-- An error is a matter of security exactly when the keys or the signatures are
at fault. -/
theorem GateError.isSecurity_iff {request : RunRequest} {e : VerifyError}
    (h : GateError registry request e) :
    e.isSecurity = true ↔ ¬(KeysUsable registry request.layout.layout ∧
      ProperlySigned registry request.layout) := by
  cases h with
  | key hkeys =>
    refine ⟨fun _ hboth => ?_, fun _ => rfl⟩
    refine Checks.exists_firstError_iff.mp ⟨_, hkeys⟩ fun k hk => ?_
    exact KeyRing.check_eq_ok_iff.mpr (hboth.1 k hk)
  | unsigned _ hnone => exact ⟨fun _ hboth => hboth.2.1 hnone, fun _ => rfl⟩
  | signature husable hl hbefore hs =>
    refine ⟨fun _ hboth => ?_, fun _ => hs.isSecurity⟩
    -- a layout with a bad signature is not properly signed
    obtain ⟨ring, hring⟩ := exists_ofKeys_iff.mpr husable
    have hok := (verifyLayoutSignatures_eq_ok_iff hring).mpr hboth.2
    have herr := (verifyLayoutSignatures_eq_error_iff hring _).mpr (.inr ⟨_, _, _, hl, hbefore, hs⟩)
    rw [hok] at herr
    exact nomatch herr
  | layout husable hsigned hlayout =>
    obtain ⟨fault, rfl⟩ := validateLayout_eq_error hlayout
    exact ⟨fun h => absurd h (by simp [VerifyError.isSecurity]), fun h => absurd ⟨husable, hsigned⟩ h⟩
  | approval husable hsigned _ happrovals =>
    obtain ⟨fault, rfl⟩ := validateApprovals_eq_error happrovals
    exact ⟨fun h => absurd h (by simp [VerifyError.isSecurity]), fun h => absurd ⟨husable, hsigned⟩ h⟩

/-! ## The whole gate -/

/-- The links of a request and what it expects decide neither whether there is an
error nor which. -/
theorem verifyRun_error_congr (request : RunRequest) (links : List LinkBlock)
    (expected : List Artifact) (e : VerifyError) :
    verifyRun registry { request with links := links, expected := expected } = .error e ↔
      verifyRun registry request = .error e := by
  unfold verifyRun
  -- all that can fail is the policy, and that reads neither
  rw [Checks.bind_eq_error_iff, Checks.bind_eq_error_iff]
  show runPolicy registry request = .error e ∨ _ ↔ _
  constructor
  · intro h
    rcases h with h | ⟨_, _, h⟩
    · exact .inl h
    · exact nomatch h
  · intro h
    rcases h with h | ⟨_, _, h⟩
    · exact .inl h
    · exact nomatch h

theorem exists_verifyRun_or (registry : Registry) (request : RunRequest) :
    (∃ result, verifyRun registry request = .ok result) ∨
      ∃ e, verifyRun registry request = .error e := by
  cases h : verifyRun registry request with
  | ok result => exact .inl ⟨result, rfl⟩
  | error e => exact .inr ⟨e, rfl⟩

/-- A run is evaluated exactly when keys, signatures, layout and approvals pass;
otherwise its error is that of the first group that does not, which is a matter of
security for the first two groups and for no other. Links and expected products
have no say in either. -/
theorem verifyRun_gate (registry : Registry) (request : RunRequest) :
    ((∃ result, verifyRun registry request = .ok result) ↔
      KeysUsable registry request.layout.layout ∧ ProperlySigned registry request.layout ∧
        validateLayout request.layout.layout = .ok () ∧
        validateApprovals request.layout.layout request.approvals = .ok ()) ∧
    (∀ e, verifyRun registry request = .error e ↔ GateError registry request e) ∧
    (¬(KeysUsable registry request.layout.layout ∧ ProperlySigned registry request.layout) →
      ∃ e, verifyRun registry request = .error e ∧ e.isSecurity = true) ∧
    (∀ fault, verifyRun registry request = .error (.malformedLayout fault) →
      KeysUsable registry request.layout.layout ∧ ProperlySigned registry request.layout) ∧
    (∀ fault, verifyRun registry request = .error (.approval fault) →
      KeysUsable registry request.layout.layout ∧ ProperlySigned registry request.layout ∧
        validateLayout request.layout.layout = .ok ()) ∧
    ∀ links expected,
      ((∃ result, verifyRun registry { request with links := links, expected := expected } =
          .ok result) ↔ ∃ result, verifyRun registry request = .ok result) ∧
      ∀ e, verifyRun registry { request with links := links, expected := expected } = .error e ↔
        verifyRun registry request = .error e := by
  refine ⟨exists_verifyRun_iff, fun _ => verifyRun_eq_error_iff, fun hbad => ?_, fun fault he => ?_,
    fun fault he => ?_, fun links expected => ⟨?_, verifyRun_error_congr request links expected⟩⟩
  · rcases exists_verifyRun_or registry request with hok | ⟨e, he⟩
    · obtain ⟨hkeys, hsigned, _⟩ := exists_verifyRun_iff.mp hok
      exact absurd ⟨hkeys, hsigned⟩ hbad
    · exact ⟨e, he, (verifyRun_eq_error_iff.mp he).isSecurity_iff.mpr hbad⟩
  · have hgate := verifyRun_eq_error_iff.mp he
    by_contra hbad
    exact absurd (hgate.isSecurity_iff.mpr hbad) (by simp [VerifyError.isSecurity])
  · have hgate := verifyRun_eq_error_iff.mp he
    -- only the approvals complain about approvals
    cases hgate with
    | signature _ _ _ hs => exact absurd hs.isSecurity (by simp [VerifyError.isSecurity])
    | layout _ _ hlayout => exact absurd (validateLayout_eq_error hlayout) (by simp)
    | approval hkeys hsigned hlayout _ => exact ⟨hkeys, hsigned, hlayout⟩
  · rw [exists_verifyRun_iff, exists_verifyRun_iff]

/-! ## A layout edited after it was signed

The only key signs a layout whose step asks for one signature. Then the step is made to ask for
five, which one key cannot give. -/

namespace Edited

def key : PublicKey := .ofBytes .ed25519 [1]

def step (threshold : SignatureCount) : Step :=
  ⟨"build", [key.keyId], threshold, [], [.create "app.jar"]⟩

def layout (threshold : SignatureCount) : Layout :=
  ⟨[key], [key.keyId], [⟨"ci", [step threshold]⟩], []⟩

/-- The signature of the layout as it was. -/
def signature : Signature :=
  ⟨key.keyId, Hex.encode (key.key ++ textBytes (layout 1).canonicalText), .ed25519, .sha512⟩

def request (threshold : SignatureCount) : RunRequest :=
  ⟨⟨"chain", layout threshold, [signature]⟩, [], [], []⟩

theorem keysUsable (threshold : SignatureCount) :
    KeysUsable Transparent.registry (layout threshold) := by
  intro k hk
  rw [List.mem_singleton.mp hk]
  exact ⟨rfl, Transparent.scheme, rfl, rfl⟩

theorem listedKey?_eq (threshold : SignatureCount) :
    (layout threshold).listedKey? signature.keyId = some key := by
  have hnodup : (layout threshold).keyIds.Nodup := List.nodup_singleton key.keyId
  exact (Layout.listedKey?_eq_some_iff hnodup).mpr ⟨List.mem_singleton_self _, rfl⟩

theorem validate_signed : validateLayout (layout 1) = .ok () := by decide +kernel

theorem validate_edited : validateLayout (layout 5) =
    .error (.malformedLayout (.threshold ⟨"ci", "build"⟩ 5 1)) := by decide +kernel

/-- The scheme compares with the message that was signed. -/
theorem isValidText_eq (text : String) : isValidText Transparent.registry text signature key =
    .ok (decide (key.key ++ textBytes (layout 1).canonicalText = key.key ++ textBytes text)) := by
  have hpreferred : Transparent.registry.preferred key.algorithm = .ok Transparent.scheme := rfl
  exact isValidText_encode hpreferred text (key.key ++ textBytes (layout 1).canonicalText)

theorem isSignedBy_signed : (layout 1).isSignedBy Transparent.registry signature key = .ok true := by
  rw [Layout.isSignedBy, isValidText_eq, decide_eq_true rfl]

theorem canonicalText_ne : (layout 1).canonicalText ≠ (layout 5).canonicalText := by
  intro h
  have hsimilar := (validateLayout_eq_ok_iff.mp validate_signed).canonicalText_eq_iff.mp h
  obtain ⟨s, hs, hsegment⟩ := hsimilar.segments.exists_right (List.mem_singleton_self _)
  obtain rfl := List.mem_singleton.mp hs
  obtain ⟨t, ht, hstep⟩ := hsegment.steps.exists_right (List.mem_singleton_self _)
  obtain rfl := List.mem_singleton.mp ht
  exact absurd hstep.threshold (by decide)

theorem isSignedBy_edited :
    (layout 5).isSignedBy Transparent.registry signature key = .ok false := by
  rw [Layout.isSignedBy, isValidText_eq, decide_eq_false]
  exact fun h => canonicalText_ne (textBytes_inj.mp (List.append_cancel_left h))

end Edited

/-- The layout as it was signed is evaluated. Edited, it is malformed, but what it is refused for is
its signature. -/
theorem edited_isSecurity :
    (∃ result, verifyRun Transparent.registry (Edited.request 1) = .ok result) ∧
    validateLayout (Edited.layout 5) =
      .error (.malformedLayout (.threshold ⟨"ci", "build"⟩ 5 1)) ∧
    verifyRun Transparent.registry (Edited.request 5) =
      .error (.layoutSignature (.mismatch Edited.key.keyId)) ∧
    (VerifyError.layoutSignature (.mismatch Edited.key.keyId)).isSecurity = true := by
  obtain ⟨hsigned, _⟩ := verifyRun_gate Transparent.registry (Edited.request 1)
  obtain ⟨_, hedited, _⟩ := verifyRun_gate Transparent.registry (Edited.request 5)
  refine ⟨hsigned.mpr ⟨Edited.keysUsable 1, ⟨List.cons_ne_nil _ _, fun s hs => ?_⟩,
    Edited.validate_signed, rfl⟩, Edited.validate_edited, (hedited _).mpr ?_, rfl⟩
  · rw [List.mem_singleton.mp hs]
    exact ⟨List.mem_singleton_self _, Edited.key, Edited.listedKey?_eq 1, Edited.isSignedBy_signed⟩
  · have hsignatures : (Edited.request 5).layout.signatures = [] ++ Edited.signature :: [] := rfl
    exact .signature (Edited.keysUsable 5) hsignatures (List.forall_mem_nil _)
      (.mismatch (List.mem_singleton_self _) (Edited.listedKey?_eq 5) Edited.isSignedBy_edited)

end Provenance
