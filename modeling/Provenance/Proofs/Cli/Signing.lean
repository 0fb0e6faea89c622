import Provenance.Proofs.Cli.Program
import Provenance.Proofs.Signature.Signing
import Provenance.Proofs.Stored.Survival

/-!
# Signing is all or nothing

A signing command reads a key and a document, signs, and then writes one file. Whatever can
fail before that fails before anything is changed, also when the file to write is one of
those that were read:

> `signing_all_or_nothing`: a signing command ends well iff there are a key that is opened, a
> document that can be signed and a file that can be written. Otherwise it leaves all files as
> they are; when it ends well only the file to write has changed, and what is read from it
> is the document that was given, under its supply chain and with a signature of the key.

Which bytes are the halves of a key is left open (`halves`). It is assumed that with them a
scheme verifies what it signs (`VerifyTheirOwn`).
-/

namespace Provenance

open Checks

namespace Cli

variable {registry : Registry} {t t' : FileTree} {environment : List (String × String)}
  {entropy : KeyEntropy} {now : Instant} {args : List String} {i : Invocation} {s : Surroundings}
  {settings : Settings} {keyPath linkPath layoutPath out variable_ : String}

/-! ## What there is to sign with -/

/-- The file holds a key, which the passphrase in the variable opens, and there is a scheme for
its algorithm. -/
structure KeyOpened (registry : Registry) (t : FileTree) (environment : List (String × String))
    (keyPath variable_ : String) (key : EncryptedPrivateKey) (scheme : Scheme)
    (container : Bytes) : Prop where
  held : t.HoldsUnbounded (Json.document? EncryptedPrivateKey.ofJson) keyPath key
  decrypted : ∃ passphrase, environment.lookup variable_ = some passphrase ∧ passphrase ≠ "" ∧
    key.decrypt passphrase = .ok container
  preferred : registry.preferred key.algorithm = .ok scheme

/-- The text can be signed: there is a key that is opened, and its scheme signs the text. -/
def CanSign (registry : Registry) (t : FileTree) (environment : List (String × String))
    (keyPath variable_ text : String) : Prop :=
  ∃ key scheme container bytes,
    KeyOpened registry t environment keyPath variable_ key scheme container ∧
    scheme.sign container (textBytes text) = .ok bytes

theorem canSign_iff (hs : s.files = t.view) {text : String} :
    CanSign registry t s.environment keyPath variable_ text ↔
      ∃ key passphrase signature, s.key keyPath = .ok key ∧
        s.passphrase variable_ = .ok passphrase ∧
        signText registry key passphrase text = .ok signature := by
  simp only [Surroundings.key_eq_ok_iff hs, Surroundings.passphrase_eq_ok_iff, signText_eq_ok_iff]
  constructor
  · intro h
    obtain ⟨key, scheme, container, bytes, hopened, hsign⟩ := h
    obtain ⟨passphrase, hvariable, hne, hdecrypt⟩ := hopened.decrypted
    exact ⟨key, passphrase, _, hopened.held, ⟨hvariable, hne⟩, scheme, container, bytes,
      hopened.preferred, hdecrypt, hsign, rfl⟩
  · intro h
    obtain ⟨key, passphrase, _, hheld, ⟨hvariable, hne⟩, scheme, container, bytes, hpreferred,
      hdecrypt, hsign, _⟩ := h
    exact ⟨key, scheme, container, bytes, ⟨hheld, ⟨passphrase, hvariable, hne, hdecrypt⟩,
      hpreferred⟩, hsign⟩

/-! ## What a signing command does -/

theorem signLink_eq_ok_iff {supplyChain : String} {p : Plan} :
    signLink s registry settings keyPath linkPath supplyChain out variable_ = .ok p ↔
      ∃ key link passphrase signature, s.key keyPath = .ok key ∧
        s.input settings.verification.maxDocumentBytes Link.ofJson linkPath = .ok link ∧
        link.duplicates = [] ∧ s.passphrase variable_ = .ok passphrase ∧
        signText registry key passphrase link.canonicalText = .ok signature ∧
        p = writeBlock out (LinkBlock.toJson ⟨supplyChain, link, signature⟩) := by
  unfold signLink
  simp only [bind_eq_ok_iff, guard_eq_ok_iff, mapError_eq_ok_iff]
  constructor
  · intro h
    obtain ⟨key, hkey, link, hlink, hnew, passphrase, hpassphrase, signature, hsign, hp⟩ := h
    refine ⟨key, link, passphrase, signature, hkey, hlink, ?_, hpassphrase, hsign,
      (Except.ok.inj hp).symm⟩
    simpa using hnew
  · intro h
    obtain ⟨key, link, passphrase, signature, hkey, hlink, hnew, hpassphrase, hsign, rfl⟩ := h
    exact ⟨key, hkey, link, hlink, by simp [hnew], passphrase, hpassphrase, signature, hsign, rfl⟩

/-- The layout that is signed: it was signed before and has the supply chain that is given, if
one is, or it is a bare one for that supply chain. -/
structure GivenLayout (value : Json) (supplyChain : Option String) (b : LayoutBlock) : Prop where
  signed : (value.get? "layout").isSome = true → LayoutBlock.ofJson value = .ok b
  bare : (value.get? "layout").isSome = false → Layout.ofJson value = .ok b.layout ∧
    supplyChain = some b.supplyChainId ∧ b.signatures = []
  sameChain : ∀ id, supplyChain = some id → id = b.supplyChainId

theorem checkSupplyChain_eq_ok_iff {b : LayoutBlock} {supplyChain : Option String} :
    checkSupplyChain b supplyChain = .ok () ↔
      ∀ id, supplyChain = some id → id = b.supplyChainId := by
  unfold checkSupplyChain
  cases supplyChain with
  | none => simp
  | some id => by_cases hid : id = b.supplyChainId <;> simp [hid]

theorem layoutToSign_eq_ok_iff {value : Json} {supplyChain : Option String} {b : LayoutBlock} :
    layoutToSign value supplyChain = .ok b ↔
      ((value.get? "layout").isSome = true → LayoutBlock.ofJson value = .ok b) ∧
        ((value.get? "layout").isSome = false → Layout.ofJson value = .ok b.layout ∧
          supplyChain = some b.supplyChainId ∧ b.signatures = []) := by
  unfold layoutToSign
  cases (value.get? "layout").isSome with
  | true => simp [mapError_eq_ok_iff]
  | false =>
    simp only [Bool.false_eq_true, if_false, bind_eq_ok_iff, mapError_eq_ok_iff, false_implies,
      true_implies, true_and]
    constructor
    · intro h
      obtain ⟨layout, hlayout, h⟩ := h
      cases supplyChain with
      | none => exact nomatch h
      | some id =>
        injection h with h
        subst h
        exact ⟨hlayout, rfl, rfl⟩
    · intro h
      obtain ⟨hlayout, rfl, hsignatures⟩ := h
      refine ⟨b.layout, hlayout, ?_⟩
      rw [← hsignatures]
      rfl

theorem givenLayout_iff {value : Json} {supplyChain : Option String} {b : LayoutBlock} :
    layoutToSign value supplyChain = .ok b ∧ checkSupplyChain b supplyChain = .ok () ↔
      GivenLayout value supplyChain b := by
  rw [layoutToSign_eq_ok_iff, checkSupplyChain_eq_ok_iff]
  exact ⟨fun h => ⟨h.1.1, h.1.2, h.2⟩, fun h => ⟨⟨h.signed, h.bare⟩, h.sameChain⟩⟩

theorem signLayout_eq_ok_iff {supplyChain : Option String} {p : Plan} :
    signLayout s registry settings keyPath layoutPath supplyChain out variable_ = .ok p ↔
      ∃ key value b passphrase signature, s.key keyPath = .ok key ∧
        s.files.loadWith Json.untyped? layoutPath settings.verification.maxDocumentBytes =
          .ok value ∧ GivenLayout value supplyChain b ∧ s.passphrase variable_ = .ok passphrase ∧
        signText registry key passphrase b.layout.canonicalText = .ok signature ∧
        p = writeBlock out (b.addSignature signature).toJson := by
  unfold signLayout
  simp only [bind_eq_ok_iff, mapError_eq_ok_iff]
  constructor
  · intro h
    obtain ⟨key, hkey, value, hvalue, b, hb, ⟨⟩, hchain, passphrase, hpassphrase, signature, hsign,
      hp⟩ := h
    exact ⟨key, value, b, passphrase, signature, hkey, hvalue, givenLayout_iff.mp ⟨hb, hchain⟩,
      hpassphrase, hsign, (Except.ok.inj hp).symm⟩
  · intro h
    obtain ⟨key, value, b, passphrase, signature, hkey, hvalue, hgiven, hpassphrase, hsign,
      rfl⟩ := h
    obtain ⟨hb, hchain⟩ := givenLayout_iff.mpr hgiven
    exact ⟨key, hkey, value, hvalue, b, hb, (), hchain, passphrase, hpassphrase, signature, hsign,
      rfl⟩

/-- There is a link that can be signed: it does not list an artifact twice. -/
def LinkReady (registry : Registry) (t : FileTree) (environment : List (String × String))
    (limit : Nat) (keyPath linkPath variable_ : String) : Prop :=
  ∃ link, t.Holds limit (Json.document? Link.ofJson) linkPath link ∧ link.duplicates = [] ∧
    CanSign registry t environment keyPath variable_ link.canonicalText

/-- There is a layout that can be signed. -/
def LayoutReady (registry : Registry) (t : FileTree) (environment : List (String × String))
    (limit : Nat) (keyPath layoutPath : String) (supplyChain : Option String)
    (variable_ : String) : Prop :=
  ∃ value given, t.Holds limit Json.untyped? layoutPath value ∧
    GivenLayout value supplyChain given ∧
    CanSign registry t environment keyPath variable_ given.layout.canonicalText

section Ready

variable (hs : s.files = t.view)

include hs

theorem exists_signLink_iff {supplyChain : String} :
    (∃ p, signLink s registry settings keyPath linkPath supplyChain out variable_ = .ok p) ↔
      LinkReady registry t s.environment settings.verification.maxDocumentBytes keyPath linkPath
        variable_ := by
  simp only [signLink_eq_ok_iff, Surroundings.input_eq_ok_iff hs, LinkReady, canSign_iff hs]
  constructor
  · intro h
    obtain ⟨_, key, link, passphrase, signature, hkey, hlink, hnew, hpassphrase, hsign, _⟩ := h
    exact ⟨link, hlink, hnew, key, passphrase, signature, hkey, hpassphrase, hsign⟩
  · intro h
    obtain ⟨link, hlink, hnew, key, passphrase, signature, hkey, hpassphrase, hsign⟩ := h
    exact ⟨_, key, link, passphrase, signature, hkey, hlink, hnew, hpassphrase, hsign, rfl⟩

theorem exists_signLayout_iff {supplyChain : Option String} :
    (∃ p, signLayout s registry settings keyPath layoutPath supplyChain out variable_ = .ok p) ↔
      LayoutReady registry t s.environment settings.verification.maxDocumentBytes keyPath
        layoutPath supplyChain variable_ := by
  simp only [signLayout_eq_ok_iff, hs, FileTree.loadWith_eq_ok_iff, LayoutReady, canSign_iff hs]
  constructor
  · intro h
    obtain ⟨_, key, value, given, passphrase, signature, hkey, hvalue, hgiven, hpassphrase, hsign,
      _⟩ := h
    exact ⟨value, given, hvalue, hgiven, key, passphrase, signature, hkey, hpassphrase, hsign⟩
  · intro h
    obtain ⟨value, given, hvalue, hgiven, key, passphrase, signature, hkey, hpassphrase,
      hsign⟩ := h
    exact ⟨_, key, value, given, passphrase, signature, hkey, hvalue, hgiven, hpassphrase, hsign,
      rfl⟩

end Ready

/-- A command ends well iff there is a configuration and a log filter and all is ready for it
under that configuration. Then it has done what it is for; otherwise it leaves all files as they
are. -/
structure AllOrNothing (s : Surroundings) (i : Invocation) (t t' : FileTree) (outcome : Outcome)
    (Ready Done : EffectiveConfig → Prop) : Prop where
  ready : outcome.exit.code = 0 ↔ ∃ config, configuration s i = .ok config ∧
    checkFilter s i config.settings = .ok () ∧ Ready config
  nothing : outcome.exit.code ≠ 0 → t' = t
  all : outcome.exit.code = 0 → ∀ config, configuration s i = .ok config → Done config

/-- A command that writes one block and nothing else changes nothing unless it ends well, and
then the block is what it came to. -/
theorem writeBlock_or_nothing {Ready Done : EffectiveConfig → Prop} {outcome : Outcome}
    (hperform : perform t (i.plan s registry) = (t', outcome))
    (hready : ∀ config, (∃ p, i.command.plan s registry config = .ok p) ↔ Ready config)
    (hdone : ∀ config p, i.command.plan s registry config = .ok p →
      ∃ block, p = writeBlock out block ∧
        (t.OnlyChanged t' out (textBytes block.pretty) → Done config)) :
    AllOrNothing s i t t' outcome (fun config => Ready config ∧ t.Writable out) Done := by
  have hfailed : ∀ e, (Outcome.failed e).exit.code ≠ 0 := by
    intro e
    rw [Outcome.code_failed]
    split <;> simp
  simp only [← hready]
  cases h : i.plan s registry with
  | error e =>
    rw [h, perform, Prod.mk.injEq] at hperform
    obtain ⟨rfl, rfl⟩ := hperform
    refine ⟨iff_of_false (hfailed e) ?_, fun _ => rfl, fun hcode => absurd hcode (hfailed e)⟩
    rintro ⟨config, hconfig, hfilter, ⟨p, hp⟩, _⟩
    exact nomatch h.symm.trans (Invocation.plan_eq_ok_iff.mpr ⟨config, hconfig, hfilter, hp⟩)
  | ok p =>
    obtain ⟨config, hconfig, hfilter, hp⟩ := Invocation.plan_eq_ok_iff.mp h
    obtain ⟨block, rfl, hwritten⟩ := hdone config p hp
    rw [h, perform] at hperform
    rcases Plan.perform_write_cases rfl hperform with ⟨hout, rfl, hchanged⟩ | ⟨hout, rfl, e, rfl, _⟩
    · refine ⟨iff_of_true rfl ⟨config, hconfig, hfilter, ⟨_, hp⟩, hout⟩,
        fun hcode => absurd rfl hcode, fun _ config' hconfig' => ?_⟩
      obtain rfl := Except.ok.inj (hconfig.symm.trans hconfig')
      exact hwritten hchanged
    · refine ⟨iff_of_false (hfailed e) ?_, fun _ => rfl, fun hcode => absurd hcode (hfailed e)⟩
      rintro ⟨_, _, _, _, hout'⟩
      exact hout hout'

/-! ## What was signed -/

/-- With the halves of a key, the schemes verify what they sign. -/
def VerifyTheirOwn (registry : Registry) (halves : Scheme → Bytes → Bytes → Prop) : Prop :=
  ∀ scheme ∈ registry.schemes, ∀ container half, halves scheme container half →
    ∀ message signature, scheme.sign container message = .ok signature →
      scheme.verify half message signature = .ok true

/-- The signature has the id of the key, and the public keys that belong to the key verify the
text by it: those with its id, its algorithm and the other half of it. -/
structure SignsFor (registry : Registry) (halves : Scheme → Bytes → Bytes → Prop)
    (key : EncryptedPrivateKey) (scheme : Scheme) (container : Bytes) (text : String)
    (signature : Signature) : Prop where
  keyId : signature.keyId = key.keyId
  verified : ∀ publicKey : PublicKey, publicKey.keyId = key.keyId →
    publicKey.algorithm = key.algorithm → halves scheme container publicKey.key →
    isValidText registry text signature publicKey = .ok true

/-- A link was signed: the file to write has the link that was given, under the supply chain that
was given and signed with the key. -/
def LinkSigned (registry : Registry) (halves : Scheme → Bytes → Bytes → Prop) (t t' : FileTree)
    (environment : List (String × String)) (limit : Nat)
    (keyPath linkPath supplyChain out variable_ : String) : Prop :=
  ∃ key scheme container link text block,
    KeyOpened registry t environment keyPath variable_ key scheme container ∧
    t.Holds limit (Json.document? Link.ofJson) linkPath link ∧ link.duplicates = [] ∧
    t.OnlyChanged t' out (textBytes text) ∧ Json.document? LinkBlock.ofJson text = some block ∧
    block.link = link ∧ block.supplyChainId = supplyChain ∧
    SignsFor registry halves key scheme container block.link.canonicalText block.signature

/-- A layout was signed: the file to write has the layout that was given, under its supply chain.
The signature of the key is the last, and in front of it are those that were there in other
slots. -/
def LayoutSigned (registry : Registry) (halves : Scheme → Bytes → Bytes → Prop) (t t' : FileTree)
    (environment : List (String × String)) (limit : Nat) (keyPath layoutPath : String)
    (supplyChain : Option String) (out variable_ : String) : Prop :=
  ∃ key scheme container value given text block signature,
    KeyOpened registry t environment keyPath variable_ key scheme container ∧
    t.Holds limit Json.untyped? layoutPath value ∧ GivenLayout value supplyChain given ∧
    t.OnlyChanged t' out (textBytes text) ∧ Json.document? LayoutBlock.ofJson text = some block ∧
    block.layout = given.layout ∧ block.supplyChainId = given.supplyChainId ∧
    block.signatures = given.signatures.filter (fun old => old.slot ≠ signature.slot) ++
      [signature] ∧
    SignsFor registry halves key scheme container block.layout.canonicalText signature

theorem signsFor_of_signText {halves : Scheme → Bytes → Bytes → Prop}
    (hhalves : VerifyTheirOwn registry halves) (hs : s.files = t.view)
    {key : EncryptedPrivateKey} {passphrase text : String} {signature : Signature}
    (hkey : s.key keyPath = .ok key)
    (hpassphrase : s.passphrase variable_ = .ok passphrase)
    (hsign : signText registry key passphrase text = .ok signature) :
    ∃ scheme container, KeyOpened registry t s.environment keyPath variable_ key scheme container ∧
      SignsFor registry halves key scheme container text signature := by
  obtain ⟨scheme, container, bytes, hpreferred, hdecrypt, hbytes, rfl⟩ :=
    signText_eq_ok_iff.mp hsign
  obtain ⟨hvariable, hne⟩ := Surroundings.passphrase_eq_ok_iff.mp hpassphrase
  obtain ⟨hmem, _, _⟩ := Registry.preferred_eq_ok hpreferred
  refine ⟨scheme, container, ⟨(Surroundings.key_eq_ok_iff hs).mp hkey,
    ⟨passphrase, hvariable, hne, hdecrypt⟩, hpreferred⟩, rfl, ?_⟩
  intro publicKey hid halgorithm hhalf
  have hverify := hhalves scheme hmem container _ hhalf _ _ hbytes
  rw [← hid]
  exact (isValidText_encode (halgorithm ▸ hpreferred) _ _).trans hverify

section Runs

variable {halves : Scheme → Bytes → Bytes → Prop} {outcome : Outcome}
  (hhalves : VerifyTheirOwn registry halves) (hs : s.files = t.view)
  (hperform : perform t (i.plan s registry) = (t', outcome))

include hhalves hs hperform

theorem signLink_all_or_nothing {supplyChain : String}
    (hcommand : i.command = .signLink keyPath linkPath supplyChain out variable_) :
    AllOrNothing s i t t' outcome
      (fun config => LinkReady registry t s.environment
        config.settings.verification.maxDocumentBytes keyPath linkPath variable_ ∧ t.Writable out)
      fun config => LinkSigned registry halves t t' s.environment
        config.settings.verification.maxDocumentBytes keyPath linkPath supplyChain out
        variable_ := by
  refine writeBlock_or_nothing hperform (fun config => ?ready) fun config p hp => ?done
  case ready =>
    rw [hcommand]
    exact exists_signLink_iff hs
  case done =>
    rw [hcommand] at hp
    obtain ⟨key, link, passphrase, signature, hkey, hlink, hnew, hpassphrase, hsign, rfl⟩ :=
      signLink_eq_ok_iff.mp hp
    obtain ⟨scheme, container, hopened, hsigns⟩ :=
      signsFor_of_signText hhalves hs hkey hpassphrase hsign
    exact ⟨_, rfl, fun hwritten => ⟨key, scheme, container, link, _, _, hopened,
      (Surroundings.input_eq_ok_iff hs).mp hlink, hnew, hwritten, (LinkBlock.survives _).1, rfl,
      rfl, hsigns⟩⟩

theorem signLayout_all_or_nothing {supplyChain : Option String}
    (hcommand : i.command = .signLayout keyPath layoutPath supplyChain out variable_) :
    AllOrNothing s i t t' outcome
      (fun config => LayoutReady registry t s.environment
        config.settings.verification.maxDocumentBytes keyPath layoutPath supplyChain variable_ ∧
        t.Writable out)
      fun config => LayoutSigned registry halves t t' s.environment
        config.settings.verification.maxDocumentBytes keyPath layoutPath supplyChain out
        variable_ := by
  refine writeBlock_or_nothing hperform (fun config => ?ready) fun config p hp => ?done
  case ready =>
    rw [hcommand]
    exact exists_signLayout_iff hs
  case done =>
    rw [hcommand] at hp
    obtain ⟨key, value, given, passphrase, signature, hkey, hvalue, hgiven, hpassphrase, hsign,
      rfl⟩ := signLayout_eq_ok_iff.mp hp
    obtain ⟨scheme, container, hopened, hsigns⟩ :=
      signsFor_of_signText hhalves hs hkey hpassphrase hsign
    rw [hs, FileTree.loadWith_eq_ok_iff] at hvalue
    exact ⟨_, rfl, fun hwritten => ⟨key, scheme, container, value, given, _, _, signature,
      hopened, hvalue, hgiven, hwritten, (LayoutBlock.survives _).1, rfl, rfl, rfl, hsigns⟩⟩

end Runs

/-- **Signing is all or nothing.** A signing command ends with status 0 iff there are a key that
is opened, a document that can be signed and a file that can be written. With any other status
it leaves every file as it is. With status 0 the file to write is the only one that has changed,
also if it is the key or the document itself: the link or layout that was given is read from it,
under the supply chain that was asked for or recorded, and signed with the key. -/
theorem signing_all_or_nothing {halves : Scheme → Bytes → Bytes → Prop}
    (hhalves : VerifyTheirOwn registry halves) (hparse : Invocation.parse args = .ok i)
    {outcome : Outcome}
    (hrun : runWith registry t environment entropy now args = (t', outcome)) :
    (∀ keyPath linkPath supplyChain out variable_,
      i.command = .signLink keyPath linkPath supplyChain out variable_ →
      AllOrNothing ⟨t.view, environment, entropy, now⟩ i t t' outcome
        (fun config => LinkReady registry t environment
          config.settings.verification.maxDocumentBytes keyPath linkPath variable_ ∧
          t.Writable out)
        fun config => LinkSigned registry halves t t' environment
          config.settings.verification.maxDocumentBytes keyPath linkPath supplyChain out
          variable_) ∧
    (∀ keyPath layoutPath supplyChain out variable_,
      i.command = .signLayout keyPath layoutPath supplyChain out variable_ →
      AllOrNothing ⟨t.view, environment, entropy, now⟩ i t t' outcome
        (fun config => LayoutReady registry t environment
          config.settings.verification.maxDocumentBytes keyPath layoutPath supplyChain variable_ ∧
          t.Writable out)
        fun config => LayoutSigned registry halves t t' environment
          config.settings.verification.maxDocumentBytes keyPath layoutPath supplyChain out
          variable_) := by
  rw [runWith_of_parse hparse] at hrun
  refine ⟨fun keyPath linkPath supplyChain out variable_ hcommand => ?_,
    fun keyPath layoutPath supplyChain out variable_ hcommand => ?_⟩
  · exact signLink_all_or_nothing hhalves rfl hrun hcommand
  · exact signLayout_all_or_nothing hhalves rfl hrun hcommand

end Cli

/-! ## Signing in place

The signed link is to take the place of the link that was signed, by another path to it, and the
key is outside of the working directory. -/

namespace Transparent

open Cli

def link : Link := ⟨"build", "run", "main", none, [], [⟨"app", "00"⟩]⟩

/-- A private key and a link. -/
def files (pair : KeyPair) : FileTree :=
  ⟨[(["keys"], .directory), (["keys", "key.json"], .document pair.privateKey.toJson),
    (["work"], .directory), (["work", "link.json"], .document link.toJson)], ["work"]⟩

def arguments : List String :=
  ["sign-link", "--key", "../keys/key.json", "--link", "link.json", "--supply-chain", "chain",
    "--out", "/work/link.json"]

def invocation : Invocation :=
  ⟨none, none, false,
    .signLink "../keys/key.json" "link.json" "chain" "/work/link.json" "CHAINWITNESS_PASSPHRASE"⟩

def environment : List (String × String) := [("CHAINWITNESS_PASSPHRASE", "passphrase")]

def now : Instant := ⟨0, 0⟩

/-- The halves of a key are made together. -/
def halves (scheme : Scheme) (container half : Bytes) : Prop :=
  ∃ entropy, scheme.generate entropy = .ok (container, half)

theorem verifyTheirOwn : VerifyTheirOwn registry halves := by
  intro scheme hscheme container half hhalves
  obtain ⟨entropy, hgenerated⟩ := hhalves
  obtain rfl := List.mem_singleton.mp hscheme
  exact acceptsOwn entropy container half hgenerated

theorem ready {pair : KeyPair}
    (hgenerate : KeyPair.generate registry .ed25519 "passphrase" 1000 entropy = .ok pair)
    (hdecrypt : pair.privateKey.decrypt "passphrase" = .ok key.bytes) :
    LinkReady registry (files pair) environment Settings.default.verification.maxDocumentBytes
      "../keys/key.json" "link.json" "CHAINWITNESS_PASSPHRASE" := by
  have hpreferred : registry.preferred pair.privateKey.algorithm = .ok scheme := by
    obtain ⟨_, _, hmade, halgorithm⟩ := KeyPair.exists_madeBy hgenerate
    rw [hmade.sameAlgorithm, halgorithm]
    rfl
  have hkey : (files pair).HoldsUnbounded (Json.document? EncryptedPrivateKey.ofJson)
      "../keys/key.json" pair.privateKey :=
    FileTree.holdsUnbounded_document rfl pair.privateKey.survives
  have hopened : KeyOpened registry (files pair) environment "../keys/key.json"
      "CHAINWITNESS_PASSPHRASE" pair.privateKey scheme key.bytes :=
    ⟨hkey, ⟨"passphrase", rfl, by decide, hdecrypt⟩, hpreferred⟩
  have hlink : (files pair).Holds Settings.default.verification.maxDocumentBytes
      (Json.document? Link.ofJson) "link.json" link :=
    FileTree.holds_document rfl link.survives (by decide +kernel)
  exact ⟨link, hlink, rfl, pair.privateKey, scheme, key.bytes, _, hopened, sign_key _⟩

theorem writable (pair : KeyPair) : (files pair).Writable "/work/link.json" :=
  ⟨["work", "link.json"], rfl, by decide, nofun⟩

end Transparent

namespace Cli

open Transparent

/-- A new key signs a link in place. Without its passphrase nothing happens. -/
theorem transparent_signedInPlace : ∃ pair t' outcome,
    KeyPair.generate registry .ed25519 "passphrase" 1000 entropy = .ok pair ∧
    runWith registry (files pair) environment entropy now arguments = (t', outcome) ∧
    outcome.exit.code = 0 ∧
    LinkSigned registry halves (files pair) t' environment
      Settings.default.verification.maxDocumentBytes "../keys/key.json" "link.json" "chain"
      "/work/link.json" "CHAINWITNESS_PASSPHRASE" ∧
    (runWith registry (files pair) [] entropy now arguments).1 = files pair := by
  obtain ⟨pair, hgenerate, hdecrypt, _⟩ := exists_generate "passphrase"
  have hparse : Invocation.parse arguments = .ok invocation := rfl
  have hunconfigured : Unconfigured ⟨(files pair).view, environment, entropy, now⟩ invocation :=
    ⟨rfl, rfl, rfl, rfl, rfl, rfl⟩
  obtain ⟨config, hconfig, hfilter, hsettings⟩ := hunconfigured.exists_configuration
  have hsigning := (signing_all_or_nothing verifyTheirOwn hparse
    (Prod.eta (runWith registry (files pair) environment entropy now arguments)).symm).1
    _ _ _ _ _ rfl
  have hcode : (runWith registry (files pair) environment entropy now arguments).2.exit.code = 0 :=
    hsigning.ready.mpr ⟨config, hconfig, hfilter, hsettings ▸ ready hgenerate hdecrypt,
      writable pair⟩
  have hnothing := (signing_all_or_nothing verifyTheirOwn hparse
    (Prod.eta (runWith registry (files pair) [] entropy now arguments)).symm).1 _ _ _ _ _ rfl
  refine ⟨pair, _, _, hgenerate, (Prod.eta _).symm, hcode,
    hsettings ▸ hsigning.all hcode config hconfig, hnothing.nothing fun hcode => ?_⟩
  -- a run that ends well has opened the key
  obtain ⟨_, _, _, ⟨_, _, _, _, _, _, _, hopened, _⟩, _⟩ := hnothing.ready.mp hcode
  obtain ⟨_, hvariable, _⟩ := hopened.decrypted
  exact nomatch hvariable

end Cli

end Provenance
