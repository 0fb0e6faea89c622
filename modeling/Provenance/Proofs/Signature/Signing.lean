import Provenance.Proofs.Key.Encryption
import Provenance.Proofs.Payload
import Provenance.Verification.Run

/-!
# What a private key signs, its public key verifies

Signing finds the scheme by the algorithm of the key alone, and verifying by the pair of
algorithms that the signature names. Both find the scheme that made the key pair, since
a preferred scheme is registered under its own pair (`Registry.preferred_eq_ok`). The id
of the public half goes from the key pair into the signature, and the message is made
anew from the document that is verified:

> `generate_signs`: whatever a new key pair signs is verified by its public key, in
> every order of what has no order, and by no key with another id.

Two things are assumed of a scheme and a key. The scheme accepts what it signs
(`Scheme.AcceptsOwn`), and the private key is decrypted to what was encrypted, which
`decrypt_of_encryptPrivateKey` says of containers that are written in the usual way.
-/

namespace Provenance

open Checks

/-! ## The scheme of a key -/

theorem Registry.scheme_eq_ok {registry : Registry} {k : KeyAlgorithm} {h : HashAlgorithm}
    {scheme : Scheme} (hs : registry.scheme k h = .ok scheme) :
    scheme ∈ registry.schemes ∧ scheme.keyAlgorithm = k ∧ scheme.hashAlgorithm = h := by
  unfold Registry.scheme Registry.scheme? at hs
  split at hs
  · next found hfound =>
    injection hs with hs
    subst hs
    have hpair : found.pair = (k, h) := by simpa using List.find?_some hfound
    exact ⟨List.mem_of_find?_eq_some hfound, congrArg Prod.fst hpair, congrArg Prod.snd hpair⟩
  · exact nomatch hs

/-- A preferred scheme is found again by the algorithms that it writes into signatures. -/
theorem Registry.preferred_eq_ok {registry : Registry} {k : KeyAlgorithm} {scheme : Scheme}
    (hs : registry.preferred k = .ok scheme) :
    scheme ∈ registry.schemes ∧ scheme.keyAlgorithm = k ∧
      registry.scheme scheme.keyAlgorithm scheme.hashAlgorithm = .ok scheme := by
  unfold Registry.preferred at hs
  split at hs
  · obtain ⟨hmem, hkey, hhash⟩ := Registry.scheme_eq_ok hs
    rw [hkey, hhash]
    exact ⟨hmem, rfl, hs⟩
  · exact nomatch hs

theorem signText_eq_ok_iff {registry : Registry} {key : EncryptedPrivateKey}
    {passphrase text : String} {signature : Signature} :
    signText registry key passphrase text = .ok signature ↔
      ∃ scheme container bytes, registry.preferred key.algorithm = .ok scheme ∧
        key.decrypt passphrase = .ok container ∧
        scheme.sign container (textBytes text) = .ok bytes ∧
        signature = ⟨key.keyId, Hex.encode bytes, scheme.keyAlgorithm, scheme.hashAlgorithm⟩ := by
  unfold signText
  simp only [bind_eq_ok_iff]
  constructor
  · intro h
    obtain ⟨scheme, hscheme, container, hcontainer, bytes, hbytes, h⟩ := h
    exact ⟨scheme, container, bytes, hscheme, hcontainer, hbytes, (Except.ok.inj h).symm⟩
  · intro h
    obtain ⟨scheme, container, bytes, hscheme, hcontainer, hbytes, rfl⟩ := h
    exact ⟨scheme, hscheme, container, hcontainer, bytes, hbytes, rfl⟩

theorem isValidText_of_scheme {registry : Registry} {scheme : Scheme} {text : String}
    {s : Signature} {key : PublicKey}
    (hs : registry.scheme s.keyAlgorithm s.hashAlgorithm = .ok scheme) :
    isValidText registry text s key =
      if s.keyId ≠ key.keyId ∨ s.keyAlgorithm ≠ key.algorithm then .ok false
      else match Hex.decode? s.signature with
        | none => .ok false
        | some bytes => scheme.verify key.key (textBytes text) bytes := by
  rw [isValidText, hs]
  rfl

/-- Of a signature that names the id and the algorithm of a key, the scheme decides. -/
theorem isValidText_encode {registry : Registry} {scheme : Scheme} {key : PublicKey}
    (hpreferred : registry.preferred key.algorithm = .ok scheme) (text : String) (bytes : Bytes) :
    isValidText registry text
        ⟨key.keyId, Hex.encode bytes, scheme.keyAlgorithm, scheme.hashAlgorithm⟩ key =
      scheme.verify key.key (textBytes text) bytes := by
  obtain ⟨_, halgorithm, hscheme⟩ := Registry.preferred_eq_ok hpreferred
  rw [isValidText_of_scheme hscheme, if_neg (by simp [halgorithm]), Hex.decode?_encode]

/-- The scheme accepts what it signs with the keys that it makes. -/
def Scheme.AcceptsOwn (scheme : Scheme) : Prop :=
  ∀ entropy container key, scheme.generate entropy = .ok (container, key) →
    ∀ message signature, scheme.sign container message = .ok signature →
      scheme.verify key message signature = .ok true

/-! ## Key pairs -/

section Pairs

variable {registry : Registry} {algorithm : KeyAlgorithm} {passphrase : String} {iterations : Nat}
  {entropy : KeyEntropy} {scheme : Scheme} {container : Bytes} {pair : KeyPair}

/-- What a new key pair is made of: the keys that the preferred scheme made, the private
one encrypted. Both halves say the same of themselves. -/
structure KeyPair.MadeBy (registry : Registry) (passphrase : String) (iterations : Nat)
    (entropy : KeyEntropy) (scheme : Scheme) (container : Bytes) (pair : KeyPair) : Prop where
  preferred : registry.preferred pair.publicKey.algorithm = .ok scheme
  generated : scheme.generate entropy.pair = .ok (container, pair.publicKey.key)
  encrypted : encryptPrivateKey container passphrase iterations entropy =
    .ok pair.privateKey.encryptedKey
  sameAlgorithm : pair.privateKey.algorithm = pair.publicKey.algorithm
  sameId : pair.privateKey.keyId = pair.publicKey.keyId

theorem KeyPair.exists_madeBy
    (h : generate registry algorithm passphrase iterations entropy = .ok pair) :
    ∃ scheme container, pair.MadeBy registry passphrase iterations entropy scheme container ∧
      pair.publicKey.algorithm = algorithm := by
  obtain ⟨scheme, hpreferred, h⟩ := bind_eq_ok_iff.mp h
  obtain ⟨⟨container, key⟩, hgenerated, h⟩ := bind_eq_ok_iff.mp h
  obtain ⟨encrypted, hencrypted, h⟩ := bind_eq_ok_iff.mp h
  injection h with h
  subst h
  exact ⟨scheme, container, ⟨hpreferred, hgenerated, hencrypted, rfl, rfl⟩, rfl⟩

/-- The signature of the pair around the bytes of a scheme. -/
def KeyPair.signature (pair : KeyPair) (scheme : Scheme) (bytes : Bytes) : Signature :=
  ⟨pair.publicKey.keyId, Hex.encode bytes, scheme.keyAlgorithm, scheme.hashAlgorithm⟩

/-- Signing is signing with the scheme that made the key: nothing else can fail. -/
theorem KeyPair.MadeBy.signText_eq
    (h : pair.MadeBy registry passphrase iterations entropy scheme container)
    (hdecrypt : pair.privateKey.decrypt passphrase = .ok container) (text : String) :
    signText registry pair.privateKey passphrase text =
      (scheme.sign container (textBytes text)).map (pair.signature scheme) := by
  rw [signText, h.sameAlgorithm, h.preferred, hdecrypt, h.sameId]
  show (scheme.sign container (textBytes text) >>= fun bytes =>
    pure (pair.signature scheme bytes)) = _
  cases scheme.sign container (textBytes text) <;> rfl

/-- The public half finds the scheme again and its own id. -/
theorem KeyPair.MadeBy.isValidText_signature
    (h : pair.MadeBy registry passphrase iterations entropy scheme container)
    (haccepts : scheme.AcceptsOwn) {text : String} {bytes : Bytes}
    (hsign : scheme.sign container (textBytes text) = .ok bytes) :
    isValidText registry text (pair.signature scheme bytes) pair.publicKey = .ok true :=
  (isValidText_encode h.preferred _ _).trans (haccepts _ _ _ h.generated _ _ hsign)

/-- A key with another id is told apart by its id, before anything that could fail. -/
theorem KeyPair.MadeBy.isValidText_other
    (h : pair.MadeBy registry passphrase iterations entropy scheme container) {key : PublicKey}
    (hid : key.keyId ≠ pair.publicKey.keyId) (text : String) (bytes : Bytes) :
    isValidText registry text (pair.signature scheme bytes) key = .ok false := by
  obtain ⟨_, _, hscheme⟩ := Registry.preferred_eq_ok h.preferred
  refine bind_eq_ok hscheme ?_
  exact if_pos (.inl fun h => hid h.symm)

/-- What the signatures of a key pair are worth: `make` is how the pair signs a text. -/
structure KeyPair.Signs (registry : Registry) (pair : KeyPair)
    (make : String → Except CryptoError Signature) : Prop where
  /-- The artifacts of a link may be in any order. -/
  link : ∀ l s, make l.canonicalText = .ok s → ∀ m, Link.Similar l m →
    m.isSignedBy registry s pair.publicKey = .ok true
  /-- Keys, key ids, segments and steps of a layout may be in any order. -/
  layout : ∀ l s, make l.canonicalText = .ok s → (l.keys.map PublicKey.keyId).Nodup →
    (l.segments.map Segment.name).Nodup →
    (∀ segment ∈ l.segments, (segment.steps.map Step.name).Nodup) → ∀ m, Layout.Similar l m →
    m.isSignedBy registry s pair.publicKey = .ok true
  /-- Under another id there is no error, whatever is verified. -/
  other : ∀ text s, make text = .ok s → ∀ key : PublicKey, key.keyId ≠ pair.publicKey.keyId →
    (∀ l : Link, l.isSignedBy registry s key = .ok false) ∧
      ∀ l : Layout, l.isSignedBy registry s key = .ok false

theorem KeyPair.MadeBy.signs
    (h : pair.MadeBy registry passphrase iterations entropy scheme container)
    (haccepts : scheme.AcceptsOwn) :
    pair.Signs registry fun text =>
      (scheme.sign container (textBytes text)).map (pair.signature scheme) := by
  have hsigned : ∀ {text s}, (scheme.sign container (textBytes text)).map (pair.signature scheme) =
      .ok s → ∃ bytes, scheme.sign container (textBytes text) = .ok bytes ∧
        s = pair.signature scheme bytes := by
    intro text s hs
    cases hbytes : scheme.sign container (textBytes text) with
    | error e =>
      rw [hbytes] at hs
      exact nomatch hs
    | ok bytes =>
      rw [hbytes] at hs
      injection hs with hs
      exact ⟨bytes, rfl, hs.symm⟩
  constructor
  case link =>
    intro l s hs m hsimilar
    obtain ⟨bytes, hsign, rfl⟩ := hsigned hs
    rw [Link.isSignedBy, ← Link.canonicalText_eq_iff.mpr hsimilar]
    exact h.isValidText_signature haccepts hsign
  case layout =>
    intro l s hs hkeys hsegments hsteps m hsimilar
    obtain ⟨bytes, hsign, rfl⟩ := hsigned hs
    rw [Layout.isSignedBy, ← Layout.canonicalText_eq hkeys hsegments hsteps hsimilar]
    exact h.isValidText_signature haccepts hsign
  case other =>
    intro text s hs key hid
    obtain ⟨bytes, _, rfl⟩ := hsigned hs
    exact ⟨fun l => h.isValidText_other hid _ _, fun l => h.isValidText_other hid _ _⟩

end Pairs

/-- A new key pair signs with the scheme that made it, and what it signs is verified by
its public key: for a document in any order of what has no order, and for no key with
another id, which is never an error. -/
theorem generate_signs {registry : Registry} {algorithm : KeyAlgorithm} {passphrase : String}
    {iterations : Nat} {entropy : KeyEntropy} {pair : KeyPair}
    (hgenerate : KeyPair.generate registry algorithm passphrase iterations entropy = .ok pair)
    (haccepts : ∀ scheme, registry.preferred algorithm = .ok scheme → scheme.AcceptsOwn)
    (hdecrypt : ∀ scheme container key, registry.preferred algorithm = .ok scheme →
      scheme.generate entropy.pair = .ok (container, key) →
      pair.privateKey.decrypt passphrase = .ok container) :
    (∃ scheme container, registry.preferred algorithm = .ok scheme ∧
      scheme.generate entropy.pair = .ok (container, pair.publicKey.key) ∧
      ∀ text, signText registry pair.privateKey passphrase text =
        (scheme.sign container (textBytes text)).map (pair.signature scheme)) ∧
    pair.Signs registry (signText registry pair.privateKey passphrase) := by
  obtain ⟨scheme, container, h, rfl⟩ := KeyPair.exists_madeBy hgenerate
  have hopen := hdecrypt scheme container _ h.preferred h.generated
  have hsign := h.signText_eq hopen
  refine ⟨⟨scheme, container, h.preferred, h.generated, hsign⟩, ?_⟩
  rw [funext hsign]
  exact h.signs (haccepts scheme h.preferred)

/-! ## A scheme whose signatures show the message -/

namespace Transparent

/-- The only private key. -/
def key : PrivateContainer := ⟨⟨ed25519Oid, none⟩, [1], none⟩

/-- A signature is the private key before the message. -/
def scheme : Scheme where
  keyAlgorithm := .ed25519
  hashAlgorithm := .sha512
  generate _ := .ok (key.bytes, key.key)
  checkPublicKey _ := .ok ()
  sign container m :=
    match PrivateContainer.read? container with
    | some c => .ok (c.key ++ m)
    | none => .error .decryption
  verify publicKey m signature := .ok (signature = publicKey ++ m)

def registry : Registry := .ofList [scheme]

def entropy : KeyEntropy := ⟨[], [], List.replicate 16 0⟩

theorem read?_key : PrivateContainer.read? key.bytes = some key := by decide

theorem sign_key (m : Bytes) : scheme.sign key.bytes m = .ok (key.key ++ m) := by
  show (match PrivateContainer.read? key.bytes with
    | some c => Except.ok (c.key ++ m)
    | none => .error CryptoError.decryption) = _
  rw [read?_key]

theorem acceptsOwn : scheme.AcceptsOwn := by
  intro entropy container half hgenerate m signature hsign
  injection hgenerate with hgenerate
  injection hgenerate with hcontainer hhalf
  rw [← hcontainer, sign_key] at hsign
  injection hsign with hsign
  show Except.ok (decide (signature = half ++ m)) = Except.ok true
  rw [← hsign, ← hhalf, decide_eq_true rfl]

/-- The key pair, whatever its passphrase. -/
theorem exists_generate (passphrase : String) : ∃ pair,
    KeyPair.generate registry .ed25519 passphrase 1000 entropy = .ok pair ∧
      pair.privateKey.decrypt passphrase = .ok key.bytes ∧
      pair.publicKey = .ofBytes .ed25519 key.key := by
  have hpreferred : registry.preferred .ed25519 = .ok scheme := rfl
  have hgenerated : scheme.generate entropy.pair = .ok (key.bytes, key.key) := rfl
  have hencrypted : encryptPrivateKey key.bytes passphrase 1000 entropy =
      .ok (EncryptedContainer.ofContainer key.bytes (textBytes passphrase) entropy.salt entropy.iv
        1000) := by
    rw [encryptPrivateKey, read?_key]
  have hcontainer : (PrivateContainer.read? key.bytes).map PrivateContainer.bytes =
      some key.bytes := by
    rw [read?_key]
    rfl
  have hfits : Der.Fits key.bytes 1000 entropy := ⟨by decide, rfl, by decide⟩
  exact ⟨_, bind_eq_ok hpreferred <| bind_eq_ok hgenerated <| bind_eq_ok hencrypted rfl,
    decrypt_of_encryptPrivateKey hfits hcontainer hencrypted _ _, rfl⟩

end Transparent

/-- A layout is signed by a new key. The signature is good for the layout with its
segments in the other order, and not by a key of another name. -/
theorem transparent_signs : ∃ pair s,
    KeyPair.generate Transparent.registry .ed25519 "passphrase" 1000 Transparent.entropy =
      .ok pair ∧
    signText Transparent.registry pair.privateKey "passphrase"
      (TwoSegments.layout "one" "two").canonicalText = .ok s ∧
    (TwoSegments.layout "two" "one").isSignedBy Transparent.registry s pair.publicKey = .ok true ∧
    (TwoSegments.layout "two" "one").isSignedBy Transparent.registry s
      ⟨"other", .ed25519, [1]⟩ = .ok false := by
  obtain ⟨pair, hgenerate, hdecrypt, hkey⟩ := Transparent.exists_generate "passphrase"
  have haccepts : ∀ scheme, Transparent.registry.preferred .ed25519 = .ok scheme →
      scheme.AcceptsOwn := by
    intro scheme h
    injection h with h
    exact h ▸ Transparent.acceptsOwn
  have hopen : ∀ scheme container key, Transparent.registry.preferred .ed25519 = .ok scheme →
      scheme.generate Transparent.entropy.pair = .ok (container, key) →
      pair.privateKey.decrypt "passphrase" = .ok container := by
    intro scheme container key h hgenerated
    injection h with h
    subst h
    injection hgenerated with hgenerated
    injection hgenerated with hcontainer _
    rw [hdecrypt, hcontainer]
  obtain ⟨⟨scheme, container, hpreferred, hgenerated, hsign⟩, hsigns⟩ :=
    generate_signs hgenerate haccepts hopen
  injection hpreferred with hpreferred
  subst hpreferred
  injection hgenerated with hgenerated
  injection hgenerated with hcontainer _
  have hs := hsign (TwoSegments.layout "one" "two").canonicalText
  rw [← hcontainer, Transparent.sign_key] at hs
  have hother : "other" ≠ pair.publicKey.keyId := by
    intro h
    have hhex := Hex.decode?_encode (HashFunction.sha256.digest Transparent.key.key)
    rw [hkey] at h
    have hnone : Hex.decode? (PublicKey.ofBytes .ed25519 Transparent.key.key).keyId = none := by
      rw [← h]
      decide
    exact nomatch hhex.symm.trans hnone
  refine ⟨pair, _, hgenerate, hs, ?_, ?_⟩
  · exact hsigns.layout _ _ hs (by decide) (by decide) (by decide) _ TwoSegments.similar
  · exact (hsigns.other _ _ hs ⟨"other", .ed25519, [1]⟩ hother).2 _

end Provenance
