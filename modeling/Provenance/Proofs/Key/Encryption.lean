import Mathlib.Algebra.GroupWithZero.Nat
import Provenance.Key.PrivateKey
import Provenance.Proofs.Cipher.Cbc
import Provenance.Proofs.Der

/-!
# Private keys are decrypted to what was encrypted

An encrypted private key says how it was encrypted: the derivation of the key from the
passphrase with its salt and iterations, and the cipher with its initial vector. This is
read as it was written (`ofIdentifier?_standardIdentifier`), so the same key is derived,
and the cipher undoes itself:

> `decrypt_of_encryptPrivateKey`: under the passphrase of its encryption, a private key
> is decrypted to the container that was encrypted.

Counts have to fit where they are written: thirty-two bits for the iterations, and
lengths of at most `Der.maxLength` for the parts.
-/

namespace Provenance

open Der

/-! ## Derived keys -/

theorem Sha256.length_bytes (s : Sha256.State) : s.bytes.length = 32 := by
  simp [Sha256.State.bytes]

namespace Pbkdf2

theorem length_xorBytes : ∀ {x y : Bytes}, x.length = y.length → (xorBytes x y).length = x.length
  | [], _, _ => rfl
  | _ :: _, _ :: _, h => congrArg (· + 1) (length_xorBytes (Nat.succ.inj h))

theorem length_chain {H : HashFunction} {k : H.Keyed} {size : Nat}
    (hmac : ∀ m, (k.mac m).length = size) :
    ∀ {count : Nat} {link acc : Bytes}, acc.length = size → (chain k count link acc).length = size
  | 0, _, _, hacc => hacc
  | count + 1, link, acc, hacc => by
    have hnext : (xorBytes acc (k.mac link)).length = size :=
      (length_xorBytes (hacc.trans (hmac link).symm)).trans hacc
    show (chain k count (k.mac link) (xorBytes acc (k.mac link))).length = size
    exact length_chain hmac hnext

/-- One block is enough for a key of thirty-two bytes. -/
theorem length_derive (passphrase salt : Bytes) (iterations : Nat) :
    (derive .sha256 passphrase salt iterations 32).length = 32 := by
  have hmac : ∀ m, ((HashFunction.sha256.keyed passphrase).mac m).length = 32 :=
    fun _ => Sha256.length_bytes _
  have hblock : (block (HashFunction.sha256.keyed passphrase) salt iterations 1).length = 32 :=
    length_chain hmac (hmac _)
  show (List.take 32 ((List.range 1).flatMap _)).length = 32
  rw [List.range_one, List.flatMap_singleton, List.length_take, hblock]
  rfl

end Pbkdf2

/-! ## Lengths -/

theorem Der.length_lengthBytes_le (n : Nat) : (lengthBytes n).length ≤ 5 := by
  have hlong : ∀ (first : UInt8) (count : Nat), count ≤ 4 →
      (first :: beBytes count n).length ≤ 5 := by
    intro first count h
    rw [List.length_cons, length_beBytes]
    exact Nat.succ_le_succ h
  unfold lengthBytes
  split
  · exact (by decide : 1 ≤ 5)
  split
  · exact hlong _ 1 (by decide)
  split
  · exact hlong _ 2 (by decide)
  split
  · exact hlong _ 3 (by decide)
  · exact hlong _ 4 (by decide)

theorem Der.length_sequence_le (items : List Element) :
    (sequence items).content.length ≤ (items.map fun e => e.content.length + 6).sum := by
  induction items with
  | nil => exact Nat.le_refl 0
  | cons e rest ih =>
    have hlength := length_lengthBytes_le e.content.length
    have hbytes : e.bytes.length ≤ e.content.length + 6 := by
      rw [Element.bytes, List.length_cons, List.length_append]
      omega
    show (e.bytes ++ (sequence rest).content).length ≤ _
    rw [List.length_append, List.map_cons, List.sum_cons]
    omega

theorem Der.length_unsigned_le {size n : Nat} (h : n < Nat.pow 256 (size + 1)) :
    (unsigned (size + 1) n).content.length ≤ size + 2 := by
  obtain ⟨count, hle, _, hbytes, _⟩ := shortBytes_cases h
  have hcontent : ∀ b : Bytes, b ≠ [] → (unsignedContent b).length ≤ b.length + 1 := by
    intro b hb
    obtain ⟨c, rest, rfl⟩ := List.exists_cons_of_ne_nil hb
    show (if c < 0x80 then c :: rest else 0 :: c :: rest).length ≤ _
    split
    · exact Nat.le_succ _
    · exact Nat.le_refl _
  have hne : beBytes (count + 1) n ≠ [] := List.ne_nil_of_length_pos (by simp)
  have hlength := hcontent _ hne
  rw [length_beBytes] at hlength
  show (unsignedContent (shortBytes (size + 1) n)).length ≤ size + 2
  rw [hbytes]
  omega

/-! ## How a key was encrypted -/

theorem AlgorithmIdentifier.ofElement?_element {a : AlgorithmIdentifier}
    (hoid : (Der.oid a.oid).oid? = some a.oid) (hwritable : (Der.oid a.oid).Writable)
    (hparameters : ∀ p ∈ a.parameters, p.Writable) : ofElement? a.element = some a := by
  have hitems := items?_sequence (List.forall_mem_cons.mpr
    ⟨hwritable, fun p hp => hparameters p (Option.mem_toList.mp hp)⟩)
  rw [element, ofElement?, hitems]
  obtain ⟨oid, parameters⟩ := a
  cases parameters <;>
    · simp only [Option.toList, hoid, Option.map_some]

namespace Encryption

/-- The keyed hash of the choice for new keys. -/
def hashIdentifier : AlgorithmIdentifier := ⟨IteratedHash.sha256.oid, some Der.null⟩

/-- The derivation of the choice for new keys. -/
def derivationIdentifier (salt : Bytes) (iterations : Nat) : AlgorithmIdentifier :=
  ⟨Derivation.iteratedOid,
    some (sequence [octets salt, unsigned 4 iterations, hashIdentifier.element])⟩

/-- The cipher of the choice for new keys. -/
def cipherIdentifier (iv : Bytes) : AlgorithmIdentifier :=
  ⟨ChainedCipher.oid 42, some (octets iv)⟩

theorem ofElement?_hashIdentifier :
    AlgorithmIdentifier.ofElement? hashIdentifier.element = some hashIdentifier := by
  refine AlgorithmIdentifier.ofElement?_element (by decide) ⟨by decide, by decide⟩ fun p hp => ?_
  rw [← Option.some.inj hp]
  exact ⟨by decide, by decide⟩

section Parameters

variable {salt iv : Bytes} {iterations : Nat}

theorem length_parameters_le (salt : Bytes) (hiterations : iterations < Nat.pow 256 4) :
    (sequence [octets salt, unsigned 4 iterations, hashIdentifier.element]).content.length ≤
      salt.length + 48 := by
  have hle := length_sequence_le [octets salt, unsigned 4 iterations, hashIdentifier.element]
  have hsalt : (octets salt).content.length = salt.length := rfl
  have hcount : (unsigned 4 iterations).content.length ≤ 5 := length_unsigned_le hiterations
  have hhash : hashIdentifier.element.content.length = 12 := by decide
  simp only [List.map_cons, List.map_nil, List.sum_cons, List.sum_nil] at hle
  omega

theorem length_derivation_le (salt : Bytes) (hiterations : iterations < Nat.pow 256 4) :
    (derivationIdentifier salt iterations).element.content.length ≤ salt.length + 80 := by
  have hle := length_sequence_le [Der.oid Derivation.iteratedOid,
    sequence [octets salt, unsigned 4 iterations, hashIdentifier.element]]
  have hoid : (Der.oid Derivation.iteratedOid).content.length = 9 := by decide
  have hparameters := length_parameters_le salt hiterations
  simp only [List.map_cons, List.map_nil, List.sum_cons, List.sum_nil] at hle
  exact Nat.le_trans hle (by omega)

theorem length_cipher_le (hiv : iv.length = Cbc.blockSize) :
    (cipherIdentifier iv).element.content.length ≤ 48 := by
  have hle := length_sequence_le [Der.oid (ChainedCipher.oid 42), octets iv]
  have hoid : (Der.oid (ChainedCipher.oid 42)).content.length = 9 := by decide
  have hoctets : (octets iv).content.length = 16 := hiv
  simp only [List.map_cons, List.map_nil, List.sum_cons, List.sum_nil] at hle
  exact Nat.le_trans hle (by omega)

theorem ofIdentifier?_derivation (hsalt : salt.length + 256 ≤ maxLength)
    (hiterations : iterations < Nat.pow 256 4) :
    Derivation.ofIdentifier? (derivationIdentifier salt iterations) =
      some (.iterated .sha256 salt iterations none) := by
  have hcount : (unsigned 4 iterations).content.length ≤ 5 := length_unsigned_le hiterations
  have hitems : (sequence [octets salt, unsigned 4 iterations, hashIdentifier.element]).items? =
      some [octets salt, unsigned 4 iterations, hashIdentifier.element] := by
    refine items?_sequence ?_
    simp only [List.forall_mem_cons]
    refine ⟨⟨rfl, ?_⟩, ⟨rfl, ?_⟩, ⟨by decide, by decide⟩, fun _ h => nomatch h⟩
    · exact Nat.le_trans (Nat.le_add_right _ _) hsalt
    · exact Nat.le_trans hcount (by decide)
  have hread : (unsigned 4 iterations).unsigned? 4 = some iterations :=
    unsigned?_unsigned hiterations
  have hsize : Derivation.size? [hashIdentifier.element] =
      some (none, [hashIdentifier.element]) := by decide
  have hhash : IteratedHash.ofIdentifier? hashIdentifier = some .sha256 := by decide
  show ((sequence [octets salt, unsigned 4 iterations, hashIdentifier.element]).items?.bind
    fun items => if Derivation.iteratedOid = Derivation.iteratedOid then
      Derivation.ofIteratedItems? items else _) = _
  rw [hitems, Option.bind_some, if_pos rfl]
  simp only [Derivation.ofIteratedItems?, octets?_octets, hread, hsize, ofElement?_hashIdentifier,
    hhash, Option.bind_eq_bind, Option.bind_some]
  rfl

theorem ofIdentifier?_cipher (hiv : iv.length = Cbc.blockSize) :
    ChainedCipher.ofIdentifier? (cipherIdentifier iv) = some ⟨32, iv⟩ := by
  have hsize : ChainedCipher.sizes.find? (fun s => s.1 = (cipherIdentifier iv).oid) =
      some (ChainedCipher.oid 42, 32) := by
    show ChainedCipher.sizes.find? (fun s => s.1 = ChainedCipher.oid 42) = _
    decide
  rw [ChainedCipher.ofIdentifier?, hsize]
  show (if iv.length = Cbc.blockSize then some (⟨32, iv⟩ : ChainedCipher) else none) = _
  rw [if_pos hiv]

theorem ofElement?_derivation (hsalt : salt.length + 256 ≤ maxLength)
    (hiterations : iterations < Nat.pow 256 4) :
    AlgorithmIdentifier.ofElement? (derivationIdentifier salt iterations).element =
      some (derivationIdentifier salt iterations) := by
  have hlength := length_parameters_le salt hiterations
  refine AlgorithmIdentifier.ofElement?_element rfl ⟨rfl, ?_⟩ fun p hp => ?_
  · show Derivation.iteratedOid.length ≤ maxLength
    decide
  · rw [← Option.some.inj hp]
    exact ⟨rfl, Nat.le_trans hlength (by omega)⟩

theorem ofElement?_cipher (hiv : iv.length = Cbc.blockSize) :
    AlgorithmIdentifier.ofElement? (cipherIdentifier iv).element = some (cipherIdentifier iv) := by
  refine AlgorithmIdentifier.ofElement?_element rfl ⟨rfl, ?_⟩ fun p hp => ?_
  · show (ChainedCipher.oid 42).length ≤ maxLength
    decide
  · rw [← Option.some.inj hp]
    refine ⟨rfl, ?_⟩
    show iv.length ≤ maxLength
    rw [hiv]
    decide

/-- The parameters of the choice for new keys. -/
def standardParameters (salt iv : Bytes) (iterations : Nat) : Element :=
  sequence [(derivationIdentifier salt iterations).element, (cipherIdentifier iv).element]

theorem items?_standardParameters (hsalt : salt.length + 256 ≤ maxLength)
    (hiterations : iterations < Nat.pow 256 4) (hiv : iv.length = Cbc.blockSize) :
    (standardParameters salt iv iterations).items? =
      some [(derivationIdentifier salt iterations).element, (cipherIdentifier iv).element] := by
  have hderivation := length_derivation_le salt hiterations
  refine items?_sequence ?_
  simp only [List.forall_mem_cons]
  refine ⟨⟨rfl, ?_⟩, ⟨rfl, ?_⟩, fun _ h => nomatch h⟩
  · exact Nat.le_trans hderivation (by omega)
  · exact Nat.le_trans (length_cipher_le hiv) (by decide)

theorem length_standardParameters_le (salt : Bytes) (hiterations : iterations < Nat.pow 256 4)
    (hiv : iv.length = Cbc.blockSize) :
    (standardParameters salt iv iterations).content.length ≤ salt.length + 140 := by
  have hle := length_sequence_le
    [(derivationIdentifier salt iterations).element, (cipherIdentifier iv).element]
  have hderivation := length_derivation_le salt hiterations
  have hcipher := length_cipher_le hiv
  simp only [List.map_cons, List.map_nil, List.sum_cons, List.sum_nil] at hle
  exact Nat.le_trans hle (by omega)

/-- The choice for new keys is read as it was written. -/
theorem ofIdentifier?_standardIdentifier (hsalt : salt.length + 256 ≤ maxLength)
    (hiterations : iterations < Nat.pow 256 4) (hiv : iv.length = Cbc.blockSize) :
    ofIdentifier? (standardIdentifier salt iv iterations) = some (standard salt iv iterations) := by
  have heq : standardIdentifier salt iv iterations =
      ⟨schemeOid, some (standardParameters salt iv iterations)⟩ := rfl
  rw [heq, ofIdentifier?, if_pos rfl]
  simp only [items?_standardParameters hsalt hiterations hiv,
    ofElement?_derivation hsalt hiterations, ofElement?_cipher hiv,
    ofIdentifier?_derivation hsalt hiterations, ofIdentifier?_cipher hiv, Option.bind_eq_bind,
    Option.bind_some]
  rfl

theorem ofElement?_standardIdentifier (hsalt : salt.length + 256 ≤ maxLength)
    (hiterations : iterations < Nat.pow 256 4) (hiv : iv.length = Cbc.blockSize) :
    AlgorithmIdentifier.ofElement? (standardIdentifier salt iv iterations).element =
      some (standardIdentifier salt iv iterations) := by
  have hlength := length_standardParameters_le salt hiterations hiv
  refine AlgorithmIdentifier.ofElement?_element rfl ⟨rfl, ?_⟩ fun p hp => ?_
  · show schemeOid.length ≤ maxLength
    decide
  · rw [← Option.some.inj hp]
    exact ⟨rfl, Nat.le_trans hlength (by omega)⟩

theorem length_standardIdentifier_le (salt : Bytes) (hiterations : iterations < Nat.pow 256 4)
    (hiv : iv.length = Cbc.blockSize) :
    (standardIdentifier salt iv iterations).element.content.length ≤ salt.length + 170 := by
  have hle := length_sequence_le [Der.oid schemeOid, standardParameters salt iv iterations]
  have hoid : (Der.oid schemeOid).content.length = 9 := by decide
  have hparameters := length_standardParameters_le salt hiterations hiv
  simp only [List.map_cons, List.map_nil, List.sum_cons, List.sum_nil] at hle
  exact Nat.le_trans hle (by omega)

/-- The choice for new keys decrypts what it encrypted. -/
theorem decrypt?_standard (hiv : iv.length = Cbc.blockSize) (passphrase container : Bytes) :
    (standard salt iv iterations).decrypt? passphrase (Cbc.encrypt
      ((standard salt iv iterations).derivation.derive passphrase 32) iv container) =
      some container := by
  have hkey : ((standard salt iv iterations).derivation.derive passphrase 32).length = 32 :=
    Pbkdf2.length_derive passphrase salt iterations
  exact Cbc.decrypt?_encrypt (by rw [hkey]; decide) hiv container

end Parameters

end Encryption

/-! ## Encrypted keys -/

/-- What fits where it is written: the iterations, the initial vector, and the parts that
may be long. -/
structure Der.Fits (container : Bytes) (iterations : Nat) (entropy : KeyEntropy) : Prop where
  iterations : iterations < Nat.pow 256 4
  iv : entropy.iv.length = Cbc.blockSize
  length : entropy.salt.length + container.length + 512 ≤ maxLength

namespace EncryptedContainer

/-- What an identifier and an encrypted text hold, if the identifier is read as it was
written. -/
theorem open?_sequence {identifier : AlgorithmIdentifier} {encryption : Encryption}
    {passphrase text container : Bytes}
    (hread : AlgorithmIdentifier.ofElement? identifier.element = some identifier)
    (hencryption : Encryption.ofIdentifier? identifier = some encryption)
    (hdecrypt : encryption.decrypt? passphrase text = some container)
    (hsequence : isSequence container = true)
    (hlength : identifier.element.content.length + text.length + 12 ≤ maxLength) :
    open? (sequence [identifier.element, octets text]).bytes passphrase = some container := by
  have hoctets : (octets text).content.length = text.length := rfl
  have hitems : (sequence [identifier.element, octets text]).items? =
      some [identifier.element, octets text] := by
    refine items?_sequence ?_
    simp only [List.forall_mem_cons]
    exact ⟨⟨rfl, by omega⟩, ⟨rfl, by omega⟩, fun _ h => nomatch h⟩
  have houter : (sequence [identifier.element, octets text]).Writable := by
    have hle := length_sequence_le [identifier.element, octets text]
    simp only [List.map_cons, List.map_nil, List.sum_cons, List.sum_nil] at hle
    exact ⟨rfl, by omega⟩
  rw [open?, single?_bytes houter]
  simp only [hitems, hread, hencryption, octets?_octets, hdecrypt, hsequence, if_true,
    Option.bind_eq_bind, Option.bind_some]
  rfl

theorem open?_ofContainer {container : Bytes} {iterations : Nat} {entropy : KeyEntropy}
    (hfits : Der.Fits container iterations entropy) (hsequence : isSequence container = true)
    (passphrase : Bytes) :
    open? (ofContainer container passphrase entropy.salt entropy.iv iterations) passphrase =
      some container := by
  obtain ⟨hiterations, hiv, hlength⟩ := hfits
  have hsalt : entropy.salt.length + 256 ≤ maxLength := by omega
  have hkey := Pbkdf2.length_derive passphrase entropy.salt iterations
  have htext : (Cbc.encrypt (Pbkdf2.derive .sha256 passphrase entropy.salt iterations 32) entropy.iv
      container).length ≤ container.length + 16 :=
    Cbc.length_encrypt_le (Nat.le_trans (by decide) (Nat.le_of_eq hkey.symm)) hiv container
  have hidentifier := Encryption.length_standardIdentifier_le entropy.salt hiterations hiv
  have hroom := Nat.add_le_add_right (Nat.add_le_add hidentifier htext) 12
  exact open?_sequence (Encryption.ofElement?_standardIdentifier hsalt hiterations hiv)
    (Encryption.ofIdentifier?_standardIdentifier hsalt hiterations hiv)
    (Encryption.decrypt?_standard hiv passphrase container) hsequence
    (Nat.le_trans hroom (by omega))

end EncryptedContainer

/-- A private key container is one sequence. -/
theorem isSequence_of_read? {container : Bytes} {c : PrivateContainer}
    (h : PrivateContainer.read? container = some c) : isSequence container = true := by
  obtain ⟨e, he, h⟩ := Option.bind_eq_some_iff.mp h
  rw [isSequence, he, Option.any_some, decide_eq_true_eq]
  by_cases htag : e.tag = sequenceTag
  · exact htag
  · have hnone : e.items? = none := if_neg htag
    rw [hnone] at h
    exact nomatch h

/-- Under the passphrase of its encryption, a private key is decrypted to the container
that was encrypted, if containers are written as this one was. -/
theorem decrypt_of_encryptPrivateKey {container encrypted : Bytes} {passphrase : String}
    {iterations : Nat} {entropy : KeyEntropy} (hfits : Der.Fits container iterations entropy)
    (hcontainer : (PrivateContainer.read? container).map PrivateContainer.bytes = some container)
    (hencrypted : encryptPrivateKey container passphrase iterations entropy = .ok encrypted)
    (id : KeyId) (algorithm : KeyAlgorithm) :
    EncryptedPrivateKey.decrypt ⟨id, algorithm, encrypted⟩ passphrase = .ok container := by
  obtain ⟨c, hread, hbytes⟩ := Option.map_eq_some_iff.mp hcontainer
  rw [encryptPrivateKey, hread] at hencrypted
  injection hencrypted with hencrypted
  rw [hbytes] at hencrypted
  rw [EncryptedPrivateKey.decrypt, ← hencrypted,
    EncryptedContainer.open?_ofContainer hfits (isSequence_of_read? hread)]

end Provenance
