import Mathlib.Data.List.Nodup
import Provenance.Key.Ring
import Provenance.Proofs.Checks
import Provenance.Proofs.Lists

/-!
# What a key ring holds

A ring is built by inserting keys in order, and every insertion checks its key
first. `PublicKey.Usable` is what that check demands, said without the check:

> `ofKeys_eq_ok_iff`: a list of keys makes a ring iff every key of it is usable;
>
> `get?_ofKeys`: under an id the ring then has the last key of the list with that
> id, which is the only one when ids do not repeat (`get?_ofKeys_of_nodup`).

Keys may also be offered one by one, and then a key that is refused leaves the ring as
it was (`offered`). Either way

> `allUsable_offered`: whatever is in a ring is usable.
-/

namespace Provenance

/-- The key's id is the digest of its bytes, and the preferred scheme of its
algorithm accepts the bytes. -/
def PublicKey.Usable (registry : Registry) (k : PublicKey) : Prop :=
  keyIdOf k.key = k.keyId ∧
    ∃ scheme, registry.preferred k.algorithm = .ok scheme ∧ scheme.checkPublicKey k.key = .ok ()

namespace KeyRing

theorem check_eq_ok_iff {registry : Registry} {k : PublicKey} :
    check registry k = .ok () ↔ k.Usable registry := by
  unfold check PublicKey.Usable PublicKey.hasConsistentId
  by_cases hid : keyIdOf k.key = k.keyId
  · rw [if_pos (by simpa using hid), Checks.bind_eq_ok_iff]
    exact ⟨fun h => ⟨hid, h⟩, fun h => h.2⟩
  · rw [if_neg (by simpa using hid)]
    exact ⟨fun h => (nomatch h), fun h => absurd h.1 hid⟩

/-- The ring with a key that was checked. -/
def put (ring : KeyRing) (k : PublicKey) : KeyRing :=
  ⟨k :: ring.keys.filter fun other => other.keyId ≠ k.keyId⟩

theorem insertAll_eq (registry : Registry) :
    ∀ (keys : List PublicKey) (ring : KeyRing), insertAll registry ring keys =
      (do Checks.each (check registry) keys; pure (keys.foldl put ring))
  | [], _ => rfl
  | k :: rest, ring => by
    unfold insertAll insert Checks.each
    -- a key that is refused ends the loop, and no ring is made
    cases check registry k with
    | error e => rfl
    | ok _ => exact insertAll_eq registry rest (ring.put k)

theorem ofKeys_eq_ok_iff {registry : Registry} {keys : List PublicKey} {ring : KeyRing} :
    ofKeys registry keys = .ok ring ↔
      (∀ k ∈ keys, k.Usable registry) ∧ ring = keys.foldl put empty := by
  have hall : Checks.each (check registry) keys = .ok () ↔ ∀ k ∈ keys, k.Usable registry := by
    simp only [Checks.each_eq_ok_iff, check_eq_ok_iff]
  rw [ofKeys, insertAll_eq, Checks.bind_eq_ok_iff, ← hall]
  constructor
  · intro h
    obtain ⟨⟨⟩, hchecked, hring⟩ := h
    injection hring with hring
    exact ⟨hchecked, hring.symm⟩
  · intro h
    obtain ⟨hchecked, rfl⟩ := h
    exact ⟨(), hchecked, rfl⟩

theorem ofKeys_eq_error_iff {registry : Registry} {keys : List PublicKey} {e : CryptoError} :
    ofKeys registry keys = .error e ↔ Checks.FirstError (check registry) keys e := by
  rw [ofKeys, insertAll_eq, Checks.bind_eq_error_iff, Checks.each_eq_error_iff]
  constructor
  · intro h
    rcases h with h | ⟨_, _, h⟩
    · exact h
    · exact nomatch h
  · exact .inl

theorem get?_put (ring : KeyRing) (k : PublicKey) (id : KeyId) :
    (ring.put k).get? id = if k.keyId = id then some k else ring.get? id := by
  exact find?_replace PublicKey.keyId k ring.keys id

theorem get?_foldl_put (id : KeyId) :
    ∀ (keys : List PublicKey) (ring : KeyRing), (keys.foldl put ring).get? id =
      (keys.findRev? fun k => k.keyId = id).or (ring.get? id)
  | [], ring => by simp
  | k :: rest, ring => by
    rw [List.foldl_cons, get?_foldl_put id rest, get?_put]
    simp only [List.findRev?_eq_find?_reverse, List.reverse_cons, List.find?_append,
      Option.or_assoc]
    -- keys that come later are put on top, so they are found first
    congr 1
    by_cases h : k.keyId = id <;> simp [h]

/-- The last key with an id is the one that counts. -/
theorem get?_ofKeys {registry : Registry} {keys : List PublicKey} {ring : KeyRing}
    (h : ofKeys registry keys = .ok ring) (id : KeyId) :
    ring.get? id = keys.findRev? fun k => k.keyId = id := by
  rw [(ofKeys_eq_ok_iff.mp h).2, get?_foldl_put]
  simp [empty, get?]

theorem get?_ofKeys_of_nodup {registry : Registry} {keys : List PublicKey} {ring : KeyRing}
    (h : ofKeys registry keys = .ok ring) (hn : (keys.map PublicKey.keyId).Nodup) {id : KeyId}
    {k : PublicKey} : ring.get? id = some k ↔ k ∈ keys ∧ k.keyId = id := by
  rw [get?_ofKeys h, findRev?_eq_some_iff_of_nodup hn]

/-! ## Keys that are offered one by one -/

section Offered

variable {registry : Registry}

theorem insert_eq_ok_iff {ring ring' : KeyRing} {k : PublicKey} :
    ring.insert registry k = .ok ring' ↔ k.Usable registry ∧ ring' = ring.put k := by
  rw [insert, Checks.bind_eq_ok_iff, ← check_eq_ok_iff]
  constructor
  · intro h
    obtain ⟨⟨⟩, hchecked, h⟩ := h
    injection h with h
    exact ⟨hchecked, h.symm⟩
  · intro h
    obtain ⟨hchecked, rfl⟩ := h
    exact ⟨(), hchecked, rfl⟩

/-- The ring after a key was offered: with the key, or as it was if the key is refused. -/
def offer (registry : Registry) (ring : KeyRing) (k : PublicKey) : KeyRing :=
  match ring.insert registry k with
  | .ok ring => ring
  | .error _ => ring

/-- The ring after keys were offered, some of which may be refused. -/
def offered (registry : Registry) (keys : List PublicKey) : KeyRing :=
  keys.foldl (offer registry) empty

/-- All that is in the ring is usable. -/
def AllUsable (registry : Registry) (ring : KeyRing) : Prop := ∀ k ∈ ring.keys, k.Usable registry

theorem AllUsable.offer {ring : KeyRing} (h : AllUsable registry ring) (k : PublicKey) :
    AllUsable registry (ring.offer registry k) := by
  unfold KeyRing.offer
  cases hinsert : ring.insert registry k with
  | error e => exact h
  | ok ring' =>
    obtain ⟨hk, rfl⟩ := insert_eq_ok_iff.mp hinsert
    intro other hmem
    rcases List.mem_cons.mp hmem with rfl | hmem
    · exact hk
    · exact h other (List.mem_filter.mp hmem).1

theorem AllUsable.foldl : ∀ (keys : List PublicKey) {ring : KeyRing}, AllUsable registry ring →
    AllUsable registry (keys.foldl (KeyRing.offer registry) ring)
  | [], _, h => h
  | k :: keys, _, h => AllUsable.foldl keys (h.offer k)

/-- What is in a ring was checked when it came in. -/
theorem allUsable_offered (keys : List PublicKey) : AllUsable registry (offered registry keys) :=
  AllUsable.foldl keys fun _ h => absurd h List.not_mem_nil

theorem offer_of_usable {k : PublicKey} (h : k.Usable registry) (ring : KeyRing) :
    ring.offer registry k = ring.put k := by
  rw [offer, insert_eq_ok_iff.mpr ⟨h, rfl⟩]

/-- A ring that is made of a list of keys has them offered. -/
theorem ofKeys_eq_offered {keys : List PublicKey} {ring : KeyRing}
    (h : ofKeys registry keys = .ok ring) : ring = offered registry keys := by
  obtain ⟨husable, rfl⟩ := ofKeys_eq_ok_iff.mp h
  exact List.foldl_ext _ _ _ fun ring k hk => (offer_of_usable (husable k hk) ring).symm

theorem allUsable_of_ofKeys {keys : List PublicKey} {ring : KeyRing}
    (h : ofKeys registry keys = .ok ring) : ring.AllUsable registry := by
  rw [ofKeys_eq_offered h]
  exact allUsable_offered keys

end Offered

end KeyRing

end Provenance
