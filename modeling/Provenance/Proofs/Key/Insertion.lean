import Mathlib.Data.Finset.Card
import Mathlib.Data.Finset.Dedup
import Provenance.Proofs.Key.Ring

/-!
# Keys that are put in one after the other

`insertInPlace` changes a ring where it is, and a call that fails would leave behind what
it changed before it failed. It does not, since the change comes after all that may fail:

> `run_insertInPlace`: a call does to the ring what `insert` does, or nothing.

So a call succeeds iff the key is usable, whatever ring it is made on. After calls of which
some may have failed the ring is the one that the keys make that got in
(`insertEach_snd`), and of them the last under each id is kept (`get?_foldl_put_empty_iff`,
`size_foldl_put_empty`):

> `insertions_exact`: what is in the ring is usable and was the last to get in under its
> id, and nothing else is there; and keys make a ring iff each of them is usable.
-/

namespace Provenance

namespace KeyRing

/-! ## One call -/

/-- Puts a key into a ring in place. -/
def insertInPlace (registry : Registry) (k : PublicKey) : EStateM CryptoError KeyRing Unit := do
  unless k.hasConsistentId do
    throw (.invalidKeyMaterial (.wrongId k.keyId))
  let scheme ← ofExcept (registry.preferred k.algorithm)
  ofExcept (scheme.checkPublicKey k.key)
  modify (put · k)

section Call

variable {registry : Registry} {ring ring' : KeyRing} {k : PublicKey}

/-- Both checks are made before the ring is changed. -/
theorem run_insertInPlace (registry : Registry) (k : PublicKey) (ring : KeyRing) :
    (insertInPlace registry k).run ring =
      match ring.insert registry k with
      | .ok ring' => .ok () ring'
      | .error e => .error e ring := by
  unfold insertInPlace insert check
  by_cases hid : k.hasConsistentId = true
  · rw [if_pos hid, if_pos hid]
    cases registry.preferred k.algorithm with
    | error e => rfl
    | ok scheme =>
      -- the bytes are checked next, and the change is all that comes after
      show (do ofExcept (scheme.checkPublicKey k.key); modify (put · k) : EStateM _ _ _).run ring =
        match (do scheme.checkPublicKey k.key; pure (ring.put k)) with
        | .ok ring' => .ok () ring'
        | .error e => .error e ring
      cases scheme.checkPublicKey k.key with
      | error e => rfl
      | ok _ => rfl
  · rw [if_neg hid, if_neg hid]
    rfl

theorem run_insertInPlace_eq_ok_iff :
    (insertInPlace registry k).run ring = .ok () ring' ↔ ring.insert registry k = .ok ring' := by
  rw [run_insertInPlace]
  cases ring.insert registry k with
  | error e => exact ⟨fun h => (nomatch h), fun h => (nomatch h)⟩
  | ok last =>
    constructor
    · intro h
      injection h with _ h
      rw [h]
    · intro h
      injection h with h
      rw [h]

/-- A call that fails leaves the ring as it was. -/
theorem run_insertInPlace_eq_error_iff {e : CryptoError} :
    (insertInPlace registry k).run ring = .error e ring' ↔
      ring.insert registry k = .error e ∧ ring' = ring := by
  rw [run_insertInPlace]
  cases ring.insert registry k with
  | error cause =>
    constructor
    · intro h
      injection h with hcause hring
      exact ⟨by rw [hcause], hring.symm⟩
    · rintro ⟨h, rfl⟩
      injection h with hcause
      rw [hcause]
  | ok last => exact ⟨fun h => (nomatch h), fun h => (nomatch h.1)⟩

theorem offer_of_not_usable (h : ¬k.Usable registry) (ring : KeyRing) :
    ring.offer registry k = ring := by
  unfold offer
  cases hinsert : ring.insert registry k with
  | error e => rfl
  | ok ring' => exact absurd (insert_eq_ok_iff.mp hinsert).1 h

end Call

/-! ## Call after call -/

/-- Calls one after the other, whatever each of them gives: the keys that got in, in
order, and the ring in the end. -/
def insertEach (registry : Registry) : List PublicKey → KeyRing → List PublicKey × KeyRing
  | [], ring => ([], ring)
  | k :: rest, ring =>
    match (insertInPlace registry k).run ring with
    | .ok _ ring =>
      let (inserted, last) := insertEach registry rest ring
      (k :: inserted, last)
    | .error _ ring => insertEach registry rest ring

section Calls

variable {registry : Registry}

theorem insertEach_cons_of_usable {k : PublicKey} (h : k.Usable registry) (rest : List PublicKey)
    (ring : KeyRing) : insertEach registry (k :: rest) ring =
      (k :: (insertEach registry rest (ring.put k)).1,
        (insertEach registry rest (ring.put k)).2) := by
  have hinsert : ring.insert registry k = .ok (ring.put k) := insert_eq_ok_iff.mpr ⟨h, rfl⟩
  rw [insertEach, run_insertInPlace_eq_ok_iff.mpr hinsert]

theorem insertEach_cons_of_not_usable {k : PublicKey} (h : ¬k.Usable registry)
    (rest : List PublicKey) (ring : KeyRing) :
    insertEach registry (k :: rest) ring = insertEach registry rest ring := by
  rw [insertEach]
  cases hrun : (insertInPlace registry k).run ring with
  | ok _ ring' =>
    exact absurd (insert_eq_ok_iff.mp (run_insertInPlace_eq_ok_iff.mp hrun)).1 h
  | error e ring' => rw [(run_insertInPlace_eq_error_iff.mp hrun).2]

/-- The keys that did not get in left no trace. -/
theorem insertEach_snd : ∀ (keys : List PublicKey) (ring : KeyRing),
    (insertEach registry keys ring).2 = (insertEach registry keys ring).1.foldl put ring
  | [], _ => rfl
  | k :: rest, ring => by
    by_cases hk : k.Usable registry
    · rw [insertEach_cons_of_usable hk]
      exact insertEach_snd rest (ring.put k)
    · rw [insertEach_cons_of_not_usable hk]
      exact insertEach_snd rest ring

/-- The ring in the end is the one to which the keys were offered. -/
theorem insertEach_snd_eq_foldl : ∀ (keys : List PublicKey) (ring : KeyRing),
    (insertEach registry keys ring).2 = keys.foldl (offer registry) ring
  | [], _ => rfl
  | k :: rest, ring => by
    rw [List.foldl_cons]
    by_cases hk : k.Usable registry
    · rw [insertEach_cons_of_usable hk, offer_of_usable hk]
      exact insertEach_snd_eq_foldl rest (ring.put k)
    · rw [insertEach_cons_of_not_usable hk, offer_of_not_usable hk]
      exact insertEach_snd_eq_foldl rest ring

/-- Keys that are all usable all get in. -/
theorem insertEach_of_usable : ∀ {keys : List PublicKey}, (∀ k ∈ keys, k.Usable registry) →
    ∀ ring : KeyRing, insertEach registry keys ring = (keys, keys.foldl put ring)
  | [], _, _ => rfl
  | k :: rest, h, ring => by
    rw [List.forall_mem_cons] at h
    rw [insertEach_cons_of_usable h.1, insertEach_of_usable h.2]
    rfl

end Calls

/-! ## Which keys are kept -/

/-- Seen from its end, a ring grows like a list in which entries replace each other. -/
theorem reverse_keys_foldl_put : ∀ (keys : List PublicKey) (ring : KeyRing),
    (keys.foldl put ring).keys.reverse =
      keys.foldl (fun l k => l.filter (fun other => other.keyId ≠ k.keyId) ++ [k])
        ring.keys.reverse
  | [], _ => rfl
  | k :: rest, ring => by
    rw [List.foldl_cons, List.foldl_cons, reverse_keys_foldl_put rest, put, List.reverse_cons,
      List.filter_reverse]

theorem keys_foldl_put_empty (keys : List PublicKey) :
    (keys.foldl put empty).keys.reverse = lastBy PublicKey.keyId keys := by
  rw [reverse_keys_foldl_put, foldl_replace]
  rfl

theorem get?_foldl_put_empty_iff {keys : List PublicKey} {id : KeyId} {k : PublicKey} :
    (keys.foldl put empty).get? id = some k ↔
      k.keyId = id ∧ ∃ before after, keys = before ++ k :: after ∧
        id ∉ after.map PublicKey.keyId := by
  have hnodup : ((keys.foldl put empty).keys.map PublicKey.keyId).Nodup := by
    rw [← List.nodup_reverse, ← List.map_reverse, keys_foldl_put_empty, map_lastBy]
    exact List.nodup_dedup _
  rw [get?, find?_eq_some_iff_of_nodup hnodup, ← List.mem_reverse, keys_foldl_put_empty,
    mem_lastBy_iff, and_comm]
  constructor
  · rintro ⟨rfl, hlast⟩
    exact ⟨rfl, hlast⟩
  · rintro ⟨rfl, hlast⟩
    exact ⟨rfl, hlast⟩

theorem size_foldl_put_empty (keys : List PublicKey) :
    (keys.foldl put empty).size = (keys.map PublicKey.keyId).toFinset.card := by
  rw [size, ← List.length_reverse, keys_foldl_put_empty, ← List.length_map PublicKey.keyId,
    map_lastBy, List.card_toFinset]

/-- **What a key ring holds.** After any calls on the empty ring, each key under an id has
that id, which is the digest of its bytes, and the preferred scheme of its algorithm
accepts them; it is the last that got in under the id, and every id under which a key got
in counts once. A call in place gives the ring that `insert` gives, or fails with its error
and leaves the ring as it was; it succeeds iff the key is usable. Keys make a ring iff each
of them is usable, in whatever order they come, and then it is the ring of the calls. -/
theorem insertions_exact (registry : Registry) :
    (∀ keys inserted ring, insertEach registry keys empty = (inserted, ring) →
      (∀ id k, ring.get? id = some k →
        k.keyId = id ∧ id = Hex.encode (HashFunction.sha256.digest k.key) ∧
          ∃ scheme, registry.preferred k.algorithm = .ok scheme ∧
            scheme.checkPublicKey k.key = .ok ()) ∧
      (∀ id k, ring.get? id = some k ↔
        k.keyId = id ∧ ∃ before after, inserted = before ++ k :: after ∧
          id ∉ after.map PublicKey.keyId) ∧
      ring.size = (inserted.map PublicKey.keyId).toFinset.card) ∧
    (∀ ring k ring',
      (insertInPlace registry k).run ring = .ok () ring' ↔ ring.insert registry k = .ok ring') ∧
    (∀ ring k e ring', (insertInPlace registry k).run ring = .error e ring' ↔
      ring.insert registry k = .error e ∧ ring' = ring) ∧
    (∀ (ring : KeyRing) k, (∃ ring', ring.insert registry k = .ok ring') ↔ k.Usable registry) ∧
    (∀ keys keys' : List PublicKey, keys.Perm keys' →
      ((∃ ring, ofKeys registry keys' = .ok ring) ↔ ∀ k ∈ keys, k.Usable registry)) ∧
    ∀ keys ring, ofKeys registry keys = .ok ring →
      insertEach registry keys empty = (keys, ring) := by
  refine ⟨fun keys inserted ring h => ?_, fun _ _ _ => run_insertInPlace_eq_ok_iff,
    fun _ _ _ _ => run_insertInPlace_eq_error_iff, fun ring k => ?_, fun keys keys' hperm => ?_,
    fun keys ring h => ?_⟩
  · have hring : ring = inserted.foldl put empty := by
      have hlast : (insertEach registry keys empty).2 = _ := insertEach_snd keys empty
      rwa [h] at hlast
    have hoffered : ring = offered registry keys := by
      have hlast : (insertEach registry keys empty).2 = _ := insertEach_snd_eq_foldl keys empty
      rwa [h] at hlast
    have husable : AllUsable registry ring := hoffered ▸ allUsable_offered keys
    refine ⟨fun id k hk => ?_, fun id k => ?_, ?_⟩
    · obtain ⟨hid, hscheme⟩ := husable k (List.mem_of_find?_eq_some hk)
      have hkey : k.keyId = id := by simpa using List.find?_some hk
      exact ⟨hkey, hkey ▸ hid.symm, hscheme⟩
    · rw [hring]
      exact get?_foldl_put_empty_iff
    · rw [hring]
      exact size_foldl_put_empty inserted
  · simp only [insert_eq_ok_iff, exists_and_left, exists_eq, and_true]
  · simp only [ofKeys_eq_ok_iff, hperm.mem_iff, exists_and_left, exists_eq, and_true]
  · obtain ⟨husable, rfl⟩ := ofKeys_eq_ok_iff.mp h
    exact insertEach_of_usable husable empty

/-! ### One id under several algorithms -/

namespace SharedBytes

/-- A scheme that accepts all bytes as keys. -/
def scheme (algorithm : KeyAlgorithm) : Scheme where
  keyAlgorithm := algorithm
  hashAlgorithm := .sha512
  generate _ := .ok ([], [])
  checkPublicKey _ := .ok ()
  sign _ _ := .ok []
  verify _ _ _ := .ok true

def registry : Registry := .ofList [scheme .ed25519, scheme .ec]

/-- The key of an algorithm with no bytes, which has the same id for all algorithms. -/
def key (algorithm : KeyAlgorithm) : PublicKey := .ofBytes algorithm []

theorem usable_ed25519 : (key .ed25519).Usable registry := ⟨rfl, scheme .ed25519, rfl, rfl⟩

theorem usable_ec : (key .ec).Usable registry := ⟨rfl, scheme .ec, rfl, rfl⟩

theorem not_usable_rsa : ¬(key .rsa).Usable registry := by
  rintro ⟨_, scheme, hscheme, _⟩
  exact nomatch hscheme

theorem exists_insertEach : ∃ ring,
    insertEach registry [key .ed25519, key .ec, key .rsa] empty =
      ([key .ed25519, key .ec], ring) := by
  rw [insertEach_cons_of_usable usable_ed25519, insertEach_cons_of_usable usable_ec,
    insertEach_cons_of_not_usable not_usable_rsa]
  exact ⟨_, rfl⟩

end SharedBytes

/-- Of three keys with one id the last is refused, the second took the place of the first,
and so it is the one that the ring holds. -/
theorem sharedBytes_inserted :
    ∃ ring, insertEach SharedBytes.registry
          [SharedBytes.key .ed25519, SharedBytes.key .ec, SharedBytes.key .rsa] empty =
        ([SharedBytes.key .ed25519, SharedBytes.key .ec], ring) ∧
      ring.get? (SharedBytes.key .rsa).keyId = some (SharedBytes.key .ec) ∧ ring.size = 1 ∧
      (∃ e, (insertInPlace SharedBytes.registry (SharedBytes.key .rsa)).run ring =
        .error e ring) ∧
      ∃ ring', ofKeys SharedBytes.registry [SharedBytes.key .ec, SharedBytes.key .ed25519] =
          .ok ring' ∧
        insertEach SharedBytes.registry [SharedBytes.key .ec, SharedBytes.key .ed25519] empty =
          ([SharedBytes.key .ec, SharedBytes.key .ed25519], ring') := by
  obtain ⟨hheld, hdone, hfailed, hcall, hkeys, hmade⟩ := insertions_exact SharedBytes.registry
  obtain ⟨ring, hring⟩ := SharedBytes.exists_insertEach
  obtain ⟨_, hlast, hsize⟩ := hheld _ _ _ hring
  refine ⟨ring, hring, (hlast _ _).mpr ⟨rfl, [SharedBytes.key .ed25519], [], rfl, by simp⟩, ?_,
    ?_, ?_⟩
  · rw [hsize]
    simp [SharedBytes.key, PublicKey.ofBytes]
  · cases hrun : (insertInPlace SharedBytes.registry (SharedBytes.key .rsa)).run ring with
    | ok _ ring' =>
      have hinsert := (hdone _ _ _).mp hrun
      exact absurd ((hcall _ _).mp ⟨ring', hinsert⟩) SharedBytes.not_usable_rsa
    | error e ring' => exact ⟨e, by rw [((hfailed _ _ _ _).mp hrun).2]⟩
  · have husable : ∀ k ∈ [SharedBytes.key .ed25519, SharedBytes.key .ec],
        k.Usable SharedBytes.registry := by
      simp only [List.forall_mem_cons]
      exact ⟨SharedBytes.usable_ed25519, SharedBytes.usable_ec, List.forall_mem_nil _⟩
    obtain ⟨ring', hring'⟩ := (hkeys _ _ (.swap _ _ [])).mpr husable
    exact ⟨ring', hring', hmade _ _ hring'⟩

end KeyRing

end Provenance
