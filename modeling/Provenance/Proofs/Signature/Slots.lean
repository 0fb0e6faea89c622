import Provenance.Layout.Basic
import Provenance.Proofs.Lists

/-!
# One signature in each slot

A layout is signed again and again, by several keys and in any order. Each new signature
takes the place of the one in its slot, and which slot that is does not depend on the
signature's bytes, so old bytes do not survive:

> `addSignatures_slots`: of the old signatures those stay whose slot was not signed anew,
> and the last new one of each slot follows them.

What is left is counted by slots, and a hash set of signatures counts in the same way,
because their hash is a function of the slot too (`lawfulHashable_hashOf`).
-/

namespace Provenance

namespace Signature

/-- What a slot is named by. -/
abbrev Slot := KeyId × KeyAlgorithm × HashAlgorithm

/-- The slots of signatures. -/
def slots (signatures : List Signature) : List Slot := signatures.map slot

/-- The last signature in each slot, in the order in which they were made. -/
def latest (signatures : List Signature) : List Signature := lastBy slot signatures

/-! ## Sets of signatures -/

/-- Signatures are the same if their slots are. -/
abbrev sameSlot : BEq Signature := ⟨fun s t => s.slot == t.slot⟩

/-- The hash of a signature is one of its slot. -/
abbrev hashOf (hash : Slot → UInt64) : Hashable Signature := ⟨fun s => hash s.slot⟩

theorem sameSlot_iff (s t : Signature) : sameSlot.beq s t = true ↔ s.slot = t.slot := by
  show (s.slot == t.slot) = true ↔ _
  exact beq_iff_eq

/-- Signatures that are the same have the same hash. -/
theorem lawfulHashable_hashOf (hash : Slot → UInt64) :
    @LawfulHashable Signature sameSlot (hashOf hash) :=
  @LawfulHashable.mk Signature sameSlot (hashOf hash) fun s t h =>
    congrArg hash ((sameSlot_iff s t).mp h)

/-- A hash set of signatures. -/
def hashSet (hash : Slot → UInt64) (signatures : List Signature) :
    @Std.HashSet Signature sameSlot (hashOf hash) :=
  @Std.HashSet.ofList Signature sameSlot (hashOf hash) signatures

theorem size_hashSet (hash : Slot → UInt64) (signatures : List Signature) :
    (hashSet hash signatures).size = (slots signatures).dedup.length :=
  @size_ofList_eq Signature Slot sameSlot slot _ (hashOf hash) (lawfulHashable_hashOf hash)
    sameSlot_iff signatures

end Signature

namespace LayoutBlock

open Signature

/-! ## One signing after the other -/

/-- The block with more signatures, added in order. -/
def addSignatures (b : LayoutBlock) (new : List Signature) : LayoutBlock :=
  new.foldl addSignature b

theorem addSignatures_eq : ∀ (new : List Signature) (b : LayoutBlock),
    b.addSignatures new =
      { b with signatures := new.foldl (fun l s => s.replaceIn l) b.signatures }
  | [], _ => rfl
  | s :: new, b => addSignatures_eq new (b.addSignature s)

theorem signatures_addSignatures (b : LayoutBlock) (new : List Signature) :
    (b.addSignatures new).signatures =
      b.signatures.filter (fun s => s.slot ∉ slots new) ++ latest new := by
  rw [addSignatures_eq]
  refine (foldl_replace slot new b.signatures).trans (congrArg (· ++ latest new) ?_)
  exact List.filter_congr fun s _ => decide_eq_decide.mpr Iff.rfl

theorem slots_addSignatures (b : LayoutBlock) (new : List Signature) :
    slots (b.addSignatures new).signatures =
      (slots b.signatures).filter (· ∉ slots new) ++ (slots new).dedup := by
  have hold := List.filter_map (f := slot) (p := (· ∉ slots new)) (l := b.signatures)
  rw [signatures_addSignatures, slots, List.map_append, latest, map_lastBy]
  exact congrArg (· ++ _) hold.symm

/-- The slots are those there were and those that were signed. -/
theorem mem_slots_addSignatures (b : LayoutBlock) (new : List Signature) (slot : Slot) :
    slot ∈ slots (b.addSignatures new).signatures ↔ slot ∈ slots (b.signatures ++ new) := by
  have happend : slots (b.signatures ++ new) = slots b.signatures ++ slots new :=
    List.map_append
  rw [slots_addSignatures, happend, List.mem_append, List.mem_append, List.mem_filter,
    List.mem_dedup]
  by_cases h : slot ∈ slots new <;> simp [h]

theorem nodup_slots_addSignatures {b : LayoutBlock} (h : (slots b.signatures).Nodup)
    (new : List Signature) : (slots (b.addSignatures new).signatures).Nodup := by
  rw [slots_addSignatures, List.nodup_append]
  refine ⟨h.filter _, List.nodup_dedup _, ?_⟩
  rintro slot hold _ hnew rfl
  rw [List.mem_dedup] at hnew
  exact absurd hnew (by simpa using (List.mem_filter.mp hold).2)

theorem length_addSignatures {b : LayoutBlock} (h : (slots b.signatures).Nodup)
    (new : List Signature) : (b.addSignatures new).signatures.length =
      (slots (b.signatures ++ new)).dedup.length := by
  have hperm : (slots (b.addSignatures new).signatures).Perm
      (slots (b.signatures ++ new)).dedup := by
    refine (List.perm_ext_iff_of_nodup (nodup_slots_addSignatures h new)
      (List.nodup_dedup _)).mpr fun slot => ?_
    rw [mem_slots_addSignatures, List.mem_dedup]
  rw [← hperm.length_eq, slots, List.length_map]

/-- **There is one signature in each slot that was signed.** After any signings the old
signatures whose slot was not signed are there, unchanged and in their order, and then
the last new signature of each slot that was, in the order of these last ones. Nothing
else of the block has changed. If slots were distinct they still are, and there are as
many signatures as a set of all of them, old and new, has members. -/
theorem addSignatures_slots (b : LayoutBlock) (new : List Signature) :
    ((b.addSignatures new).supplyChainId = b.supplyChainId ∧
      (b.addSignatures new).layout = b.layout) ∧
    (b.addSignatures new).signatures =
      b.signatures.filter (fun s => s.slot ∉ slots new) ++ latest new ∧
    (latest new).Sublist new ∧
    (∀ s, s ∈ latest new ↔
      ∃ before after, new = before ++ s :: after ∧ s.slot ∉ slots after) ∧
    (∀ slot ∈ slots new, (slots (b.addSignatures new).signatures).count slot = 1) ∧
    ((slots b.signatures).Nodup →
      (slots (b.addSignatures new).signatures).Nodup ∧
      (b.addSignatures new).signatures.length = (slots (b.signatures ++ new)).dedup.length ∧
      ∀ hash, (b.addSignatures new).signatures.length =
        (hashSet hash (b.signatures ++ new)).size) := by
  refine ⟨?_, signatures_addSignatures b new, List.pwFilter_sublist new, fun s => mem_lastBy_iff,
    fun slot hslot => ?_, fun h => ⟨nodup_slots_addSignatures h new, length_addSignatures h new,
      fun hash => ?_⟩⟩
  · rw [addSignatures_eq]
    exact ⟨rfl, rfl⟩
  · have hold : ((slots b.signatures).filter (· ∉ slots new)).count slot = 0 :=
      List.count_eq_zero.mpr fun h => by simp [hslot] at h
    rw [slots_addSignatures, List.count_append, hold, Nat.zero_add]
    exact List.count_eq_one_of_mem (List.nodup_dedup _) (List.mem_dedup.mpr hslot)
  · rw [length_addSignatures h, size_hashSet]

/-- A key that has signed a layout signs it twice more, and another key in between:
its earlier signatures are gone, and the last one stands at the end. The set has the
three slots, also when all hashes are equal. -/
theorem signedTwice_slots :
    let sig (key bytes : String) : Signature := ⟨key, bytes, .ed25519, .sha512⟩
    let block : LayoutBlock := ⟨"chain", default, [sig "one" "aa", sig "two" "bb"]⟩
    let signed := block.addSignatures [sig "one" "cc", sig "three" "dd", sig "one" "ee"]
    signed.signatures = [sig "two" "bb", sig "three" "dd", sig "one" "ee"] ∧
      (slots signed.signatures).Nodup ∧
      (hashSet (fun _ => 0) (block.signatures ++
        [sig "one" "cc", sig "three" "dd", sig "one" "ee"])).size = 3 := by
  intro sig block signed
  obtain ⟨_, hsignatures, _, _, _, hdistinct⟩ := addSignatures_slots block
    [sig "one" "cc", sig "three" "dd", sig "one" "ee"]
  obtain ⟨hnodup, _, hset⟩ := hdistinct (by decide)
  have heq : signed.signatures = [sig "two" "bb", sig "three" "dd", sig "one" "ee"] :=
    hsignatures.trans (by decide)
  refine ⟨heq, hnodup, (hset _).symm.trans ?_⟩
  rw [heq]
  rfl

end LayoutBlock

end Provenance
