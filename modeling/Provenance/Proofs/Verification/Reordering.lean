import Provenance.Proofs.Verification.Contents
import Provenance.Proofs.Verification.Order

/-!
# Lists of a layout that have no order

A layout lists its keys, the keys that may sign it and, for each step, those that may
sign for it; and it lists its own signatures. None of these lists is meant to be read
in order, though each of them is gone through in order somewhere in a run:

> `verifyRun_reordered`: with these lists in any other order, and segments and steps
> in place, there is a run iff there was one, and its result is the same, with the
> same violations one by one.

Such layouts are similar (`LayoutBlock.Reordered.similar`), so they have one signed
text, and whoever signed one of them signed the other. Their walks are equal, as
nothing is moved that has an address (`LayoutBlock.Reordered.walk_eq`). That is all
that a run looks at (`verifyRun_withBlock`).
-/

namespace Provenance

/-! ## The same layout in another order -/

/-- The same steps one by one, up to the order of their key ids. -/
structure Segment.Reordered (s t : Segment) : Prop where
  name : s.name = t.name
  steps : List.Forall₂ Step.Similar s.steps t.steps

/-- The same layout and signatures, up to the order of keys, of key ids and of the
signatures. -/
structure LayoutBlock.Reordered (b b' : LayoutBlock) : Prop where
  supplyChainId : b.supplyChainId = b'.supplyChainId
  keys : b.layout.keys.Perm b'.layout.keys
  keyIds : b.layout.authorizedKeyIds.Perm b'.layout.authorizedKeyIds
  segments : List.Forall₂ Segment.Reordered b.layout.segments b'.layout.segments
  endProductRules : b.layout.endProductRules = b'.layout.endProductRules
  signatures : b.signatures.Perm b'.signatures

namespace Segment.Reordered

variable {s t : Segment}

theorem symm (h : s.Reordered t) : t.Reordered s :=
  ⟨h.name.symm, h.steps.flip.imp fun _ _ hst => hst.symm⟩

theorem similar (h : s.Reordered t) : s.Similar t := ⟨h.name, t.steps, .refl _, h.steps⟩

/-- Every step keeps its address. -/
theorem addresses_eq (h : s.Reordered t) : s.addresses = t.addresses := by
  rw [Segment.addresses_eq, Segment.addresses_eq, h.name, ← List.forall₂_eq_eq_eq,
    List.forall₂_map_left_iff, List.forall₂_map_right_iff]
  exact h.steps.imp fun _ _ hst => by rw [hst.name]

end Segment.Reordered

namespace LayoutBlock.Reordered

variable {b b' : LayoutBlock}

theorem symm (h : b.Reordered b') : b'.Reordered b where
  supplyChainId := h.supplyChainId.symm
  keys := h.keys.symm
  keyIds := h.keyIds.symm
  segments := h.segments.flip.imp fun _ _ hst => hst.symm
  endProductRules := h.endProductRules.symm
  signatures := h.signatures.symm

theorem similar (h : b.Reordered b') : b.layout.Similar b'.layout where
  keys := h.keys
  keyIds := h.keyIds
  segments := ⟨_, .refl _, h.segments.imp fun _ _ hst => hst.similar⟩
  endProductRules := h.endProductRules

theorem walk_eq (h : b.Reordered b') : b.layout.walk = b'.layout.walk := by
  have haddresses :
      b.layout.segments.map Segment.addresses = b'.layout.segments.map Segment.addresses := by
    rw [← List.forall₂_eq_eq_eq, List.forall₂_map_left_iff, List.forall₂_map_right_iff]
    exact h.segments.imp fun _ _ hst => hst.addresses_eq
  rw [Layout.walk_eq_flatten, Layout.walk_eq_flatten, haddresses]

end LayoutBlock.Reordered

/-! ## The run -/

theorem LayoutBlock.Reordered.verifyRun_ok {registry : Registry} {r : RunRequest}
    {b : LayoutBlock} {result : RunResult} (h : r.layout.Reordered b)
    (hrun : verifyRun registry r = .ok result) :
    verifyRun registry (r.withBlock b) = .ok result := by
  obtain ⟨policy, hpolicy, _⟩ := verifyRun_eq_ok_iff.mp hrun
  obtain ⟨_, _, hsigned, hlayout, _⟩ := runPolicy_eq_ok_iff.mp hpolicy
  have hl := validateLayout_eq_ok_iff.mp hlayout
  have hne : b.signatures ≠ [] := fun hnil =>
    hsigned.1 (List.perm_nil.mp (hnil ▸ h.signatures))
  exact verifyRun_withBlock (hl.of_similar h.similar) (hl.canonicalText_eq_iff.mpr h.similar)
    h.walk_eq h.supplyChainId hne h.signatures.symm.subset hrun

/-- The order of keys, of key ids and of signatures has no influence on a run: neither
on whether there is one nor on anything in its result. -/
theorem verifyRun_reordered {registry : Registry} {r : RunRequest} {b : LayoutBlock}
    (h : r.layout.Reordered b) (result : RunResult) :
    verifyRun registry r = .ok result ↔ verifyRun registry (r.withBlock b) = .ok result := by
  constructor
  · exact h.verifyRun_ok
  · intro hrun
    have hback : (r.withBlock b).layout.Reordered r.layout := h.symm
    exact hback.verifyRun_ok hrun

namespace Pipeline

/-- Another signature of the first key. -/
def again : Signature := ⟨first.keyId, "00", .ed25519, .sha512⟩

def twiceSigned : LayoutBlock := ⟨"chain", layout, [signature first, again]⟩

/-- The layout with all its lists the other way round. -/
def backwards : LayoutBlock :=
  ⟨"chain", ⟨[third, second, first], [first.keyId],
    [⟨"main", [{ build with authorizedKeyIds := [third.keyId, second.keyId, first.keyId] },
      deploy]⟩], layout.endProductRules⟩, [again, signature first]⟩

theorem reordered_backwards : twiceSigned.Reordered backwards where
  supplyChainId := rfl
  keys := (List.reverse_perm _).symm
  keyIds := .refl _
  segments :=
    have hbuild : build.Similar
        { build with authorizedKeyIds := [third.keyId, second.keyId, first.keyId] } :=
      ⟨rfl, (List.reverse_perm _).symm, rfl, rfl, rfl⟩
    .cons ⟨rfl, .cons hbuild (.cons (.refl _) .nil)⟩ .nil
  endProductRules := rfl
  signatures := .swap _ _ _

/-- A link of another supply chain, so that there is something to tell. -/
def strayed : RunRequest := (request.withBlock twiceSigned).withLinks [foreign]

theorem runViolations_strayed (ring : KeyRing) :
    runViolations ⟨OneStep.registry, strayed.layout.supplyChainId, ring⟩ strayed =
      [.linkDiscarded buildRef "run" first.keyId .wrongSupplyChain,
        .thresholdNotMet buildRef 2 0] := rfl

theorem exists_strayed : ∃ result, verifyRun OneStep.registry strayed = .ok result := by
  refine exists_verifyRun_iff.mpr ⟨keysUsable, ⟨List.cons_ne_nil _ _, fun s hs => ?_⟩,
    validateLayout_eq_ok_iff.mpr wellFormed, rfl⟩
  rcases List.mem_cons.mp hs with rfl | hs
  · exact goodSignature rfl
  · rw [List.mem_singleton.mp hs]
    exact goodSignature rfl

end Pipeline

/-- The layout read backwards gives the same result, with the link that was discarded. -/
theorem pipeline_backwards : ∃ result,
    verifyRun OneStep.registry Pipeline.strayed = .ok result ∧
    result.violations =
      [.linkDiscarded Pipeline.buildRef "run" Pipeline.first.keyId .wrongSupplyChain,
        .thresholdNotMet Pipeline.buildRef 2 0] ∧
    verifyRun OneStep.registry (Pipeline.strayed.withBlock Pipeline.backwards) = .ok result := by
  obtain ⟨result, hresult⟩ := Pipeline.exists_strayed
  obtain ⟨ring, _, heq⟩ := exists_admitted hresult
  refine ⟨result, hresult, ?_, ?_⟩
  · rw [heq]
    exact Pipeline.runViolations_strayed ring
  · exact (verifyRun_reordered Pipeline.reordered_backwards result).mp hresult

end Provenance
