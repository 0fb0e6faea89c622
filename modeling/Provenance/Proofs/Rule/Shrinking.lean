import Provenance.Proofs.Rule.FirstMatch

/-!
# Rule lists and smaller pools

What a rule names in part of a pool is what it names in the pool, and in that part. All
kinds but REQUIRE ask something of every artifact they name, so they hold of fewer
artifacts as well (`Rule.Holds.mono`). For the first-match reading of a list this is all
there is to say: shares and leftover are cut down to the part, and no rule comes to fail.

> `verifyRules_part`: a list without REQUIRE that fails no rule on a pool fails none on
> part of it, and leaves there what it leaves of the pool, as far as that is in the part.
-/

namespace Provenance

/-! ## Outcomes without a failed rule -/

/-- What stays unexplained, if no rule failed. -/
def RuleOutcome.remaining : RuleOutcome → Option (List Artifact)
  | explained => some []
  | ruleFailed _ _ => none
  | unexplained artifacts => some artifacts

/-- A list at whose end something is left, or nothing, has failed no rule, and what is
left is the leftover. -/
theorem remaining_eq_some_iff {rules : List Rule} {c : RuleContext} {left : List Artifact} :
    (verifyRules rules c).remaining = some left ↔
      (∀ i r, ¬FailsAt rules c i r) ∧ left = (leftover rules c.unexplained).toList := by
  have ho := outcomeOf_verifyRules rules c
  cases h : verifyRules rules c with
  | explained =>
    rw [h] at ho
    obtain ⟨hnone, hclaimed⟩ := ho
    have hempty : (leftover rules c.unexplained).toList = [] :=
      List.eq_nil_iff_forall_not_mem.mpr hclaimed
    rw [hempty, RuleOutcome.remaining, Option.some.injEq, and_iff_right hnone, eq_comm]
  | ruleFailed k r =>
    rw [h] at ho
    obtain ⟨i, _, hf, _⟩ := ho
    simp only [RuleOutcome.remaining, reduceCtorEq, false_iff]
    exact fun hnone => hnone.1 i r hf
  | unexplained artifacts =>
    rw [h] at ho
    obtain ⟨hnone, hleft, _⟩ := ho
    rw [← hleft, RuleOutcome.remaining, Option.some.injEq, and_iff_right hnone, eq_comm]

/-! ## Part of a pool -/

theorem Rule.Holds.mono {materials products named part : ArtifactSet} {verified : VerifiedSteps}
    {r : Rule} (hr : ∀ uri, r ≠ require uri) (hpart : ∀ a ∈ part, a ∈ named)
    (h : r.Holds materials products verified named) : r.Holds materials products verified part := by
  cases r with
  | require uri => exact absurd rfl (hr uri)
  | allow _ => exact h
  | disallow _ => exact fun a ha => h a (hpart a ha)
  | matching m =>
    obtain ⟨destination, hdestination, hall⟩ := h
    exact ⟨destination, hdestination, fun a ha => hall a (hpart a ha)⟩
  | _ => exact fun a ha => h a (hpart a ha)

section Part

variable {rules : List Rule} {materials products pool part : ArtifactSet}
  {verified : VerifiedSteps}

theorem mem_share_of_part (hpart : ∀ a ∈ part, a ∈ pool) {i : Nat} {r : Rule} {a : Artifact}
    (ha : a ∈ share rules part i r) : a ∈ share rules pool i r := by
  obtain ⟨hmem, hnamed⟩ := ArtifactSet.mem_filter.mp ha
  exact ArtifactSet.mem_filter.mpr ⟨hpart a hmem, hnamed⟩

/-- What stays of a part is what stays of the pool, in the part. -/
theorem leftover_part (hpart : ∀ a ∈ part, a ∈ pool) :
    leftover rules part = (leftover rules pool).filter fun a => decide (a ∈ part) := by
  ext a
  simp only [leftover, ArtifactSet.mem_filter, decide_eq_true_eq]
  constructor
  · intro h
    exact ⟨⟨hpart a h.1, h.2⟩, h.1⟩
  · intro h
    exact ⟨h.2, h.1.2⟩

/-- A rule that fails on part of a pool fails on the pool. -/
theorem FailsAt.of_part (hrules : ∀ uri, .require uri ∉ rules) (hpart : ∀ a ∈ part, a ∈ pool)
    {i : Nat} {r : Rule} (h : FailsAt rules ⟨materials, products, part, verified⟩ i r) :
    FailsAt rules ⟨materials, products, pool, verified⟩ i r := by
  obtain ⟨hget, hfails⟩ := h
  refine ⟨hget, fun hholds => hfails ⟨hholds.1, ?_⟩⟩
  have hr : ∀ uri, r ≠ .require uri := fun uri heq => hrules uri (heq ▸ List.mem_of_getElem? hget)
  exact hholds.2.mono hr fun a ha => mem_share_of_part hpart ha

theorem remaining_part (hrules : ∀ uri, .require uri ∉ rules) (hpart : ∀ a ∈ part, a ∈ pool)
    {left : List Artifact}
    (h : (verifyRules rules ⟨materials, products, pool, verified⟩).remaining = some left) :
    (verifyRules rules ⟨materials, products, part, verified⟩).remaining =
      some (left.filter fun a => decide (a ∈ part)) := by
  rw [remaining_eq_some_iff] at h ⊢
  obtain ⟨hnone, rfl⟩ := h
  refine ⟨fun i r hf => hnone i r (hf.of_part hrules hpart), ?_⟩
  show _ = (leftover rules part).toList
  rw [leftover_part hpart]
  rfl

end Part

/-- **Rule lists are monotone in the pool.** If a list without REQUIRE fails no rule on a
pool, it fails none on part of it, and what it leaves there is what it leaves of the pool
that is in the part; so it explains the part if it explains the pool. And where it fails
on the part, it has failed on the pool there or earlier. -/
theorem verifyRules_part {rules : List Rule} (hrules : ∀ uri, .require uri ∉ rules)
    (materials products : ArtifactSet) (verified : VerifiedSteps) {pool part : ArtifactSet}
    (hpart : ∀ a ∈ part, a ∈ pool) :
    (∀ left, (verifyRules rules ⟨materials, products, pool, verified⟩).remaining = some left →
      (verifyRules rules ⟨materials, products, part, verified⟩).remaining =
        some (left.filter fun a => decide (a ∈ part))) ∧
    (verifyRules rules ⟨materials, products, pool, verified⟩ = .explained →
      verifyRules rules ⟨materials, products, part, verified⟩ = .explained) ∧
    ∀ i r, verifyRules rules ⟨materials, products, part, verified⟩ = .ruleFailed i r →
      ∃ j ≤ i, ∃ q, verifyRules rules ⟨materials, products, pool, verified⟩ = .ruleFailed j q := by
  refine ⟨fun left => remaining_part hrules hpart, fun h => ?_, fun i r h => ?_⟩
  · rw [verifyRules_eq_iff] at h ⊢
    obtain ⟨hnone, hclaimed⟩ := h
    refine ⟨fun i r hf => hnone i r (hf.of_part hrules hpart), fun a ha => ?_⟩
    obtain ⟨hmem, hleft⟩ := ArtifactSet.mem_filter.mp ha
    exact hclaimed a (ArtifactSet.mem_filter.mpr ⟨hpart a hmem, hleft⟩)
  · exact ((failsAt_of_ruleFailed h).of_part hrules hpart).exists_ruleFailed

/-- REQUIRE asks for something to be there, and in part of a pool it need not be. -/
example :
    let manual : ArtifactSet := .ofList [⟨"manual", "00"⟩]
    verifyRules [.require "manual"] ⟨.empty, manual, manual, .empty⟩ = .explained ∧
      verifyRules [.require "manual"] ⟨.empty, manual, .empty, .empty⟩ =
        .ruleFailed 0 (.require "manual") := by
  decide +kernel

/-! ## A step with something left over -/

namespace Packed

/-- The rules for what is packed. -/
def rules : List Rule := [.create "*.jar", .disallow "*.key", .modify "version"]

def content : StepArtifacts :=
  ⟨.ofList [⟨"notes", "00"⟩, ⟨"version", "01"⟩],
    .ofList [⟨"app.jar", "02"⟩, ⟨"lib.jar", "03"⟩, ⟨"notes", "00"⟩, ⟨"readme", "04"⟩,
      ⟨"version", "05"⟩]⟩

/-- Without one of the programs and one of the texts. -/
def part : ArtifactSet := .ofList [⟨"lib.jar", "03"⟩, ⟨"notes", "00"⟩, ⟨"version", "05"⟩]

end Packed

/-- Two texts that no rule is about are left; of the part it is the one that is there. -/
theorem packed_part :
    (∀ uri, .require uri ∉ Packed.rules) ∧
    (∀ a ∈ Packed.part, a ∈ Packed.content.products) ∧
    (verifyRules Packed.rules (.forSide .products Packed.content .empty)).remaining =
      some [⟨"notes", "00"⟩, ⟨"readme", "04"⟩] ∧
    (verifyRules Packed.rules
      ⟨Packed.content.materials, Packed.content.products, Packed.part, .empty⟩).remaining =
      some [⟨"notes", "00"⟩] := by
  have hrules : ∀ uri, .require uri ∉ Packed.rules := by simp [Packed.rules]
  have hpart : ∀ a ∈ Packed.part, a ∈ Packed.content.products := by decide +kernel
  have hleft : (verifyRules Packed.rules (.forSide .products Packed.content .empty)).remaining =
      some [⟨"notes", "00"⟩, ⟨"readme", "04"⟩] := by
    decide +kernel
  obtain ⟨hremaining, _⟩ := verifyRules_part hrules Packed.content.materials
    Packed.content.products .empty hpart
  refine ⟨hrules, hpart, hleft, ?_⟩
  rw [hremaining _ hleft]
  decide +kernel

end Provenance
