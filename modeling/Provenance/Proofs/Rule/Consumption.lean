import Provenance.Proofs.Rule.Selection

/-!
# What a rule takes out of the pool

The rules of a list share one pool. A rule that succeeds takes out of it what it
explains, and a rule that fails must leave no trace. Both hold of every pool, also of
one that has nothing to do with the two sides of the step:

> `evaluate_takes`: a rule that fails changes nothing. One that succeeds takes
> exactly the artifacts that it names, DISALLOW none of them, and nothing but the
> pool is changed.

The rule to look at is MODIFY, which marks more than it names: whatever is at a path
of a named artifact, on both sides of the step. As a pattern reads paths only, none of
that is in the pool without being named (`mem_bothSides_named`).
-/

namespace Provenance.RuleContext

variable {c : RuleContext} {r : Rule}

theorem mem_after_iff {a : Artifact} :
    a ∈ (c.after r).unexplained ↔
      a ∈ c.unexplained ∧ ¬(r.Names a ∧ ∀ pattern, r ≠ .disallow pattern) := by
  rw [after, ArtifactSet.mem_filter, Bool.not_eq_true', ← Bool.not_eq_true, Rule.claims_iff]

/-- Whether a rule succeeds or fails, only the pool can change. -/
theorem evaluate_frame (c : RuleContext) (r : Rule) :
    (c.evaluate r).2.materials = c.materials ∧ (c.evaluate r).2.products = c.products ∧
      (c.evaluate r).2.verified = c.verified := by
  cases h : (c.evaluate r).1 with
  | false =>
    rw [evaluate_snd_of_false h]
    exact ⟨rfl, rfl, rfl⟩
  | true =>
    rw [evaluate_snd_of_true h]
    exact ⟨rfl, rfl, rfl⟩

/-- A rule takes what it names or nothing. If it fails, the pool is what it was. If it
succeeds, exactly the named artifacts are gone, and for DISALLOW none; what MODIFY
marks beyond them, at their paths on either side, is not in the pool. -/
theorem evaluate_takes (c : RuleContext) (r : Rule) :
    ((c.evaluate r).1 = false → (c.evaluate r).2.unexplained = c.unexplained) ∧
    ((c.evaluate r).1 = true → (∀ pattern, r ≠ .disallow pattern) →
      ∀ a, a ∈ (c.evaluate r).2.unexplained ↔ a ∈ c.unexplained ∧ ¬r.Names a) ∧
    (∀ pattern, r = .disallow pattern → (c.evaluate r).2.unexplained = c.unexplained) ∧
    (∀ pattern, r = .modify pattern →
      (∀ a, a ∈ c.bothSides (c.named r) ↔ a ∈ c.named r ∨
        (a ∈ c.materials ∨ a ∈ c.products) ∧ ∃ b ∈ c.named r, a.uri = b.uri) ∧
      (∀ a ∈ c.unexplained, a ∈ c.bothSides (c.named r) → r.Names a) ∧
      ∀ a ∈ c.unexplained, a ∉ (c.evaluate r).2.unexplained → r.Names a) ∧
    (c.evaluate r).2.materials = c.materials ∧ (c.evaluate r).2.products = c.products ∧
      (c.evaluate r).2.verified = c.verified := by
  have hfails : (c.evaluate r).1 = false → (c.evaluate r).2.unexplained = c.unexplained :=
    fun h => by rw [evaluate_snd_of_false h]
  have hsucceeds : (c.evaluate r).1 = true → ∀ a, a ∈ (c.evaluate r).2.unexplained ↔
      a ∈ c.unexplained ∧ ¬(r.Names a ∧ ∀ pattern, r ≠ .disallow pattern) :=
    fun h a => by rw [evaluate_snd_of_true h, mem_after_iff]
  refine ⟨hfails, fun h hkind a => ?_, fun pattern hr => ?_, fun pattern hr =>
    ⟨fun _ => mem_bothSides, fun a ha hmarked => ?_, fun a ha hgone => ?_⟩, evaluate_frame c r⟩
  · rw [hsucceeds h, and_iff_left hkind]
  · subst hr
    cases h : (c.evaluate (.disallow pattern)).1 with
    | false => exact hfails h
    | true => rw [evaluate_snd_of_true h, after_disallow]
  · exact Rule.selects_iff.mp ((mem_bothSides_named ha).mp hmarked)
  · cases h : (c.evaluate r).1 with
    | false =>
      rw [hfails h] at hgone
      exact absurd ha hgone
    | true =>
      rw [hsucceeds h] at hgone
      exact (Classical.not_not.mp fun hkept => hgone ⟨ha, hkept⟩).1

end Provenance.RuleContext
