import Provenance.Proofs.Glob.Acceptance
import Provenance.Proofs.Rule.FirstMatch

/-!
# A closing DISALLOW

The last rule of many lists is `DISALLOW **`. It claims nothing, so the rules in front
of it have the shares they have without it, and it names everything, so its own share is
what they leave over. What was reported as unexplained is then reported as a rule that
failed, and nothing else changes:

> `verifyRules_closing_disallow`: with the rule at the end a list explains the same
> pools and fails at the same rules, and where it left something over it fails at its
> end.
-/

namespace Provenance

/-! ## Two stars -/

/-- Two stars match every path, the empty one and those with separators included. -/
theorem matches?_twoStars :
    ∃ glob, PathPattern.ofGlob "**" = .ok glob ∧ ∀ path, glob.matches? path = true := by
  have hread : Glob.read "**" = .ok [.segmentsBefore] := rfl
  refine ⟨.glob (Glob.shape [.segmentsBefore]), by rw [PathPattern.ofGlob, hread], fun path => ?_⟩
  refine Glob.accepts_iff.mpr (Glob.Shape.matches_cons_iff.mpr ?_)
  refine ⟨textBytes path, [], (List.append_nil _).symm, .many fun _ _ => ?_, .nil⟩
  rfl

/-- Names every artifact and takes none. -/
def Rule.disallowAll : Rule := disallow "**"

theorem Rule.readable_disallowAll : Rule.disallowAll.Readable := by
  obtain ⟨glob, hglob, _⟩ := matches?_twoStars
  exact ⟨glob, hglob⟩

theorem Rule.selects_disallowAll (a : Artifact) : Rule.disallowAll.selects a = true := by
  obtain ⟨glob, hglob, hall⟩ := matches?_twoStars
  exact Rule.selects_iff.mpr ⟨glob, hglob, hall a.uri⟩

/-! ## One more rule at the end -/

section Append

variable {rules more : List Rule} {c : RuleContext} {i : Nat} {r : Rule}

/-- Rules at the end change nothing for those in front of them. -/
theorem failsAt_append_of_lt (hi : i < rules.length) :
    FailsAt (rules ++ more) c i r ↔ FailsAt rules c i r := by
  unfold FailsAt share
  rw [List.getElem?_append_left hi, List.take_append_of_le_length (Nat.le_of_lt hi)]

theorem leftover_append_disallowAll {pool : ArtifactSet} :
    leftover (rules ++ [Rule.disallowAll]) pool = leftover rules pool := by
  ext a
  simp [leftover, unclaimedBy, Rule.disallowAll, Rule.claims]

/-- The closing rule fails iff something is left over. -/
theorem failsAt_disallowAll_iff :
    FailsAt (rules ++ [Rule.disallowAll]) c rules.length r ↔
      r = Rule.disallowAll ∧ ∃ a, a ∈ leftover rules c.unexplained := by
  have hshare : share (rules ++ [Rule.disallowAll]) c.unexplained rules.length Rule.disallowAll =
      leftover rules c.unexplained := by
    ext a
    simp [share, leftover, Rule.selects_disallowAll]
  have hholds : ∀ named : ArtifactSet,
      Rule.disallowAll.Holds c.materials c.products c.verified named ↔ ∀ a, a ∉ named :=
    fun _ => Iff.rfl
  rw [FailsAt, List.getElem?_append_right (Nat.le_refl _), Nat.sub_self, List.getElem?_cons_zero,
    Option.some.injEq, eq_comm]
  refine and_congr_right ?_
  rintro rfl
  rw [hshare, hholds, and_iff_right Rule.readable_disallowAll, Classical.not_forall]
  simp only [Classical.not_not]

end Append

/-! ## Outcomes of a closed list -/

/-- The outcome with a rule failed at an index in place of a leftover. -/
def RuleOutcome.closed (index : Nat) (r : Rule) : RuleOutcome → RuleOutcome
  | unexplained _ => ruleFailed index r
  | o => o

theorem OutcomeOf.closed {rules : List Rule} {c : RuleContext} {o : RuleOutcome}
    (h : OutcomeOf rules c 0 o) :
    OutcomeOf (rules ++ [Rule.disallowAll]) c 0 (o.closed rules.length Rule.disallowAll) := by
  cases o with
  | explained =>
    obtain ⟨hnone, hclaimed⟩ := h
    refine ⟨fun i r hf => ?_, by rwa [leftover_append_disallowAll]⟩
    have hi := hf.lt_length
    rw [List.length_append, List.length_singleton, Nat.lt_succ_iff_lt_or_eq] at hi
    rcases hi with hi | rfl
    · exact hnone i r ((failsAt_append_of_lt hi).mp hf)
    · -- nothing is left over that the closing rule could find
      obtain ⟨_, a, ha⟩ := failsAt_disallowAll_iff.mp hf
      exact hclaimed a ha
  | ruleFailed k r =>
    obtain ⟨i, hk, hf, hfirst⟩ := h
    have hi := hf.lt_length
    refine ⟨i, hk, (failsAt_append_of_lt hi).mpr hf, fun j hj q hq => ?_⟩
    exact hfirst j hj q ((failsAt_append_of_lt (Nat.lt_trans hj hi)).mp hq)
  | unexplained artifacts =>
    obtain ⟨hnone, hleft, hne⟩ := h
    obtain ⟨a, ha⟩ := List.exists_mem_of_ne_nil artifacts hne
    have hmem : a ∈ leftover rules c.unexplained := by
      rw [ArtifactSet.mem_def, ← hleft]
      exact ha
    refine ⟨rules.length, (Nat.zero_add _).symm, failsAt_disallowAll_iff.mpr ⟨rfl, a, hmem⟩,
      fun j hj q hq => ?_⟩
    exact hnone j q ((failsAt_append_of_lt hj).mp hq)

/-- A closed list fails with the list, or at its end when something was left over. -/
theorem RuleOutcome.closed_eq_ruleFailed_iff {o : RuleOutcome} {index i : Nat} {last r : Rule} :
    o.closed index last = ruleFailed i r ↔
      o = ruleFailed i r ∨ (index = i ∧ last = r) ∧ ∃ artifacts, o = unexplained artifacts := by
  cases o <;> simp [RuleOutcome.closed]

/-- **A closing `DISALLOW **` changes only how a leftover is reported.** The list with it
explains what the list explains, fails before its end just where and with the rule that
the list fails, and fails at its end, with the closing rule, iff the list leaves
something unexplained. -/
theorem verifyRules_closing_disallow (rules : List Rule) (c : RuleContext) :
    (verifyRules (rules ++ [.disallow "**"]) c = .explained ↔ verifyRules rules c = .explained) ∧
    (verifyRules (rules ++ [.disallow "**"]) c = .ruleFailed rules.length (.disallow "**") ↔
      ∃ artifacts, verifyRules rules c = .unexplained artifacts) ∧
    (∀ i r, i < rules.length ∧ verifyRules (rules ++ [.disallow "**"]) c = .ruleFailed i r ↔
      verifyRules rules c = .ruleFailed i r) ∧
    ∀ artifacts, verifyRules (rules ++ [.disallow "**"]) c ≠ .unexplained artifacts := by
  have hclosed : verifyRules (rules ++ [.disallow "**"]) c =
      (verifyRules rules c).closed rules.length (.disallow "**") :=
    verifyRules_eq_iff.mpr (outcomeOf_verifyRules rules c).closed
  rw [hclosed]
  refine ⟨?_, ?_, fun i r => ?_, ?_⟩
  · cases verifyRules rules c <;> simp [RuleOutcome.closed]
  · -- the list itself cannot fail behind its last rule
    have hbefore : ¬verifyRules rules c = .ruleFailed rules.length (.disallow "**") :=
      fun h => Nat.lt_irrefl _ ((failsAt_of_ruleFailed h).lt_length)
    rw [RuleOutcome.closed_eq_ruleFailed_iff, or_iff_right hbefore, and_iff_right ⟨rfl, rfl⟩]
  · rw [RuleOutcome.closed_eq_ruleFailed_iff]
    constructor
    · intro h
      obtain ⟨hi, h | ⟨⟨rfl, _⟩, _⟩⟩ := h
      · exact h
      · exact absurd hi (Nat.lt_irrefl _)
    · intro h
      exact ⟨(failsAt_of_ruleFailed h).lt_length, .inl h⟩
  · cases verifyRules rules c <;> simp [RuleOutcome.closed]

end Provenance
