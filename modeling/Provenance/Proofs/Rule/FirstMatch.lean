import Provenance.Proofs.Rule.Selection

/-!
# Rule lists read without a pool

`verifyRules` hands one shrinking pool from rule to rule. Which rule gets which
artifact, though, depends on the patterns alone: `share` gives a rule the
artifacts of the starting pool that it names and that no earlier rule claims,
and `leftover` is what no rule claims. Read this way the list has no state:

> `verifyRules_iff_firstMatch`: the list fails at the first rule that cannot be
> read or does not hold of its share; if there is none, exactly `leftover` stays
> unexplained.

The invariant of the loop is that the pool before a rule is the `leftover` of the
rules in front. It is carried by moving one rule at a time from the list into the
pool: a share in `r :: rest` is a share in `rest` of the pool that `r` leaves
(`share_cons_succ`), so every statement about the list becomes the same statement
about its tail.
-/

namespace Provenance

/-- No rule of the list takes the artifact. -/
def unclaimedBy (rules : List Rule) (a : Artifact) : Bool := rules.all fun r => !r.claims a

/-- What is left to a rule behind the first `i` rules: the artifacts of the pool
that it names and none of them claims. -/
def share (rules : List Rule) (pool : ArtifactSet) (i : Nat) (r : Rule) : ArtifactSet :=
  pool.filter fun a => r.selects a && unclaimedBy (rules.take i) a

/-- What no rule of the list claims. -/
def leftover (rules : List Rule) (pool : ArtifactSet) : ArtifactSet :=
  pool.filter (unclaimedBy rules)

/-- The rule at index `i` is `r`, and it cannot be read or does not hold of its
share. -/
def FailsAt (rules : List Rule) (c : RuleContext) (i : Nat) (r : Rule) : Prop :=
  rules[i]? = some r ∧
    ¬(r.Readable ∧ r.Holds c.materials c.products c.verified (share rules c.unexplained i r))

/-! ## Moving the first rule into the pool -/

theorem share_zero (rules : List Rule) (c : RuleContext) (r : Rule) :
    share rules c.unexplained 0 r = c.named r := by
  ext a
  simp [share, RuleContext.named, unclaimedBy]

theorem share_cons_succ (r : Rule) (rest : List Rule) (pool : ArtifactSet) (i : Nat) (q : Rule) :
    share (r :: rest) pool (i + 1) q = share rest (pool.filter fun a => !r.claims a) i q := by
  ext a
  simp only [share, ArtifactSet.mem_filter, List.take_succ_cons, unclaimedBy, List.all_cons,
    Bool.and_eq_true]
  constructor
  · intro h
    obtain ⟨ha, hq, hr, hrest⟩ := h
    exact ⟨⟨ha, hr⟩, hq, hrest⟩
  · intro h
    obtain ⟨⟨ha, hr⟩, hq, hrest⟩ := h
    exact ⟨ha, hq, hr, hrest⟩

theorem leftover_cons (r : Rule) (rest : List Rule) (pool : ArtifactSet) :
    leftover (r :: rest) pool = leftover rest (pool.filter fun a => !r.claims a) := by
  ext a
  simp only [leftover, ArtifactSet.mem_filter, unclaimedBy, List.all_cons, Bool.and_eq_true,
    and_assoc]

theorem leftover_nil (pool : ArtifactSet) : leftover [] pool = pool := by
  ext a
  simp [leftover, unclaimedBy]

/-- The first rule fails on its share iff it fails on the pool. -/
theorem failsAt_cons_zero {r : Rule} {rest : List Rule} {c : RuleContext} {q : Rule} :
    FailsAt (r :: rest) c 0 q ↔ q = r ∧ (c.evaluate r).1 = false := by
  rw [FailsAt, List.getElem?_cons_zero, Option.some.injEq, ← Bool.not_eq_true,
    RuleContext.evaluate_fst_iff]
  constructor
  · intro h
    obtain ⟨rfl, h⟩ := h
    rw [share_zero] at h
    exact ⟨rfl, h⟩
  · intro h
    obtain ⟨rfl, h⟩ := h
    rw [share_zero]
    exact ⟨rfl, h⟩

/-- Behind a rule that succeeds, failing is failing on the pool it leaves. -/
theorem failsAt_cons_succ {r : Rule} {rest : List Rule} {c : RuleContext} {i : Nat} {q : Rule}
    (h : (c.evaluate r).1 = true) :
    FailsAt (r :: rest) c (i + 1) q ↔ FailsAt rest (c.evaluate r).2 i q := by
  rw [RuleContext.evaluate_snd_of_true h, FailsAt, FailsAt, List.getElem?_cons_succ,
    share_cons_succ]
  exact Iff.rfl

/-! ## The run of a list -/

/-- What an outcome says about the list when it was evaluated from an index on. -/
def OutcomeOf (rules : List Rule) (c : RuleContext) (index : Nat) : RuleOutcome → Prop
  | .explained => (∀ i r, ¬FailsAt rules c i r) ∧ ∀ a, a ∉ leftover rules c.unexplained
  | .ruleFailed k r =>
    ∃ i, k = index + i ∧ FailsAt rules c i r ∧ ∀ j, j < i → ∀ q, ¬FailsAt rules c j q
  | .unexplained artifacts => (∀ i r, ¬FailsAt rules c i r) ∧
      artifacts = (leftover rules c.unexplained).toList ∧ artifacts ≠ []

theorem not_failsAt_nil {c : RuleContext} {i : Nat} {r : Rule} : ¬FailsAt [] c i r := by
  intro h
  obtain ⟨h, _⟩ := h
  exact absurd h (by simp)

/-- No rule of a list fails if the first succeeds and no later one fails. -/
theorem not_failsAt_cons {r : Rule} {rest : List Rule} {c : RuleContext}
    (h : (c.evaluate r).1 = true) (hrest : ∀ i q, ¬FailsAt rest (c.evaluate r).2 i q) :
    ∀ i q, ¬FailsAt (r :: rest) c i q := by
  intro i q hf
  cases i with
  | zero => rw [failsAt_cons_zero, h] at hf; exact absurd hf.2 (by simp)
  | succ i => exact hrest i q ((failsAt_cons_succ h).mp hf)

theorem outcomeOf_ofRemaining {c : RuleContext} {index : Nat} :
    OutcomeOf [] c index (.ofRemaining c.unexplained) := by
  unfold RuleOutcome.ofRemaining
  -- at the end of the list the pool is what was left over
  cases he : c.unexplained.isEmpty with
  | true =>
    refine ⟨fun _ _ => not_failsAt_nil, ?_⟩
    rw [leftover_nil]
    exact ArtifactSet.isEmpty_iff.mp he
  | false =>
    refine ⟨fun _ _ => not_failsAt_nil, ?_, ?_⟩
    · rw [leftover_nil]
    · intro hn
      rw [ArtifactSet.isEmpty, hn] at he
      exact absurd he (by simp)

/-- Putting a rule that succeeds in front moves an outcome up by one. -/
theorem OutcomeOf.cons {r : Rule} {rest : List Rule} {c : RuleContext} {index : Nat}
    {o : RuleOutcome} (h : (c.evaluate r).1 = true)
    (ho : OutcomeOf rest (c.evaluate r).2 (index + 1) o) : OutcomeOf (r :: rest) c index o := by
  have hpool : leftover rest (c.evaluate r).2.unexplained
      = leftover (r :: rest) c.unexplained := by
    rw [RuleContext.evaluate_snd_of_true h, leftover_cons]
    rfl
  cases o with
  | explained =>
    obtain ⟨hf, hl⟩ := ho
    rw [hpool] at hl
    exact ⟨not_failsAt_cons h hf, hl⟩
  | unexplained artifacts =>
    obtain ⟨hf, hl, hne⟩ := ho
    rw [hpool] at hl
    exact ⟨not_failsAt_cons h hf, hl, hne⟩
  | ruleFailed k q =>
    obtain ⟨i, hk, hf, hfirst⟩ := ho
    refine ⟨i + 1, by omega, (failsAt_cons_succ h).mpr hf, ?_⟩
    intro j hj q' hq'
    -- the rule in front succeeds, and of the others none failed earlier
    cases j with
    | zero => rw [failsAt_cons_zero, h] at hq'; exact absurd hq'.2 (by simp)
    | succ j => exact hfirst j (by omega) q' ((failsAt_cons_succ h).mp hq')

theorem outcomeOf_verifyRulesFrom :
    ∀ (rules : List Rule) (c : RuleContext) (index : Nat),
      OutcomeOf rules c index (verifyRulesFrom index rules c)
  | [], _, _ => outcomeOf_ofRemaining
  | r :: rest, c, index => by
    unfold verifyRulesFrom
    -- the first rule fails, or the rest runs on the pool it leaves
    cases he : c.evaluate r with
    | mk holds c' =>
      cases holds with
      | false =>
        refine ⟨0, rfl, failsAt_cons_zero.mpr ⟨rfl, by rw [he]⟩, ?_⟩
        intro j hj
        exact absurd hj (Nat.not_lt_zero j)
      | true =>
        refine OutcomeOf.cons (by rw [he]) ?_
        rw [he]
        exact outcomeOf_verifyRulesFrom rest c' (index + 1)

/-- There is one first failure. -/
theorem firstFailure_unique {rules : List Rule} {c : RuleContext} {i j : Nat} {r q : Rule}
    (hr : FailsAt rules c i r) (hfirst : ∀ k, k < i → ∀ q, ¬FailsAt rules c k q)
    (hq : FailsAt rules c j q) (hfirst' : ∀ k, k < j → ∀ q, ¬FailsAt rules c k q) :
    i = j ∧ r = q := by
  have hij : i = j := by
    -- whichever came first, nothing was to fail before the other
    rcases Nat.lt_trichotomy i j with h | h | h
    · exact absurd hr (hfirst' i h r)
    · exact h
    · exact absurd hq (hfirst j h q)
  subst hij
  have hsame := hr.1.symm.trans hq.1
  injection hsame with hsame
  exact ⟨rfl, hsame⟩

/-- Outcomes say different things, so only one of them is true of a list. -/
theorem OutcomeOf.unique {rules : List Rule} {c : RuleContext} {index : Nat} {o o' : RuleOutcome}
    (h : OutcomeOf rules c index o) (h' : OutcomeOf rules c index o') : o = o' := by
  cases o with
  | explained =>
    cases o' with
    | explained => rfl
    | ruleFailed k q =>
      obtain ⟨i, _, hf, _⟩ := h'
      exact absurd hf (h.1 i q)
    | unexplained l =>
      obtain ⟨_, hl, hne⟩ := h'
      exact absurd (hl.trans (List.eq_nil_iff_forall_not_mem.mpr h.2)) hne
  | ruleFailed k r =>
    obtain ⟨i, hk, hf, hfirst⟩ := h
    cases o' with
    | explained => exact absurd hf (h'.1 i r)
    | unexplained l => exact absurd hf (h'.1 i r)
    | ruleFailed k' q =>
      obtain ⟨j, hk', hf', hfirst'⟩ := h'
      obtain ⟨hij, hrq⟩ := firstFailure_unique hf hfirst hf' hfirst'
      rw [hk, hk', hij, hrq]
  | unexplained l =>
    obtain ⟨hnone, hl, hne⟩ := h
    cases o' with
    | explained => exact absurd (hl.trans (List.eq_nil_iff_forall_not_mem.mpr h'.2)) hne
    | ruleFailed k q =>
      obtain ⟨i, _, hf, _⟩ := h'
      exact absurd hf (hnone i q)
    | unexplained l' => rw [hl, h'.2.1]

theorem outcomeOf_verifyRules (rules : List Rule) (c : RuleContext) :
    OutcomeOf rules c 0 (verifyRules rules c) :=
  outcomeOf_verifyRulesFrom rules c 0

theorem verifyRules_eq_iff {rules : List Rule} {c : RuleContext} {o : RuleOutcome} :
    verifyRules rules c = o ↔ OutcomeOf rules c 0 o := by
  have ho := outcomeOf_verifyRules rules c
  constructor
  · intro h
    exact h ▸ ho
  · intro h
    exact ho.unique h

theorem FailsAt.lt_length {rules : List Rule} {c : RuleContext} {i : Nat} {r : Rule}
    (h : FailsAt rules c i r) : i < rules.length :=
  (List.getElem?_eq_some_iff.mp h.1).1

/-- The rule that is reported as failed does not hold of its share. -/
theorem failsAt_of_ruleFailed {rules : List Rule} {c : RuleContext} {i : Nat} {r : Rule}
    (h : verifyRules rules c = .ruleFailed i r) : FailsAt rules c i r := by
  obtain ⟨j, hj, hf, _⟩ := verifyRules_eq_iff.mp h
  obtain rfl : i = j := hj.trans (Nat.zero_add j)
  exact hf

/-- Where a rule does not hold of its share, the list has failed by then. -/
theorem FailsAt.exists_ruleFailed {rules : List Rule} {c : RuleContext} {i : Nat} {r : Rule}
    (h : FailsAt rules c i r) : ∃ j ≤ i, ∃ q, verifyRules rules c = .ruleFailed j q := by
  have ho := outcomeOf_verifyRules rules c
  cases hv : verifyRules rules c with
  | explained =>
    rw [hv] at ho
    exact absurd h (ho.1 i r)
  | unexplained _ =>
    rw [hv] at ho
    exact absurd h (ho.1 i r)
  | ruleFailed j q =>
    refine ⟨j, ?_, q, rfl⟩
    rw [hv] at ho
    obtain ⟨k, hk, _, hfirst⟩ := ho
    have hle : k ≤ i := Nat.le_of_not_lt fun hlt => hfirst i hlt r h
    omega

/-- What is explained was in the share of a rule that claims it. -/
theorem exists_share_of_explained {rules : List Rule} {c : RuleContext}
    (h : verifyRules rules c = .explained) {a : Artifact} (ha : a ∈ c.unexplained) :
    ∃ r ∈ rules, ∃ i, r.claims a = true ∧ a ∈ share rules c.unexplained i r ∧ r.Readable ∧
      r.Holds c.materials c.products c.verified (share rules c.unexplained i r) := by
  obtain ⟨hnone, hclaimed⟩ := verifyRules_eq_iff.mp h
  -- the first rule that claims it
  cases hfirst : rules.find? fun r => r.claims a with
  | none =>
    have hleft : a ∈ leftover rules c.unexplained := by
      refine ArtifactSet.mem_filter.mpr ⟨ha, List.all_eq_true.mpr fun r hr => ?_⟩
      simpa using List.find?_eq_none.mp hfirst r hr
    exact absurd hleft (hclaimed a)
  | some r =>
    obtain ⟨hclaims, before, after, hl, hbefore⟩ := List.find?_eq_some_iff_append.mp hfirst
    have hshare : a ∈ share rules c.unexplained before.length r := by
      refine ArtifactSet.mem_filter.mpr ⟨ha, Bool.and_eq_true_iff.mpr ⟨?_, ?_⟩⟩
      · cases r with
        | disallow _ => exact nomatch hclaims
        | _ => exact hclaims
      · rw [hl, List.take_left, unclaimedBy, List.all_eq_true]
        exact hbefore
    have hget : rules[before.length]? = some r := by
      rw [hl, List.getElem?_append_right (Nat.le_refl _), Nat.sub_self, List.getElem?_cons_zero]
    have hholds := Classical.not_not.mp fun hfails => hnone before.length r ⟨hget, hfails⟩
    exact ⟨r, List.mem_of_find?_eq_some hfirst, before.length, hclaims, hshare, hholds⟩

/-- **A rule list is a first-match reading of its rules.** The list fails at `i`
iff `i` is the first index whose rule cannot be read or does not hold of its
share; it explains everything iff no rule fails and every artifact is claimed; and
otherwise it reports, in order, what no rule claims. -/
theorem verifyRules_iff_firstMatch (rules : List Rule) (c : RuleContext) :
    (∀ i r, verifyRules rules c = .ruleFailed i r ↔
      FailsAt rules c i r ∧ ∀ j, j < i → ∀ q, ¬FailsAt rules c j q) ∧
    (verifyRules rules c = .explained ↔
      (∀ i r, ¬FailsAt rules c i r) ∧ ∀ a, a ∉ leftover rules c.unexplained) ∧
    (∀ artifacts, verifyRules rules c = .unexplained artifacts ↔
      (∀ i r, ¬FailsAt rules c i r) ∧
        artifacts = (leftover rules c.unexplained).toList ∧ artifacts ≠ []) := by
  refine ⟨fun i r => ?_, verifyRules_eq_iff, fun artifacts => verifyRules_eq_iff⟩
  rw [verifyRules_eq_iff]
  constructor
  · intro h
    obtain ⟨j, hj, hf, hfirst⟩ := h
    obtain rfl : i = j := by omega
    exact ⟨hf, hfirst⟩
  · intro h
    obtain ⟨hf, hfirst⟩ := h
    exact ⟨i, by omega, hf, hfirst⟩

end Provenance
