import Mathlib.Logic.Function.Basic
import Provenance.Proofs.Rule.FirstMatch

/-!
# CREATE and DELETE are duals

Exchange what a step consumed and what it produced. Then what was created is deleted,
and what was modified is modified still; the other kinds look at the pool or at earlier
steps, where nothing is exchanged. So every rule has a dual (`Rule.dual`), and a list
and its duals have the same first-match reading:

> `verifyRules_dual`: on the exchanged sides the duals of a list explain everything, or
> leave the same artifacts, or fail at the same index, just as the list does.

CREATEORMODIFY is the one kind without a dual: it explains a path that is only among
the products and fails for one that is only among the materials.
-/

namespace Provenance

/-! ## Dual rules -/

theorem ArtifactSet.differAt_comm {s t : ArtifactSet} {uri : String} :
    s.DifferAt t uri ↔ t.DifferAt s uri :=
  forall_congr' fun _ => imp_not_comm

namespace Rule

/-- The rule that asks the same of a step with its two sides exchanged. -/
def dual : Rule → Rule
  | create pattern => delete pattern
  | delete pattern => create pattern
  | r => r

@[simp] theorem dual_dual (r : Rule) : r.dual.dual = r := by
  cases r <;> rfl

theorem dual_eq_self_iff {r : Rule} :
    r.dual = r ↔ ∀ pattern, r ≠ create pattern ∧ r ≠ delete pattern := by
  cases r <;> simp [dual]

theorem readable_dual {r : Rule} : r.dual.Readable ↔ r.Readable := by
  cases r <;> rfl

theorem selects_dual (r : Rule) : r.dual.selects = r.selects := by
  cases r <;> rfl

theorem claims_dual (r : Rule) : r.dual.claims = r.claims := by
  cases r <;> rfl

/-- A dual rule holds of the same artifacts. -/
theorem holds_dual {materials products named : ArtifactSet} {verified : VerifiedSteps} {r : Rule}
    (hr : ∀ pattern, r ≠ createOrModify pattern) :
    r.dual.Holds products materials verified named ↔ r.Holds materials products verified named := by
  cases r with
  | createOrModify pattern => exact absurd rfl (hr pattern)
  | modify _ =>
    -- a modified path is on both sides, and differing is symmetric
    refine forall₂_congr fun a _ => ?_
    rw [ArtifactSet.differAt_comm]
    exact and_left_comm
  | _ => exact Iff.rfl

end Rule

namespace RuleContext

/-- The context with the two sides of the step exchanged. -/
def exchanged (c : RuleContext) : RuleContext :=
  ⟨c.products, c.materials, c.unexplained, c.verified⟩

/-- On the exchanged sides the dual of a rule succeeds when the rule does, and leaves the
same pool. -/
theorem evaluate_dual {c : RuleContext} {r : Rule} (hr : ∀ pattern, r ≠ .createOrModify pattern) :
    c.exchanged.evaluate r.dual = ((c.evaluate r).1, (c.evaluate r).2.exchanged) := by
  have hnamed : c.exchanged.named r.dual = c.named r := by
    rw [named, named, Rule.selects_dual]
    rfl
  have hfst : (c.exchanged.evaluate r.dual).1 = (c.evaluate r).1 := by
    rw [Bool.eq_iff_iff, evaluate_fst_iff, evaluate_fst_iff, Rule.readable_dual, hnamed]
    exact and_congr Iff.rfl (Rule.holds_dual hr)
  refine Prod.ext hfst ?_
  cases h : (c.evaluate r).1 with
  | false =>
    rw [evaluate_snd_of_false h]
    exact evaluate_snd_of_false (hfst.trans h)
  | true =>
    rw [evaluate_snd_of_true h, evaluate_snd_of_true (hfst.trans h), after, Rule.claims_dual]
    rfl

end RuleContext

/-! ## Dual lists -/

section Lists

variable {rules : List Rule} {c : RuleContext}

theorem unclaimedBy_dual (rules : List Rule) :
    unclaimedBy (rules.map Rule.dual) = unclaimedBy rules := by
  funext a
  simp only [unclaimedBy, List.all_map, Function.comp_def, Rule.claims_dual]

theorem share_dual {pool : ArtifactSet} {i : Nat} {r : Rule} :
    share (rules.map Rule.dual) pool i r.dual = share rules pool i r := by
  rw [share, share, Rule.selects_dual, ← List.map_take, unclaimedBy_dual]

theorem leftover_dual {pool : ArtifactSet} :
    leftover (rules.map Rule.dual) pool = leftover rules pool := by
  rw [leftover, leftover, unclaimedBy_dual]

/-- A dual list fails where the list does. -/
theorem failsAt_dual (hrules : ∀ pattern, .createOrModify pattern ∉ rules) {i : Nat} {r : Rule} :
    FailsAt (rules.map Rule.dual) c.exchanged i r.dual ↔ FailsAt rules c i r := by
  have hget : (rules.map Rule.dual)[i]? = some r.dual ↔ rules[i]? = some r := by
    rw [List.getElem?_map, ← Option.map_some]
    exact (Option.map_injective (Function.Involutive.injective Rule.dual_dual)).eq_iff
  unfold FailsAt
  rw [hget, Rule.readable_dual]
  refine and_congr_right fun hr => not_congr (and_congr Iff.rfl ?_)
  show r.dual.Holds c.products c.materials c.verified _ ↔ _
  rw [share_dual]
  refine Rule.holds_dual fun pattern h => ?_
  exact hrules pattern (h ▸ List.mem_of_getElem? hr)

/-- The outcome with the rule that failed replaced by its dual. -/
def RuleOutcome.dual : RuleOutcome → RuleOutcome
  | ruleFailed index r => ruleFailed index r.dual
  | o => o

theorem RuleOutcome.dual_dual (o : RuleOutcome) : o.dual.dual = o := by
  cases o <;> simp [RuleOutcome.dual]

theorem RuleOutcome.dual_eq_iff {o o' : RuleOutcome} : o.dual = o' ↔ o = o'.dual :=
  Function.Involutive.eq_iff RuleOutcome.dual_dual

theorem OutcomeOf.dual (hrules : ∀ pattern, .createOrModify pattern ∉ rules) {index : Nat}
    {o : RuleOutcome} (h : OutcomeOf rules c index o) :
    OutcomeOf (rules.map Rule.dual) c.exchanged index o.dual := by
  have hfails : ∀ {i r}, FailsAt (rules.map Rule.dual) c.exchanged i r ↔
      FailsAt rules c i r.dual := by
    intro i r
    rw [← failsAt_dual hrules, Rule.dual_dual]
  cases o with
  | explained =>
    obtain ⟨hnone, hclaimed⟩ := h
    refine ⟨fun i r hf => hnone i _ (hfails.mp hf), ?_⟩
    rw [leftover_dual]
    exact hclaimed
  | ruleFailed k r =>
    obtain ⟨i, hk, hf, hfirst⟩ := h
    exact ⟨i, hk, (failsAt_dual hrules).mpr hf, fun j hj q hq => hfirst j hj _ (hfails.mp hq)⟩
  | unexplained artifacts =>
    obtain ⟨hnone, hleft, hne⟩ := h
    refine ⟨fun i r hf => hnone i _ (hfails.mp hf), ?_, hne⟩
    rw [leftover_dual]
    exact hleft

end Lists

/-- **CREATE and DELETE are duals in every list** without CREATEORMODIFY. With the sides
of the step exchanged and every rule replaced by its dual, the list turns out the same;
if it fails, it fails at the same index with the dual of the same rule. So does each rule
alone, and all but CREATE and DELETE are their own duals. -/
theorem verifyRules_dual {rules : List Rule} (hrules : ∀ pattern, .createOrModify pattern ∉ rules)
    (materials products pool : ArtifactSet) (verified : VerifiedSteps) :
    (verifyRules rules ⟨materials, products, pool, verified⟩ = .explained ↔
      verifyRules (rules.map Rule.dual) ⟨products, materials, pool, verified⟩ = .explained) ∧
    (∀ artifacts, verifyRules rules ⟨materials, products, pool, verified⟩ = .unexplained artifacts ↔
      verifyRules (rules.map Rule.dual) ⟨products, materials, pool, verified⟩ =
        .unexplained artifacts) ∧
    (∀ i r, verifyRules rules ⟨materials, products, pool, verified⟩ = .ruleFailed i r ↔
      verifyRules (rules.map Rule.dual) ⟨products, materials, pool, verified⟩ =
        .ruleFailed i r.dual) ∧
    (∀ r ∈ rules, ∀ c : RuleContext, c.exchanged.evaluate r.dual =
      ((c.evaluate r).1, (c.evaluate r).2.exchanged)) ∧
    ∀ r : Rule, r.dual = r ↔ ∀ pattern, r ≠ .create pattern ∧ r ≠ .delete pattern := by
  have hdual : verifyRules (rules.map Rule.dual) ⟨products, materials, pool, verified⟩ =
      (verifyRules rules ⟨materials, products, pool, verified⟩).dual :=
    verifyRules_eq_iff.mpr ((outcomeOf_verifyRules rules _).dual hrules)
  simp only [hdual, RuleOutcome.dual_eq_iff]
  refine ⟨Iff.rfl, fun _ => Iff.rfl, fun i r => ?_, fun r hr c => ?_, fun _ =>
    Rule.dual_eq_self_iff⟩
  · rw [RuleOutcome.dual, Rule.dual_dual]
  · exact RuleContext.evaluate_dual fun pattern h => hrules pattern (h ▸ hr)

/-- Without its dual CREATEORMODIFY stays behind: a new program was created, and on the
exchanged sides a deleted one was neither created nor modified. -/
example :
    let program : ArtifactSet := .ofList [⟨"app", "00"⟩]
    verifyRules [.createOrModify "*"] ⟨.empty, program, program, .empty⟩ = .explained ∧
      verifyRules [.createOrModify "*"] ⟨program, .empty, program, .empty⟩ =
        .ruleFailed 0 (.createOrModify "*") := by
  decide +kernel

/-! ## A step that links a program -/

namespace Linked

/-- A program takes the place of the objects it was linked from. -/
def rules : List Rule := [.create "app", .delete "*.o", .modify "version", .disallow "*.c"]

def materials : ArtifactSet :=
  .ofList [⟨"main.c", "00"⟩, ⟨"main.o", "01"⟩, ⟨"version", "02"⟩]

def products : ArtifactSet := .ofList [⟨"app", "03"⟩, ⟨"main.c", "00"⟩, ⟨"version", "04"⟩]

/-- What is on either side, the source included. -/
def pool : ArtifactSet := materials.union products

end Linked

/-- The source is still there: the last rule fails, and so does the last of the duals. -/
theorem linked_dual :
    (∀ pattern, .createOrModify pattern ∉ Linked.rules) ∧
    verifyRules Linked.rules ⟨Linked.materials, Linked.products, Linked.pool, .empty⟩ =
      .ruleFailed 3 (.disallow "*.c") ∧
    verifyRules [.delete "app", .create "*.o", .modify "version", .disallow "*.c"]
      ⟨Linked.products, Linked.materials, Linked.pool, .empty⟩ =
      .ruleFailed 3 (.disallow "*.c") := by
  have hrules : ∀ pattern, .createOrModify pattern ∉ Linked.rules := by simp [Linked.rules]
  obtain ⟨_, _, hfailed, _⟩ :=
    verifyRules_dual hrules Linked.materials Linked.products Linked.pool .empty
  have hlast : verifyRules Linked.rules ⟨Linked.materials, Linked.products, Linked.pool, .empty⟩ =
      .ruleFailed 3 (.disallow "*.c") := by
    decide +kernel
  exact ⟨hrules, hlast, (hfailed 3 (.disallow "*.c")).mp hlast⟩

end Provenance
