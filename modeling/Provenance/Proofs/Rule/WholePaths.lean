import Provenance.Proofs.Rule.Consumption

/-!
# CREATEORMODIFY is CREATE or MODIFY, artifact by artifact

CREATEORMODIFY looks paths up in the two sides of the step, not in the pool, and what
it asks of an artifact is neither that it was created nor that its path was modified.
For an arbitrary pool it does come out differently. But a pool starts as one whole side
of the step, and a rule, reading paths only, takes the artifacts of a path all or none
(`WholePaths`). For such a pool:

> `createOrModify_artifactwise`: the rule succeeds iff everything that it names was
> created or is at a modified path. On the products side it is CREATE, on the
> materials side it is MODIFY, alone and anywhere in a list.

With several digests at a path the pool matters. A product can be new at a path where
another product is just as it was; then the first one was created, its path was not
modified, and CREATEORMODIFY fails because of the second one, which is in the pool too.
-/

namespace Provenance

namespace StepArtifacts

/-- The step produced the artifact and did not consume it. -/
def Created (s : StepArtifacts) (a : Artifact) : Prop := a ∈ s.products ∧ a ∉ s.materials

/-- The path is on both sides of the step, with no digest in common. -/
def ModifiedAt (s : StepArtifacts) (uri : String) : Prop :=
  s.materials.HasPath uri ∧ s.products.HasPath uri ∧ s.materials.DifferAt s.products uri

variable {s : StepArtifacts} {a : Artifact}

theorem ModifiedAt.not_both (h : s.ModifiedAt a.uri) : ¬(a ∈ s.materials ∧ a ∈ s.products) :=
  fun hboth => h.2.2 a.hash hboth.1 hboth.2

/-- What was produced at a modified path was created. -/
theorem created_or_modifiedAt_of_product (ha : a ∈ s.products) :
    s.Created a ∨ s.ModifiedAt a.uri ↔ s.Created a := by
  constructor
  · intro h
    rcases h with h | h
    · exact h
    · exact ⟨ha, fun hm => h.not_both ⟨hm, ha⟩⟩
  · exact .inl

/-- What was consumed was not created. -/
theorem created_or_modifiedAt_of_material (ha : a ∈ s.materials) :
    s.Created a ∨ s.ModifiedAt a.uri ↔ s.ModifiedAt a.uri :=
  or_iff_right fun h => h.2 ha

end StepArtifacts

namespace RuleContext

variable {side : Side} {content : StepArtifacts} {verified : VerifiedSteps} {c : RuleContext}

/-! ## Contexts that a rule list can come to -/

/-- The context is that of the rules for one side of a step, after some rules that
succeeded. -/
inductive Reachable (side : Side) (content : StepArtifacts) (verified : VerifiedSteps) :
    RuleContext → Prop
  | start : Reachable side content verified (forSide side content verified)
  | next {c : RuleContext} {r : Rule} (h : Reachable side content verified c)
      (hr : (c.evaluate r).1 = true) : Reachable side content verified (c.evaluate r).2

/-- The pool is part of one side of the step, and of each path it has all that is on
that side or nothing. -/
structure WholePaths (side : Side) (content : StepArtifacts) (c : RuleContext) : Prop where
  materials_eq : c.materials = content.materials
  products_eq : c.products = content.products
  mem_side : ∀ a ∈ c.unexplained, a ∈ content.side side
  whole : ∀ a ∈ c.unexplained, ∀ b ∈ content.side side, b.uri = a.uri → b ∈ c.unexplained

theorem wholePaths_forSide : WholePaths side content (forSide side content verified) :=
  ⟨rfl, rfl, fun _ ha => ha, fun _ _ _ hb _ => hb⟩

theorem WholePaths.mem_side_of_named (h : WholePaths side content c) {r : Rule} {a : Artifact}
    (ha : a ∈ c.named r) : a ∈ content.side side :=
  h.mem_side a (ArtifactSet.mem_filter.mp ha).1

/-- A rule keeps the paths of the pool whole: it names an artifact iff it names what is
beside it. -/
theorem WholePaths.evaluate (h : WholePaths side content c) (r : Rule) :
    WholePaths side content (c.evaluate r).2 := by
  cases he : (c.evaluate r).1 with
  | false =>
    rw [evaluate_snd_of_false he]
    exact h
  | true =>
    rw [evaluate_snd_of_true he]
    refine ⟨h.materials_eq, h.products_eq, fun a ha => ?_, fun a ha b hb huri => ?_⟩
    · exact h.mem_side a (mem_after_iff.mp ha).1
    · obtain ⟨hpool, hkept⟩ := mem_after_iff.mp ha
      refine mem_after_iff.mpr ⟨h.whole a hpool b hb huri, fun hgone => hkept ?_⟩
      rwa [← Rule.selects_iff, Rule.selects_congr huri, Rule.selects_iff] at hgone

theorem Reachable.wholePaths (h : Reachable side content verified c) :
    WholePaths side content c := by
  induction h with
  | start => exact wholePaths_forSide
  | next _ _ ih => exact ih.evaluate _

/-! ## CREATEORMODIFY on whole paths -/

variable {pattern : String}

/-- Two rules with the same pattern that hold of the same artifacts do the same. -/
theorem evaluate_congr {r r' : Rule} (hread : r.Readable ↔ r'.Readable)
    (hclaims : r.claims = r'.claims)
    (hholds : r.Holds c.materials c.products c.verified (c.named r) ↔
      r'.Holds c.materials c.products c.verified (c.named r')) :
    c.evaluate r = c.evaluate r' := by
  have hfst : (c.evaluate r).1 = (c.evaluate r').1 := by
    rw [Bool.eq_iff_iff, evaluate_fst_iff, evaluate_fst_iff, hread, hholds]
  refine Prod.ext hfst ?_
  cases h : (c.evaluate r).1 with
  | false => rw [evaluate_snd_of_false h, evaluate_snd_of_false (hfst ▸ h)]
  | true =>
    rw [evaluate_snd_of_true h, evaluate_snd_of_true (hfst ▸ h), after, after, hclaims]

/-- Among products, CREATEORMODIFY asks for what CREATE asks for. A digest that is at
the path on both sides would be named as well. -/
theorem WholePaths.createOrModify_eq_create (h : WholePaths .products content c) :
    c.evaluate (.createOrModify pattern) = c.evaluate (.create pattern) := by
  refine evaluate_congr Iff.rfl rfl ?_
  show (∀ a ∈ c.named (.create pattern), _) ↔ ∀ a ∈ c.named (.create pattern), _
  rw [h.materials_eq, h.products_eq]
  constructor
  · intro hall a ha
    have hprod : a ∈ content.products := h.mem_side_of_named ha
    exact ⟨hprod, fun hmat => (hall a ha).1 ⟨hmat, hprod⟩⟩
  · intro hall a ha
    obtain ⟨hprod, hnew⟩ := hall a ha
    refine ⟨fun hboth => hnew hboth.1, ⟨a, hprod, rfl⟩, fun _ hash hmat hprod' => ?_⟩
    obtain ⟨hpool, hnamed⟩ := ArtifactSet.mem_filter.mp ha
    have hbeside := h.whole a hpool ⟨a.uri, hash⟩ hprod' rfl
    exact (hall ⟨a.uri, hash⟩ (ArtifactSet.mem_filter.mpr ⟨hbeside, hnamed⟩)).2 hmat

/-- Of a pool that has one of two products at a path, the rules differ: the product in
the pool is new, but the other one was there before. -/
example :
    let c : RuleContext := ⟨.ofList [⟨"app", "00"⟩], .ofList [⟨"app", "00"⟩, ⟨"app", "01"⟩],
      .ofList [⟨"app", "01"⟩], .empty⟩
    (c.evaluate (.create "*")).1 = true ∧ (c.evaluate (.createOrModify "*")).1 = false := by
  decide +kernel

/-- Among materials, CREATEORMODIFY asks for what MODIFY asks for. -/
theorem WholePaths.createOrModify_eq_modify (h : WholePaths .materials content c) :
    c.evaluate (.createOrModify pattern) = c.evaluate (.modify pattern) := by
  refine evaluate_congr Iff.rfl rfl ?_
  show (∀ a ∈ c.named (.modify pattern), _) ↔ ∀ a ∈ c.named (.modify pattern), _
  rw [h.materials_eq, h.products_eq]
  refine forall₂_congr fun a ha => ?_
  have hmat : a ∈ content.materials := h.mem_side_of_named ha
  constructor
  · intro hcode
    exact ⟨⟨a, hmat, rfl⟩, hcode.2.1, hcode.2.2 ⟨a, hmat, rfl⟩⟩
  · intro hmod
    exact ⟨StepArtifacts.ModifiedAt.not_both hmod, hmod.2.1, fun _ => hmod.2.2⟩

theorem forall_named_iff {r : Rule} {P : Artifact → Prop} :
    (∀ a ∈ c.named r, P a) ↔ ∀ a ∈ c.unexplained, r.Names a → P a := by
  simp only [named, ArtifactSet.mem_filter, Rule.selects_iff, and_imp]

theorem WholePaths.createOrModify_iff (h : WholePaths side content c) :
    (c.evaluate (.createOrModify pattern)).1 = true ↔
      (Rule.createOrModify pattern).Readable ∧
        ∀ a ∈ c.unexplained, (Rule.createOrModify pattern).Names a →
          content.Created a ∨ content.ModifiedAt a.uri := by
  rw [← forall_named_iff]
  -- on either side one of the two alternatives is all there is to it
  cases side with
  | products =>
    rw [h.createOrModify_eq_create, evaluate_fst_iff, h.materials_eq, h.products_eq]
    refine and_congr Iff.rfl (forall₂_congr fun a ha => ?_)
    have hprod := h.mem_side_of_named ha
    exact (StepArtifacts.created_or_modifiedAt_of_product hprod).symm
  | materials =>
    rw [h.createOrModify_eq_modify, evaluate_fst_iff, h.materials_eq, h.products_eq]
    refine and_congr Iff.rfl (forall₂_congr fun a ha => ?_)
    have hmat := h.mem_side_of_named ha
    exact (StepArtifacts.created_or_modifiedAt_of_material hmat).symm

end RuleContext

/-! ## One for the other in a list -/

/-- The rule with CREATEORMODIFY read as what it comes to on a side. -/
def Rule.narrow : Side → Rule → Rule
  | .products, createOrModify pattern => create pattern
  | .materials, createOrModify pattern => modify pattern
  | _, r => r

/-- The outcome with the rule that failed narrowed. -/
def RuleOutcome.narrow (side : Side) : RuleOutcome → RuleOutcome
  | ruleFailed index r => ruleFailed index (r.narrow side)
  | o => o

namespace RuleContext

variable {side : Side} {content : StepArtifacts} {verified : VerifiedSteps} {c : RuleContext}

theorem WholePaths.evaluate_narrow (h : WholePaths side content c) (r : Rule) :
    c.evaluate (r.narrow side) = c.evaluate r := by
  cases r with
  | createOrModify pattern =>
    cases side with
    | products => exact h.createOrModify_eq_create.symm
    | materials => exact h.createOrModify_eq_modify.symm
  | _ => cases side <;> rfl

theorem WholePaths.verifyRulesFrom_narrow :
    ∀ (rules : List Rule) {c : RuleContext} (index : Nat), WholePaths side content c →
      verifyRulesFrom index (rules.map (Rule.narrow side)) c =
        (verifyRulesFrom index rules c).narrow side
  | [], c, index, _ => by
    rw [List.map_nil, verifyRulesFrom, RuleOutcome.ofRemaining]
    cases c.unexplained.isEmpty <;> rfl
  | r :: rest, c, index, h => by
    have hnext := h.evaluate r
    rw [List.map_cons, verifyRulesFrom, verifyRulesFrom, h.evaluate_narrow]
    -- both lists fail here or go on with the same pool
    cases he : c.evaluate r with
    | mk holds c' =>
      rw [he] at hnext
      cases holds with
      | false => rfl
      | true => exact verifyRulesFrom_narrow rest (index + 1) hnext

/-- Lists that are the same once narrowed turn out the same, but for the rule that is
reported as failed. -/
theorem WholePaths.verifyRules_congr (h : WholePaths side content c) {rules rules' : List Rule}
    (hrules : rules.map (Rule.narrow side) = rules'.map (Rule.narrow side)) :
    (verifyRules rules c).narrow side = (verifyRules rules' c).narrow side := by
  rw [verifyRules, verifyRules, ← verifyRulesFrom_narrow rules 0 h, hrules,
    verifyRulesFrom_narrow rules' 0 h]

end RuleContext

theorem RuleOutcome.alike_of_narrow_eq {side : Side} {o o' : RuleOutcome}
    (h : o.narrow side = o'.narrow side) :
    (o = .explained ↔ o' = .explained) ∧
    (∀ i, (∃ r, o = .ruleFailed i r) ↔ ∃ r, o' = .ruleFailed i r) ∧
    ∀ artifacts, o = .unexplained artifacts ↔ o' = .unexplained artifacts := by
  cases o <;> cases o' <;> simp_all [RuleOutcome.narrow]

namespace RuleContext

/-- **CREATEORMODIFY is CREATE or MODIFY of each artifact**, in every context that the
rules of a step can come to. On the products side that is CREATE, on the materials side
MODIFY, with the same pool afterwards; and a list in which such rules stand for one
another is explained, fails at an index or leaves artifacts just as before. -/
theorem createOrModify_artifactwise {side : Side} {content : StepArtifacts}
    {verified : VerifiedSteps} {c : RuleContext} (hc : Reachable side content verified c) :
    (∀ pattern, (c.evaluate (.createOrModify pattern)).1 = true ↔
      (Rule.createOrModify pattern).Readable ∧
        ∀ a ∈ c.unexplained, (Rule.createOrModify pattern).Names a →
          content.Created a ∨ content.ModifiedAt a.uri) ∧
    (side = .products →
      ∀ pattern, c.evaluate (.createOrModify pattern) = c.evaluate (.create pattern)) ∧
    (side = .materials →
      ∀ pattern, c.evaluate (.createOrModify pattern) = c.evaluate (.modify pattern)) ∧
    ∀ rules rules', rules.map (Rule.narrow side) = rules'.map (Rule.narrow side) →
      (verifyRules rules c = .explained ↔ verifyRules rules' c = .explained) ∧
      (∀ i, (∃ r, verifyRules rules c = .ruleFailed i r) ↔
        ∃ r, verifyRules rules' c = .ruleFailed i r) ∧
      ∀ artifacts, verifyRules rules c = .unexplained artifacts ↔
        verifyRules rules' c = .unexplained artifacts := by
  have hw := hc.wholePaths
  refine ⟨fun _ => hw.createOrModify_iff, ?_, ?_, fun _ _ hrules =>
    RuleOutcome.alike_of_narrow_eq (hw.verifyRules_congr hrules)⟩
  · rintro rfl _
    exact hw.createOrModify_eq_create
  · rintro rfl _
    exact hw.createOrModify_eq_modify

end RuleContext

/-! ## A step that builds a program anew -/

namespace Rebuilt

/-- The program is there in two new versions, with a log that was not there before. -/
def content : StepArtifacts :=
  ⟨.ofList [⟨"app", "00"⟩], .ofList [⟨"app", "01"⟩, ⟨"app", "02"⟩, ⟨"log", "03"⟩]⟩

/-- The rules for products, once the log is explained. -/
def withoutLog : RuleContext :=
  ((RuleContext.forSide .products content .empty).evaluate (.create "log")).2

theorem reachable_withoutLog :
    RuleContext.Reachable .products content .empty withoutLog :=
  .next .start (by decide +kernel)

end Rebuilt

/-- Both versions of the program were created, so CREATEORMODIFY explains them, and so
does CREATE in its place. -/
theorem rebuilt_explained :
    (∀ a ∈ Rebuilt.withoutLog.unexplained, (Rule.createOrModify "*").Names a →
      Rebuilt.content.Created a ∨ Rebuilt.content.ModifiedAt a.uri) ∧
    verifyRules [.createOrModify "*"] Rebuilt.withoutLog = .explained ∧
      verifyRules [.create "*"] Rebuilt.withoutLog = .explained := by
  obtain ⟨hiff, _, _, hlists⟩ :=
    RuleContext.createOrModify_artifactwise Rebuilt.reachable_withoutLog
  have hcode : verifyRules [.createOrModify "*"] Rebuilt.withoutLog = .explained := by
    decide +kernel
  refine ⟨((hiff "*").mp (by decide +kernel)).2, hcode, ?_⟩
  exact (hlists [.createOrModify "*"] [.create "*"] rfl).1.mp hcode

end Provenance
