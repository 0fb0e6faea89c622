import Provenance.Rule.Evaluation

/-!
# What one rule does to the pool

A rule names artifacts by their paths alone: `Rule.selects` reads neither the
pool nor the two sides of the step. `Rule.Holds` says of some named artifacts
when the rule is true of them, one line for each kind and in terms of membership
only. Evaluating a rule is exactly these two:

> `evaluate_fst_iff`: a rule succeeds iff its pattern can be read and it holds of
> what it names in the pool;
>
> `evaluate_snd_of_true`: then exactly what it names leaves the pool (nothing for
> DISALLOW); `evaluate_snd_of_false`: otherwise nothing changes.

The one rule that explains more than it names is MODIFY: it marks both sides of
every modified path. A pattern reads only paths, so whatever of that is in the
pool was named anyway (`diff_bothSides`).
-/

namespace Provenance

/-! ## Paths inside a directory -/

theorem pathBelow?_eq_some_iff {directory path rest : String} :
    pathBelow? directory path = some rest ↔ path = directory ++ rest := by
  unfold pathBelow?
  constructor
  · intro h
    split at h
    next hp =>
      obtain ⟨tail, ht⟩ := List.isPrefixOf_iff_prefix.mp hp
      injection h with h
      apply String.toList_injective
      rw [String.toList_append, ← h, String.toList_ofList, ← ht, ← String.length_toList,
        List.drop_left]
    next => exact absurd h (by simp)
  · rintro rfl
    have hp : directory.toList.isPrefixOf (directory ++ rest).toList = true := by
      rw [List.isPrefixOf_iff_prefix, String.toList_append]
      exact List.prefix_append _ _
    rw [if_pos hp, String.toList_append, ← String.length_toList, List.drop_left,
      String.ofList_toList]

/-! ## What a rule names -/

namespace Rule

/-- The pattern of the rule can be read; that of a REQUIRE rule always can. -/
def Readable (r : Rule) : Prop := ∃ p, PathPattern.ofRule r = .ok p

/-- The rule names an artifact by its path; a MATCH rule by what follows its
source directory. A pattern that cannot be read names nothing. -/
def selects (r : Rule) (a : Artifact) : Bool :=
  match PathPattern.ofRule r with
  | .error _ => false
  | .ok p =>
    match r with
    | matching m => (pathBelow? (directoryPrefix m.sourcePrefix) a.uri).any p.matches?
    | _ => p.matches? a.uri

/-- The rule takes the artifacts it names out of the pool, which only DISALLOW
does not. -/
def claims : Rule → Artifact → Bool
  | disallow _, _ => false
  | r, a => r.selects a

/-- The pattern can be read and matches the path of the artifact, or for a MATCH rule
what follows the source directory in it. -/
def Names (r : Rule) (a : Artifact) : Prop :=
  ∃ p, PathPattern.ofRule r = .ok p ∧
    match r with
    | matching m => ∃ rest, a.uri = directoryPrefix m.sourcePrefix ++ rest ∧ p.matches? rest = true
    | _ => p.matches? a.uri = true

theorem selects_iff {r : Rule} {a : Artifact} : r.selects a = true ↔ r.Names a := by
  unfold selects Names
  cases PathPattern.ofRule r with
  | error e => simp
  | ok p =>
    simp only [Except.ok.injEq, exists_eq_left']
    cases r with
    | matching m => simp only [Option.any_eq_true, pathBelow?_eq_some_iff]
    | _ => exact Iff.rfl

theorem claims_iff {r : Rule} {a : Artifact} :
    r.claims a = true ↔ r.Names a ∧ ∀ pattern, r ≠ disallow pattern := by
  rw [← selects_iff]
  cases r with
  | disallow q => exact ⟨fun h => (nomatch h), fun h => absurd rfl (h.2 q)⟩
  | _ => exact ⟨fun h => ⟨h, fun _ => by simp⟩, fun h => h.1⟩

/-- A rule names the artifacts of a path all or none. -/
theorem selects_congr {r : Rule} {a b : Artifact} (h : a.uri = b.uri) :
    r.selects a = r.selects b := by
  unfold selects
  rw [h]

end Rule

/-! ## When a rule holds -/

namespace ArtifactSet

/-- Something is at the path. -/
def HasPath (s : ArtifactSet) (uri : String) : Prop := ∃ a ∈ s, a.uri = uri

/-- No digest is at the path in both sets. -/
def DifferAt (s t : ArtifactSet) (uri : String) : Prop :=
  ∀ hash, (⟨uri, hash⟩ : Artifact) ∈ s → (⟨uri, hash⟩ : Artifact) ∉ t

theorem mem_atUri {s : ArtifactSet} {uri : String} {a : Artifact} :
    a ∈ s.atUri uri ↔ a ∈ s ∧ a.uri = uri := by
  simp [atUri, mem_def]

theorem atUri_isEmpty_iff {s : ArtifactSet} {uri : String} :
    (s.atUri uri).isEmpty = false ↔ s.HasPath uri := by
  rw [List.isEmpty_eq_false_iff_exists_mem]
  constructor
  · intro h
    obtain ⟨a, ha⟩ := h
    exact ⟨a, mem_atUri.mp ha⟩
  · intro h
    obtain ⟨a, ha⟩ := h
    exact ⟨a, mem_atUri.mpr ha⟩

theorem all_toList_iff {s : ArtifactSet} {p : Artifact → Bool} :
    s.toList.all p = true ↔ ∀ a ∈ s, p a = true := List.all_eq_true

theorem nodup_toList (s : ArtifactSet) : s.toList.Nodup := by
  refine s.increasing.imp ?_
  rintro a _ hlt rfl
  exact Artifact.lt_irrefl a hlt

theorem isEmpty_iff {s : ArtifactSet} : s.isEmpty = true ↔ ∀ a, a ∉ s := by
  rw [isEmpty, List.isEmpty_iff, List.eq_nil_iff_forall_not_mem]
  exact Iff.rfl

end ArtifactSet

namespace Rule

/-- The rule is true of the artifacts it names, for a step with these materials
and products after these verified steps. -/
def Holds (materials products : ArtifactSet) (verified : VerifiedSteps) (r : Rule)
    (named : ArtifactSet) : Prop :=
  match r with
  | create _ => ∀ a ∈ named, a ∈ products ∧ a ∉ materials
  | delete _ => ∀ a ∈ named, a ∈ materials ∧ a ∉ products
  | modify _ => ∀ a ∈ named,
      materials.HasPath a.uri ∧ products.HasPath a.uri ∧ materials.DifferAt products a.uri
  | createOrModify _ => ∀ a ∈ named,
      ¬(a ∈ materials ∧ a ∈ products) ∧ products.HasPath a.uri ∧
        (materials.HasPath a.uri → materials.DifferAt products a.uri)
  | allow _ => True
  | disallow _ => ∀ a, a ∉ named
  | require _ => ∃ a, a ∈ named
  | matching m => ∃ destination, verified.get? m.destination = some destination ∧
      ∀ a ∈ named, ∀ rest, a.uri = directoryPrefix m.sourcePrefix ++ rest →
        (⟨directoryPrefix m.destinationPrefix ++ rest, a.hash⟩ : Artifact) ∈
          destination.side m.side

end Rule

namespace RuleContext

/-- The unexplained artifacts that a rule names. -/
def named (c : RuleContext) (r : Rule) : ArtifactSet := c.unexplained.filter r.selects

/-- The context once the rule has taken what it claims. -/
def after (c : RuleContext) (r : Rule) : RuleContext :=
  { c with unexplained := c.unexplained.filter fun a => !r.claims a }

theorem isCreated_iff {c : RuleContext} {a : Artifact} :
    c.isCreated a = true ↔ a ∈ c.products ∧ a ∉ c.materials := by
  simp [isCreated]

theorem isDeleted_iff {c : RuleContext} {a : Artifact} :
    c.isDeleted a = true ↔ a ∈ c.materials ∧ a ∉ c.products := by
  simp [isDeleted]

theorem isModified_iff {c : RuleContext} {uri : String} :
    c.isModified uri = true ↔
      c.materials.HasPath uri ∧ c.products.HasPath uri ∧ c.materials.DifferAt c.products uri := by
  have hd : ((c.materials.atUri uri).all fun m => (c.products.atUri uri).all fun p =>
      decide (m.hash ≠ p.hash)) = true ↔ c.materials.DifferAt c.products uri := by
    simp only [List.all_eq_true, ArtifactSet.mem_atUri, decide_eq_true_eq]
    constructor
    · intro h hash hm hp
      exact h ⟨uri, hash⟩ ⟨hm, rfl⟩ ⟨uri, hash⟩ ⟨hp, rfl⟩ rfl
    · rintro h m ⟨hm, rfl⟩ p ⟨hp, hu⟩ he
      refine h m.hash hm ?_
      rw [← hu, he]
      exact hp
  unfold isModified
  simp only [Bool.and_eq_true, Bool.not_eq_true', ArtifactSet.atUri_isEmpty_iff, hd, and_assoc]

theorem isCreatedOrModified_iff {c : RuleContext} {a : Artifact} :
    c.isCreatedOrModified a = true ↔
      ¬(a ∈ c.materials ∧ a ∈ c.products) ∧ c.products.HasPath a.uri ∧
        (c.materials.HasPath a.uri → c.materials.DifferAt c.products a.uri) := by
  have hp : (c.products.atUri a.uri).isEmpty = false ↔ c.products.HasPath a.uri :=
    ArtifactSet.atUri_isEmpty_iff
  have hm : (c.materials.atUri a.uri).isEmpty = false ↔ c.materials.HasPath a.uri :=
    ArtifactSet.atUri_isEmpty_iff
  unfold isCreatedOrModified
  by_cases hboth : a ∈ c.materials ∧ a ∈ c.products
  · simp [hboth]
  · rw [if_neg hboth]
    cases hpe : (c.products.atUri a.uri).isEmpty with
    | true => simp [← hp, hpe]
    | false =>
      have hprod := hp.mp hpe
      cases hme : (c.materials.atUri a.uri).isEmpty with
      | true =>
        have hmat : ¬c.materials.HasPath a.uri := by rw [← hm, hme]; simp
        simp [hboth, hprod, hmat]
      | false =>
        have hmat := hm.mp hme
        simp [hboth, hprod, hmat, isModified_iff]

/-! ## What a rule leaves in the pool -/

theorem mem_foldl_bothSides {c : RuleContext} {x : Artifact} :
    ∀ (l : List Artifact) (acc : ArtifactSet),
      x ∈ l.foldl (fun acc a => (c.products.atUri a.uri).foldl ArtifactSet.insert
          ((c.materials.atUri a.uri).foldl ArtifactSet.insert acc)) acc ↔
        x ∈ acc ∨ (x ∈ c.materials ∨ x ∈ c.products) ∧ ∃ a ∈ l, x.uri = a.uri
  | [], _ => by simp
  | a :: l, acc => by
    rw [List.foldl_cons, mem_foldl_bothSides l, ArtifactSet.mem_foldl_insert,
      ArtifactSet.mem_foldl_insert, ArtifactSet.mem_atUri, ArtifactSet.mem_atUri]
    simp only [List.mem_cons, or_and_right, exists_or, exists_eq_left, and_or_left, or_assoc]

/-- Marking both sides of some artifacts adds what is at their paths. -/
theorem mem_bothSides {c : RuleContext} {s : ArtifactSet} {x : Artifact} :
    x ∈ c.bothSides s ↔
      x ∈ s ∨ (x ∈ c.materials ∨ x ∈ c.products) ∧ ∃ a ∈ s, x.uri = a.uri :=
  mem_foldl_bothSides s.toList s

/-- Of what is at the named paths, only what is named itself is in the pool: whatever
else is there in the pool is named by the same rule. -/
theorem mem_bothSides_named {c : RuleContext} {r : Rule} {x : Artifact} (hx : x ∈ c.unexplained) :
    x ∈ c.bothSides (c.named r) ↔ r.selects x = true := by
  rw [mem_bothSides]
  constructor
  · intro h
    rcases h with h | ⟨_, a, ha, huri⟩
    · exact (ArtifactSet.mem_filter.mp h).2
    · rw [Rule.selects_congr huri]
      exact (ArtifactSet.mem_filter.mp ha).2
  · intro h
    exact .inl (ArtifactSet.mem_filter.mpr ⟨hx, h⟩)

/-- Taking both sides of the named paths out of the pool takes out what was named. -/
theorem diff_bothSides {c : RuleContext} {r : Rule} :
    c.unexplained.diff (c.bothSides (c.named r)) = c.unexplained.filter fun a => !r.selects a := by
  ext x
  rw [ArtifactSet.mem_diff, ArtifactSet.mem_filter]
  refine and_congr_right fun hx => ?_
  rw [mem_bothSides_named hx, Bool.not_eq_true, Bool.not_eq_true']

theorem diff_named {c : RuleContext} {r : Rule} :
    c.unexplained.diff (c.named r) = c.unexplained.filter fun a => !r.selects a := by
  ext x
  rw [ArtifactSet.mem_diff, named, ArtifactSet.mem_filter, ArtifactSet.mem_filter]
  cases hs : r.selects x <;> simp

/-! ## Evaluating a rule -/

theorem explainIf_fst {c : RuleContext} {holds : Bool} {s : ArtifactSet} :
    (c.explainIf holds s).1 = holds := by
  cases holds <;> rfl

theorem explainIf_snd_of_true {c : RuleContext} {holds : Bool} {s : ArtifactSet}
    (h : (c.explainIf holds s).1 = true) : (c.explainIf holds s).2 = c.consume s := by
  rw [explainIf_fst] at h
  rw [h]
  rfl

theorem explainIf_snd_of_false {c : RuleContext} {holds : Bool} {s : ArtifactSet}
    (h : (c.explainIf holds s).1 = false) : (c.explainIf holds s).2 = c := by
  rw [explainIf_fst] at h
  rw [h]
  rfl

theorem selected_eq_named {c : RuleContext} {r : Rule} {p : PathPattern}
    (hp : PathPattern.ofRule r = .ok p) (hr : ∀ m, r ≠ .matching m) :
    c.selected p = c.named r := by
  unfold selected named Rule.selects
  rw [hp]
  cases r with
  | matching m => exact absurd rfl (hr m)
  | _ => rfl

theorem selectedBelow_eq_named {c : RuleContext} {m : MatchRule} {p : PathPattern}
    (hp : PathPattern.ofRule (.matching m) = .ok p) :
    c.selectedBelow m.sourcePrefix p = c.named (.matching m) := by
  unfold selectedBelow named Rule.selects
  rw [hp]
  congr 1
  funext a
  show _ = (pathBelow? (directoryPrefix m.sourcePrefix) a.uri).any p.matches?
  cases pathBelow? (directoryPrefix m.sourcePrefix) a.uri <;> rfl

/-- Where a MATCH rule looks, in terms of the rest of the path. -/
theorem counterpart_mem_iff {c : RuleContext} {m : MatchRule} {a : Artifact} {s : ArtifactSet}
    (ha : a ∈ c.named (.matching m)) :
    counterpart m a ∈ s ↔
      ∀ rest, a.uri = directoryPrefix m.sourcePrefix ++ rest →
        (⟨directoryPrefix m.destinationPrefix ++ rest, a.hash⟩ : Artifact) ∈ s := by
  obtain ⟨_, _, rest, huri, _⟩ := Rule.selects_iff.mp (ArtifactSet.mem_filter.mp ha).2
  have hrest := pathBelow?_eq_some_iff.mpr huri
  unfold counterpart
  rw [hrest]
  -- the path determines the rest, so asking for this one is asking for all
  constructor
  · intro h rest' h'
    rw [← pathBelow?_eq_some_iff, hrest] at h'
    injection h' with h'
    rw [← h']
    exact h
  · intro h
    exact h rest huri

theorem evaluateMatch_fst_iff {c : RuleContext} {m : MatchRule} {p : PathPattern}
    (hp : PathPattern.ofRule (.matching m) = .ok p) :
    (c.evaluateMatch m p).1 = true ↔
      (Rule.matching m).Holds c.materials c.products c.verified (c.named (.matching m)) := by
  unfold evaluateMatch
  show _ ↔ ∃ destination, c.verified.get? m.destination = some destination ∧ _
  cases hd : c.verified.get? m.destination with
  | none => simp
  | some destination =>
    simp only [explainIf_fst, selectedBelow_eq_named hp, ArtifactSet.all_toList_iff,
      decide_eq_true_eq, Option.some.injEq, exists_eq_left']
    constructor
    · intro h a ha
      exact (counterpart_mem_iff ha).mp (h a ha)
    · intro h a ha
      exact (counterpart_mem_iff ha).mpr (h a ha)

theorem evaluateWith_fst_iff {c : RuleContext} {r : Rule} {p : PathPattern}
    (hp : PathPattern.ofRule r = .ok p) :
    (c.evaluateWith p r).1 = true ↔
      r.Holds c.materials c.products c.verified (c.named r) := by
  cases r with
  | matching m => exact evaluateMatch_fst_iff hp
  | create _ =>
    simp only [evaluateWith, explainIf_fst, selected_eq_named hp (by simp),
      ArtifactSet.all_toList_iff, isCreated_iff]
    rfl
  | delete _ =>
    simp only [evaluateWith, explainIf_fst, selected_eq_named hp (by simp),
      ArtifactSet.all_toList_iff, isDeleted_iff]
    rfl
  | modify _ =>
    simp only [evaluateWith, explainIf_fst, selected_eq_named hp (by simp),
      ArtifactSet.all_toList_iff, isModified_iff]
    rfl
  | createOrModify _ =>
    simp only [evaluateWith, explainIf_fst, selected_eq_named hp (by simp),
      ArtifactSet.all_toList_iff, isCreatedOrModified_iff]
    rfl
  | allow _ =>
    simp only [evaluateWith, explainIf_fst]
    exact ⟨fun _ => trivial, fun _ => trivial⟩
  | disallow _ =>
    simp only [evaluateWith, selected_eq_named hp (by simp), ArtifactSet.isEmpty_iff]
    rfl
  | require _ =>
    -- of all kinds only REQUIRE asks for something to be there
    simp only [evaluateWith, explainIf_fst, selected_eq_named hp (by simp), Bool.not_eq_true',
      ← Bool.not_eq_true, ArtifactSet.isEmpty_iff, Classical.not_forall, Classical.not_not]
    rfl

theorem consume_named {c : RuleContext} {r : Rule} (hr : ∀ q, r ≠ .disallow q) :
    c.consume (c.named r) = c.after r := by
  unfold consume after
  rw [diff_named]
  cases r with
  | disallow q => exact absurd rfl (hr q)
  | _ => rfl

theorem consume_bothSides {c : RuleContext} {q : String} :
    c.consume (c.bothSides (c.named (.modify q))) = c.after (.modify q) := by
  unfold consume after
  rw [diff_bothSides]
  rfl

theorem after_disallow {c : RuleContext} {q : String} : c.after (.disallow q) = c := by
  unfold after
  congr 1
  ext x
  simp [Rule.claims]

theorem evaluateWith_snd_of_true {c : RuleContext} {r : Rule} {p : PathPattern}
    (hp : PathPattern.ofRule r = .ok p) (h : (c.evaluateWith p r).1 = true) :
    (c.evaluateWith p r).2 = c.after r := by
  cases r with
  | matching m =>
    -- without its destination the rule would not have succeeded
    simp only [evaluateWith, evaluateMatch] at h ⊢
    cases hd : c.verified.get? m.destination with
    | none => rw [hd] at h; exact absurd h (by simp)
    | some destination =>
      rw [hd] at h
      rw [explainIf_snd_of_true h, selectedBelow_eq_named hp, consume_named (by simp)]
  | modify _ =>
    simp only [evaluateWith] at h ⊢
    rw [explainIf_snd_of_true h, selected_eq_named hp (by simp), consume_bothSides]
  | disallow _ => exact after_disallow.symm
  | _ =>
    simp only [evaluateWith] at h ⊢
    rw [explainIf_snd_of_true h, selected_eq_named hp (by simp), consume_named (by simp)]

theorem evaluateWith_snd_of_false {c : RuleContext} {r : Rule} {p : PathPattern}
    (h : (c.evaluateWith p r).1 = false) : (c.evaluateWith p r).2 = c := by
  cases r with
  | matching m =>
    simp only [evaluateWith, evaluateMatch] at h ⊢
    cases hd : c.verified.get? m.destination with
    | none => rfl
    | some destination => rw [hd] at h; exact explainIf_snd_of_false h
  | disallow _ => rfl
  | _ => exact explainIf_snd_of_false h

/-- A rule succeeds iff its pattern can be read and it holds of what it names. -/
theorem evaluate_fst_iff {c : RuleContext} {r : Rule} :
    (c.evaluate r).1 = true ↔
      r.Readable ∧ r.Holds c.materials c.products c.verified (c.named r) := by
  unfold evaluate Rule.Readable
  cases hp : PathPattern.ofRule r with
  | error e => simp
  | ok p => simp [evaluateWith_fst_iff hp]

/-- A rule that succeeds takes what it claims. -/
theorem evaluate_snd_of_true {c : RuleContext} {r : Rule} (h : (c.evaluate r).1 = true) :
    (c.evaluate r).2 = c.after r := by
  unfold evaluate at h ⊢
  cases hp : PathPattern.ofRule r with
  | error e => rw [hp] at h; exact absurd h (by simp)
  | ok p => rw [hp] at h; exact evaluateWith_snd_of_true hp h

/-- A rule that fails changes nothing. -/
theorem evaluate_snd_of_false {c : RuleContext} {r : Rule} (h : (c.evaluate r).1 = false) :
    (c.evaluate r).2 = c := by
  unfold evaluate at h ⊢
  cases hp : PathPattern.ofRule r with
  | error e => rfl
  | ok p => rw [hp] at h; exact evaluateWith_snd_of_false h

end RuleContext

end Provenance
