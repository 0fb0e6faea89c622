import Mathlib.Data.List.Nodup
import Mathlib.Data.List.Perm.Subperm
import Provenance.Proofs.Rule.Consumption

/-!
# MATCH carries artifacts from one directory to another

A MATCH rule names artifacts by what their paths have behind a source directory, and
asks for that rest behind a destination directory, with the same digest. Read this way
it is a relation between artifacts, in which neither the pool nor other steps have a
part (`Translates`), and what it takes for a directory is a relation as well
(`ReadAsDirectory`). The evaluator filters the pool by the one end of `Translates` and
looks up the other:

> `evaluate_matching_translates`: a MATCH rule succeeds iff its destination is verified
> and holds all that the pool is translated to. It selects whole segments of paths, and
> as no two artifacts are translated to one, it takes at most as many as there are at
> the destination.
-/

namespace Provenance

/-! ## Prefixes as directories -/

/-- The text ends in a slash. -/
def EndsInSlash (path : String) : Prop := ∃ front, path = front ++ "/"

/-- How a prefix is read. One that is absent or empty is nothing, and any other is a
directory: its name ends in the slash that it was given with or in one that is added. -/
inductive ReadAsDirectory : Option String → String → Prop
  | absent : ReadAsDirectory none ""
  | empty : ReadAsDirectory (some "") ""
  | closed {name : String} (h : EndsInSlash name) : ReadAsDirectory (some name) name
  | opened {name : String} (hname : name ≠ "") (h : ¬EndsInSlash name) :
      ReadAsDirectory (some name) (name ++ "/")

theorem getLast?_eq_slash_iff {path : String} :
    path.toList.getLast? = some '/' ↔ EndsInSlash path := by
  rw [List.getLast?_eq_some_iff]
  constructor
  · intro h
    obtain ⟨front, hfront⟩ := h
    refine ⟨String.ofList front, String.toList_injective ?_⟩
    rw [String.toList_append, String.toList_ofList, hfront]
    rfl
  · intro h
    obtain ⟨front, rfl⟩ := h
    exact ⟨front.toList, String.toList_append⟩

theorem readAsDirectory_directoryPrefix (given : Option String) :
    ReadAsDirectory given (directoryPrefix given) := by
  cases given with
  | none => exact .absent
  | some name =>
    have hkept : (name.isEmpty || decide (name.toList.getLast? = some '/')) = true ↔
        name = "" ∨ EndsInSlash name := by
      rw [Bool.or_eq_true, String.isEmpty_iff, decide_eq_true_eq, getLast?_eq_slash_iff]
    unfold directoryPrefix
    dsimp only
    split
    next h =>
      rcases hkept.mp h with rfl | hslash
      · exact .empty
      · exact .closed hslash
    next h =>
      rw [hkept, not_or] at h
      exact .opened h.1 h.2

theorem ReadAsDirectory.unique {given : Option String} {directory other : String}
    (h : ReadAsDirectory given directory) (h' : ReadAsDirectory given other) :
    directory = other := by
  cases h with
  | absent =>
    cases h'
    rfl
  | empty =>
    cases h' with
    | empty => rfl
    | closed _ => rfl
    | opened hname _ => exact absurd rfl hname
  | closed hslash =>
    cases h' with
    | empty => rfl
    | closed _ => rfl
    | opened _ hopen => exact absurd hslash hopen
  | opened hname hopen =>
    cases h' with
    | empty => exact absurd rfl hname
    | closed hslash => exact absurd hslash hopen
    | opened _ _ => rfl

theorem readAsDirectory_iff {given : Option String} {directory : String} :
    ReadAsDirectory given directory ↔ directory = directoryPrefix given := by
  constructor
  · intro h
    exact h.unique (readAsDirectory_directoryPrefix given)
  · rintro rfl
    exact readAsDirectory_directoryPrefix given

/-! ## Translation -/

/-- The rule looks for the second artifact in place of the first: the glob matches what
stands behind the source directory, and this stands behind the destination directory,
with the same digest. -/
inductive MatchRule.Translates (m : MatchRule) : Artifact → Artifact → Prop
  | behind {glob : PathPattern} {source destination rest hash : String}
      (hglob : PathPattern.ofRule (.matching m) = .ok glob)
      (hsource : ReadAsDirectory m.sourcePrefix source)
      (hdestination : ReadAsDirectory m.destinationPrefix destination)
      (hrest : glob.matches? rest = true) :
      m.Translates ⟨source ++ rest, hash⟩ ⟨destination ++ rest, hash⟩

namespace MatchRule

variable {m : MatchRule} {a a' b b' : Artifact}

theorem translates_iff :
    m.Translates a b ↔ ∃ glob, PathPattern.ofRule (.matching m) = .ok glob ∧
      ∃ rest, a.uri = directoryPrefix m.sourcePrefix ++ rest ∧ glob.matches? rest = true ∧
        b = ⟨directoryPrefix m.destinationPrefix ++ rest, a.hash⟩ := by
  constructor
  · intro h
    cases h with
    | behind hglob hsource hdestination hrest =>
      rw [readAsDirectory_iff] at hsource hdestination
      subst hsource hdestination
      exact ⟨_, hglob, _, rfl, hrest, rfl⟩
  · intro h
    obtain ⟨glob, hglob, rest, huri, hrest, rfl⟩ := h
    obtain ⟨uri, hash⟩ := a
    obtain rfl : uri = _ := huri
    exact .behind hglob (readAsDirectory_directoryPrefix _) (readAsDirectory_directoryPrefix _)
      hrest

/-- The rule names what it translates. -/
theorem names_iff_translates : (Rule.matching m).Names a ↔ ∃ b, m.Translates a b := by
  simp only [translates_iff]
  constructor
  · intro h
    obtain ⟨glob, hglob, rest, huri, hrest⟩ := h
    exact ⟨_, glob, hglob, rest, huri, hrest, rfl⟩
  · intro h
    obtain ⟨_, glob, hglob, rest, huri, hrest, _⟩ := h
    exact ⟨glob, hglob, rest, huri, hrest⟩

/-- No two artifacts are translated to one. -/
theorem Translates.injective (h : m.Translates a b) (h' : m.Translates a' b) : a = a' := by
  rw [translates_iff] at h h'
  obtain ⟨_, _, rest, huri, _, rfl⟩ := h
  obtain ⟨_, _, rest', huri', _, hb⟩ := h'
  rw [Artifact.mk.injEq, String.append_right_inj] at hb
  obtain ⟨rfl, hhash⟩ := hb
  obtain ⟨uri, hash⟩ := a
  obtain ⟨uri', hash'⟩ := a'
  rw [Artifact.mk.injEq]
  exact ⟨huri.trans huri'.symm, hhash⟩

/-- What the evaluator looks for is what the artifact is translated to. -/
theorem translates_counterpart (h : (Rule.matching m).Names a) :
    m.Translates a (RuleContext.counterpart m a) := by
  obtain ⟨glob, hglob, rest, huri, hrest⟩ := h
  rw [translates_iff]
  refine ⟨glob, hglob, rest, huri, hrest, ?_⟩
  rw [RuleContext.counterpart, pathBelow?_eq_some_iff.mpr huri]
  rfl

end MatchRule

/-! ## Segments of paths -/

theorem pathSegments_append_slash (name rest : String) :
    pathSegments (name ++ "/" ++ rest) = pathSegments name ++ pathSegments rest := by
  unfold pathSegments
  rw [String.append_assoc, String.toList_append, String.toList_append]
  exact List.splitOn_append_cons_self _ _

/-- A directory that is given without a slash is one or more whole segments of the paths
that are inside of it. -/
theorem MatchRule.Translates.inside {m : MatchRule} {a b : Artifact} (h : m.Translates a b)
    {name : String} (hgiven : m.sourcePrefix = some name) (hname : name ≠ "")
    (hopen : ¬EndsInSlash name) :
    a.uri ≠ name ∧ ∃ rest, a.uri = name ++ "/" ++ rest ∧
      pathSegments a.uri = pathSegments name ++ pathSegments rest := by
  obtain ⟨_, _, rest, huri, _⟩ := translates_iff.mp h
  have hsource : directoryPrefix m.sourcePrefix = name ++ "/" :=
    (readAsDirectory_iff.mp (hgiven ▸ .opened hname hopen)).symm
  rw [hsource] at huri
  have hsegments : pathSegments a.uri = pathSegments name ++ pathSegments rest :=
    huri ▸ pathSegments_append_slash name rest
  refine ⟨fun hsame => ?_, rest, huri, hsegments⟩
  -- inside of the directory there is at least one segment more
  rw [hsame, List.self_eq_append_right] at hsegments
  exact List.splitOn_ne_nil _ _ hsegments

/-! ## Evaluating a MATCH rule -/

/-- A set that is mapped into another one, no two artifacts to the same, is not larger. -/
theorem ArtifactSet.size_le_of_injOn {s t : ArtifactSet} {f : Artifact → Artifact}
    (hf : ∀ a ∈ s, f a ∈ t) (hinj : ∀ a ∈ s, ∀ b ∈ s, f a = f b → a = b) : s.size ≤ t.size := by
  have himage : (s.toList.map f).Nodup := s.nodup_toList.map_on hinj
  have hsub : s.toList.map f ⊆ t.toList := by
    intro b hb
    obtain ⟨a, ha, rfl⟩ := List.mem_map.mp hb
    exact hf a ha
  have hle := (List.subperm_of_subset himage hsub).length_le
  rwa [List.length_map] at hle

namespace RuleContext

variable {c : RuleContext} {m : MatchRule}

/-- What a rule takes out of the pool. -/
def consumed (c : RuleContext) (r : Rule) : ArtifactSet :=
  c.unexplained.diff (c.evaluate r).2.unexplained

theorem evaluate_matching_fst_iff :
    (c.evaluate (.matching m)).1 = true ↔
      (Rule.matching m).Readable ∧
        ∃ destination, c.verified.get? m.destination = some destination ∧
          ∀ a ∈ c.unexplained, ∀ b, m.Translates a b → b ∈ destination.side m.side := by
  rw [evaluate_fst_iff]
  refine and_congr Iff.rfl (exists_congr fun destination => and_congr Iff.rfl ?_)
  constructor
  · intro hall a ha b hab
    have hnamed : a ∈ c.named (.matching m) := ArtifactSet.mem_filter.mpr
      ⟨ha, Rule.selects_iff.mpr (MatchRule.names_iff_translates.mpr ⟨b, hab⟩)⟩
    obtain ⟨_, _, rest, huri, _, rfl⟩ := MatchRule.translates_iff.mp hab
    exact hall a hnamed rest huri
  · intro hall a ha rest huri
    obtain ⟨hpool, hselects⟩ := ArtifactSet.mem_filter.mp ha
    have hab := MatchRule.translates_counterpart (Rule.selects_iff.mp hselects)
    exact (counterpart_mem_iff ha).mp (hall a hpool _ hab) rest huri

theorem mem_consumed_matching (h : (c.evaluate (.matching m)).1 = true) {a : Artifact} :
    a ∈ c.consumed (.matching m) ↔ a ∈ c.unexplained ∧ (Rule.matching m).Names a := by
  rw [consumed, ArtifactSet.mem_diff, evaluate_snd_of_true h, mem_after_iff]
  refine and_congr_right fun ha => ?_
  simp [ha]

theorem mem_selectedBelow_iff {glob : PathPattern}
    (hglob : PathPattern.ofRule (.matching m) = .ok glob) {a : Artifact} :
    a ∈ c.selectedBelow m.sourcePrefix glob ↔
      a ∈ c.unexplained ∧ ∃ b, m.Translates a b := by
  rw [selectedBelow_eq_named hglob, named, ArtifactSet.mem_filter, Rule.selects_iff,
    MatchRule.names_iff_translates]

/-- **MATCH asks for an equal artifact at the translated path.** The rule succeeds iff
its glob can be read, its destination is verified and everything that an artifact of the
pool is translated to is on the chosen side there. What it selects is what it translates;
behind a directory that is given without a slash these are only paths with the segments
of the directory in front of others. What it consumes has its counterparts at the
destination, each its own, and so is never more than there is. -/
theorem evaluate_matching_translates (c : RuleContext) (m : MatchRule) :
    ((c.evaluate (.matching m)).1 = true ↔
      (Rule.matching m).Readable ∧
        ∃ destination, c.verified.get? m.destination = some destination ∧
          ∀ a ∈ c.unexplained, ∀ b, m.Translates a b → b ∈ destination.side m.side) ∧
    (∀ glob, PathPattern.ofRule (.matching m) = .ok glob → ∀ a,
      a ∈ c.selectedBelow m.sourcePrefix glob ↔ a ∈ c.unexplained ∧ ∃ b, m.Translates a b) ∧
    (∀ name, m.sourcePrefix = some name → name ≠ "" → ¬EndsInSlash name →
      ∀ a b, m.Translates a b → a.uri ≠ name ∧ ∃ rest, a.uri = name ++ "/" ++ rest ∧
        pathSegments a.uri = pathSegments name ++ pathSegments rest) ∧
    (∀ a a' b, m.Translates a b → m.Translates a' b → a = a') ∧
    ((c.evaluate (.matching m)).1 = true →
      ∃ destination, c.verified.get? m.destination = some destination ∧
        (∀ a, a ∈ c.consumed (.matching m) ↔ a ∈ c.unexplained ∧ ∃ b, m.Translates a b) ∧
        (∃ own : Artifact → Artifact,
          (∀ a ∈ c.consumed (.matching m),
            m.Translates a (own a) ∧ own a ∈ destination.side m.side) ∧
          ∀ a ∈ c.consumed (.matching m), ∀ a' ∈ c.consumed (.matching m),
            own a = own a' → a = a') ∧
        (c.consumed (.matching m)).size ≤ (destination.side m.side).size) := by
  refine ⟨evaluate_matching_fst_iff, fun glob hglob a => mem_selectedBelow_iff hglob,
    fun name hgiven hname hopen a b hab => hab.inside hgiven hname hopen,
    fun a a' b hab hab' => hab.injective hab', fun h => ?_⟩
  obtain ⟨_, destination, hdestination, hall⟩ := evaluate_matching_fst_iff.mp h
  have hconsumed : ∀ a ∈ c.consumed (.matching m),
      m.Translates a (counterpart m a) ∧ counterpart m a ∈ destination.side m.side := by
    intro a ha
    obtain ⟨hpool, hnames⟩ := (mem_consumed_matching h).mp ha
    have hab := MatchRule.translates_counterpart hnames
    exact ⟨hab, hall a hpool _ hab⟩
  have hown : ∀ a ∈ c.consumed (.matching m), ∀ a' ∈ c.consumed (.matching m),
      counterpart m a = counterpart m a' → a = a' := by
    intro a ha a' ha' heq
    exact (hconsumed a ha).1.injective (heq ▸ (hconsumed a' ha').1)
  refine ⟨destination, hdestination, fun a => ?_, ⟨counterpart m, hconsumed, hown⟩,
    ArtifactSet.size_le_of_injOn (fun a ha => (hconsumed a ha).2) hown⟩
  rw [mem_consumed_matching h, MatchRule.names_iff_translates]

end RuleContext

/-! ## Programs that are shipped as they were built -/

namespace Shipped

/-- What is in `dist` was built in `target`. -/
def rule : MatchRule := ⟨"*.jar", some "dist", .products, some "target/", ⟨"ci", "build"⟩⟩

/-- What the build produced. -/
def built : StepArtifacts :=
  ⟨.empty, .ofList [⟨"target/app.jar", "00"⟩, ⟨"target/lib.jar", "01"⟩]⟩

/-- One of the programs is shipped, beside the same program in another directory and a
file that has the name of the directory. -/
def context : RuleContext :=
  .forSide .materials
    ⟨.ofList [⟨"dist", "00"⟩, ⟨"dist/app.jar", "00"⟩, ⟨"dist2/app.jar", "00"⟩], .empty⟩
    (VerifiedSteps.empty.insert ⟨"ci", "build"⟩ built)

end Shipped

/-- The program is found where it was built. What stands beside `dist` is not looked
for. -/
theorem shipped_translated :
    (Shipped.context.evaluate (.matching Shipped.rule)).1 = true ∧
      (Shipped.context.consumed (.matching Shipped.rule)).size ≤ Shipped.built.products.size ∧
      ∀ b, ¬Shipped.rule.Translates ⟨"dist2/app.jar", "00"⟩ b := by
  obtain ⟨_, _, hinside, _, htakes⟩ :=
    RuleContext.evaluate_matching_translates Shipped.context Shipped.rule
  have hfound : (Shipped.context.evaluate (.matching Shipped.rule)).1 = true := by
    decide +kernel
  obtain ⟨destination, hdestination, _, _, hsize⟩ := htakes hfound
  have hbuilt : Shipped.context.verified.get? Shipped.rule.destination = some Shipped.built := by
    decide +kernel
  obtain rfl : Shipped.built = destination := Option.some.inj (hbuilt.symm.trans hdestination)
  have hopen : ¬EndsInSlash "dist" := by
    rw [← getLast?_eq_slash_iff]
    decide +kernel
  refine ⟨hfound, hsize, fun b hab => ?_⟩
  obtain ⟨_, _, _, hsegments⟩ := hinside "dist" rfl (by decide) hopen _ b hab
  have hname : pathSegments "dist" = ["dist".toList] := by decide +kernel
  rw [hname, List.singleton_append] at hsegments
  have hfirst : (pathSegments "dist2/app.jar").head? = some "dist".toList :=
    congrArg List.head? hsegments
  exact absurd hfirst (by decide +kernel)

end Provenance
