import Provenance.Proofs.Checks
import Provenance.Proofs.Rule.Translation

/-!
# Rules that can be used

Before a rule is evaluated anywhere, `Rule.check` compiles its pattern and looks at the
directories of a MATCH rule. `Rule.Usable` says what is asked for, of the texts
themselves:

> `Rule.check_eq_ok_iff`: the check passes iff the pattern is a glob, unless it is the
> path of a REQUIRE rule, and both directories stay inside the working directory.

The check cuts a path at its slashes and looks for `..` among the segments. What a
segment is can be said without cutting (`PartOf`), by what stands around it in the
path.
-/

namespace Provenance

/-! ## Segments -/

section Parts

variable {α : Type} {sep : α} {part l : List α}

/-- The part has no separator in it and stands between two of them; the ends of the
list count as separators. -/
def PartOf (sep : α) (part l : List α) : Prop :=
  sep ∉ part ∧ ∃ before after, l = before ++ part ++ after ∧
    (before = [] ∨ ∃ front, before = front ++ [sep]) ∧ (after = [] ∨ ∃ rest, after = sep :: rest)

variable [DecidableEq α]

theorem PartOf.of_mem_splitOn {l : List α} (h : part ∈ l.splitOn sep) : PartOf sep part l := by
  by_cases hsep : sep ∈ l
  · obtain ⟨front, rest, rfl, hfront⟩ := List.eq_append_cons_of_mem hsep
    rw [List.splitOn_append_cons_self, List.splitOn_eq_singleton hfront, List.singleton_append,
      List.mem_cons] at h
    -- it is what stands in front of the first separator, or a part of the rest
    rcases h with rfl | h
    · exact ⟨hfront, [], sep :: rest, rfl, .inl rfl, .inr ⟨rest, rfl⟩⟩
    · obtain ⟨hpart, before, after, rfl, hbefore, hafter⟩ := PartOf.of_mem_splitOn h
      refine ⟨hpart, front ++ sep :: before, after, by simp, .inr ?_, hafter⟩
      rcases hbefore with rfl | ⟨front', rfl⟩
      · exact ⟨front, rfl⟩
      · exact ⟨front ++ sep :: front', by simp⟩
  · rw [List.splitOn_eq_singleton hsep, List.mem_singleton] at h
    subst h
    exact ⟨hsep, [], [], by simp, .inl rfl, .inl rfl⟩
  termination_by l.length
  decreasing_by
    subst_vars
    rw [List.length_append, List.length_cons]
    omega

theorem PartOf.mem_splitOn (h : PartOf sep part l) : part ∈ l.splitOn sep := by
  obtain ⟨hpart, before, after, rfl, hbefore, hafter⟩ := h
  have hfirst : part ∈ (part ++ after).splitOn sep := by
    rcases hafter with rfl | ⟨rest, rfl⟩
    · rw [List.append_nil, List.splitOn_eq_singleton hpart]
      exact List.mem_singleton_self part
    · rw [List.splitOn_append_cons_self, List.splitOn_eq_singleton hpart]
      exact List.mem_cons_self
  rcases hbefore with rfl | ⟨front, rfl⟩
  · exact hfirst
  · have hassoc : front ++ [sep] ++ part ++ after = front ++ sep :: (part ++ after) := by simp
    rw [hassoc, List.splitOn_append_cons_self]
    exact List.mem_append_right _ hfirst

end Parts

/-! ## Directories -/

/-- One of the segments of the path is `..`. -/
def Climbs (path : String) : Prop :=
  ∃ before after, path = before ++ ".." ++ after ∧ (before = "" ∨ EndsInSlash before) ∧
    (after = "" ∨ ∃ rest, after = "/" ++ rest)

/-- The path starts from the working directory and never leads out of a directory. -/
structure StaysInside (path : String) : Prop where
  relative : ¬∃ rest, path = "/" ++ rest
  noClimb : ¬Climbs path

theorem head?_eq_slash_iff {path : String} :
    path.toList.head? = some '/' ↔ ∃ rest, path = "/" ++ rest := by
  rw [List.head?_eq_some_iff]
  constructor
  · intro h
    obtain ⟨rest, hrest⟩ := h
    refine ⟨String.ofList rest, String.toList_injective ?_⟩
    simp [hrest]
  · intro h
    obtain ⟨rest, rfl⟩ := h
    exact ⟨rest.toList, String.toList_append⟩

theorem climbs_iff {path : String} : Climbs path ↔ ['.', '.'] ∈ pathSegments path := by
  unfold pathSegments
  constructor
  · intro h
    obtain ⟨before, after, rfl, hbefore, hafter⟩ := h
    refine PartOf.mem_splitOn ⟨by simp, before.toList, after.toList, ?_, ?_, ?_⟩
    · rw [String.toList_append, String.toList_append]
      rfl
    · rcases hbefore with rfl | hslash
      · exact .inl rfl
      · exact .inr (List.getLast?_eq_some_iff.mp (getLast?_eq_slash_iff.mpr hslash))
    · rcases hafter with rfl | hslash
      · exact .inl rfl
      · exact .inr (List.head?_eq_some_iff.mp (head?_eq_slash_iff.mpr hslash))
  · intro h
    obtain ⟨_, before, after, hpath, hbefore, hafter⟩ := PartOf.of_mem_splitOn h
    refine ⟨String.ofList before, String.ofList after, String.toList_injective ?_, ?_, ?_⟩
    · simp [hpath]
    · rcases hbefore with rfl | hslash
      · exact .inl rfl
      · refine .inr (getLast?_eq_slash_iff.mp ?_)
        rw [String.toList_ofList]
        exact List.getLast?_eq_some_iff.mpr hslash
    · rcases hafter with rfl | hslash
      · exact .inl rfl
      · refine .inr (head?_eq_slash_iff.mp ?_)
        rw [String.toList_ofList]
        exact List.head?_eq_some_iff.mpr hslash

theorem checkPrefix_eq_ok_iff {given : Option String} :
    checkPrefix given = .ok () ↔ ∀ path, given = some path → StaysInside path := by
  cases given with
  | none => simp [checkPrefix]
  | some path =>
    have hinside : StaysInside path ↔
        ¬path.toList.head? = some '/' ∧ ['.', '.'] ∉ pathSegments path := by
      rw [head?_eq_slash_iff, ← climbs_iff]
      exact ⟨fun h => ⟨h.relative, h.noClimb⟩, fun h => ⟨h.1, h.2⟩⟩
    simp only [Option.some.injEq, forall_eq', hinside]
    unfold checkPrefix
    by_cases habsolute : path.toList.head? = some '/'
    · simp [habsolute]
    · by_cases hclimb : ['.', '.'] ∈ pathSegments path
      · simp [habsolute, hclimb]
      · simp [habsolute, hclimb]

/-! ## Rules -/

/-- The rule has a pattern that compiles, unless it asks for one path, and the
directories of a MATCH rule stay inside the working directory. -/
structure Rule.Usable (r : Rule) : Prop where
  pattern : (∀ uri, r ≠ .require uri) → ∃ tokens, Glob.read r.pattern = .ok tokens
  directories : ∀ m, r = .matching m → ∀ path,
    m.sourcePrefix = some path ∨ m.destinationPrefix = some path → StaysInside path

theorem ofGlob_eq_ok_iff {pattern : String} :
    (∃ p, PathPattern.ofGlob pattern = .ok p) ↔ ∃ tokens, Glob.read pattern = .ok tokens := by
  unfold PathPattern.ofGlob
  cases Glob.read pattern <;> simp

theorem readable_iff {r : Rule} :
    r.Readable ↔ (∀ uri, r ≠ .require uri) → ∃ tokens, Glob.read r.pattern = .ok tokens := by
  unfold Rule.Readable PathPattern.ofRule
  cases r with
  | require uri => simp
  | _ => simp [ofGlob_eq_ok_iff]

theorem Rule.check_eq_ok_iff {r : Rule} : r.check = .ok () ↔ r.Usable := by
  have hread : r.check = .ok () ↔ r.Readable ∧ ∀ m, r = .matching m →
      checkPrefix m.sourcePrefix = .ok () ∧ checkPrefix m.destinationPrefix = .ok () := by
    unfold Rule.check Rule.Readable
    rw [Checks.bind_eq_ok_iff, ← exists_and_right]
    cases r with
    | matching m =>
      simp only [Checks.bind_eq_ok_iff, matching.injEq, forall_eq']
      exact ⟨fun ⟨p, hp, _, hsource, hdestination⟩ => ⟨p, hp, hsource, hdestination⟩,
        fun ⟨p, hp, hsource, hdestination⟩ => ⟨p, hp, (), hsource, hdestination⟩⟩
    | _ => simp
  rw [hread, readable_iff]
  simp only [checkPrefix_eq_ok_iff]
  constructor
  · intro h
    obtain ⟨hpattern, hdirectories⟩ := h
    refine ⟨hpattern, fun m hm path hpath => ?_⟩
    obtain ⟨hsource, hdestination⟩ := hdirectories m hm
    rcases hpath with hpath | hpath
    · exact hsource path hpath
    · exact hdestination path hpath
  · intro h
    refine ⟨h.pattern, fun m hm => ⟨fun path hpath => ?_, fun path hpath => ?_⟩⟩
    · exact h.directories m hm path (.inl hpath)
    · exact h.directories m hm path (.inr hpath)

end Provenance
