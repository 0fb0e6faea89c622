import Mathlib.Data.List.Induction
import Provenance.Link
import Provenance.Proofs.Lists

/-!
# Artifacts that are listed again

A side of a link is looked through from its beginning, and an artifact that comes next is
a repeat iff it was there before (`Artifact.repeated_concat`). From that one step, by
induction on the part of the list that was looked through:

> `Artifact.listsRepeats_repeated`: the repeats are what stands at the places at which an
> artifact stands that was listed before, in the order of the places;
>
> `Artifact.repeated_eq_nil_iff`: there are none iff no artifact is listed twice;
>
> `Artifact.length_repeated`: a list is as long as its repeats and its set together.
-/

namespace Provenance

namespace Artifact

theorem repeatedAfter_concat (a : Artifact) (artifacts : List Artifact) :
    ∀ seen, repeatedAfter seen (artifacts ++ [a]) =
      repeatedAfter seen artifacts ++ if a ∈ seen ∨ a ∈ artifacts then [a] else [] := by
  induction artifacts with
  | nil =>
    intro seen
    simp [repeatedAfter]
  | cons b rest ih =>
    intro seen
    rw [List.cons_append]
    unfold repeatedAfter
    -- what is seen first is among the seen from then on, whether it was before or not
    by_cases hb : b ∈ seen
    · have hseen : (a ∈ seen ∨ a ∈ b :: rest) ↔ (a ∈ seen ∨ a ∈ rest) := by
        rw [List.mem_cons]
        constructor
        · rintro (h | rfl | h)
          · exact .inl h
          · exact .inl hb
          · exact .inr h
        · rintro (h | h)
          · exact .inl h
          · exact .inr (.inr h)
      rw [if_pos hb, if_pos hb, ih, List.cons_append, if_congr hseen rfl rfl]
    · have hseen : (a ∈ b :: seen ∨ a ∈ rest) ↔ (a ∈ seen ∨ a ∈ b :: rest) := by
        rw [List.mem_cons, List.mem_cons, or_comm (a := a = b), or_assoc]
      rw [if_neg hb, if_neg hb, ih, if_congr hseen rfl rfl]

/-- An artifact that is listed next is a repeat iff it was listed before. -/
theorem repeated_concat (artifacts : List Artifact) (a : Artifact) :
    repeated (artifacts ++ [a]) = repeated artifacts ++ if a ∈ artifacts then [a] else [] := by
  unfold repeated
  rw [repeatedAfter_concat]
  simp

/-! ## Places -/

/-- An artifact stands here that was listed before. -/
def RepeatedAt (artifacts : List Artifact) (i : Nat) : Prop :=
  ∃ a, artifacts[i]? = some a ∧ ∃ j < i, artifacts[j]? = some a

/-- What stands at the places where an artifact is listed again, from the first such place
to the last. -/
def ListsRepeats (artifacts repeats : List Artifact) : Prop :=
  ∃ places : List Nat, places.Pairwise (· < ·) ∧ (∀ i, i ∈ places ↔ RepeatedAt artifacts i) ∧
    List.Forall₂ (fun i a => artifacts[i]? = some a) places repeats

theorem RepeatedAt.lt_length {artifacts : List Artifact} {i : Nat}
    (h : RepeatedAt artifacts i) : i < artifacts.length := by
  obtain ⟨a, ha, _⟩ := h
  exact (List.getElem?_eq_some_iff.mp ha).1

theorem repeatedAt_concat {artifacts : List Artifact} {a : Artifact} {i : Nat} :
    RepeatedAt (artifacts ++ [a]) i ↔
      RepeatedAt artifacts i ∨ (i = artifacts.length ∧ a ∈ artifacts) := by
  unfold RepeatedAt
  -- before the new artifact the lists agree, and behind it there is nothing
  rcases Nat.lt_trichotomy i artifacts.length with hi | rfl | hi
  · have hbefore : ∀ j ≤ i, (artifacts ++ [a])[j]? = artifacts[j]? :=
      fun j hj => List.getElem?_append_left (Nat.lt_of_le_of_lt hj hi)
    rw [hbefore i (Nat.le_refl i), or_iff_left fun h => absurd h.1 (Nat.ne_of_lt hi)]
    constructor
    · rintro ⟨b, hb, j, hj, hbj⟩
      exact ⟨b, hb, j, hj, hbefore j (Nat.le_of_lt hj) ▸ hbj⟩
    · rintro ⟨b, hb, j, hj, hbj⟩
      exact ⟨b, hb, j, hj, (hbefore j (Nat.le_of_lt hj)).trans hbj⟩
  · rw [List.getElem?_concat_length, List.getElem?_eq_none (Nat.le_refl _)]
    constructor
    · rintro ⟨b, hb, j, hj, hbj⟩
      injection hb with hb
      subst hb
      rw [List.getElem?_append_left hj] at hbj
      exact .inr ⟨rfl, List.mem_of_getElem? hbj⟩
    · rintro (⟨b, hb, _⟩ | ⟨_, ha⟩)
      · exact nomatch hb
      · obtain ⟨j, hj⟩ := List.mem_iff_getElem?.mp ha
        have hlt := (List.getElem?_eq_some_iff.mp hj).1
        exact ⟨a, rfl, j, hlt, (List.getElem?_append_left hlt).trans hj⟩
  · have hbehind : (artifacts ++ [a])[i]? = none := by
      rw [List.getElem?_eq_none_iff, List.length_append, List.length_singleton]
      omega
    have hbehind' : artifacts[i]? = none := List.getElem?_eq_none (Nat.le_of_lt hi)
    rw [hbehind, hbehind']
    constructor
    · rintro ⟨b, hb, _⟩
      exact nomatch hb
    · rintro (⟨b, hb, _⟩ | ⟨hi', _⟩)
      · exact nomatch hb
      · omega

/-- The repeats are the artifacts at the places where one is listed again. -/
theorem listsRepeats_repeated (artifacts : List Artifact) :
    ListsRepeats artifacts (repeated artifacts) := by
  induction artifacts using List.reverseRecOn with
  | nil =>
    refine ⟨[], .nil, fun i => ⟨fun h => (nomatch h), fun h => ?_⟩, .nil⟩
    exact absurd h.lt_length (Nat.not_lt_zero i)
  | append_singleton artifacts a ih =>
    obtain ⟨places, hincreasing, hplaces, hlisted⟩ := ih
    have hlt : ∀ i ∈ places, i < artifacts.length := fun i hi => ((hplaces i).mp hi).lt_length
    have hstay : List.Forall₂ (fun i b => (artifacts ++ [a])[i]? = some b) places
        (repeated artifacts) :=
      forall₂_imp_of_mem hlisted fun i hi b _ hb =>
        (List.getElem?_append_left (hlt i hi)).trans hb
    rw [repeated_concat]
    by_cases ha : a ∈ artifacts
    · rw [if_pos ha]
      refine ⟨places ++ [artifacts.length], ?_, fun i => ?_, ?_⟩
      · refine List.pairwise_append.mpr ⟨hincreasing, List.pairwise_singleton _ _, ?_⟩
        intro i hi j hj
        rw [List.mem_singleton.mp hj]
        exact hlt i hi
      · rw [repeatedAt_concat, List.mem_append, List.mem_singleton, hplaces]
        simp [ha]
      · exact List.rel_append hstay (.cons List.getElem?_concat_length .nil)
    · rw [if_neg ha, List.append_nil]
      refine ⟨places, hincreasing, fun i => ?_, hstay⟩
      rw [hplaces, repeatedAt_concat, or_iff_left fun h => ha h.2]

theorem repeated_eq_nil_iff {artifacts : List Artifact} :
    repeated artifacts = [] ↔ artifacts.Nodup := by
  induction artifacts using List.reverseRecOn with
  | nil => exact ⟨fun _ => .nil, fun _ => rfl⟩
  | append_singleton artifacts a ih =>
    rw [repeated_concat, List.append_eq_nil_iff, ih, List.nodup_append_comm,
      List.singleton_append, List.nodup_cons, and_comm]
    by_cases ha : a ∈ artifacts
    · simp [ha]
    · simp [ha]

end Artifact

/-! ## How many -/

namespace ArtifactSet

theorem insert_of_mem {s : ArtifactSet} {a : Artifact} (h : a ∈ s) : s.insert a = s := by
  ext b
  rw [mem_insert]
  exact or_iff_right_of_imp fun hb => hb ▸ h

theorem length_insertInto {a : Artifact} :
    ∀ {l : List Artifact}, a ∉ l → (insertInto a l).length = l.length + 1
  | [], _ => rfl
  | b :: rest, h => by
    rw [List.mem_cons, not_or] at h
    unfold insertInto
    by_cases hlt : a < b
    · rw [if_pos hlt]
      rfl
    · rw [if_neg hlt, if_neg h.1, List.length_cons, List.length_cons, length_insertInto h.2]

theorem size_insert_of_not_mem {s : ArtifactSet} {a : Artifact} (h : a ∉ s) :
    (s.insert a).size = s.size + 1 := length_insertInto h

theorem ofList_concat (l : List Artifact) (a : Artifact) :
    ofList (l ++ [a]) = (ofList l).insert a := List.foldl_concat ..

end ArtifactSet

/-- Every artifact of a list is a repeat or the one by which it gets into the set. -/
theorem Artifact.length_repeated (artifacts : List Artifact) :
    (repeated artifacts).length + (ArtifactSet.ofList artifacts).size = artifacts.length := by
  induction artifacts using List.reverseRecOn with
  | nil => rfl
  | append_singleton artifacts a ih =>
    rw [repeated_concat, ArtifactSet.ofList_concat, List.length_append, List.length_append,
      List.length_singleton]
    by_cases ha : a ∈ artifacts
    · rw [if_pos ha, ArtifactSet.insert_of_mem (ArtifactSet.mem_ofList.mpr ha),
        List.length_singleton]
      omega
    · rw [if_neg ha, ArtifactSet.size_insert_of_not_mem (mt ArtifactSet.mem_ofList.mp ha),
        List.length_nil]
      omega

namespace Link

theorem duplicates_eq_nil_iff {l : Link} :
    l.duplicates = [] ↔ l.materials.Nodup ∧ l.products.Nodup := by
  rw [duplicates, List.append_eq_nil_iff, Artifact.repeated_eq_nil_iff,
    Artifact.repeated_eq_nil_iff]

theorem length_duplicates (l : Link) :
    l.duplicates.length +
        ((ArtifactSet.ofList l.materials).size + (ArtifactSet.ofList l.products).size) =
      l.materials.length + l.products.length := by
  have hmaterials := Artifact.length_repeated l.materials
  have hproducts := Artifact.length_repeated l.products
  rw [duplicates, List.length_append]
  omega

end Link

end Provenance
