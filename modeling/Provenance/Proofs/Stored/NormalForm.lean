import Provenance.Proofs.Json.Spacing
import Provenance.Proofs.Layout.Similar
import Provenance.Proofs.Link.Similar
import Provenance.Proofs.Stored.Blocks

/-!
# Canonical text is a normal form of documents

What gets signed is a text of a document, so it can be read as one. `Link.InOrder` and
`Layout.InOrder` say what a document is in order, without reference to how it is put in
order:

> `canonicalText_normalForm`: the canonical text of a link or a layout is read as the
> document in order, which has the same canonical text again. As a text it has no blanks
> outside of strings, no null, and the names of every object in strict order.

Reading does not depend on where members stand (`Reads.document?_canonical`), sorting is
stable and does nothing to what is sorted (`sortedBy_sortByText`,
`sortByText_sortByText`), and no document repeats a name in an object (`Tidy`).
-/

namespace Provenance

open Json

/-! ## Lists in order -/

/-- The entries of the first list, by their texts and where texts are the same as they
stood. -/
structure SortedBy {α : Type} (text : α → String) (l m : List α) : Prop where
  increasing : m.Pairwise fun a b => text a ≤ text b
  stable : ∀ t, m.filter (fun a => text a = t) = l.filter fun a => text a = t

section Sorting

variable {α : Type} {text : α → String}

theorem sortByText_perm (text : α → String) (l : List α) : (sortByText text l).Perm l :=
  List.mergeSort_perm _ _

theorem pairwise_sortByText (text : α → String) (l : List α) :
    (sortByText text l).Pairwise fun a b => text a ≤ text b :=
  (List.pairwise_mergeSort textLe_trans textLe_total l).imp of_decide_eq_true

/-- Entries with one text stay in their order. -/
theorem filter_sortByText (text : α → String) (l : List α) (t : String) :
    (sortByText text l).filter (fun a => text a = t) = l.filter fun a => text a = t := by
  have hties : (l.filter fun a => text a = t).Pairwise fun a b =>
      decide (text a ≤ text b) = true := by
    refine List.pairwise_of_forall_mem_list fun a ha b hb => ?_
    rw [of_decide_eq_true (List.mem_filter.mp ha).2, of_decide_eq_true (List.mem_filter.mp hb).2]
    exact decide_eq_true (String.le_refl t)
  have hsub : (l.filter fun a => text a = t).Sublist (sortByText text l) :=
    List.sublist_mergeSort textLe_trans textLe_total hties List.filter_sublist
  have hfiltered := hsub.filter fun a => text a = t
  rw [List.filter_filter] at hfiltered
  simp only [Bool.and_self] at hfiltered
  exact (hfiltered.eq_of_length ((sortByText_perm text l).filter _).length_eq.symm).symm

theorem sortedBy_sortByText (text : α → String) (l : List α) :
    SortedBy text l (sortByText text l) := ⟨pairwise_sortByText text l, filter_sortByText text l⟩

theorem sortByText_sortByText (text : α → String) (l : List α) :
    sortByText text (sortByText text l) = sortByText text l :=
  List.mergeSort_of_pairwise ((pairwise_sortByText text l).imp decide_eq_true)

/-- Entries that are put in order under their names, and then sorted, stay as they are. -/
theorem sortByText_map_map {f : α → α} (hname : ∀ a, text (f a) = text a) (hf : ∀ a, f (f a) = f a)
    (l : List α) :
    (sortByText text ((sortByText text l).map f)).map f = (sortByText text l).map f := by
  rw [← map_sortByText hname, sortByText_sortByText, List.map_map]
  exact List.map_congr_left fun a _ => hf a

end Sorting

/-- The same artifacts, by path and then by digest. -/
structure Artifact.Sorted (l m : List Artifact) : Prop where
  perm : m.Perm l
  increasing : m.Pairwise fun a b => a.uri < b.uri ∨ a.uri = b.uri ∧ a.hash ≤ b.hash

theorem Artifact.sorted_sort (l : List Artifact) : Artifact.Sorted l (Artifact.sort l) where
  perm := List.mergeSort_perm _ _
  increasing := by
    refine (List.pairwise_mergeSort notBefore_trans notBefore_total l).imp fun {a b} hab => ?_
    rcases lt_trichotomy a b with h | rfl | h
    · exact (lt_iff.mp h).imp_right fun heq => ⟨heq.1, Std.le_of_lt heq.2⟩
    · exact .inr ⟨rfl, String.le_refl _⟩
    · exact absurd h (of_decide_eq_true hab)

theorem Artifact.sort_sort (l : List Artifact) :
    Artifact.sort (Artifact.sort l) = Artifact.sort l :=
  List.mergeSort_of_pairwise (List.pairwise_mergeSort notBefore_trans notBefore_total l)

/-! ## Documents in order -/

/-- The second link is the first one with its artifacts sorted. -/
structure Link.InOrder (l m : Link) : Prop where
  stepName : m.stepName = l.stepName
  runId : m.runId = l.runId
  segmentName : m.segmentName = l.segmentName
  command : m.command = l.command
  materials : Artifact.Sorted l.materials m.materials
  products : Artifact.Sorted l.products m.products

/-- The second step is the first one with its key ids sorted. -/
structure Step.InOrder (s t : Step) : Prop where
  name : t.name = s.name
  keyIds : SortedBy id s.authorizedKeyIds t.authorizedKeyIds
  threshold : t.threshold = s.threshold
  materialRules : t.materialRules = s.materialRules
  productRules : t.productRules = s.productRules

/-- The second segment is the first one with its steps sorted by name, each in order. -/
structure Segment.InOrder (s t : Segment) : Prop where
  name : t.name = s.name
  steps : ∃ steps, SortedBy Step.name s.steps steps ∧ List.Forall₂ Step.InOrder steps t.steps

/-- The second layout is the first one with keys and key ids sorted and with its segments
sorted by name, each in order. -/
structure Layout.InOrder (l m : Layout) : Prop where
  keys : SortedBy PublicKey.keyId l.keys m.keys
  keyIds : SortedBy id l.authorizedKeyIds m.authorizedKeyIds
  segments : ∃ segments, SortedBy Segment.name l.segments segments ∧
    List.Forall₂ Segment.InOrder segments m.segments
  endProductRules : m.endProductRules = l.endProductRules

theorem Link.inOrder_canonicalForm (l : Link) : l.InOrder l.canonicalForm :=
  ⟨rfl, rfl, rfl, rfl, Artifact.sorted_sort _, Artifact.sorted_sort _⟩

theorem Link.canonicalForm_canonicalForm (l : Link) :
    l.canonicalForm.canonicalForm = l.canonicalForm := by
  simp only [canonicalForm, Artifact.sort_sort]

theorem Step.inOrder_canonicalForm (s : Step) : s.InOrder s.canonicalForm :=
  ⟨rfl, sortedBy_sortByText _ _, rfl, rfl, rfl⟩

theorem Step.canonicalForm_canonicalForm (s : Step) :
    s.canonicalForm.canonicalForm = s.canonicalForm := by
  simp only [canonicalForm, sortByText_sortByText]

theorem Segment.inOrder_canonicalForm (s : Segment) : s.InOrder s.canonicalForm where
  name := rfl
  steps := ⟨_, sortedBy_sortByText _ _,
    List.forall₂_map_right_iff.mpr (List.forall₂_same.mpr fun t _ => t.inOrder_canonicalForm)⟩

theorem Segment.canonicalForm_canonicalForm (s : Segment) :
    s.canonicalForm.canonicalForm = s.canonicalForm := by
  have hname : ∀ t : Step, t.canonicalForm.name = t.name := fun _ => rfl
  simp only [canonicalForm, sortByText_map_map hname Step.canonicalForm_canonicalForm]

theorem Layout.inOrder_canonicalForm (l : Layout) : l.InOrder l.canonicalForm where
  keys := sortedBy_sortByText _ _
  keyIds := sortedBy_sortByText _ _
  segments := ⟨_, sortedBy_sortByText _ _,
    List.forall₂_map_right_iff.mpr (List.forall₂_same.mpr fun s _ => s.inOrder_canonicalForm)⟩
  endProductRules := rfl

theorem Layout.canonicalForm_canonicalForm (l : Layout) :
    l.canonicalForm.canonicalForm = l.canonicalForm := by
  have hname : ∀ s : Segment, s.canonicalForm.name = s.name := fun _ => rfl
  simp only [canonicalForm, sortByText_sortByText,
    sortByText_map_map hname Segment.canonicalForm_canonicalForm]

/-! ## Names in documents -/

theorem tidy_strings (texts : List String) : Tidy (.arr (texts.map .str)) := .list .str

theorem Artifact.tidy_toJson (a : Artifact) : Tidy a.toJson := by
  refine .obj a.namesDiffer_members ?_
  simp only [List.forall_mem_cons]
  exact ⟨.str _, .str _, List.forall_mem_nil _⟩

theorem Link.tidy_toJson (l : Link) : Tidy l.toJson := by
  have hartifacts : ∀ artifacts : List Artifact, Tidy (.arr (artifacts.map Artifact.toJson)) :=
    fun _ => .list Artifact.tidy_toJson
  refine .obj l.namesDiffer_members ?_
  simp only [List.forall_mem_append, List.forall_mem_cons]
  exact ⟨⟨⟨.str _, .str _, .str _, List.forall_mem_nil _⟩, tidy_optional tidy_strings _ _⟩,
    hartifacts _, hartifacts _, List.forall_mem_nil _⟩

theorem PublicKey.tidy_toJson (k : PublicKey) : Tidy k.toJson := by
  refine .obj k.namesDiffer_members ?_
  simp only [List.forall_mem_cons]
  exact ⟨.str _, .str _, .str _, List.forall_mem_nil _⟩

theorem Rule.tidy_toJson (r : Rule) : Tidy r.toJson := by
  rw [toJson_eq]
  refine .obj r.namesDiffer_members ?_
  cases r with
  | matching m =>
    simp only [members, MatchRule.members, List.forall_mem_cons, List.forall_mem_append]
    exact ⟨.str _, ⟨⟨⟨⟨.str _, List.forall_mem_nil _⟩, tidy_optional .str _ _⟩, .str _,
      List.forall_mem_nil _⟩, tidy_optional .str _ _⟩, .str _, .str _, List.forall_mem_nil _⟩
  | _ =>
    simp only [members, List.forall_mem_cons]
    exact ⟨.str _, .str _, List.forall_mem_nil _⟩

theorem Step.tidy_toJson (s : Step) : Tidy s.toJson := by
  refine .obj s.namesDiffer_members ?_
  simp only [List.forall_mem_cons]
  exact ⟨.str _, tidy_strings _, .int _, .list Rule.tidy_toJson, .list Rule.tidy_toJson,
    List.forall_mem_nil _⟩

theorem Segment.tidy_toJson (s : Segment) : Tidy s.toJson := by
  refine .obj s.namesDiffer_members ?_
  simp only [List.forall_mem_cons]
  exact ⟨.str _, .list Step.tidy_toJson, List.forall_mem_nil _⟩

theorem Layout.tidy_toJson (l : Layout) : Tidy l.toJson := by
  refine .obj l.namesDiffer_members ?_
  simp only [List.forall_mem_cons]
  exact ⟨.list PublicKey.tidy_toJson, tidy_strings _, .list Segment.tidy_toJson,
    .list Rule.tidy_toJson, List.forall_mem_nil _⟩

/-! ## The text -/

/-- The text is read as a value without null in which the names of every object are in
strict order, and has no blank outside of strings. -/
structure NormalText (text : String) : Prop where
  value : ∃ v, read? text = some v ∧ v.InNormalForm
  noBlanks : ∀ c ∈ outsideStrings text, Text.isBlank c = false

theorem normalText_canonical {v : Json} (hplain : Plain maxDepth v) (htidy : Tidy v) :
    NormalText v.canonical :=
  ⟨⟨_, read?_canonical hplain, htidy.inNormalForm_sorted⟩, hplain.not_isBlank⟩

/-- **The canonical text is a normal form of its own document type.** It is read as a
document of the type: the one that was given, in order. That has the same canonical text
again. In the text there is no null, the names of every object are in strict order at
every depth, and blanks stand in strings only. -/
theorem canonicalText_normalForm :
    (∀ l : Link, ∃ m, document? Link.ofJson l.canonicalText = some m ∧ l.InOrder m ∧
      m.canonicalText = l.canonicalText ∧ NormalText l.canonicalText) ∧
    ∀ l : Layout, ∃ m, document? Layout.ofJson l.canonicalText = some m ∧ l.InOrder m ∧
      m.canonicalText = l.canonicalText ∧ NormalText l.canonicalText := by
  refine ⟨fun l => ?_, fun l => ?_⟩
  · have hplain : Plain maxDepth l.canonicalForm.toJson :=
      l.canonicalForm.plain_toJson.mono (by decide)
    refine ⟨l.canonicalForm, Link.reads.document?_canonical hplain, l.inOrder_canonicalForm, ?_,
      normalText_canonical hplain l.canonicalForm.tidy_toJson⟩
    rw [Link.canonicalText, l.canonicalForm_canonicalForm, Link.canonicalText]
  · have hplain : Plain maxDepth l.canonicalForm.toJson :=
      l.canonicalForm.plain_toJson.mono (by decide)
    refine ⟨l.canonicalForm, Layout.reads.document?_canonical hplain, l.inOrder_canonicalForm, ?_,
      normalText_canonical hplain l.canonicalForm.tidy_toJson⟩
    rw [Layout.canonicalText, l.canonicalForm_canonicalForm, Layout.canonicalText]

end Provenance
