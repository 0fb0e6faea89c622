import Mathlib.Data.List.Nodup
import Provenance.Layout.Basic
import Provenance.Proofs.Lists

/-!
# Layouts that differ only in order

Keys, key ids, segments and the steps of a segment may be listed in any order.
`Layout.Similar` says that two layouts differ in nothing else, and the canonical
form of a layout is one representative of all that are similar to it:

> `Layout.canonicalForm_eq_iff`: canonical forms are equal iff the layouts are
> similar.

The canonical form sorts by name, and sorting keeps entries with the same name in
the order they came in. So this needs names that do not repeat, as in every layout
that is accepted; key ids need nothing, for they are their own names.
-/

namespace Provenance

/-! ## Sorting by name -/

section Names

variable {α : Type} {text : α → String}

theorem textLe_trans (a b c : α) (hab : decide (text a ≤ text b) = true)
    (hbc : decide (text b ≤ text c) = true) : decide (text a ≤ text c) = true :=
  decide_eq_true (String.le_trans (of_decide_eq_true hab) (of_decide_eq_true hbc))

theorem textLe_total (a b : α) : (decide (text a ≤ text b) || decide (text b ≤ text a)) = true := by
  rw [Bool.or_eq_true, decide_eq_true_eq, decide_eq_true_eq]
  exact String.le_total _ _

/-- Sorting forgets the order, and only that, if texts tell entries apart. -/
theorem sortByText_eq_iff {l m : List α}
    (htext : ∀ a ∈ l, ∀ b ∈ l, text a = text b → a = b) :
    sortByText text l = sortByText text m ↔ l.Perm m := by
  refine mergeSort_eq_iff_perm textLe_trans textLe_total fun a ha b hb hab hba => ?_
  exact htext a ha b hb (String.le_antisymm (of_decide_eq_true hab) (of_decide_eq_true hba))

/-- Entries that are rewritten under their old names are sorted as before. -/
theorem map_sortByText {f : α → α} (hf : ∀ a, text (f a) = text a)
    (l : List α) : (sortByText text l).map f = sortByText text (l.map f) := by
  refine List.map_mergeSort fun a _ b _ => ?_
  rw [hf, hf]

theorem map_sortByText_eq_iff {f : α → α} (hf : ∀ a, text (f a) = text a)
    {l m : List α} (hnodup : (l.map text).Nodup) :
    (sortByText text l).map f = (sortByText text m).map f ↔
      PermBy (fun a b => f a = f b) l m := by
  rw [map_sortByText hf, map_sortByText hf, ← perm_map_iff]
  refine sortByText_eq_iff fun a ha b hb hab => ?_
  obtain ⟨a', ha', rfl⟩ := List.mem_map.mp ha
  obtain ⟨b', hb', rfl⟩ := List.mem_map.mp hb
  rw [hf, hf] at hab
  rw [List.inj_on_of_nodup_map hnodup ha' hb' hab]

end Names

/-! ## Layouts up to order -/

/-- The steps differ only in the order of key ids. -/
structure Step.Similar (s t : Step) : Prop where
  name : s.name = t.name
  keyIds : s.authorizedKeyIds.Perm t.authorizedKeyIds
  threshold : s.threshold = t.threshold
  materialRules : s.materialRules = t.materialRules
  productRules : s.productRules = t.productRules

/-- The segments differ only in the order of steps, and the steps only in that of
key ids. -/
structure Segment.Similar (s t : Segment) : Prop where
  name : s.name = t.name
  steps : PermBy Step.Similar s.steps t.steps

/-- The layouts differ only in the order of keys, key ids, segments and steps. -/
structure Layout.Similar (l m : Layout) : Prop where
  keys : l.keys.Perm m.keys
  keyIds : l.authorizedKeyIds.Perm m.authorizedKeyIds
  segments : PermBy Segment.Similar l.segments m.segments
  endProductRules : l.endProductRules = m.endProductRules

theorem sortByText_id_eq_iff {l m : List KeyId} :
    sortByText id l = sortByText id m ↔ l.Perm m :=
  sortByText_eq_iff fun _ _ _ _ h => h

theorem Step.canonicalForm_eq_iff {s t : Step} :
    s.canonicalForm = t.canonicalForm ↔ s.Similar t := by
  unfold Step.canonicalForm
  constructor
  · intro h
    injection h with hname hkeys hthreshold hmaterials hproducts
    exact ⟨hname, sortByText_id_eq_iff.mp hkeys, hthreshold, hmaterials, hproducts⟩
  · intro h
    rw [h.name, sortByText_id_eq_iff.mpr h.keyIds, h.threshold, h.materialRules, h.productRules]

theorem Segment.canonicalForm_eq_iff {s t : Segment} (hs : (s.steps.map Step.name).Nodup) :
    s.canonicalForm = t.canonicalForm ↔ s.Similar t := by
  have hsteps : (sortByText Step.name s.steps).map Step.canonicalForm =
        (sortByText Step.name t.steps).map Step.canonicalForm ↔
      PermBy Step.Similar s.steps t.steps := by
    have hname : ∀ t : Step, t.canonicalForm.name = t.name := fun _ => rfl
    rw [map_sortByText_eq_iff hname hs]
    exact permBy_congr fun _ _ _ => Step.canonicalForm_eq_iff
  unfold Segment.canonicalForm
  constructor
  · intro h
    injection h with hname h
    exact ⟨hname, hsteps.mp h⟩
  · intro h
    rw [h.name, hsteps.mpr h.steps]

theorem Layout.canonicalForm_eq_iff {l m : Layout} (hkeys : (l.keys.map PublicKey.keyId).Nodup)
    (hsegments : (l.segments.map Segment.name).Nodup)
    (hsteps : ∀ s ∈ l.segments, (s.steps.map Step.name).Nodup) :
    l.canonicalForm = m.canonicalForm ↔ l.Similar m := by
  have hkeysIff : sortByText PublicKey.keyId l.keys = sortByText PublicKey.keyId m.keys ↔
      l.keys.Perm m.keys :=
    sortByText_eq_iff fun _ ha _ hb h => List.inj_on_of_nodup_map hkeys ha hb h
  have hsegmentsIff : (sortByText Segment.name l.segments).map Segment.canonicalForm =
        (sortByText Segment.name m.segments).map Segment.canonicalForm ↔
      PermBy Segment.Similar l.segments m.segments := by
    have hname : ∀ s : Segment, s.canonicalForm.name = s.name := fun _ => rfl
    rw [map_sortByText_eq_iff hname hsegments]
    exact permBy_congr fun s hs _ => Segment.canonicalForm_eq_iff (hsteps s hs)
  unfold Layout.canonicalForm
  constructor
  · intro h
    injection h with hk hids hs hrules
    exact ⟨hkeysIff.mp hk, sortByText_id_eq_iff.mp hids, hsegmentsIff.mp hs, hrules⟩
  · intro h
    rw [hkeysIff.mpr h.keys, sortByText_id_eq_iff.mpr h.keyIds, hsegmentsIff.mpr h.segments,
      h.endProductRules]

end Provenance
