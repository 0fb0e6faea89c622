import Mathlib.Data.List.Dedup
import Mathlib.Data.List.Nodup
import Mathlib.Data.List.Perm.Basic

/-!
# Lists as sets and as maps

Key rings and verified steps are lists that hold one entry under a key; layouts and
links are lists whose order does not count. What is needed about either:

> `find?_replace`: an entry put in place of those with its key is found under that
> key, and nothing changes under another;
>
> `foldl_replace`: entries put in one after the other leave the old ones that none of
> them takes the place of, and of the new ones the last under each key (`lastBy`);
>
> `mergeSort_eq_iff_perm`: lists are equal once sorted iff one is a permutation of
> the other, if the order of sorting tells their entries apart.

`PermBy R l m` says that the entries of two lists are related in pairs, in some
order.
-/

namespace Provenance

variable {α β : Type}

/-! ## Lists as maps -/

theorem find?_replace [DecidableEq β] (key : α → β) (a : α) (l : List α) (k : β) :
    (a :: l.filter fun b => key b ≠ key a).find? (fun b => key b = k) =
      if key a = k then some a else l.find? fun b => key b = k := by
  rw [List.find?_cons]
  by_cases h : key a = k
  · simp [h]
  · rw [if_neg h, decide_eq_false h, List.find?_filter]
    show List.find? _ _ = List.find? _ _
    -- whatever is found under `k` is none of those that were taken out
    congr 1
    funext b
    by_cases hb : key b = k
    · have hne : k ≠ key a := fun heq => h heq.symm
      simp [hb, hne]
    · simp [hb]

/-- Under a key that no two entries share there is one entry. -/
theorem find?_eq_some_iff_of_nodup [DecidableEq β] {key : α → β} {l : List α}
    (hn : (l.map key).Nodup) {k : β} {a : α} :
    l.find? (fun b => key b = k) = some a ↔ a ∈ l ∧ key a = k := by
  constructor
  · intro h
    exact ⟨List.mem_of_find?_eq_some h, by simpa using List.find?_some h⟩
  · intro h
    obtain ⟨ha, rfl⟩ := h
    cases hf : l.find? fun b => key b = key a with
    | none => exact absurd (List.find?_eq_none.mp hf a ha) (by simp)
    | some b =>
      have hkey : key b = key a := by simpa using List.find?_some hf
      rw [List.inj_on_of_nodup_map hn (List.mem_of_find?_eq_some hf) ha hkey]

theorem findRev?_eq_some_iff_of_nodup [DecidableEq β] {key : α → β} {l : List α}
    (hn : (l.map key).Nodup) {k : β} {a : α} :
    l.findRev? (fun b => key b = k) = some a ↔ a ∈ l ∧ key a = k := by
  have hreverse : (l.reverse.map key).Nodup := by
    rw [List.map_reverse, List.nodup_reverse]
    exact hn
  rw [List.findRev?_eq_find?_reverse, find?_eq_some_iff_of_nodup hreverse, List.mem_reverse]

theorem filter_eq_singleton_iff {l : List α} {p : α → Bool} (hn : l.Nodup) {a : α} :
    l.filter p = [a] ↔ (a ∈ l ∧ p a) ∧ ∀ b ∈ l, p b → b = a := by
  constructor
  · intro h
    refine ⟨List.mem_filter.mp (h ▸ List.mem_singleton_self a), fun b hb hp => ?_⟩
    exact List.mem_singleton.mp (h ▸ List.mem_filter.mpr ⟨hb, hp⟩)
  · intro h
    obtain ⟨ha, hall⟩ := h
    refine List.perm_singleton.mp ((List.perm_ext_iff_of_nodup (hn.filter p) (by simp)).mpr ?_)
    intro b
    rw [List.mem_filter, List.mem_singleton]
    constructor
    · intro h
      exact hall b h.1 h.2
    · intro h
      exact h ▸ ha

theorem nodup_eraseDups [DecidableEq α] : ∀ l : List α, l.eraseDups.Nodup
  | [] => List.nodup_nil
  | a :: l => by
    rw [List.eraseDups_cons, List.nodup_cons]
    refine ⟨?_, nodup_eraseDups _⟩
    rw [List.mem_eraseDups, List.mem_filter]
    intro h
    simp at h
  termination_by l => l.length
  decreasing_by exact Nat.lt_succ_of_le (List.length_filter_le _ _)

/-! ## The last entry under a key -/

section LastBy

variable [DecidableEq β] {key : α → β}

/-- The last entry under each key, in the order of the list. -/
def lastBy (key : α → β) (l : List α) : List α := l.pwFilter fun a b => key a ≠ key b

theorem map_lastBy (key : α → β) (l : List α) : (lastBy key l).map key = (l.map key).dedup := by
  rw [lastBy, List.dedup, List.pwFilter_map]

theorem lastBy_cons (key : α → β) (a : α) (l : List α) :
    lastBy key (a :: l) = if key a ∈ l.map key then lastBy key l else a :: lastBy key l := by
  -- the keys of the entries that are kept are all the keys that there are
  have hkept : (∀ b ∈ lastBy key l, key a ≠ key b) ↔ key a ∉ l.map key := by
    rw [← List.mem_dedup, ← map_lastBy, List.mem_map]
    grind
  split
  · next hmem => exact List.pwFilter_cons_of_neg (mt hkept.mp (not_not.mpr hmem))
  · next hmem => exact List.pwFilter_cons_of_pos (hkept.mpr hmem)

/-- An entry stays iff no later one has its key. -/
theorem mem_lastBy_iff {a : α} : ∀ {l : List α},
    a ∈ lastBy key l ↔ ∃ before after, l = before ++ a :: after ∧ key a ∉ after.map key
  | [] => by
    constructor
    · exact fun h => nomatch h
    · intro h
      obtain ⟨before, after, h, _⟩ := h
      exact absurd h (by simp)
  | b :: l => by
    rw [lastBy_cons]
    constructor
    · intro h
      -- it is the head, if that is kept, or it is of the rest
      have hcases : (a = b ∧ key b ∉ l.map key) ∨ a ∈ lastBy key l := by
        split at h
        · exact .inr h
        · next hb => exact (List.mem_cons.mp h).imp_left fun h => ⟨h, hb⟩
      rcases hcases with ⟨rfl, hb⟩ | h
      · exact ⟨[], l, rfl, hb⟩
      · obtain ⟨before, after, rfl, hlast⟩ := mem_lastBy_iff.mp h
        exact ⟨b :: before, after, rfl, hlast⟩
    · intro h
      obtain ⟨before, after, heq, hlast⟩ := h
      cases before with
      | nil =>
        injection heq with hab hl
        subst hab hl
        rw [if_neg hlast]
        exact List.mem_cons_self
      | cons c before =>
        injection heq with _ hl
        have hrest : a ∈ lastBy key l := mem_lastBy_iff.mpr ⟨before, after, hl, hlast⟩
        split
        · exact hrest
        · exact List.mem_cons_of_mem _ hrest

/-- Entries put in one after the other, each at the end and in place of those with its
key. -/
theorem foldl_replace (key : α → β) : ∀ new old : List α,
    new.foldl (fun l a => l.filter (fun b => key b ≠ key a) ++ [a]) old =
      old.filter (fun b => key b ∉ new.map key) ++ lastBy key new
  | [], old => by simp [lastBy]
  | a :: new, old => by
    rw [List.foldl_cons, foldl_replace key new, List.filter_append, List.filter_filter,
      List.append_assoc, lastBy_cons]
    congr 1
    · refine List.filter_congr fun b _ => ?_
      simp [-List.mem_map, Bool.and_comm]
    · by_cases hmem : key a ∈ new.map key
      · rw [if_pos hmem, List.filter_cons_of_neg (by simpa using hmem)]
        rfl
      · rw [if_neg hmem, List.filter_cons_of_pos (by simpa using hmem)]
        rfl

end LastBy

/-! ## Lists as hash sets -/

section HashSets

variable [BEq α] {key : α → β}

/-- Entries that are the same if their keys are. -/
theorem equivBEq_of_key (hkey : ∀ a b : α, (a == b) = true ↔ key a = key b) : EquivBEq α where
  rfl := (hkey _ _).mpr rfl
  symm h := (hkey _ _).mpr ((hkey _ _).mp h).symm
  trans h h' := (hkey _ _).mpr (((hkey _ _).mp h).trans ((hkey _ _).mp h'))

/-- A set that tells its members apart by their keys has as many as there are keys. -/
theorem size_ofList_eq [DecidableEq β] [Hashable α] [LawfulHashable α]
    (hkey : ∀ a b : α, (a == b) = true ↔ key a = key b) (l : List α) :
    (Std.HashSet.ofList l).size = (l.map key).dedup.length := by
  have := equivBEq_of_key hkey
  have hcontains : ∀ (a : α) (l : List α), l.contains a = true ↔ key a ∈ l.map key := by
    intro a l
    rw [List.contains_iff_exists_mem_beq, List.mem_map]
    simp only [hkey, eq_comm]
  have hmem : ∀ a, key a ∈ (Std.HashSet.ofList l).toList.map key ↔ key a ∈ l.map key := by
    intro a
    rw [← hcontains, ← hcontains, Std.HashSet.contains_toList, Std.HashSet.contains_ofList]
  have hnodup : ((Std.HashSet.ofList l).toList.map key).Nodup := by
    rw [List.Nodup, List.pairwise_map]
    refine Std.HashSet.distinct_toList.imp fun {a b} hdiff hsame => ?_
    rw [(hkey a b).mpr hsame] at hdiff
    exact nomatch hdiff
  have hperm : ((Std.HashSet.ofList l).toList.map key).Perm (l.map key).dedup := by
    refine (List.perm_ext_iff_of_nodup hnodup (List.nodup_dedup _)).mpr fun k => ?_
    rw [List.mem_dedup]
    constructor
    · intro h
      obtain ⟨a, _, rfl⟩ := List.mem_map.mp h
      exact (hmem a).mp h
    · intro h
      obtain ⟨a, _, rfl⟩ := List.mem_map.mp h
      exact (hmem a).mpr h
  rw [← Std.HashSet.length_toList, ← List.length_map key, hperm.length_eq]

end HashSets

/-! ## Lists up to order -/

/-- The entries of one list are related to those of the other, in some order. -/
def PermBy (R : α → α → Prop) (l m : List α) : Prop := ∃ m', m'.Perm m ∧ List.Forall₂ R l m'

theorem perm_map_iff {f : α → β} {l m : List α} :
    (l.map f).Perm (m.map f) ↔ PermBy (fun a b => f a = f b) l m := by
  constructor
  · intro h
    have himage : List.Forall₂ (fun b a => b = f a) (m.map f) m := by
      rw [List.forall₂_map_left_iff]
      exact List.forall₂_same.mpr fun _ _ => rfl
    obtain ⟨m', hrel, hperm⟩ := List.perm_comp_forall₂ h himage
    exact ⟨m', hperm, List.forall₂_map_left_iff.mp hrel⟩
  · intro h
    obtain ⟨m', hperm, hrel⟩ := h
    have heq : l.map f = m'.map f := by
      rw [← List.forall₂_eq_eq_eq, List.forall₂_map_left_iff, List.forall₂_map_right_iff]
      exact hrel
    rw [heq]
    exact hperm.map f

theorem forall₂_congr_left {R S : α → β → Prop} :
    ∀ {l : List α} {m : List β}, (∀ a ∈ l, ∀ b, R a b ↔ S a b) →
      (List.Forall₂ R l m ↔ List.Forall₂ S l m)
  | [], m, _ => by
    rw [List.forall₂_nil_left_iff, List.forall₂_nil_left_iff]
  | a :: l, m, h => by
    rw [List.forall_mem_cons] at h
    rw [List.forall₂_cons_left_iff, List.forall₂_cons_left_iff]
    simp only [h.1, forall₂_congr_left h.2]

theorem permBy_congr {R S : α → α → Prop} {l m : List α} (h : ∀ a ∈ l, ∀ b, R a b ↔ S a b) :
    PermBy R l m ↔ PermBy S l m := by
  unfold PermBy
  simp only [forall₂_congr_left h]

theorem forall₂_imp_of_mem {R S : α → β → Prop} {l : List α} {m : List β}
    (h : List.Forall₂ R l m) (hS : ∀ a ∈ l, ∀ b ∈ m, R a b → S a b) : List.Forall₂ S l m := by
  rw [List.forall₂_iff_zip] at h ⊢
  obtain ⟨hlen, h⟩ := h
  refine ⟨hlen, fun hab => ?_⟩
  obtain ⟨ha, hb⟩ := List.of_mem_zip hab
  exact hS _ ha _ hb (h hab)

theorem forall₂_exists_left {R : α → β → Prop} {l : List α} {m : List β}
    (h : List.Forall₂ R l m) {b : β} (hb : b ∈ m) : ∃ a ∈ l, R a b := by
  induction h with
  | nil => exact nomatch hb
  | cons hab _ ih =>
    rcases List.mem_cons.mp hb with rfl | hb
    · exact ⟨_, List.mem_cons_self, hab⟩
    · obtain ⟨a, ha, hr⟩ := ih hb
      exact ⟨a, List.mem_cons_of_mem _ ha, hr⟩

/-- A permutation of images is the image of a permutation. -/
theorem exists_perm_map_eq {f : α → β} {l : List α} {m : List β} (h : (l.map f).Perm m) :
    ∃ l', l.Perm l' ∧ l'.map f = m := by
  have himage : List.Forall₂ (fun b a => b = f a) (l.map f) l := by
    rw [List.forall₂_map_left_iff]
    exact List.forall₂_same.mpr fun _ _ => rfl
  obtain ⟨l', hrel, hperm⟩ := List.perm_comp_forall₂ h.symm himage
  refine ⟨l', hperm.symm, ?_⟩
  rw [← List.forall₂_eq_eq_eq, List.forall₂_map_left_iff]
  exact hrel.flip.imp fun _ _ h => h.symm

theorem PermBy.exists_left {R : α → α → Prop} {l m : List α} (h : PermBy R l m) {b : α}
    (hb : b ∈ m) : ∃ a ∈ l, R a b := by
  obtain ⟨m', hperm, hrel⟩ := h
  exact forall₂_exists_left hrel (hperm.mem_iff.mpr hb)

theorem PermBy.exists_right {R : α → α → Prop} {l m : List α} (h : PermBy R l m) {a : α}
    (ha : a ∈ l) : ∃ b ∈ m, R a b := by
  obtain ⟨m', hperm, hrel⟩ := h
  obtain ⟨b, hb, hr⟩ := forall₂_exists_left hrel.flip ha
  exact ⟨b, hperm.mem_iff.mp hb, hr⟩

theorem PermBy.map {R : α → α → Prop} {S : β → β → Prop} {f : α → β}
    (hf : ∀ a b, R a b → S (f a) (f b)) {l m : List α} (h : PermBy R l m) :
    PermBy S (l.map f) (m.map f) := by
  obtain ⟨m', hperm, hrel⟩ := h
  refine ⟨m'.map f, hperm.map f, ?_⟩
  rw [List.forall₂_map_left_iff, List.forall₂_map_right_iff]
  exact hrel.imp hf

theorem PermBy.imp_of_mem {R S : α → α → Prop} {l m : List α} (h : PermBy R l m)
    (hS : ∀ a ∈ l, ∀ b ∈ m, R a b → S a b) : PermBy S l m := by
  obtain ⟨m', hperm, hrel⟩ := h
  refine ⟨m', hperm, forall₂_imp_of_mem hrel fun a ha b hb => ?_⟩
  exact hS a ha b (hperm.mem_iff.mp hb)

theorem PermBy.filter {R : α → α → Prop} {p : α → Bool} (hp : ∀ a b, R a b → p a = p b)
    {l m : List α} (h : PermBy R l m) : PermBy R (l.filter p) (m.filter p) := by
  obtain ⟨m', hperm, hrel⟩ := h
  exact ⟨m'.filter p, hperm.filter p, List.rel_filter (fun _ _ hab => by simp [hp _ _ hab]) hrel⟩

theorem PermBy.length_eq {R : α → α → Prop} {l m : List α} (h : PermBy R l m) :
    l.length = m.length := by
  obtain ⟨m', hperm, hrel⟩ := h
  exact hrel.length_eq.trans hperm.length_eq

theorem permBy_eq_iff {l m : List α} : PermBy (· = ·) l m ↔ l.Perm m := by
  unfold PermBy
  simp only [List.forall₂_eq_eq_eq]
  constructor
  · intro h
    obtain ⟨_, hperm, rfl⟩ := h
    exact hperm
  · intro h
    exact ⟨l, h, rfl⟩

theorem mergeSort_eq_iff_perm {le : α → α → Bool}
    (trans : ∀ a b c, le a b = true → le b c = true → le a c = true)
    (total : ∀ a b, (le a b || le b a) = true) {l m : List α}
    (antisymm : ∀ a ∈ l, ∀ b ∈ l, le a b = true → le b a = true → a = b) :
    l.mergeSort le = m.mergeSort le ↔ l.Perm m := by
  constructor
  · intro h
    exact (List.mergeSort_perm l le).symm.trans (h ▸ List.mergeSort_perm m le)
  · intro h
    have hperm : (l.mergeSort le).Perm (m.mergeSort le) :=
      (List.mergeSort_perm l le).trans (h.trans (List.mergeSort_perm m le).symm)
    -- two sorted lists of the same entries can differ only among ties
    refine List.Perm.eq_of_pairwise ?_ (List.pairwise_mergeSort trans total l)
      (List.pairwise_mergeSort trans total m) hperm
    intro a b ha hb hab hba
    have ha' := (List.mergeSort_perm l le).mem_iff.mp ha
    have hb' := h.mem_iff.mpr ((List.mergeSort_perm m le).mem_iff.mp hb)
    exact antisymm a ha' b hb' hab hba

end Provenance
