import Provenance.Proofs.Json.Canonical

/-!
# The order of members in canonical text

Members are ordered by the UTF-16 code units of their names. Different names have
different units (`units_injective`), so where the names of an object differ there is one
order for them, and it is a strict one:

> `sorted_sorted`: what is in order stays as it is;
>
> `Tidy.inNormalForm_sorted`: if no object repeats a name, then in order every object
> lists its names strictly increasing, however deep it is.

A name with a character beyond the first plane has two units for it, the first of which
lies in a gap that no other character fills; so units can be told apart from the front
(`charUnits_append_inj`).
-/

namespace Provenance.Json

/-! ## Code units -/

/-- No character is half of a surrogate pair. -/
theorem toNat_not_surrogate (c : Char) :
    c.toNat < 0xD800 ∨ 0xDFFF < c.toNat ∧ c.toNat < 0x110000 := c.valid

theorem charUnits_append_inj {c d : Char} {rest rest' : List Nat}
    (h : charUnits c ++ rest = charUnits d ++ rest') : c = d ∧ rest = rest' := by
  have hc := toNat_not_surrogate c
  have hd := toNat_not_surrogate d
  have heq : c.toNat = d.toNat ∧ rest = rest' := by
    unfold charUnits at h
    by_cases hcone : c.toNat < 0x10000 <;> by_cases hdone : d.toNat < 0x10000
    · simpa [hcone, hdone] using h
    · simp only [hcone, hdone, if_true, if_false, List.cons_append, List.cons.injEq] at h
      omega
    · simp only [hcone, hdone, if_true, if_false, List.cons_append, List.cons.injEq] at h
      omega
    · simp only [hcone, hdone, if_false, List.cons_append, List.nil_append, List.cons.injEq] at h
      exact ⟨by omega, h.2.2⟩
  exact ⟨Char.toNat_inj.mp heq.1, heq.2⟩

theorem charUnits_ne_nil (c : Char) : charUnits c ≠ [] := by
  unfold charUnits
  dsimp only
  split <;> simp

theorem flatMap_charUnits_injective :
    ∀ {cs ds : List Char}, cs.flatMap charUnits = ds.flatMap charUnits → cs = ds
  | [], [], _ => rfl
  | [], d :: _, h => by
    rw [List.flatMap_nil, List.flatMap_cons] at h
    exact absurd (List.append_eq_nil_iff.mp h.symm).1 (charUnits_ne_nil d)
  | c :: _, [], h => by
    rw [List.flatMap_nil, List.flatMap_cons] at h
    exact absurd (List.append_eq_nil_iff.mp h).1 (charUnits_ne_nil c)
  | c :: cs, d :: ds, h => by
    rw [List.flatMap_cons, List.flatMap_cons] at h
    obtain ⟨rfl, hrest⟩ := charUnits_append_inj h
    rw [flatMap_charUnits_injective hrest]

theorem units_injective {s t : String} (h : units s = units t) : s = t :=
  String.toList_injective (flatMap_charUnits_injective h)

/-! ## Sorting members -/

/-- The text comes strictly before the other one in the order of code units. -/
def UnitsLt (s t : String) : Prop := List.Lex (· < ·) (units s) (units t)

theorem unitsLe_iff {s t : String} : unitsLe s t = true ↔ ¬UnitsLt t s := by
  rw [unitsLe, Bool.not_eq_true', ← Bool.not_eq_true, List.lex_eq_true_iff_lex]
  simp only [decide_eq_true_eq]
  rfl

theorem unitsLe_trans (m n k : String × Json) (h : unitsLe m.1 n.1 = true)
    (h' : unitsLe n.1 k.1 = true) : unitsLe m.1 k.1 = true :=
  unitsLe_iff.mpr (List.le_trans (unitsLe_iff.mp h) (unitsLe_iff.mp h'))

theorem unitsLe_total (m n : String × Json) : (unitsLe m.1 n.1 || unitsLe n.1 m.1) = true := by
  rw [Bool.or_eq_true, unitsLe_iff, unitsLe_iff]
  exact List.le_total (units m.1) (units n.1)

theorem unitsLt_of_ne {s t : String} (hle : unitsLe s t = true) (hne : s ≠ t) : UnitsLt s t :=
  Classical.byContradiction fun hnot =>
    hne (units_injective (List.le_antisymm (unitsLe_iff.mp hle) hnot))

theorem pairwise_sortMembers (members : List (String × Json)) :
    (sortMembers members).Pairwise fun m n => unitsLe m.1 n.1 = true :=
  List.pairwise_mergeSort unitsLe_trans unitsLe_total members

/-- Names that do not repeat are in strict order. -/
theorem increasing_sortMembers {members : List (String × Json)} (h : NamesDiffer members) :
    (sortMembers members).Pairwise fun m n => UnitsLt m.1 n.1 := by
  have hnames : (sortMembers members).Pairwise fun m n => m.1 ≠ n.1 :=
    List.pairwise_map.mp h.sortMembers
  exact ((pairwise_sortMembers members).and hnames).imp fun hmn => unitsLt_of_ne hmn.1 hmn.2

/-- Sorting looks at names, so values can be changed before or after it. -/
theorem map_sortMembers (f : Json → Json) (members : List (String × Json)) :
    (sortMembers members).map (fun m => (m.1, f m.2)) =
      sortMembers (members.map fun m => (m.1, f m.2)) :=
  List.map_mergeSort fun _ _ _ _ => rfl

theorem sortMembers_sortMembers (members : List (String × Json)) :
    sortMembers (sortMembers members) = sortMembers members :=
  List.mergeSort_of_pairwise (pairwise_sortMembers members)

mutual

/-- What is in order stays as it is. -/
theorem sorted_sorted : ∀ v : Json, v.sorted.sorted = v.sorted
  | .arr items => by
    rw [sorted, sorted, sortedItems_sortedItems items]
  | .obj members => by
    rw [sorted, sorted, sortedMembers_eq (sortMembers _), map_sortMembers, ← sortedMembers_eq,
      sortedMembers_sortedMembers members, sortMembers_sortMembers]
  | .null | .bool _ | .int _ | .real _ | .str _ | .invalid => rfl

theorem sortedItems_sortedItems : ∀ items, sortedItems (sortedItems items) = sortedItems items
  | [] => rfl
  | v :: rest => by
    rw [sortedItems, sortedItems, sorted_sorted v, sortedItems_sortedItems rest]

theorem sortedMembers_sortedMembers :
    ∀ members, sortedMembers (sortedMembers members) = sortedMembers members
  | [] => rfl
  | (name, v) :: rest => by
    rw [sortedMembers, sortedMembers, sorted_sorted v, sortedMembers_sortedMembers rest]

end

/-! ## Names at every depth -/

/-- The first value stands somewhere in the second one, or is all of it. -/
inductive Part : Json → Json → Prop
  | whole (v : Json) : Part v v
  | item {w v : Json} {items : List Json} : v ∈ items → Part w v → Part w (.arr items)
  | member {w : Json} {m : String × Json} {members : List (String × Json)} :
      m ∈ members → Part w m.2 → Part w (.obj members)

/-- Wherever one looks there is something, and every object lists its names strictly
increasing by their code units. -/
structure InNormalForm (v : Json) : Prop where
  notNull : ¬Part .null v
  increasing : ∀ members, Part (.obj members) v → members.Pairwise fun m n => UnitsLt m.1 n.1

/-- The value is made of strings, whole numbers, arrays and objects that repeat no name. -/
inductive Tidy : Json → Prop
  | str (s : String) : Tidy (.str s)
  | int (n : Int) : Tidy (.int n)
  | arr {items} : (∀ v ∈ items, Tidy v) → Tidy (.arr items)
  | obj {members} : NamesDiffer members → (∀ m ∈ members, Tidy m.2) → Tidy (.obj members)

theorem Tidy.list {α : Type} {write : α → Json} {l : List α} (h : ∀ a, Tidy (write a)) :
    Tidy (.arr (l.map write)) := .arr (List.forall_mem_map.mpr fun a _ => h a)

theorem tidy_optional {α : Type} {write : α → Json} (h : ∀ a, Tidy (write a)) (name : String)
    (a : Option α) : ∀ m ∈ optional name write a, Tidy m.2 := by
  cases a with
  | none => exact fun _ hm => nomatch hm
  | some a =>
    intro m hm
    rw [List.mem_singleton.mp hm]
    exact h a

theorem inNormalForm_str (s : String) : InNormalForm (.str s) := by
  refine ⟨fun h => ?_, fun members h => ?_⟩ <;> cases h

theorem inNormalForm_int (n : Int) : InNormalForm (.int n) := by
  refine ⟨fun h => ?_, fun members h => ?_⟩ <;> cases h

theorem InNormalForm.arr {items : List Json} (h : ∀ v ∈ items, InNormalForm v) :
    InNormalForm (.arr items) where
  notNull hnull := by
    cases hnull with
    | item hv hpart => exact (h _ hv).notNull hpart
  increasing members hpart := by
    cases hpart with
    | item hv hpart => exact (h _ hv).increasing members hpart

theorem InNormalForm.obj {members : List (String × Json)}
    (hnames : members.Pairwise fun m n => UnitsLt m.1 n.1)
    (h : ∀ m ∈ members, InNormalForm m.2) : InNormalForm (.obj members) where
  notNull hnull := by
    cases hnull with
    | member hm hpart => exact (h _ hm).notNull hpart
  increasing inner hpart := by
    cases hpart with
    | whole => exact hnames
    | member hm hpart => exact (h _ hm).increasing inner hpart

theorem Tidy.inNormalForm_sorted {v : Json} (h : Tidy v) : InNormalForm v.sorted := by
  induction h with
  | str s => exact inNormalForm_str s
  | int n => exact inNormalForm_int n
  | arr _ ih =>
    rw [sorted, sortedItems_eq]
    exact .arr (List.forall_mem_map.mpr ih)
  | @obj members hnames _ ih =>
    rw [sorted]
    refine .obj (increasing_sortMembers hnames.sortedMembers) fun m hm => ?_
    rw [(sortMembers_perm _).mem_iff, sortedMembers_eq] at hm
    obtain ⟨m', hm', rfl⟩ := List.mem_map.mp hm
    exact ih m' hm'

end Provenance.Json
