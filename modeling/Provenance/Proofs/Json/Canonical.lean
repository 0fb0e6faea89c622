import Provenance.Json.Canonical
import Provenance.Json.Record
import Provenance.Proofs.Json.Reading

/-!
# What a canonical text says

Signed documents are built from strings, counts, arrays and objects (`Plain`). The
canonical text of such a value is a text in the grammar of the reader, and so it
determines the value up to the order of members:

> `read?_canonical`: the canonical text is read as the value with its members in
> order;
>
> `sorted_eq_of_canonical_eq`: values with the same canonical text are the same
> once their members are in order.

From there on no text is looked at. `Faithful` says of the way a type is written
that the ordered value determines what was written. It is passed from fields to
records by `Faithful.field`: a sorted object still has every member it had, under
its name (`lookup_sorted`).
-/

namespace Provenance.Json

/-! ## Plain values -/

/-- The value is made of strings, of counts that a double has exactly, and of
arrays and objects nested at most `room` deep. -/
inductive Plain : (room : Nat) → Json → Prop
  | str {room} (s : String) : Plain room (.str s)
  | count {room n} : n ≤ Nat.pow 2 53 → Plain room (.int (Int.ofNat n))
  | arr {room items} : (∀ v ∈ items, Plain room v) → Plain (room + 1) (.arr items)
  | obj {room members} : (∀ m ∈ members, Plain room m.2) → Plain (room + 1) (.obj members)

theorem Plain.mono {room : Nat} {v : Json} (h : Plain room v) :
    ∀ {room' : Nat}, room ≤ room' → Plain room' v := by
  induction h with
  | str s => exact fun _ => .str s
  | count hn => exact fun _ => .count hn
  | arr _ ih =>
    intro room' hle
    obtain ⟨room', rfl⟩ : ∃ n, room' = n + 1 := ⟨room' - 1, by omega⟩
    exact .arr fun v hv => ih v hv (by omega)
  | obj _ ih =>
    intro room' hle
    obtain ⟨room', rfl⟩ : ∃ n, room' = n + 1 := ⟨room' - 1, by omega⟩
    exact .obj fun m hm => ih m hm (by omega)

theorem Plain.list {α : Type} {write : α → Json} {room : Nat} {l : List α}
    (h : ∀ a ∈ l, Plain room (write a)) : Plain (room + 1) (.arr (l.map write)) :=
  .arr (List.forall_mem_map.mpr h)

theorem sortedItems_eq : ∀ items : List Json, sortedItems items = items.map sorted
  | [] => rfl
  | v :: rest => by
    rw [sortedItems, sortedItems_eq rest, List.map_cons]

theorem sortedMembers_eq : ∀ members : List (String × Json),
    sortedMembers members = members.map fun m => (m.1, sorted m.2)
  | [] => rfl
  | (name, v) :: rest => by
    rw [sortedMembers, sortedMembers_eq rest, List.map_cons]

theorem sortMembers_perm (members : List (String × Json)) :
    (sortMembers members).Perm members := List.mergeSort_perm _ _

theorem Plain.sorted {room : Nat} {v : Json} (h : Plain room v) : Plain room v.sorted := by
  induction h with
  | str s => exact .str s
  | count hn => exact .count hn
  | arr _ ih =>
    rw [Json.sorted, sortedItems_eq]
    refine .arr fun v hv => ?_
    obtain ⟨w, hw, rfl⟩ := List.mem_map.mp hv
    exact ih w hw
  | obj _ ih =>
    rw [Json.sorted, sortedMembers_eq]
    refine .obj fun m hm => ?_
    obtain ⟨m', hm', rfl⟩ := List.mem_map.mp ((sortMembers_perm _).mem_iff.mp hm)
    exact ih m' hm'

/-! ## The text is in the grammar -/

theorem wholeText_count {n : Nat} (hn : n ≤ Nat.pow 2 53) :
    wholeText (Int.ofNat n) = Nat.toDigits 10 n := by
  rw [wholeText, if_pos (show (Int.ofNat n).natAbs ≤ Nat.pow 2 53 from hn)]
  exact toList_toString n

theorem Plain.writes {room : Nat} {v : Json} (h : Plain room v) :
    Writes room v (canonicalChars v) := by
  induction h with
  | str s => exact .str s
  | @count _ n hn =>
    show Writes _ _ (wholeText (Int.ofNat n))
    rw [wholeText_count hn]
    exact .nat (Nat.lt_of_le_of_lt hn (by decide))
  | @arr _ items _ ih =>
    by_cases hitems : items = []
    · subst hitems
      exact .noItems noBlanks
    · exact .arr noBlanks (writesItems_of noBlanks noBlanks (fun _ => rfl) (fun _ _ _ => rfl)
        hitems ih)
  | @obj _ members _ ih =>
    by_cases hmembers : members = []
    · subst hmembers
      exact .noMembers noBlanks
    · exact .obj noBlanks (writesMembers_of noBlanks noBlanks noBlanks (fun _ _ => rfl)
        (fun _ _ _ _ => rfl) hmembers ih)

theorem read?_canonical {v : Json} (h : Plain maxDepth v) : read? v.canonical = some v.sorted :=
  h.sorted.writes.read?_eq

theorem sorted_eq_of_canonical_eq {v w : Json} (hv : Plain maxDepth v) (hw : Plain maxDepth w)
    (h : v.canonical = w.canonical) : v.sorted = w.sorted := by
  have hread := read?_canonical hv
  rw [h, read?_canonical hw] at hread
  exact (Option.some.inj hread).symm

/-! ## Members of sorted objects -/

/-- No name occurs twice. -/
def NamesDiffer (members : List (String × Json)) : Prop := (members.map (·.1)).Nodup

theorem lookup_eq_some_iff {name : String} {v : Json} :
    ∀ {members : List (String × Json)}, NamesDiffer members →
      (lookup name members = some v ↔ (name, v) ∈ members)
  | [], _ => by simp [lookup]
  | (n, w) :: rest, hn => by
    rw [NamesDiffer, List.map_cons, List.nodup_cons] at hn
    rw [lookup, List.mem_cons]
    by_cases h : n = name
    · subst h
      rw [if_pos rfl]
      constructor
      · intro hv
        injection hv with hv
        exact .inl (by rw [hv])
      · intro hv
        rcases hv with hv | hv
        · injection hv with _ hv
          rw [hv]
        · exact absurd (List.mem_map_of_mem hv) hn.1
    · rw [if_neg h, lookup_eq_some_iff hn.2]
      constructor
      · exact .inr
      · intro hv
        rcases hv with hv | hv
        · injection hv with hname _
          exact absurd hname.symm h
        · exact hv

theorem NamesDiffer.sortedMembers {members : List (String × Json)} (h : NamesDiffer members) :
    NamesDiffer (sortedMembers members) := by
  rw [NamesDiffer, sortedMembers_eq, List.map_map]
  exact h

theorem NamesDiffer.sortMembers {members : List (String × Json)} (h : NamesDiffer members) :
    NamesDiffer (sortMembers members) := ((sortMembers_perm members).map _).nodup_iff.mpr h

/-- Sorting an object moves its members and sorts their values. -/
theorem lookup_sorted {members : List (String × Json)} (hn : NamesDiffer members) (name : String) :
    lookup name (sortMembers (sortedMembers members)) = (lookup name members).map sorted := by
  have hperm := sortMembers_perm (sortedMembers members)
  have hsorted : NamesDiffer (sortMembers (sortedMembers members)) :=
    hn.sortedMembers.sortMembers
  -- both sides hold the members under the name, and there is at most one
  apply Option.ext
  intro v
  rw [lookup_eq_some_iff hsorted, hperm.mem_iff, sortedMembers_eq, List.mem_map,
    Option.map_eq_some_iff]
  constructor
  · intro h
    obtain ⟨m, hm, heq⟩ := h
    injection heq with hname hv
    subst hname
    exact ⟨m.2, (lookup_eq_some_iff hn).mpr hm, hv⟩
  · intro h
    obtain ⟨w, hw, rfl⟩ := h
    exact ⟨(name, w), (lookup_eq_some_iff hn).mp hw, rfl⟩

/-- Objects that are the same once sorted have the same members, sorted. -/
theorem lookup_eq_of_sorted_eq {m n : List (String × Json)} (hm : NamesDiffer m)
    (hn : NamesDiffer n) (h : (Json.obj m).sorted = (Json.obj n).sorted) (name : String) :
    (lookup name m).map sorted = (lookup name n).map sorted := by
  injection h with h
  rw [← lookup_sorted hm, ← lookup_sorted hn, h]

/-! ## Faithful ways to write -/

/-- What was written can be told from the ordered value. -/
def Faithful {α : Type} (write : α → Json) : Prop :=
  ∀ a b, (write a).sorted = (write b).sorted → a = b

theorem faithful_str : Faithful Json.str := by
  intro s t h
  injection h

theorem faithful_count {α : Type} {value : α → Nat} (hvalue : ∀ a b, value a = value b → a = b) :
    Faithful fun a => .int (Int.ofNat (value a)) := by
  intro a b h
  injection h with h
  injection h with h
  exact hvalue a b h

theorem Faithful.comp {α β : Type} {write : β → Json} (h : Faithful write) {f : α → β}
    (hf : ∀ a b, f a = f b → a = b) : Faithful fun a => write (f a) := by
  intro a b hab
  exact hf a b (h _ _ hab)

theorem Faithful.arr {α : Type} {write : α → Json} (h : Faithful write) :
    Faithful fun l : List α => .arr (l.map write) := by
  intro l m hlm
  injection hlm with hlm
  rw [sortedItems_eq, sortedItems_eq, List.map_map, List.map_map] at hlm
  exact (List.map_inj_right h).mp hlm

/-- A field of a record, from the record: both were written under the same name. -/
theorem Faithful.field {α : Type} {write : α → Json} (hw : Faithful write)
    {m n : List (String × Json)} (hm : NamesDiffer m) (hn : NamesDiffer n)
    (h : (Json.obj m).sorted = (Json.obj n).sorted) (name : String) {a b : α}
    (ha : lookup name m = some (write a)) (hb : lookup name n = some (write b)) : a = b := by
  have hfield := lookup_eq_of_sorted_eq hm hn h name
  rw [ha, hb] at hfield
  injection hfield with hfield
  exact hw a b hfield

/-- A field that may be left out: leaving it out can be told from every value. -/
theorem Faithful.optional {α : Type} {write : α → Json} (hw : Faithful write)
    {m n : List (String × Json)} (hm : NamesDiffer m) (hn : NamesDiffer n)
    (h : (Json.obj m).sorted = (Json.obj n).sorted) (name : String) {a b : Option α}
    (ha : lookup name m = a.map write) (hb : lookup name n = b.map write) : a = b := by
  have hfield := lookup_eq_of_sorted_eq hm hn h name
  rw [ha, hb] at hfield
  -- left out on one side and written on the other is a difference
  cases a with
  | none =>
    cases b with
    | none => rfl
    | some b => exact nomatch hfield
  | some a =>
    cases b with
    | none => exact nomatch hfield
    | some b =>
      injection hfield with hfield
      rw [hw a b hfield]

end Provenance.Json
