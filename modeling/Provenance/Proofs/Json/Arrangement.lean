import Provenance.Proofs.Json.Record
import Provenance.Proofs.Json.Sorting
import Provenance.Proofs.Lists

/-!
# Documents are read in any order of their members

Canonical text has the members of every object in an order of its own, and nobody
promises that a text from elsewhere has them in any order at all. `Reads` says of two
functions, one of which writes a value and one of which reads it, that reading gives
back what was written wherever the members were moved to.

Objects that are the same up to the order of members have the same fields
(`Rearranges`), and that is what is passed from fields to records (`Reads.field`,
`Reads.optional`, `Reads.list`). For a variant the fields are what is left once its tag
is taken out (`Rearranges.rest`).

> `Reads.restores`: what is read in any order is read in the order it was written in;
>
> `Reads.document?_canonical`: it is read from its canonical text, too.
-/

namespace Provenance.Json

open Checks

mutual

/-- Sorting neither adds nor removes a place that says nothing. -/
theorem isSound_sorted : ∀ v : Json, v.sorted.isSound = v.isSound
  | .arr items => by
    rw [sorted, isSound, isSound, areSound_sortedItems items]
  | .obj members => by
    rw [sorted, isSound, isSound, ← membersSound_sortedMembers members, Bool.eq_iff_iff,
      membersSound_iff, membersSound_iff]
    simp only [(sortMembers_perm _).mem_iff]
  | .null | .bool _ | .int _ | .real _ | .str _ | .invalid => rfl

theorem areSound_sortedItems : ∀ items, areSound (sortedItems items) = areSound items
  | [] => rfl
  | v :: rest => by
    rw [sortedItems, areSound, areSound, isSound_sorted v, areSound_sortedItems rest]

theorem membersSound_sortedMembers :
    ∀ members, membersSound (sortedMembers members) = membersSound members
  | [] => rfl
  | (name, v) :: rest => by
    rw [sortedMembers, membersSound, membersSound, isSound_sorted v,
      membersSound_sortedMembers rest]

end

/-- In what has no parts nothing can be moved. -/
theorem eq_of_sorted_eq {v w : Json} (h : v.sorted = w) (harr : ∀ items, w ≠ .arr items)
    (hobj : ∀ members, w ≠ .obj members) : v = w := by
  cases v with
  | arr items => exact absurd h.symm (harr _)
  | obj members => exact absurd h.symm (hobj _)
  | _ => exact h

/-! ## Objects up to the order of members -/

/-- The members of the first list are those of the second, moved and with members moved
inside of them. No name occurs twice. -/
structure Rearranges (members' members : List (String × Json)) : Prop where
  names : NamesDiffer members'
  lookup_eq : ∀ name, (lookup name members').map sorted = (lookup name members).map sorted

theorem exists_rearranges {v : Json} {members : List (String × Json)} (hn : NamesDiffer members)
    (h : v.sorted = (Json.obj members).sorted) :
    ∃ members', v = .obj members' ∧ Rearranges members' members := by
  cases v with
  | obj members' =>
    have hnames : NamesDiffer members' := by
      injection h with h
      have hperm : (sortedMembers members').Perm (sortedMembers members) :=
        (sortMembers_perm _).symm.trans (h ▸ sortMembers_perm _)
      have hnames := (hperm.map _).nodup_iff.mpr hn.sortedMembers
      rw [sortedMembers_eq, List.map_map] at hnames
      exact hnames
    exact ⟨members', rfl, hnames, lookup_eq_of_sorted_eq hnames hn h⟩
  | _ => exact nomatch h

theorem Rearranges.exists_lookup {members' members : List (String × Json)}
    (h : Rearranges members' members) {name : String} {w : Json}
    (hw : lookup name members = some w) :
    ∃ v, lookup name members' = some v ∧ v.sorted = w.sorted := by
  have hlookup := h.lookup_eq name
  rw [hw, Option.map_some, Option.map_eq_some_iff] at hlookup
  exact hlookup

/-! ## Reading -/

variable {α : Type} {write : α → Json} {decode : Json → Decoded α}

/-- Reading gives back what was written, wherever the members of objects were moved to. -/
def Reads (write : α → Json) (decode : Json → Decoded α) : Prop :=
  ∀ a v, v.sorted = (write a).sorted → decode v = .ok a

theorem Reads.restores (h : Reads write decode) : Restores write decode := fun a => h a _ rfl

/-- Strings have no members that could be moved. -/
theorem Restores.reads_str {text : α → String} (h : Restores (fun a => .str (text a)) decode) :
    Reads (fun a => .str (text a)) decode := by
  intro a v hv
  obtain rfl : v = .str (text a) := eq_of_sorted_eq hv (by simp) (by simp)
  exact h a

theorem reads_str : Reads .str asString := restores_str.reads_str

theorem Reads.eachItem (h : Reads write decode) :
    ∀ {l : List α} {items : List Json}, items.map sorted = (l.map write).map sorted →
      eachItem decode items = .ok l
  | [], [], _ => rfl
  | a :: l, v :: items, heq => by
    rw [List.map_cons, List.map_cons, List.map_cons, List.cons.injEq] at heq
    rw [Json.eachItem, h a v heq.1, h.eachItem heq.2]
    rfl

theorem Reads.list (h : Reads write decode) :
    Reads (fun l : List α => .arr (l.map write)) (asList decode) := by
  intro l v hv
  cases v with
  | arr items =>
    injection hv with hv
    rw [sortedItems_eq, sortedItems_eq] at hv
    exact h.eachItem hv
  | _ => exact nomatch hv

section Fields

variable {members' members : List (String × Json)} (hm : Rearranges members' members)
  {name : String}

include hm

theorem Reads.field (h : Reads write decode) {a : α}
    (ha : lookup name members = some (write a)) :
    Record.field ⟨members', false⟩ name decode = .ok a := by
  obtain ⟨v, hv, hsorted⟩ := hm.exists_lookup ha
  rw [Record.field_eq hv]
  exact h a v hsorted

theorem Rearranges.field_count {bits n : Nat}
    (hl : lookup name members = some (.int (Int.ofNat n))) (hn : n < Nat.pow 2 bits) :
    Record.field ⟨members', false⟩ name (asUnsigned bits) = .ok n := by
  obtain ⟨v, hv, hsorted⟩ := hm.exists_lookup hl
  obtain rfl : v = .int (Int.ofNat n) := eq_of_sorted_eq hsorted (by simp) (by simp)
  exact Record.field_count hv hn

theorem Reads.optional (h : Reads write decode) (hnull : ∀ a, write a ≠ .null) {a : Option α}
    (ha : lookup name members = a.map write) :
    Record.fieldD ⟨members', false⟩ name none (asOption decode) = .ok a := by
  cases a with
  | none =>
    have hlookup := hm.lookup_eq name
    rw [ha, Option.map_none, Option.map_none, Option.map_eq_none_iff] at hlookup
    rw [Record.fieldD, hlookup]
  | some a =>
    obtain ⟨v, hv, hsorted⟩ := hm.exists_lookup ha
    have hvalue : v ≠ .null := by
      rintro rfl
      exact hnull a (eq_of_sorted_eq hsorted.symm (by simp) (by simp))
    rw [Record.fieldD, hv]
    show asOption decode v = _
    unfold asOption
    split
    · exact absurd rfl hvalue
    · rw [h a v hsorted]
      rfl

end Fields

/-! ## Variants -/

theorem lookup_filter_ne (tag name : String) :
    ∀ members : List (String × Json), lookup name (members.filter fun m => m.1 ≠ tag) =
      if name = tag then none else lookup name members
  | [] => by simp [lookup]
  | (n, v) :: rest => by
    rw [List.filter_cons, lookup]
    by_cases hn : n = tag
    · subst hn
      simp only [ne_eq, not_true_eq_false, decide_false, Bool.false_eq_true, if_false,
        lookup_filter_ne n name rest, eq_comm (a := name)]
      split <;> rfl
    · simp only [ne_eq, hn, not_false_eq_true, decide_true, if_true, lookup,
        lookup_filter_ne tag name rest]
      -- a member that is found has another name than the tag
      by_cases hname : n = name
      · subst hname
        simp [hn]
      · simp [hname]

section Variants

variable {tag kind : String} {members' members : List (String × Json)}
  (hm : Rearranges members' ((tag, .str kind) :: members))

include hm

/-- The tag may be anywhere, but it is there once. -/
theorem Rearranges.filter_tag : members'.filter (fun m => m.1 = tag) = [(tag, .str kind)] := by
  have htag : lookup tag ((tag, .str kind) :: members) = some (.str kind) := if_pos rfl
  obtain ⟨v, hv, hsorted⟩ := hm.exists_lookup htag
  obtain rfl : v = .str kind := eq_of_sorted_eq hsorted (by simp) (by simp)
  have hnodup : members'.Nodup := hm.names.of_map _
  refine (filter_eq_singleton_iff hnodup).mpr ⟨⟨?_, by simp⟩, fun m hmem htag => ?_⟩
  · exact (lookup_eq_some_iff hm.names).mp hv
  · obtain ⟨name, w⟩ := m
    obtain rfl : name = tag := by simpa using htag
    have hw := (lookup_eq_some_iff hm.names).mpr hmem
    rw [hv, Option.some.injEq] at hw
    rw [hw]

/-- Without the tag the fields are left. -/
theorem Rearranges.rest (hn : NamesDiffer ((tag, .str kind) :: members)) :
    Rearranges (members'.filter fun m => m.1 ≠ tag) members where
  names := hm.names.sublist (List.filter_sublist.map _)
  lookup_eq name := by
    rw [NamesDiffer, List.map_cons, List.nodup_cons] at hn
    rw [lookup_filter_ne]
    by_cases hname : name = tag
    · subst hname
      have hnone : lookup name members = none := by
        refine Option.eq_none_iff_forall_ne_some.mpr fun v hv => ?_
        exact hn.1 (List.mem_map.mpr ⟨(name, v), (lookup_eq_some_iff hn.2).mp hv, rfl⟩)
      rw [if_pos rfl, hnone]
    · rw [if_neg hname, hm.lookup_eq name, lookup, if_neg (Ne.symm hname)]

theorem Rearranges.tagged_eq (hsound : (Json.obj members').isSound = true) :
    tagged tag (.obj members') = .ok (kind, .obj (members'.filter fun m => m.1 ≠ tag)) := by
  rw [tagged, if_pos hsound]
  simp only [hm.filter_tag]
  rfl

/-- A variant is read by the reader of its tag. -/
theorem Rearranges.variant {readers : List (String × (Json → Decoded α))} {read : Json → Decoded α}
    {a : α} (hn : NamesDiffer ((tag, .str kind) :: members))
    (hsound : (Json.obj members').isSound = true) (hread : alternative readers kind = .ok read)
    (h : ∀ fields, Rearranges fields members → read (.obj fields) = .ok a) :
    (do
      let (kind, fields) ← tagged tag (.obj members')
      let read ← alternative readers kind
      read fields) = .ok a := by
  simp only [hm.tagged_eq hsound, hread, h _ (hm.rest hn), bind, Except.bind]

end Variants

theorem Reads.document?_canonical (h : Reads write decode) {a : α} (hp : Plain maxDepth (write a)) :
    document? decode (write a).canonical = some a := by
  rw [document?, read?_canonical hp, Option.bind_some, h a _ (sorted_sorted _)]
  rfl

end Provenance.Json
