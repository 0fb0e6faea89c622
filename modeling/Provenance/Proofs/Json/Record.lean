import Mathlib.Data.List.Nodup
import Provenance.Json.Document
import Provenance.Proofs.Checks
import Provenance.Proofs.Json.Printing

/-!
# Documents are read as they were written

`Restores` says of two functions, one of which writes a value and one of which reads
it, that reading gives back what was written. It is passed from fields to records: a
record is written as an object whose names differ (`record_obj`), and each field is
found under the name it was written under (`Restores.field`). A variant is told from the
tag in front of its fields (`variant_obj`).

> `Stored.survives`: what can be stored and is read back from its value is read back
> from either text of it.

`Yields` says what holds of everything that can be read, whoever wrote it.
-/

namespace Provenance.Json

open Checks

variable {α : Type} {write : α → Json} {decode : Json → Decoded α}

/-- Reading gives back what was written. -/
def Restores (write : α → Json) (decode : Json → Decoded α) : Prop :=
  ∀ a, decode (write a) = .ok a

theorem restores_str : Restores .str asString := fun _ => rfl

theorem restores_bool : Restores .bool asBool := fun _ => rfl

theorem asUnsigned_count {bits n : Nat} (hn : n < Nat.pow 2 bits) :
    asUnsigned bits (.int (Int.ofNat n)) = .ok n := by
  have hfits : 0 ≤ Int.ofNat n ∧ Int.ofNat n < (Nat.pow 2 bits : Int) :=
    ⟨Int.natCast_nonneg n, Int.ofNat_lt.mpr hn⟩
  rw [asUnsigned, if_pos hfits]
  rfl

theorem eachItem_map : ∀ {l : List α}, (∀ a ∈ l, decode (write a) = .ok a) →
    eachItem decode (l.map write) = .ok l
  | [], _ => rfl
  | a :: l, h => by
    rw [List.forall_mem_cons] at h
    rw [List.map_cons, eachItem, h.1, eachItem_map h.2]
    rfl

theorem Restores.list (h : Restores write decode) :
    Restores (fun l : List α => .arr (l.map write)) (asList decode) :=
  fun _ => eachItem_map fun a _ => h a

/-! ## Records -/

theorem occurrences_le_one {members : List (String × Json)} (h : NamesDiffer members)
    (name : String) : occurrences name members ≤ 1 := by
  have hcount : occurrences name members = (members.map (·.1)).count name := by
    rw [occurrences, List.count, List.countP_map]
    rfl
  rw [hcount]
  exact List.nodup_iff_count_le_one.mp h name

theorem record_obj {shape : String} {names : List String} {members : List (String × Json)}
    (h : NamesDiffer members) : record shape names (.obj members) = .ok ⟨members, false⟩ := by
  have hnone : names.find? (fun n => 1 < occurrences n members) = none := by
    refine List.find?_eq_none.mpr fun n _ => ?_
    have hle := occurrences_le_one h n
    simpa using hle
  rw [record, hnone]

theorem Record.field_eq {r : Record} {name : String} {v : Json}
    (hl : lookup name r.members = some v) : r.field name decode = decode v := by
  rw [Record.field, hl]

theorem Restores.field (h : Restores write decode) {r : Record} {name : String} {a : α}
    (hl : lookup name r.members = some (write a)) : r.field name decode = .ok a := by
  rw [Record.field_eq hl]
  exact h a

theorem Record.field_count {r : Record} {name : String} {bits n : Nat}
    (hl : lookup name r.members = some (.int (Int.ofNat n))) (hn : n < Nat.pow 2 bits) :
    r.field name (asUnsigned bits) = .ok n := by
  rw [Record.field_eq hl]
  exact asUnsigned_count hn

/-- The fields of a variant, told from its tag. -/
theorem tagged_obj {tag name : String} {members : List (String × Json)}
    (hn : NamesDiffer ((tag, .str name) :: members)) {room : Nat}
    (hs : Stored room (.obj ((tag, .str name) :: members))) :
    tagged tag (.obj ((tag, .str name) :: members)) = .ok (name, .obj members) := by
  have hother : ∀ m ∈ members, m.1 ≠ tag := by
    rw [NamesDiffer, List.map_cons, List.nodup_cons] at hn
    intro m hm h
    exact hn.1 (List.mem_map.mpr ⟨m, hm, h⟩)
  have hfirst : members.filter (fun m => m.1 = tag) = [] :=
    List.filter_eq_nil_iff.mpr fun m hm => by simpa using hother m hm
  have hrest : members.filter (fun m => m.1 ≠ tag) = members :=
    List.filter_eq_self.mpr fun m hm => by simpa using hother m hm
  simp only [tagged, hs.isSound, if_true, List.filter_cons, hfirst, decide_true, not_true_eq_false,
    ne_eq, decide_false, Bool.false_eq_true, if_false]
  rw [show members.filter (fun m => decide ¬m.1 = tag) = members from hrest]
  rfl

/-- A variant is read by the reader of its tag. -/
theorem variant_obj {tag name : String} {members : List (String × Json)}
    {readers : List (String × (Json → Decoded α))} {read : Json → Decoded α} {a : α}
    (hn : NamesDiffer ((tag, .str name) :: members)) {room : Nat}
    (hs : Stored room (.obj ((tag, .str name) :: members)))
    (hread : alternative readers name = .ok read) (h : read (.obj members) = .ok a) :
    (do
      let (name, fields) ← tagged tag (.obj ((tag, .str name) :: members))
      let read ← alternative readers name
      read fields) = .ok a := by
  simp only [tagged_obj hn hs, hread, h, bind, Except.bind]

/-! ## What can be read at all -/

/-- Whatever is read has the property. -/
def Yields (decode : Json → Decoded α) (P : α → Prop) : Prop := ∀ v a, decode v = .ok a → P a

theorem yields_unsigned (bits : Nat) : Yields (asUnsigned bits) (· < Nat.pow 2 bits) := by
  intro v n h
  cases v with
  | int i =>
    rw [asUnsigned] at h
    split at h
    · next hfits =>
      injection h with h
      have hlt := (Int.toNat_lt hfits.1).mpr hfits.2
      rwa [h] at hlt
    · exact nomatch h
  | _ => exact nomatch h

variable {P : α → Prop}

theorem Yields.field (h : Yields decode P) {r : Record} {name : String} {a : α}
    (ha : r.field name decode = .ok a) : P a := by
  rw [Record.field] at ha
  split at ha
  · exact h _ _ ha
  · exact nomatch ha

theorem Yields.fieldD (h : Yields decode P) {r : Record} {name : String} {default a : α}
    (hdefault : P default) (ha : r.fieldD name default decode = .ok a) : P a := by
  rw [Record.fieldD] at ha
  split at ha
  · exact h _ _ ha
  · injection ha with ha
    rwa [← ha]

theorem Yields.eachItem (h : Yields decode P) : ∀ {items : List Json} {l : List α},
    eachItem decode items = .ok l → ∀ a ∈ l, P a
  | [], l, hl => by
    injection hl with hl
    subst hl
    exact fun _ hmem => nomatch hmem
  | v :: rest, l, hl => by
    obtain ⟨a, ha, hl⟩ := bind_eq_ok_iff.mp hl
    obtain ⟨as, has, hl⟩ := bind_eq_ok_iff.mp hl
    injection hl with hl
    subst hl
    exact List.forall_mem_cons.mpr ⟨h v a ha, Yields.eachItem h has⟩

theorem Yields.list (h : Yields decode P) : Yields (asList decode) fun l => ∀ a ∈ l, P a := by
  intro v l hl
  cases v with
  | arr items => exact Yields.eachItem h hl
  | _ => exact nomatch hl

/-- What the reader of every variant yields. -/
theorem Yields.variant {tag : String} {readers : List (String × (Json → Decoded α))}
    (h : ∀ entry ∈ readers, Yields entry.2 P) :
    Yields (fun v => do
      let (name, fields) ← tagged tag v
      let read ← alternative readers name
      read fields) P := by
  intro v a ha
  obtain ⟨⟨name, fields⟩, _, ha⟩ := bind_eq_ok_iff.mp ha
  obtain ⟨read, hread, ha⟩ := bind_eq_ok_iff.mp ha
  rw [alternative] at hread
  split at hread
  · next hfind =>
    injection hread with hread
    subst hread
    exact h _ (List.mem_of_find?_eq_some hfind) fields a ha
  · exact nomatch hread

/-! ## Texts of documents -/

/-- Either text of the document is read as the document. -/
def Survives (write : α → Json) (decode : Json → Decoded α) (a : α) : Prop :=
  document? decode (write a).pretty = some a ∧ document? decode (write a).compact = some a

theorem Stored.survives {a : α} (hs : Stored maxDepth (write a)) (h : decode (write a) = .ok a) :
    Survives write decode a := by
  unfold Survives document?
  rw [read?_pretty hs, read?_compact hs, Option.bind_some, h]
  exact ⟨rfl, rfl⟩

/-- What is asked of a document has the same answer after it was read from either text. -/
def Keeps {β : Type} (write : α → Json) (decode : Json → Decoded α) (ask : α → β) : Prop :=
  ∀ a, (document? decode (write a).pretty).map ask = some (ask a) ∧
    (document? decode (write a).compact).map ask = some (ask a)

theorem keeps_of_survives {β : Type} (h : ∀ a, Survives write decode a) (ask : α → β) :
    Keeps write decode ask := by
  intro a
  rw [(h a).1, (h a).2]
  exact ⟨rfl, rfl⟩

/-- A document that survives has what everything that is read has. -/
theorem Survives.yields {a : α} (h : Survives write decode a) (hP : Yields decode P) : P a := by
  obtain ⟨v, _, hv⟩ := Option.bind_eq_some_iff.mp h.1
  cases hd : decode v with
  | error e =>
    rw [hd] at hv
    exact nomatch hv
  | ok b =>
    rw [hd] at hv
    injection hv with hv
    exact hv ▸ hP v b hd

end Provenance.Json
