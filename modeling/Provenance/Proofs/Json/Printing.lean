import Provenance.Proofs.Json.Canonical

/-!
# What a printed text says

Documents are stored as text without blanks or over several lines. Their values are
made of strings, truth values, counts, arrays and objects (`Stored`), and both layouts
of such a value are texts in the grammar of the reader:

> `read?_compact`, `read?_pretty`: both texts of a value are read as the value.

The indentation of a part depends on how deep it stands, so the induction over the
value is for every indentation.
-/

namespace Provenance.Json

/-- The value is made of strings, truth values, counts of sixty-four bits, and of arrays
and objects nested at most `room` deep. -/
inductive Stored : (room : Nat) → Json → Prop
  | str {room} (s : String) : Stored room (.str s)
  | bool {room} (b : Bool) : Stored room (.bool b)
  | count {room n} : n < Nat.pow 2 64 → Stored room (.int (Int.ofNat n))
  | arr {room items} : (∀ v ∈ items, Stored room v) → Stored (room + 1) (.arr items)
  | obj {room members} : (∀ m ∈ members, Stored room m.2) → Stored (room + 1) (.obj members)

/-- What is signed can be stored. -/
theorem Plain.stored {room : Nat} {v : Json} (h : Plain room v) : Stored room v := by
  induction h with
  | str s => exact .str s
  | count hn => exact .count (Nat.lt_of_le_of_lt hn (by decide))
  | arr _ ih => exact .arr ih
  | obj _ ih => exact .obj ih

theorem Stored.mono {room : Nat} {v : Json} (h : Stored room v) :
    ∀ {room' : Nat}, room ≤ room' → Stored room' v := by
  induction h with
  | str s => exact fun _ => .str s
  | bool b => exact fun _ => .bool b
  | count hn => exact fun _ => .count hn
  | arr _ ih =>
    intro room' hle
    obtain ⟨room', rfl⟩ : ∃ n, room' = n + 1 := ⟨room' - 1, by omega⟩
    exact .arr fun v hv => ih v hv (by omega)
  | obj _ ih =>
    intro room' hle
    obtain ⟨room', rfl⟩ : ∃ n, room' = n + 1 := ⟨room' - 1, by omega⟩
    exact .obj fun m hm => ih m hm (by omega)

theorem Stored.list {α : Type} {write : α → Json} {room : Nat} {l : List α}
    (h : ∀ a ∈ l, Stored room (write a)) : Stored (room + 1) (.arr (l.map write)) :=
  .arr (List.forall_mem_map.mpr h)

theorem areSound_iff : ∀ {items : List Json}, areSound items = true ↔ ∀ v ∈ items, v.isSound = true
  | [] => by simp [areSound]
  | v :: rest => by
    rw [areSound, Bool.and_eq_true, areSound_iff, List.forall_mem_cons]

theorem membersSound_iff : ∀ {members : List (String × Json)},
    membersSound members = true ↔ ∀ m ∈ members, m.2.isSound = true
  | [] => by simp [membersSound]
  | (n, v) :: rest => by
    rw [membersSound, Bool.and_eq_true, membersSound_iff, List.forall_mem_cons]

/-- Every place in a stored value says something. -/
theorem Stored.isSound {room : Nat} {v : Json} (h : Stored room v) : v.isSound = true := by
  induction h with
  | str s => rfl
  | bool b => rfl
  | count _ => rfl
  | arr _ ih => exact areSound_iff.mpr ih
  | obj _ ih => exact membersSound_iff.mpr ih

/-! ## The texts are in the grammar -/

theorem scalarText_count (n : Nat) : scalarText (.int (Int.ofNat n)) = Nat.toDigits 10 n :=
  toList_toString n

theorem blanks_newline (level : Nat) : Blanks (newline level) := by
  intro c hc
  rcases List.mem_cons.mp hc with rfl | hc
  · rfl
  · rw [List.eq_of_mem_replicate hc]
    rfl

theorem Stored.writes_compact {room : Nat} {v : Json} (h : Stored room v) :
    Writes room v (compactChars v) := by
  induction h with
  | str s => exact .str s
  | bool b => exact .bool b
  | @count _ n hn =>
    show Writes _ _ (scalarText (.int (Int.ofNat n)))
    rw [scalarText_count]
    exact .nat hn
  | @arr _ items _ ih =>
    by_cases hitems : items = []
    · subst hitems
      exact .noItems noBlanks
    · exact .arr noBlanks (writesItems_of noBlanks noBlanks (fun _ => rfl) (fun _ _ _ => rfl)
        hitems ih)
  | @obj _ members _ ih =>
    by_cases hmembers : members = []
    · subst hmembers
      exact .noMembers noBlanks
    · exact .obj noBlanks (writesMembers_of noBlanks noBlanks noBlanks (fun _ _ => rfl)
        (fun _ _ _ _ => rfl) hmembers ih)

theorem Stored.writes_pretty {room : Nat} {v : Json} (h : Stored room v) :
    ∀ level, Writes room v (prettyChars level v) := by
  have hspace : Blanks [' '] := by
    intro c hc
    rw [List.mem_singleton.mp hc]
    rfl
  induction h with
  | str s => exact fun _ => .str s
  | bool b => exact fun _ => .bool b
  | @count _ n hn =>
    intro level
    show Writes _ _ (scalarText (.int (Int.ofNat n)))
    rw [scalarText_count]
    exact .nat hn
  | @arr _ items _ ih =>
    intro level
    cases items with
    | nil => exact .noItems noBlanks
    | cons v rest =>
      exact .arr (blanks_newline _) (writesItems_of (blanks_newline _) (blanks_newline _)
        (fun _ => rfl) (fun _ _ _ => rfl) (List.cons_ne_nil _ _) fun w hw => ih w hw (level + 1))
  | @obj _ members _ ih =>
    intro level
    cases members with
    | nil => exact .noMembers noBlanks
    | cons m rest =>
      exact .obj (blanks_newline _) (writesMembers_of (blanks_newline _) (blanks_newline _) hspace
        (fun _ _ => rfl) (fun _ _ _ _ => rfl) (List.cons_ne_nil _ _) fun w hw =>
          ih w hw (level + 1))

theorem read?_compact {v : Json} (h : Stored maxDepth v) : read? v.compact = some v :=
  h.writes_compact.read?_eq

theorem read?_pretty {v : Json} (h : Stored maxDepth v) : read? v.pretty = some v :=
  (h.writes_pretty 0).read?_eq

end Provenance.Json
