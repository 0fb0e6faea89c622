import Provenance.Glob.Match

/-!
# The matcher decides whether bytes have a shape

The matcher goes through a shape once and keeps a mask: for every position in the bytes,
whether what it has read of the shape can end there. A position is said here by the
bytes in front of it (`Marks`), and a part of the shape moves the marks over what it
matches:

> `positions_marks_iff`: a position is marked behind a shape iff the bytes in front of it
> are some up to a position that was marked before, and then some that have the shape.
>
> `accepts_iff`: the matcher accepts the bytes that have the shape, and no others.
-/

namespace Provenance.Glob

/-- The position behind these bytes is marked. -/
def Marks (mask : Mask) (front : Bytes) : Prop := mask[front.length]? = some true

variable {α : Type} {set : ByteSet} {here : Bool} {front back : Bytes} {mask : Mask}

/-! ## Shapes taken apart -/

theorem Shape.matches_nil_iff {bytes : Bytes} : Shape.Matches [] bytes ↔ bytes = [] := by
  constructor
  · intro h
    cases h
    rfl
  · rintro rfl
    exact .nil

theorem Shape.matches_cons_iff {p : Piece} {s : List Piece} {bytes : Bytes} :
    Shape.Matches (p :: s) bytes ↔
      ∃ first rest, bytes = first ++ rest ∧ p.Matches first ∧ Shape.Matches s rest := by
  constructor
  · intro h
    cases h with
    | cons hp hs => exact ⟨_, _, rfl, hp, hs⟩
  · intro h
    obtain ⟨first, rest, rfl, hp, hs⟩ := h
    exact .cons hp hs

theorem Piece.matches_one_iff {bytes : Bytes} :
    Piece.Matches (.one set) bytes ↔ ∃ b, bytes = [b] ∧ set.contains b = true := by
  constructor
  · intro h
    cases h with
    | one hb => exact ⟨_, rfl, hb⟩
  · intro h
    obtain ⟨b, rfl, hb⟩ := h
    exact .one hb

theorem Piece.matches_many_iff {bytes : Bytes} :
    Piece.Matches (.many set) bytes ↔ ∀ b ∈ bytes, set.contains b = true := by
  constructor
  · intro h
    cases h with
    | many hall => exact hall
  · exact .many

theorem Piece.matches_choice_iff {branches : List (List Piece)} {bytes : Bytes} :
    Piece.Matches (.choice branches) bytes ↔ ∃ s ∈ branches, Shape.Matches s bytes := by
  constructor
  · intro h
    cases h with
    | choice hs hmatches => exact ⟨_, hs, hmatches⟩
  · intro h
    obtain ⟨s, hs, hmatches⟩ := h
    exact .choice hs hmatches

/-! ## Masks -/

theorem length_advance : ∀ (bytes : Bytes) (mask : Mask) {here : Bool},
    mask.length = bytes.length + 1 → (advance set here bytes mask).length = bytes.length + 1
  | [], _, _, _ => rfl
  | _ :: bytes, _ :: mask, _, h => by
    rw [advance, List.length_cons, length_advance bytes mask (Nat.succ.inj h), List.length_cons]

theorem length_spread : ∀ (bytes : Bytes) (mask : Mask) {here : Bool},
    mask.length = bytes.length + 1 → (spread set here bytes mask).length = bytes.length + 1
  | [], [_], _, _ => rfl
  | _ :: bytes, _ :: mask, _, h => by
    rw [spread, List.length_cons, length_spread bytes mask (Nat.succ.inj h), List.length_cons]

theorem length_either : ∀ (l m : Mask), l.length = m.length → (either l m).length = l.length
  | [], [], _ => rfl
  | _ :: l, _ :: m, h => by
    rw [either, List.length_cons, length_either l m (Nat.succ.inj h), List.length_cons]

mutual

theorem Piece.length_positions : ∀ (p : Piece) {bytes : Bytes} {mask : Mask},
    mask.length = bytes.length + 1 → (p.positions bytes mask).length = bytes.length + 1
  | .one _, _, _, h => length_advance _ _ h
  | .many _, _, _, h => length_spread _ _ h
  | .choice branches, _, _, h => length_choicePositions branches h

theorem length_positions : ∀ (s : List Piece) {bytes : Bytes} {mask : Mask},
    mask.length = bytes.length + 1 → (positions s bytes mask).length = bytes.length + 1
  | [], _, _, h => h
  | p :: rest, _, _, h => length_positions rest (p.length_positions h)

theorem length_choicePositions : ∀ (branches : List (List Piece)) {bytes : Bytes} {mask : Mask},
    mask.length = bytes.length + 1 →
      (choicePositions branches bytes mask).length = bytes.length + 1
  | [], _, _, h => by rw [choicePositions, List.length_map, h]
  | s :: rest, _, _, h => by
    rw [choicePositions, length_either _ _
      ((length_positions s h).trans (length_choicePositions rest h).symm), length_positions s h]

end

theorem marks_cons_nil {m : Bool} : Marks (m :: mask) [] ↔ m = true := by
  rw [Marks, List.length_nil, List.getElem?_cons_zero, Option.some.injEq]

theorem not_marks_map_false {l : List α} : ¬Marks (l.map fun _ => false) front := by
  rw [Marks, List.getElem?_map, Option.map_eq_some_iff]
  rintro ⟨_, _, h⟩
  exact nomatch h

theorem marks_either_iff : ∀ (l m : Mask) (front : Bytes),
    Marks (either l m) front ↔ Marks l front ∨ Marks m front
  | [], [], _ => by simp [Marks, either]
  | [], _ :: _, _ => by simp [Marks, either]
  | _ :: _, [], _ => by simp [Marks, either]
  | _ :: _, _ :: _, [] => by simp only [either, marks_cons_nil, Bool.or_eq_true]
  | _ :: l, _ :: m, _ :: front => marks_either_iff l m front

/-! ## Positions behind marked ones -/

/-- The position is behind a marked one, and the bytes between them have a form. -/
def Reaches (mask : Mask) (front : Bytes) (Form : Bytes → Prop) : Prop :=
  ∃ before between, front = before ++ between ∧ Marks mask before ∧ Form between

variable {Form Form' : Bytes → Prop}

theorem reaches_congr (h : ∀ bytes, Form bytes ↔ Form' bytes) :
    Reaches mask front Form ↔ Reaches mask front Form' := by
  simp only [Reaches, h]

theorem reaches_or :
    Reaches mask front (fun bytes => Form bytes ∨ Form' bytes) ↔
      Reaches mask front Form ∨ Reaches mask front Form' := by
  simp only [Reaches, and_or_left, exists_or]

/-- At the first position there is nothing to go over. -/
theorem reaches_nil : Reaches mask [] Form ↔ Marks mask [] ∧ Form [] := by
  constructor
  · intro h
    obtain ⟨before, between, heq, hmarks, hform⟩ := h
    obtain ⟨rfl, rfl⟩ := List.append_eq_nil_iff.mp heq.symm
    exact ⟨hmarks, hform⟩
  · intro h
    exact ⟨[], [], rfl, h⟩

/-- A position further on is behind the first one, or behind one of the others. -/
theorem reaches_cons {m : Bool} {b : UInt8} :
    Reaches (m :: mask) (b :: front) Form ↔
      (m = true ∧ Form (b :: front)) ∨ Reaches mask front Form := by
  constructor
  · intro h
    obtain ⟨before, between, heq, hmarks, hform⟩ := h
    cases before with
    | nil => exact .inl ⟨marks_cons_nil.mp hmarks, heq ▸ hform⟩
    | cons c before =>
      obtain ⟨rfl, rfl⟩ := List.cons.inj heq
      exact .inr ⟨before, between, rfl, hmarks, hform⟩
  · intro h
    rcases h with ⟨hm, hform⟩ | ⟨before, between, rfl, hmarks, hform⟩
    · exact ⟨[], _, rfl, marks_cons_nil.mpr hm, hform⟩
    · exact ⟨b :: before, between, rfl, hmarks, hform⟩

/-! ## The matcher, part by part -/

/-- Behind one byte of the set; `here` is the mark of the first position. -/
theorem marks_advance_iff : ∀ (front : Bytes) (mask : Mask) {here : Bool},
    mask.length = (front ++ back).length + 1 →
      (Marks (advance set here (front ++ back) mask) front ↔
        (front = [] ∧ here = true) ∨ Reaches mask front (Piece.Matches (.one set)))
  | [], mask, here, _ => by
    have hfirst : Marks (advance set here ([] ++ back) mask) [] ↔ here = true := by
      cases back <;> cases mask <;> exact marks_cons_nil
    rw [hfirst, reaches_nil, Piece.matches_one_iff]
    simp
  | b :: front, m :: mask, here, h => by
    have hone : Piece.Matches (.one set) (b :: front) ↔ front = [] ∧ set.contains b = true := by
      simp [Piece.matches_one_iff, and_assoc]
    show Marks (advance set (m && set.contains b) (front ++ back) mask) front ↔ _
    rw [marks_advance_iff front mask (Nat.succ.inj h), reaches_cons, hone, Bool.and_eq_true,
      and_left_comm]
    simp

/-- Behind any number of bytes of the set; `here` says that the first position is reached
from before. -/
theorem marks_spread_iff : ∀ (front : Bytes) (mask : Mask) {here : Bool},
    mask.length = (front ++ back).length + 1 →
      (Marks (spread set here (front ++ back) mask) front ↔
        (here = true ∧ Piece.Matches (.many set) front) ∨
          Reaches mask front (Piece.Matches (.many set)))
  | [], m :: mask, here, _ => by
    have hfirst : Marks (spread set here ([] ++ back) (m :: mask)) [] ↔
        m = true ∨ here = true := by
      rw [← Bool.or_eq_true]
      cases back <;> exact marks_cons_nil
    have hnone : Piece.Matches (.many set) [] := .many fun _ hb => nomatch hb
    rw [hfirst, reaches_nil, marks_cons_nil, and_iff_left hnone, and_iff_left hnone, or_comm]
  | b :: front, m :: mask, here, h => by
    have hmany : Piece.Matches (.many set) (b :: front) ↔
        set.contains b = true ∧ Piece.Matches (.many set) front := by
      simp only [Piece.matches_many_iff, List.forall_mem_cons]
    show Marks (spread set ((m || here) && set.contains b) (front ++ back) mask) front ↔ _
    rw [marks_spread_iff front mask (Nat.succ.inj h), reaches_cons, hmany, Bool.and_eq_true,
      Bool.or_eq_true, and_assoc, or_and_right, ← or_assoc]
    exact or_congr_left or_comm

mutual

theorem Piece.positions_marks_iff : ∀ (p : Piece) {front back : Bytes} {mask : Mask},
    mask.length = (front ++ back).length + 1 →
      (Marks (p.positions (front ++ back) mask) front ↔ Reaches mask front p.Matches)
  | .one set, front, _, mask, h => by
    rw [Piece.positions, marks_advance_iff front mask h]
    simp
  | .many set, front, _, mask, h => by
    rw [Piece.positions, marks_spread_iff front mask h]
    simp
  | .choice branches, _, _, _, h => by
    rw [Piece.positions, choicePositions_marks_iff branches h]
    exact reaches_congr fun _ => Piece.matches_choice_iff.symm

/-- A shape takes the marks to the positions behind what has the shape. -/
theorem positions_marks_iff : ∀ (s : List Piece) {front back : Bytes} {mask : Mask},
    mask.length = (front ++ back).length + 1 →
      (Marks (positions s (front ++ back) mask) front ↔ Reaches mask front (Shape.Matches s))
  | [], front, _, mask, _ => by
    rw [positions]
    constructor
    · intro h
      exact ⟨front, [], (List.append_nil front).symm, h, .nil⟩
    · intro h
      obtain ⟨before, between, rfl, hmarks, hnil⟩ := h
      rw [Shape.matches_nil_iff.mp hnil, List.append_nil]
      exact hmarks
  | p :: rest, front, back, mask, h => by
    rw [positions, positions_marks_iff rest (p.length_positions h)]
    -- what is in front of the rest of the shape ends where `p` does
    constructor
    · intro hreaches
      obtain ⟨before, between, rfl, hmarks, hrest⟩ := hreaches
      rw [List.append_assoc] at h hmarks
      rw [Piece.positions_marks_iff p h] at hmarks
      obtain ⟨first, between', rfl, hfirst, hp⟩ := hmarks
      exact ⟨first, between' ++ between, List.append_assoc _ _ _, hfirst, .cons hp hrest⟩
    · intro hreaches
      obtain ⟨before, between, rfl, hmarks, hmatches⟩ := hreaches
      obtain ⟨first, last, rfl, hp, hrest⟩ := Shape.matches_cons_iff.mp hmatches
      refine ⟨before ++ first, last, (List.append_assoc _ _ _).symm, ?_, hrest⟩
      have hbytes : before ++ (first ++ last) ++ back = before ++ first ++ (last ++ back) := by
        simp only [List.append_assoc]
      rw [hbytes] at h ⊢
      exact (Piece.positions_marks_iff p h).mpr ⟨before, first, rfl, hmarks, hp⟩

theorem choicePositions_marks_iff : ∀ (branches : List (List Piece)) {front back : Bytes} {mask : Mask},
    mask.length = (front ++ back).length + 1 →
      (Marks (choicePositions branches (front ++ back) mask) front ↔
        Reaches mask front fun bytes => ∃ s ∈ branches, Shape.Matches s bytes)
  | [], _, _, _, _ => by
    rw [choicePositions]
    refine iff_of_false not_marks_map_false fun h => ?_
    obtain ⟨_, _, _, _, _, hs, _⟩ := h
    exact nomatch hs
  | s :: rest, _, _, _, h => by
    rw [choicePositions, marks_either_iff, positions_marks_iff s h,
      choicePositions_marks_iff rest h, ← reaches_or]
    refine reaches_congr fun bytes => ?_
    simp only [List.mem_cons, or_and_right, exists_or, exists_eq_left]

end

/-- Before anything is read only the first position is marked. -/
theorem marks_start_iff {bytes : Bytes} :
    Marks (true :: bytes.map fun _ => false) front ↔ front = [] := by
  cases front with
  | nil => exact iff_of_true (marks_cons_nil.mpr rfl) rfl
  | cons b front => exact iff_of_false not_marks_map_false (List.cons_ne_nil _ _)

/-- **The matcher decides shapes.** It accepts exactly the bytes that have the shape. -/
theorem accepts_iff {s : Shape} {bytes : Bytes} :
    accepts s bytes = true ↔ Shape.Matches s bytes := by
  have hstart : (true :: bytes.map fun _ => false : Mask).length = (bytes ++ []).length + 1 := by
    simp
  have hlength := length_positions s hstart
  have hmarks := positions_marks_iff s hstart
  rw [List.append_nil] at hlength hmarks
  have hlast : accepts s bytes = true ↔
      Marks (positions s bytes (true :: bytes.map fun _ => false)) bytes := by
    rw [accepts, List.getLastD_eq_getLast?, List.getLast?_eq_getElem?, hlength, Nat.add_sub_cancel,
      Marks]
    cases (positions s bytes (true :: bytes.map fun _ => false))[bytes.length]? <;> simp
  rw [hlast, hmarks]
  constructor
  · intro h
    obtain ⟨before, between, rfl, hbefore, hmatches⟩ := h
    rw [marks_start_iff.mp hbefore]
    exact hmatches
  · intro h
    exact ⟨[], bytes, rfl, marks_start_iff.mpr rfl, h⟩

end Provenance.Glob
