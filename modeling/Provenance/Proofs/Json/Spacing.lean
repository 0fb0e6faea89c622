import Provenance.Proofs.Json.Canonical
import Provenance.Text.Blank

/-!
# Canonical text has no blanks

Blanks inside a string belong to the string. `outsideStrings` goes over a text as a
scanner does, which knows only whether it is in a string and whether a backslash came
just before, and keeps the characters that are in none:

> `Plain.not_isBlank`: in a canonical text none of them is a blank.

A text is `Tight` if it leaves the scanner outside of strings, as it found it, and shows
no blank on the way. Strings are tight whatever is in them, since every quote and every
backslash in them is escaped (`outsideFrom_stringChar`), and the rest is marks and
digits.
-/

namespace Provenance.Json

/-! ## A scanner for strings -/

/-- Where a scanner is: outside of strings, in one, or in one behind a backslash. -/
inductive Place where
  | outside
  | inside
  | escaped

/-- The characters outside of strings, from a place on. -/
def outsideFrom : Place → List Char → List Char
  | _, [] => []
  | .outside, c :: rest =>
    if c = '"' then outsideFrom .inside rest else c :: outsideFrom .outside rest
  | .inside, c :: rest =>
    outsideFrom (if c = '"' then .outside else if c = '\\' then .escaped else .inside) rest
  | .escaped, _ :: rest => outsideFrom .inside rest

/-- The characters of a text that are in none of its strings. -/
def outsideStrings (text : String) : List Char := outsideFrom .outside text.toList

theorem outsideFrom_inside {c : Char} (hquote : c ≠ '"') (hbackslash : c ≠ '\\')
    (rest : List Char) : outsideFrom .inside (c :: rest) = outsideFrom .inside rest := by
  rw [outsideFrom, if_neg hquote, if_neg hbackslash]

theorem digitChar_ne {n : Nat} (hn : n < 16) :
    Nat.digitChar n ≠ '"' ∧ Nat.digitChar n ≠ '\\' := by
  have hall : ∀ m : Fin 16, Nat.digitChar m.val ≠ '"' ∧ Nat.digitChar m.val ≠ '\\' := by decide
  exact hall ⟨n, hn⟩

/-- Behind a character of a string, however it is written, the scanner is still inside. -/
theorem outsideFrom_stringChar (c : Char) (rest : List Char) :
    outsideFrom .inside (stringChar c ++ rest) = outsideFrom .inside rest := by
  unfold stringChar
  -- the characters with a one-letter escape
  by_cases hquote : c = '"'
  · subst hquote; rfl
  by_cases hbackslash : c = '\\'
  · subst hbackslash; rfl
  by_cases hline : c = '\n'
  · subst hline; rfl
  by_cases hreturn : c = '\r'
  · subst hreturn; rfl
  by_cases htab : c = '\t'
  · subst htab; rfl
  by_cases hback : c = '\x08'
  · subst hback; rfl
  by_cases hfeed : c = '\x0c'
  · subst hfeed; rfl
  rw [if_neg hquote, if_neg hbackslash, if_neg hline, if_neg hreturn, if_neg htab, if_neg hback,
    if_neg hfeed]
  by_cases hc : c.toNat < 32
  · have hhigh := digitChar_ne (show c.toNat / 16 < 16 by omega)
    have hlow := digitChar_ne (show c.toNat % 16 < 16 by omega)
    rw [if_pos hc]
    show outsideFrom .inside
      (Nat.digitChar (c.toNat / 16) :: Nat.digitChar (c.toNat % 16) :: rest) = _
    rw [outsideFrom_inside hhigh.1 hhigh.2, outsideFrom_inside hlow.1 hlow.2]
  · rw [if_neg hc]
    exact outsideFrom_inside hquote hbackslash rest

theorem outsideFrom_chars (rest : List Char) :
    ∀ chars : List Char, outsideFrom .inside (chars.flatMap stringChar ++ rest) =
      outsideFrom .inside rest
  | [] => rfl
  | c :: chars => by
    rw [List.flatMap_cons, List.append_assoc, outsideFrom_stringChar, outsideFrom_chars rest chars]

/-! ## Tight texts -/

/-- The text begins and ends outside of strings and has no blank there. -/
def Tight (chars : List Char) : Prop :=
  ∃ marks, (∀ c ∈ marks, Text.isBlank c = false) ∧
    ∀ rest, outsideFrom .outside (chars ++ rest) = marks ++ outsideFrom .outside rest

theorem tight_stringText (s : String) : Tight (stringText s) := by
  refine ⟨[], fun _ h => (nomatch h), fun rest => ?_⟩
  rw [stringText_append, outsideFrom, if_pos rfl, outsideFrom_chars]
  rfl

theorem tight_mark {c : Char} (hquote : c ≠ '"') (hblank : Text.isBlank c = false) : Tight [c] := by
  refine ⟨[c], fun d hd => ?_, fun rest => ?_⟩
  · rw [List.mem_singleton.mp hd]
    exact hblank
  · show outsideFrom .outside (c :: rest) = _
    rw [outsideFrom, if_neg hquote]
    rfl

theorem Tight.append {a b : List Char} (ha : Tight a) (hb : Tight b) : Tight (a ++ b) := by
  obtain ⟨marks, hmarks, ha⟩ := ha
  obtain ⟨marks', hmarks', hb⟩ := hb
  refine ⟨marks ++ marks', List.forall_mem_append.mpr ⟨hmarks, hmarks'⟩, fun rest => ?_⟩
  rw [List.append_assoc, ha, hb, List.append_assoc]

theorem Tight.cons {c : Char} {a : List Char} (hc : Tight [c]) (ha : Tight a) : Tight (c :: a) :=
  hc.append ha

theorem tight_nil : Tight [] := ⟨[], fun _ h => (nomatch h), fun _ => rfl⟩

theorem tight_digits : ∀ {digits : List Char}, (∀ c ∈ digits, isDigit c = true) → Tight digits
  | [], _ => tight_nil
  | c :: digits, h => by
    rw [List.forall_mem_cons] at h
    have hc := h.1
    rw [isDigit, Bool.and_eq_true, decide_eq_true_eq, decide_eq_true_eq] at hc
    refine .cons (tight_mark ?_ ?_) (tight_digits h.2)
    · rintro rfl
      exact absurd hc.1 (by decide)
    · simp only [Text.isBlank, Text.blankRanges, List.any_cons, List.any_nil, Bool.or_eq_false_iff,
        Bool.and_eq_false_iff, decide_eq_false_iff_not, and_true]
      omega

theorem tight_items : ∀ {items : List Json}, (∀ v ∈ items, Tight (canonicalChars v)) →
    Tight (canonicalItems items)
  | [], _ => tight_mark (by decide) (by decide)
  | [v], h => (h v List.mem_cons_self).append (tight_mark (by decide) (by decide))
  | v :: w :: rest, h => by
    rw [List.forall_mem_cons] at h
    show Tight (canonicalChars v ++ ',' :: canonicalItems (w :: rest))
    exact h.1.append (.cons (tight_mark (by decide) (by decide)) (tight_items h.2))

theorem tight_members : ∀ {members : List (String × Json)},
    (∀ m ∈ members, Tight (canonicalChars m.2)) → Tight (canonicalMembers members)
  | [], _ => tight_mark (by decide) (by decide)
  | [(name, v)], h => by
    have hv := h (name, v) List.mem_cons_self
    rw [canonicalMembers]
    exact (tight_stringText name).append (.cons (tight_mark (by decide) (by decide))
      (hv.append (tight_mark (by decide) (by decide))))
  | (name, v) :: m :: rest, h => by
    rw [List.forall_mem_cons] at h
    show Tight (stringText name ++ ':' :: (canonicalChars v ++ ',' :: canonicalMembers (m :: rest)))
    exact (tight_stringText name).append (.cons (tight_mark (by decide) (by decide))
      (h.1.append (.cons (tight_mark (by decide) (by decide)) (tight_members h.2))))

theorem Plain.tight {room : Nat} {v : Json} (h : Plain room v) : Tight (canonicalChars v) := by
  induction h with
  | str s => exact tight_stringText s
  | @count _ n hn =>
    show Tight (wholeText (Int.ofNat n))
    rw [wholeText_count hn]
    exact tight_digits fun c hc => isDigit_of_mem_toDigits hc
  | arr _ ih => exact .cons (tight_mark (by decide) (by decide)) (tight_items ih)
  | obj _ ih => exact .cons (tight_mark (by decide) (by decide)) (tight_members ih)

/-- A blank in a canonical text is in a string. -/
theorem Plain.not_isBlank {room : Nat} {v : Json} (h : Plain room v) :
    ∀ c ∈ outsideStrings v.canonical, Text.isBlank c = false := by
  obtain ⟨marks, hmarks, heq⟩ := h.sorted.tight
  have hall := heq []
  rw [List.append_nil, outsideFrom, List.append_nil] at hall
  rw [outsideStrings, canonical, String.toList_ofList, hall]
  exact hmarks

end Provenance.Json
