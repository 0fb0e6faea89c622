import Provenance.Json.Printer
import Provenance.Json.Reader

/-!
# The reader gives back what was written

`Writes` is the grammar of JSON texts, as far as documents use it: strings, truth
values, natural numbers, arrays and objects, with blanks wherever they may stand. How
a text was laid out makes no difference to the reader:

> `Writes.read?_eq`: a text of a value is read as that value.

So a value has many texts and a text has at most one value. The reader looks at a
text and at what follows it, hence every statement here is about a text in front
of some rest. Only a number could run into its rest; `Ends` says that it does not.
The reader counts two kinds of fuel: calls, of which a text needs at most twice its
length, and nesting, which `Writes` carries as the room that is left.
-/

namespace Provenance.Json

/-! ## Strings -/

theorem value?_digitChar {n : Nat} (h : n < 16) : Hex.value? (Nat.digitChar n) = some n := by
  have hall : ∀ m : Fin 16, Hex.value? (Nat.digitChar m.val) = some m.val := by decide
  exact hall ⟨n, h⟩

/-- A control character is written as a code unit, which is no half of a pair. -/
theorem stringBody_control {c : Char} (hc : c.toNat < 32) (fuel : Nat) (acc : List Char)
    (sound : Bool) (rest : List Char) :
    stringBody (fuel + 1) acc sound ('\\' :: 'u' :: '0' :: '0' :: Nat.digitChar (c.toNat / 16) ::
      Nat.digitChar (c.toNat % 16) :: rest) = stringBody fuel (c :: acc) sound rest := by
  have hunit : codeUnit? ('0' :: '0' :: Nat.digitChar (c.toNat / 16) ::
      Nat.digitChar (c.toNat % 16) :: rest) = some (c.toNat, rest) := by
    have hzero : Hex.value? '0' = some 0 := rfl
    have hhigh := value?_digitChar (show c.toNat / 16 < 16 by omega)
    have hlow := value?_digitChar (show c.toNat % 16 < 16 by omega)
    have hsum : 0 * 4096 + 0 * 256 + c.toNat / 16 * 16 + c.toNat % 16 = c.toNat := by omega
    simp only [codeUnit?, hzero, hhigh, hlow, Option.bind_eq_bind, Option.bind_some, hsum,
      Option.pure_def]
  have hhigh : isHighSurrogate c.toNat = false := by
    rw [isHighSurrogate, Bool.and_eq_false_iff, decide_eq_false_iff_not]
    omega
  have hlow : isLowSurrogate c.toNat = false := by
    rw [isLowSurrogate, Bool.and_eq_false_iff, decide_eq_false_iff_not]
    omega
  rw [stringBody]
  simp only [hunit, hhigh, hlow, Bool.false_eq_true, if_false, Char.ofNat_toNat]

/-- A character is read back from the way it is written, whichever that is. -/
theorem stringBody_stringChar (c : Char) (fuel : Nat) (acc : List Char) (sound : Bool)
    (rest : List Char) :
    stringBody (fuel + 1) acc sound (stringChar c ++ rest) =
      stringBody fuel (c :: acc) sound rest := by
  unfold stringChar
  -- the characters with a one-letter escape
  by_cases hquote : c = '"'
  · subst hquote; rfl
  by_cases hbackslash : c = '\\'
  · subst hbackslash; rfl
  by_cases hline : c = '\n'
  · subst hline; rfl
  by_cases hreturn : c = '\r'
  · subst hreturn; rfl
  by_cases htab : c = '\t'
  · subst htab; rfl
  by_cases hback : c = '\x08'
  · subst hback; rfl
  by_cases hfeed : c = '\x0c'
  · subst hfeed; rfl
  rw [if_neg hquote, if_neg hbackslash, if_neg hline, if_neg hreturn, if_neg htab, if_neg hback,
    if_neg hfeed]
  by_cases hc : c.toNat < 32
  · rw [if_pos hc]
    exact stringBody_control hc fuel acc sound rest
  · rw [if_neg hc]
    show stringBody (fuel + 1) acc sound (c :: rest) = _
    rw [stringBody]
    · exact if_neg hc
    · exact hquote
    · intro _ h
      exact absurd h hbackslash
    · intro _ _ h
      exact absurd h hbackslash

theorem length_stringChar_pos (c : Char) : 0 < (stringChar c).length := by
  unfold stringChar
  repeat' split
  all_goals simp

theorem stringBody_chars (rest : List Char) :
    ∀ (chars : List Char) {fuel : Nat} {acc : List Char},
      (chars.flatMap stringChar).length < fuel →
      stringBody fuel acc true (chars.flatMap stringChar ++ '"' :: rest) =
        some (some (String.ofList (acc.reverse ++ chars)), rest)
  | [], fuel, acc, hfuel => by
    obtain ⟨fuel, rfl⟩ := Nat.exists_eq_succ_of_ne_zero (Nat.ne_of_gt hfuel)
    rw [List.append_nil]
    rfl
  | c :: chars, fuel, acc, hfuel => by
    rw [List.flatMap_cons, List.length_append] at hfuel
    have hpos := length_stringChar_pos c
    obtain ⟨fuel, rfl⟩ := Nat.exists_eq_succ_of_ne_zero (show fuel ≠ 0 by omega)
    rw [List.flatMap_cons, List.append_assoc, stringBody_stringChar,
      stringBody_chars rest chars (by omega), List.reverse_cons, List.append_assoc]
    rfl

/-- What follows the opening quote of a string is read as the string. -/
theorem stringBody_string (s : String) (rest : List Char) :
    stringBody ((s.toList.flatMap stringChar ++ '"' :: rest).length + 1) [] true
      (s.toList.flatMap stringChar ++ '"' :: rest) = some (some s, rest) := by
  rw [stringBody_chars rest s.toList (by rw [List.length_append]; omega), List.reverse_nil,
    List.nil_append, String.ofList_toList]

theorem stringText_append (s : String) (rest : List Char) :
    stringText s ++ rest = '"' :: (s.toList.flatMap stringChar ++ '"' :: rest) := by
  rw [stringText, List.cons_append, List.append_assoc]
  rfl

/-! ## Numbers -/

/-- A number in front of this text ends here. -/
def Ends (rest : List Char) : Prop :=
  ∀ c ∈ rest.head?, isDigit c = false ∧ c ≠ '.' ∧ c ≠ 'e' ∧ c ≠ 'E'

theorem isDigit_of_isDigit {c : Char} (h : c.isDigit = true) : isDigit c = true := by
  rw [Char.isDigit, Bool.and_eq_true, decide_eq_true_eq, decide_eq_true_eq] at h
  rw [isDigit, Bool.and_eq_true, decide_eq_true_eq, decide_eq_true_eq]
  exact h

theorem isDigit_of_mem_toDigits {n : Nat} {c : Char} (h : c ∈ Nat.toDigits 10 n) :
    isDigit c = true :=
  isDigit_of_isDigit (Nat.isDigit_of_mem_toDigits (by omega) (by omega) h)

theorem takeWhile_digits {digits rest : List Char} (hd : ∀ c ∈ digits, isDigit c = true)
    (hr : Ends rest) : (digits ++ rest).takeWhile isDigit = digits ∧
      (digits ++ rest).dropWhile isDigit = rest := by
  rw [List.takeWhile_append_of_pos hd, List.dropWhile_append_of_pos hd]
  cases rest with
  | nil => simp
  | cons c rest =>
    have hc : isDigit c = false := (hr c rfl).1
    simp [hc]

/-- No number but zero starts with the digit zero. -/
theorem head?_toDigits_ne_zero : ∀ {n : Nat}, 0 < n → (Nat.toDigits 10 n).head? ≠ some '0'
  | n, hn => by
    by_cases hsmall : n < 10
    · rw [Nat.toDigits_of_lt_base hsmall]
      have hall : ∀ m : Fin 10, 0 < m.val → [m.val.digitChar].head? ≠ some '0' := by decide
      exact hall ⟨n, hsmall⟩ hn
    · have hlarge : 10 ≤ n := by omega
      have hhead := head?_toDigits_ne_zero (show 0 < n / 10 by omega)
      rw [Nat.toDigits_of_base_le (by omega) hlarge]
      cases hd : Nat.toDigits 10 (n / 10) with
      | nil => exact absurd hd Nat.toDigits_ne_nil
      | cons d ds =>
        rw [hd] at hhead
        exact hhead

theorem wholeDigits?_toDigits (n : Nat) {rest : List Char} (hr : Ends rest) :
    wholeDigits? (Nat.toDigits 10 n ++ rest) = some (Nat.toDigits 10 n, rest) := by
  obtain ⟨htake, hdrop⟩ := takeWhile_digits (fun c => isDigit_of_mem_toDigits (n := n) (c := c)) hr
  unfold wholeDigits?
  simp only [htake, hdrop]
  -- a zero in front would make the reader refuse all further digits
  by_cases hzero : n = 0
  · subst hzero
    rfl
  · have hhead := head?_toDigits_ne_zero (Nat.pos_of_ne_zero hzero)
    cases hd : Nat.toDigits 10 n with
    | nil => exact absurd hd Nat.toDigits_ne_nil
    | cons d ds =>
      rw [hd] at hhead
      have hne : d ≠ '0' := fun h => hhead (congrArg some h)
      split
      · next h => exact nomatch h
      · next h =>
        injection h with h _
        exact absurd h hne
      · rfl

theorem digitsNat_toDigits (n : Nat) : digitsNat (Nat.toDigits 10 n) = n := by
  have hstep : (fun (m : Nat) (c : Char) => m * 10 + (c.toNat - 48)) =
      fun m c => 10 * m + (c.toNat - '0'.toNat) := by
    funext m c
    rw [Nat.mul_comm]
    rfl
  rw [digitsNat, hstep, ← Nat.ofDigitChars_eq_foldl, Nat.ofDigitChars_ten_toDigits]

theorem toList_toString (n : Nat) : (toString n).toList = Nat.toDigits 10 n := by
  rw [Nat.toString_eq_ofList_toDigits, String.toList_ofList]

theorem unsigned?_toDigits {n : Nat} (hn : n < Nat.pow 2 64) {rest : List Char} (hr : Ends rest) :
    unsigned? false (Nat.toDigits 10 n ++ rest) = some (.int n, rest) := by
  have hfraction : fractionDigits? rest = some (none, rest) := by
    cases rest with
    | nil => rfl
    | cons c rest =>
      have hc : c ≠ '.' := (hr c rfl).2.1
      unfold fractionDigits?
      split
      · next h =>
        injection h with h _
        exact absurd h hc
      · rfl
  have hexponent : exponent? rest = some (none, rest) := by
    cases rest with
    | nil => rfl
    | cons c rest =>
      obtain ⟨_, _, he, hE⟩ := hr c rfl
      simp [exponent?, he, hE]
  unfold unsigned?
  simp only [wholeDigits?_toDigits n hr, hfraction, hexponent, Option.bind_eq_bind,
    Option.bind_some, digitsNat_toDigits, wholeValue, Bool.false_eq_true, if_false, if_pos hn,
    Option.pure_def]

theorem value?_digits {c : Char} (hc : isDigit c = true) (fuel depth : Nat) (rest : List Char) :
    value? (fuel + 1) depth (c :: rest) = unsigned? false (c :: rest) := by
  rw [isDigit, Bool.and_eq_true, decide_eq_true_eq, decide_eq_true_eq] at hc
  -- no digit starts one of the other kinds of value; there are ten to look at
  obtain ⟨m, hm⟩ : ∃ m : Fin 10, c = Char.ofNat (48 + m.val) := by
    refine ⟨⟨c.toNat - 48, by omega⟩, ?_⟩
    show c = Char.ofNat (48 + (c.toNat - 48))
    rw [Nat.add_sub_of_le hc.1, Char.ofNat_toNat]
  clear hc
  subst hm
  match m with
  | 0 | 1 | 2 | 3 | 4 | 5 | 6 | 7 | 8 | 9 => rfl

/-! ## The grammar -/

/-- Blanks, as they may stand between tokens. -/
def Blanks (b : List Char) : Prop := ∀ c ∈ b, isBlank c = true

mutual

/-- A text of the value, which nests at most `room` arrays and objects. -/
inductive Writes : (room : Nat) → Json → List Char → Prop
  | str {room} (s : String) : Writes room (.str s) (stringText s)
  | bool {room} (b : Bool) : Writes room (.bool b) (scalarText (.bool b))
  | nat {room n} : n < Nat.pow 2 64 → Writes room (.int (Int.ofNat n)) (Nat.toDigits 10 n)
  | noItems {room b} : Blanks b → Writes (room + 1) (.arr []) ('[' :: (b ++ [']']))
  | arr {room items b t} : Blanks b → WritesItems room items t →
      Writes (room + 1) (.arr items) ('[' :: (b ++ t))
  | noMembers {room b} : Blanks b → Writes (room + 1) (.obj []) ('\x7b' :: (b ++ ['\x7d']))
  | obj {room members b t} : Blanks b → WritesMembers room members t →
      Writes (room + 1) (.obj members) ('\x7b' :: (b ++ t))

/-- A text of some items, at least one, with the closing bracket. -/
inductive WritesItems : (room : Nat) → List Json → List Char → Prop
  | last {room v t b} : Writes room v t → Blanks b → WritesItems room [v] (t ++ (b ++ [']']))
  | more {room v t b b' rest u} : Writes room v t → Blanks b → Blanks b' →
      WritesItems room rest u → WritesItems room (v :: rest) (t ++ (b ++ ',' :: (b' ++ u)))

/-- A text of some members, at least one, with the closing brace. -/
inductive WritesMembers : (room : Nat) → List (String × Json) → List Char → Prop
  | last {room name v t a b} : Writes room v t → Blanks a → Blanks b →
      WritesMembers room [(name, v)] (stringText name ++ ':' :: (a ++ (t ++ (b ++ ['\x7d']))))
  | more {room name v t a b b' rest u} : Writes room v t → Blanks a → Blanks b → Blanks b' →
      WritesMembers room rest u →
      WritesMembers room ((name, v) :: rest)
        (stringText name ++ ':' :: (a ++ (t ++ (b ++ ',' :: (b' ++ u)))))

end

theorem noBlanks : Blanks [] := fun _ h => nomatch h

/-- However the items are set apart, what is laid out item by item is a text of them. -/
theorem writesItems_of {room : Nat} {write : Json → List Char} {text : List Json → List Char}
    {a b : List Char} (ha : Blanks a) (hb : Blanks b)
    (hlast : ∀ v, text [v] = write v ++ (b ++ [']']))
    (hmore : ∀ v w rest, text (v :: w :: rest) = write v ++ ',' :: (a ++ text (w :: rest))) :
    ∀ {items : List Json}, items ≠ [] → (∀ v ∈ items, Writes room v (write v)) →
      WritesItems room items (text items)
  | [v], _, h => by
    rw [hlast]
    exact .last (h v List.mem_cons_self) hb
  | v :: w :: rest, _, h => by
    rw [hmore]
    exact .more (h v List.mem_cons_self) noBlanks ha
      (writesItems_of ha hb hlast hmore (by simp) fun u hu => h u (List.mem_cons_of_mem _ hu))

theorem writesMembers_of {room : Nat} {write : Json → List Char}
    {text : List (String × Json) → List Char} {a b c : List Char} (ha : Blanks a) (hb : Blanks b)
    (hc : Blanks c)
    (hlast : ∀ n v, text [(n, v)] = stringText n ++ ':' :: (c ++ (write v ++ (b ++ ['\x7d']))))
    (hmore : ∀ n v m rest, text ((n, v) :: m :: rest) =
      stringText n ++ ':' :: (c ++ (write v ++ ',' :: (a ++ text (m :: rest))))) :
    ∀ {members : List (String × Json)}, members ≠ [] →
      (∀ m ∈ members, Writes room m.2 (write m.2)) → WritesMembers room members (text members)
  | [(n, v)], _, h => by
    rw [hlast]
    exact .last (h (n, v) List.mem_cons_self) hc hb
  | (n, v) :: m :: rest, _, h => by
    rw [hmore]
    exact .more (h (n, v) List.mem_cons_self) hc noBlanks ha
      (writesMembers_of ha hb hc hlast hmore (by simp) fun u hu =>
        h u (List.mem_cons_of_mem _ hu))

theorem skipBlanks_append {b rest : List Char} (hb : Blanks b) {c : Char} (hc : isBlank c = false) :
    skipBlanks (b ++ c :: rest) = c :: rest := by
  induction b with
  | nil => simp [skipBlanks, hc]
  | cons d b ih =>
    have hd : isBlank d = true := hb d List.mem_cons_self
    rw [List.cons_append, skipBlanks, if_pos hd]
    exact ih fun e he => hb e (List.mem_cons_of_mem _ he)

theorem ends_append {b rest : List Char} (hb : Blanks b) {c : Char} (hc : Ends (c :: rest)) :
    Ends (b ++ c :: rest) := by
  cases b with
  | nil => exact hc
  | cons d b =>
    intro e he
    obtain rfl := Option.some.inj he
    have hd : isBlank d = true := hb d List.mem_cons_self
    simp only [isBlank, Bool.or_eq_true, decide_eq_true_eq] at hd
    -- a blank ends a number as well as any punctuation
    rcases hd with ((h | h) | h) | h <;> subst h <;> decide

theorem ends_of_punctuation {c : Char} (hc : c = ',' ∨ c = ']' ∨ c = '\x7d') (rest : List Char) :
    Ends (c :: rest) := by
  intro d hd
  obtain rfl := Option.some.inj hd
  rcases hc with h | h | h <;> subst h <;> decide

/-- Neither a blank nor a closing bracket starts a value. -/
theorem Writes.exists_head {room : Nat} {v : Json} {t : List Char} (h : Writes room v t) :
    ∃ c u, t = c :: u ∧ isBlank c = false ∧ c ≠ ']' := by
  cases h with
  | str s => exact ⟨_, _, rfl, by decide, by decide⟩
  | bool b => cases b <;> exact ⟨_, _, rfl, by decide, by decide⟩
  | @nat _ n hn =>
    cases hd : Nat.toDigits 10 n with
    | nil => exact absurd hd Nat.toDigits_ne_nil
    | cons d ds =>
      have hdigit : isDigit d = true := isDigit_of_mem_toDigits (hd ▸ List.mem_cons_self)
      refine ⟨d, ds, rfl, ?_, ?_⟩
      · cases hb : isBlank d with
        | false => rfl
        | true =>
          simp only [isBlank, Bool.or_eq_true, decide_eq_true_eq] at hb
          rcases hb with ((h | h) | h) | h <;> subst h <;> exact absurd hdigit (by decide)
      · intro h
        subst h
        exact absurd hdigit (by decide)
  | noItems _ => exact ⟨_, _, rfl, by decide, by decide⟩
  | arr _ _ => exact ⟨_, _, rfl, by decide, by decide⟩
  | noMembers _ => exact ⟨_, _, rfl, by decide, by decide⟩
  | obj _ _ => exact ⟨_, _, rfl, by decide, by decide⟩

theorem WritesItems.exists_head {room : Nat} {items : List Json} {t : List Char}
    (h : WritesItems room items t) : ∃ c u, t = c :: u ∧ isBlank c = false ∧ c ≠ ']' := by
  cases h with
  | last hv _ =>
    obtain ⟨c, u, rfl, hc⟩ := hv.exists_head
    exact ⟨c, _, rfl, hc⟩
  | more hv _ _ _ =>
    obtain ⟨c, u, rfl, hc⟩ := hv.exists_head
    exact ⟨c, _, rfl, hc⟩

theorem WritesMembers.exists_head {room : Nat} {members : List (String × Json)} {t : List Char}
    (h : WritesMembers room members t) : ∃ u, t = '"' :: u := by
  cases h with
  | last _ _ _ => exact ⟨_, rfl⟩
  | more _ _ _ _ _ => exact ⟨_, rfl⟩

/-! ## Reading -/

theorem value?_bracket {s rest : List Char} {c : Char} (hs : skipBlanks s = c :: rest)
    (hc : c ≠ ']') (fuel depth : Nat) : value? (fuel + 1) depth ('[' :: s) =
      (items? fuel (depth + 1) [] (c :: rest)).map fun p => (kept depth p.1, p.2) := by
  rw [value?, hs]
  split
  · next h =>
    injection h with h _
    exact absurd h hc
  · cases items? fuel (depth + 1) [] (c :: rest) <;> rfl

theorem value?_brace {s rest : List Char} (hs : skipBlanks s = '"' :: rest) (fuel depth : Nat) :
    value? (fuel + 1) depth ('\x7b' :: s) =
      (members? fuel (depth + 1) true [] ('"' :: rest)).map fun p => (kept depth p.1, p.2) := by
  rw [value?, hs]
  cases hm : members? fuel (depth + 1) true [] ('"' :: rest) with
  | none => simp [hm]
  | some p => simp [hm, kept]

/-- The reader behind the value of a member. -/
theorem members?_member {s rest : List Char} {fuel depth : Nat} {v : Json}
    (hv : value? fuel depth (skipBlanks s) = some (v, rest)) (name : String)
    (acc : List (String × Json)) :
    members? (fuel + 1) depth true acc (stringText name ++ ':' :: s) =
      match skipBlanks rest with
      | '\x7d' :: rest => some (.obj ((name, v) :: acc).reverse, rest)
      | ',' :: rest => members? fuel depth true ((name, v) :: acc) (skipBlanks rest)
      | _ => none := by
  have hcolon : skipBlanks (':' :: s) = ':' :: s := rfl
  rw [stringText_append, members?, stringBody_string]
  simp only [hcolon, hv]
  rfl

mutual

theorem Writes.value?_eq {room : Nat} {v : Json} {t : List Char} (h : Writes room v t)
    {fuel depth : Nat} {rest : List Char} (hdepth : depth + room ≤ maxDepth)
    (hfuel : 2 * t.length ≤ fuel) (hr : Ends rest) :
    value? fuel depth (t ++ rest) = some (v, rest) := by
  obtain ⟨c, u, ht, _⟩ := h.exists_head
  obtain ⟨fuel, rfl⟩ : ∃ n, fuel = n + 1 := by
    rw [ht, List.length_cons] at hfuel
    exact ⟨fuel - 1, by omega⟩
  -- one call is spent here, and the rest is enough for the parts
  clear ht
  cases h with
  | str s =>
    rw [stringText_append, value?, stringBody_string]
  | bool b => cases b <;> rfl
  | @nat _ n hn =>
    cases hd : Nat.toDigits 10 n with
    | nil => exact absurd hd Nat.toDigits_ne_nil
    | cons d ds =>
      rw [List.cons_append, value?_digits (isDigit_of_mem_toDigits (hd ▸ List.mem_cons_self)),
        ← List.cons_append, ← hd, unsigned?_toDigits hn hr]
      rfl
  | @noItems room b hb =>
    rw [List.cons_append, List.append_assoc, List.singleton_append, value?,
      skipBlanks_append hb (by decide)]
    show some (kept depth (.arr []), rest) = _
    rw [kept, if_pos (by omega)]
  | @arr room items b t hb hitems =>
    obtain ⟨c, u, ht, hblank, hne⟩ := hitems.exists_head
    have hskip : skipBlanks (b ++ (t ++ rest)) = c :: (u ++ rest) := by
      rw [ht, List.cons_append, skipBlanks_append hb hblank]
    rw [List.length_cons, List.length_append] at hfuel
    rw [List.cons_append, List.append_assoc, value?_bracket hskip hne, ← List.cons_append, ← ht,
      hitems.items?_eq (by omega) (by omega)]
    show some (kept depth (.arr items), rest) = _
    rw [kept, if_pos (by omega)]
  | @noMembers room b hb =>
    rw [List.cons_append, List.append_assoc, List.singleton_append, value?,
      skipBlanks_append hb (by decide)]
    show some (kept depth (.obj []), rest) = _
    rw [kept, if_pos (by omega)]
  | @obj room members b t hb hmembers =>
    obtain ⟨u, ht⟩ := hmembers.exists_head
    have hskip : skipBlanks (b ++ (t ++ rest)) = '"' :: (u ++ rest) := by
      rw [ht, List.cons_append, skipBlanks_append hb (by decide)]
    rw [List.length_cons, List.length_append] at hfuel
    rw [List.cons_append, List.append_assoc, value?_brace hskip, ← List.cons_append, ← ht,
      hmembers.members?_eq (by omega) (by omega)]
    show some (kept depth (.obj members), rest) = _
    rw [kept, if_pos (by omega)]

theorem WritesItems.items?_eq {room : Nat} {items : List Json} {t : List Char}
    (h : WritesItems room items t) {fuel depth : Nat} {acc : List Json} {rest : List Char}
    (hdepth : depth + room ≤ maxDepth) (hfuel : 2 * t.length ≤ fuel) :
    items? fuel depth acc (t ++ rest) = some (.arr (acc.reverse ++ items), rest) := by
  cases h with
  | @last _ v t b hv hb =>
    simp only [List.length_append, List.length_cons] at hfuel
    obtain ⟨fuel, rfl⟩ : ∃ n, fuel = n + 1 := ⟨fuel - 1, by omega⟩
    have hends := ends_append hb (ends_of_punctuation (.inr (.inl rfl)) rest)
    rw [List.append_assoc, List.append_assoc, List.singleton_append, items?,
      hv.value?_eq hdepth (by omega) hends]
    dsimp only
    rw [skipBlanks_append hb (by decide), List.reverse_cons]
    rfl
  | @more _ v t b b' others u hv hb hb' hothers =>
    simp only [List.length_append, List.length_cons] at hfuel
    obtain ⟨fuel, rfl⟩ : ∃ n, fuel = n + 1 := ⟨fuel - 1, by omega⟩
    obtain ⟨c, u', hu, hblank, _⟩ := hothers.exists_head
    have hskip : skipBlanks (b' ++ (u ++ rest)) = u ++ rest := by
      rw [hu, List.cons_append, skipBlanks_append hb' hblank]
    have hends := ends_append hb (ends_of_punctuation (.inl rfl) (b' ++ (u ++ rest)))
    rw [List.append_assoc, List.append_assoc, List.cons_append, List.append_assoc, items?,
      hv.value?_eq hdepth (by omega) hends]
    dsimp only
    rw [skipBlanks_append hb (by decide)]
    show items? fuel depth (v :: acc) (skipBlanks (b' ++ (u ++ rest))) = _
    rw [hskip, hothers.items?_eq hdepth (by omega), List.reverse_cons, List.append_assoc]
    rfl

theorem WritesMembers.members?_eq {room : Nat} {members : List (String × Json)} {t : List Char}
    (h : WritesMembers room members t) {fuel depth : Nat} {acc : List (String × Json)}
    {rest : List Char} (hdepth : depth + room ≤ maxDepth) (hfuel : 2 * t.length ≤ fuel) :
    members? fuel depth true acc (t ++ rest) = some (.obj (acc.reverse ++ members), rest) := by
  cases h with
  | @last _ name v t a b hv ha hb =>
    simp only [List.length_append, List.length_cons] at hfuel
    obtain ⟨fuel, rfl⟩ : ∃ n, fuel = n + 1 := ⟨fuel - 1, by omega⟩
    obtain ⟨c, u, ht, hblank, _⟩ := hv.exists_head
    have hends := ends_append hb (ends_of_punctuation (.inr (.inr rfl)) rest)
    have hvalue : value? fuel depth (skipBlanks (a ++ (t ++ (b ++ '\x7d' :: rest)))) =
        some (v, b ++ '\x7d' :: rest) := by
      rw [ht, List.cons_append, skipBlanks_append ha hblank, ← List.cons_append, ← ht]
      exact hv.value?_eq hdepth (by omega) hends
    rw [List.append_assoc, List.cons_append, List.append_assoc, List.append_assoc,
      List.append_assoc, List.singleton_append, members?_member hvalue,
      skipBlanks_append hb (by decide), List.reverse_cons]
    rfl
  | @more _ name v t a b b' others u hv ha hb hb' hothers =>
    simp only [List.length_append, List.length_cons] at hfuel
    obtain ⟨fuel, rfl⟩ : ∃ n, fuel = n + 1 := ⟨fuel - 1, by omega⟩
    obtain ⟨c, w, ht, hblank, _⟩ := hv.exists_head
    obtain ⟨u', hu⟩ := hothers.exists_head
    have hskip : skipBlanks (b' ++ (u ++ rest)) = u ++ rest := by
      rw [hu, List.cons_append, skipBlanks_append hb' (by decide)]
    have hends := ends_append hb (ends_of_punctuation (.inl rfl) (b' ++ (u ++ rest)))
    have hvalue : value? fuel depth (skipBlanks (a ++ (t ++ (b ++ ',' :: (b' ++ (u ++ rest)))))) =
        some (v, b ++ ',' :: (b' ++ (u ++ rest))) := by
      rw [ht, List.cons_append, skipBlanks_append ha hblank, ← List.cons_append, ← ht]
      exact hv.value?_eq hdepth (by omega) hends
    rw [List.append_assoc, List.cons_append, List.append_assoc, List.append_assoc,
      List.append_assoc, List.cons_append, List.append_assoc, members?_member hvalue,
      skipBlanks_append hb (by decide)]
    show members? fuel depth true ((name, v) :: acc) (skipBlanks (b' ++ (u ++ rest))) = _
    rw [hskip, hothers.members?_eq hdepth (by omega), List.reverse_cons, List.append_assoc]
    rfl

end

/-- A text of a value that does not nest too deep is read as the value. -/
theorem Writes.read?_eq {v : Json} {t : List Char} (h : Writes maxDepth v t) :
    read? (String.ofList t) = some v := by
  obtain ⟨c, u, ht, hblank, _⟩ := h.exists_head
  have hskip : skipBlanks t = t := by
    rw [ht, skipBlanks, if_neg (by rw [hblank]; decide)]
  have hv : value? (2 * t.length + 2) 0 (t ++ []) = some (v, []) :=
    h.value?_eq (by omega) (by omega) (fun _ h => nomatch h)
  rw [List.append_nil] at hv
  simp only [read?, String.toList_ofList, hskip, hv]
  rfl

end Provenance.Json
