import Mathlib.Data.List.Forall2

/-!
# Checks that stop at the first fault

Layouts, key rings and approvals are checked by loops that return the error of
the first entry at fault. `each` is that loop for any check, and

> `each_eq_ok_iff`: it passes iff every entry does;
>
> `each_eq_error_iff`: it fails with `e` iff `FirstError`, that is, some entry
> fails with `e` and all entries before it pass.

Entries that are read and not only checked give a list, entry by entry (`mapM_eq_ok_iff`).

The lemmas about `bind` and `mapError` take a sequence of checks apart into its
members.
-/

namespace Provenance.Checks

variable {α β ε ε' : Type}

/-! ## One check after another -/

theorem bind_eq_ok_iff {x : Except ε α} {f : α → Except ε β} {b : β} :
    (x >>= f) = .ok b ↔ ∃ a, x = .ok a ∧ f a = .ok b := by
  cases x with
  | error e =>
    constructor
    · intro h
      exact nomatch h
    · intro h
      obtain ⟨_, h, _⟩ := h
      exact nomatch h
  | ok a =>
    constructor
    · intro h
      exact ⟨a, rfl, h⟩
    · intro h
      obtain ⟨_, h, hf⟩ := h
      injection h with h
      subst h
      exact hf

theorem bind_eq_ok {x : Except ε α} {f : α → Except ε β} {a : α} {b : β} (hx : x = .ok a)
    (hf : f a = .ok b) : (x >>= f) = .ok b :=
  bind_eq_ok_iff.mpr ⟨a, hx, hf⟩

/-- A check in front of a computation passes unless its condition holds. -/
theorem guard_eq_ok_iff {c : Prop} [Decidable c] {e : ε} {x : Except ε α} {a : α} :
    (if c then .error e else x) = .ok a ↔ ¬c ∧ x = .ok a := by
  by_cases h : c <;> simp [h]

/-- What every outcome has after the second check, an outcome of both has. -/
theorem forall_bind {P : β → Prop} {x : Except ε α} {f : α → Except ε β}
    (h : ∀ a, x = .ok a → ∀ b, f a = .ok b → P b) : ∀ b, (x >>= f) = .ok b → P b := by
  intro b hb
  obtain ⟨a, ha, hb⟩ := bind_eq_ok_iff.mp hb
  exact h a ha b hb

theorem forall_pure {P : α → Prop} {a : α} (h : P a) :
    ∀ b, (pure a : Except ε α) = .ok b → P b := by
  intro b hb
  injection hb with hb
  rwa [← hb]

theorem bind_eq_error_iff {x : Except ε α} {f : α → Except ε β} {e : ε} :
    (x >>= f) = .error e ↔ x = .error e ∨ ∃ a, x = .ok a ∧ f a = .error e := by
  cases x with
  | error e' =>
    constructor
    · intro h
      injection h with h
      exact .inl (by rw [h])
    · intro h
      rcases h with h | ⟨_, h, _⟩
      · injection h with h
        rw [h]
        rfl
      · exact nomatch h
  | ok a =>
    constructor
    · intro h
      exact .inr ⟨a, rfl, h⟩
    · intro h
      rcases h with h | ⟨_, h, hf⟩
      · exact nomatch h
      · injection h with h
        subst h
        exact hf

@[simp] theorem mapError_ok (a : α) (f : ε → ε') : (Except.ok a : Except ε α).mapError f = .ok a :=
  rfl

@[simp] theorem mapError_error (cause : ε) (f : ε → ε') :
    (Except.error cause : Except ε α).mapError f = .error (f cause) :=
  rfl

theorem mapError_eq_ok_iff {x : Except ε α} {f : ε → ε'} {a : α} :
    x.mapError f = .ok a ↔ x = .ok a := by
  cases x <;> simp

theorem mapError_eq_error_iff {x : Except ε α} {f : ε → ε'} {e : ε'} :
    x.mapError f = .error e ↔ ∃ cause, x = .error cause ∧ e = f cause := by
  cases x <;> simp [eq_comm]

/-- What every error of both checks has, an error of the sequence has. -/
theorem forall_error_bind {P : ε → Prop} {x : Except ε α} {f : α → Except ε β}
    (hx : ∀ e, x = .error e → P e) (hf : ∀ a, x = .ok a → ∀ e, f a = .error e → P e) :
    ∀ e, (x >>= f) = .error e → P e := by
  intro e he
  rcases bind_eq_error_iff.mp he with he | ⟨a, ha, he⟩
  · exact hx e he
  · exact hf a ha e he

theorem forall_error_mapError {P : ε' → Prop} {x : Except ε α} {f : ε → ε'}
    (h : ∀ cause, P (f cause)) : ∀ e, x.mapError f = .error e → P e := by
  intro e he
  obtain ⟨cause, _, rfl⟩ := mapError_eq_error_iff.mp he
  exact h cause

theorem map_eq_ok_iff {x : Except ε α} {f : α → β} {b : β} :
    x.map f = .ok b ↔ ∃ a, x = .ok a ∧ f a = b := by
  cases x <;> simp [Except.map]

/-! ## Outcomes without their errors -/

theorem toOption_map (x : Except ε α) (f : α → β) :
    (x.map f).toOption = x.toOption.map f := by
  cases x <;> rfl

theorem toOption_bind (x : Except ε α) (f : α → Except ε β) :
    (x >>= f).toOption = x.toOption.bind fun a => (f a).toOption := by
  cases x <;> rfl

theorem toOption_mapError (x : Except ε α) (f : ε → ε') :
    (x.mapError f).toOption = x.toOption := by
  cases x <;> rfl

/-- The outcomes are the same up to their errors. -/
theorem toOption_eq_iff {x : Except ε α} {y : Except ε' α} :
    x.toOption = y.toOption ↔
      (∃ a, x = .ok a ∧ y = .ok a) ∨ ∃ e e', x = .error e ∧ y = .error e' := by
  cases x <;> cases y <;> simp [Except.toOption, eq_comm]

/-! ## One entry after another -/

/-- A check of every entry, up to the first that fails. -/
def each (check : α → Except ε Unit) : List α → Except ε Unit
  | [] => .ok ()
  | a :: rest => do
    check a
    each check rest

/-- Some entry fails with `e` and all entries before it pass. -/
def FirstError (check : α → Except ε Unit) (l : List α) (e : ε) : Prop :=
  ∃ before a after, l = before ++ a :: after ∧ (∀ b ∈ before, check b = .ok ()) ∧
    check a = .error e

theorem each_eq_ok_iff {check : α → Except ε Unit} {l : List α} :
    each check l = .ok () ↔ ∀ a ∈ l, check a = .ok () := by
  induction l with
  | nil => simp [each]
  | cons a rest ih =>
    rw [each, bind_eq_ok_iff, List.forall_mem_cons]
    constructor
    · intro h
      obtain ⟨⟨⟩, ha, hrest⟩ := h
      exact ⟨ha, ih.mp hrest⟩
    · intro h
      obtain ⟨ha, hrest⟩ := h
      exact ⟨(), ha, ih.mpr hrest⟩

theorem firstError_cons_iff {check : α → Except ε Unit} {a : α} {rest : List α} {e : ε} :
    FirstError check (a :: rest) e ↔
      check a = .error e ∨ (check a = .ok () ∧ FirstError check rest e) := by
  constructor
  · intro h
    obtain ⟨before, b, after, hl, hbefore, hb⟩ := h
    -- the fault is the first entry, or it comes later and that one passes
    cases before with
    | nil =>
      injection hl with hab _
      exact .inl (hab ▸ hb)
    | cons c before =>
      injection hl with hac hrest
      rw [List.forall_mem_cons] at hbefore
      exact .inr ⟨hac ▸ hbefore.1, before, b, after, hrest, hbefore.2, hb⟩
  · intro h
    rcases h with ha | ⟨ha, before, b, after, rfl, hbefore, hb⟩
    · exact ⟨[], a, rest, rfl, by simp, ha⟩
    · exact ⟨a :: before, b, after, rfl, List.forall_mem_cons.mpr ⟨ha, hbefore⟩, hb⟩

theorem each_eq_error_iff {check : α → Except ε Unit} {l : List α} {e : ε} :
    each check l = .error e ↔ FirstError check l e := by
  induction l with
  | nil =>
    constructor
    · intro h
      exact nomatch h
    · intro h
      obtain ⟨before, a, after, h, _⟩ := h
      exact absurd h (by simp)
  | cons a rest ih =>
    rw [each, bind_eq_error_iff, firstError_cons_iff]
    constructor
    · intro h
      rcases h with ha | ⟨⟨⟩, ha, hrest⟩
      · exact .inl ha
      · exact .inr ⟨ha, ih.mp hrest⟩
    · intro h
      rcases h with ha | ⟨ha, hrest⟩
      · exact .inl ha
      · exact .inr ⟨(), ha, ih.mpr hrest⟩

theorem mapM_eq_ok_iff {f : α → Except ε β} {l : List α} {bs : List β} :
    l.mapM f = .ok bs ↔ List.Forall₂ (fun a b => f a = .ok b) l bs := by
  induction l generalizing bs with
  | nil =>
    rw [List.mapM_nil, List.forall₂_nil_left_iff]
    exact ⟨fun h => (Except.ok.inj h).symm, fun h => congrArg Except.ok h.symm⟩
  | cons a rest ih =>
    rw [List.mapM_cons, bind_eq_ok_iff, List.forall₂_cons_left_iff]
    refine exists_congr fun b => ?_
    rw [bind_eq_ok_iff]
    constructor
    · intro h
      obtain ⟨ha, bs', hrest, hbs⟩ := h
      exact ⟨bs', ha, ih.mp hrest, (Except.ok.inj hbs).symm⟩
    · intro h
      obtain ⟨bs', ha, hrest, rfl⟩ := h
      exact ⟨ha, bs', ih.mpr hrest, rfl⟩

theorem forall_error_mapM {P : ε → Prop} {f : α → Except ε β} {l : List α}
    (h : ∀ a ∈ l, ∀ e, f a = .error e → P e) : ∀ e, l.mapM f = .error e → P e := by
  induction l with
  | nil => exact nofun
  | cons a rest ih =>
    rw [List.forall_mem_cons] at h
    rw [List.mapM_cons]
    exact forall_error_bind h.1 fun b _ => forall_error_bind (ih h.2) nofun

/-- There is a first error exactly when some entry does not pass. -/
theorem exists_firstError_iff {check : α → Except ε Unit} {l : List α} :
    (∃ e, FirstError check l e) ↔ ¬∀ a ∈ l, check a = .ok () := by
  rw [← each_eq_ok_iff]
  constructor
  · intro h hok
    obtain ⟨e, he⟩ := h
    rw [← each_eq_error_iff, hok] at he
    exact nomatch he
  · intro h
    cases hr : each check l with
    | ok u => exact absurd hr h
    | error e => exact ⟨e, each_eq_error_iff.mp hr⟩

end Provenance.Checks
