import Mathlib.Data.List.Nodup
import Provenance.Json.Document
import Provenance.Proofs.Json.Canonical

/-!
# Paths into JSON values

A value that is read as a whole has its members in order and each name once. `InOrder`
says so of every object that a path of names leads to (`at?`); lists are not looked
into.

> `inOrder_of_untyped?`: what is read from a text without a type is in order;
>
> `lookup_insertMember`: a member that is put in is found under its name, and nothing
> changes under another.
-/

namespace Provenance.Json

/-! ## Members in order -/

/-- The names are in strict order, so none occurs twice. -/
def Increasing (members : List (String × Json)) : Prop :=
  members.Pairwise fun m n => m.1 < n.1

theorem Increasing.namesDiffer {members : List (String × Json)} (h : Increasing members) :
    NamesDiffer members := by
  rw [NamesDiffer, List.Nodup, List.pairwise_map]
  refine h.imp fun hlt heq => ?_
  rw [heq] at hlt
  exact String.lt_irrefl _ hlt

theorem lookup_insertMember (name : String) (v : Json) (n : String) :
    ∀ members, lookup n (insertMember name v members) =
      if name = n then some v else lookup n members
  | [] => rfl
  | (m, w) :: rest => by
    unfold insertMember
    split
    · next heq =>
      subst heq
      by_cases h : name = n <;> simp [lookup, h]
    · next hne =>
      split
      · rfl
      · rw [lookup, lookup_insertMember name v n rest, lookup]
        -- a member that is passed over has another name than the new one
        by_cases h : m = n
        · subst h
          simp [hne]
        · simp [h]

theorem mem_insertMember {name : String} {v : Json} {m : String × Json} :
    ∀ {members}, m ∈ insertMember name v members → m = (name, v) ∨ m ∈ members
  | [], h => .inl (List.mem_singleton.mp h)
  | (n, w) :: rest, h => by
    unfold insertMember at h
    split at h
    · rcases List.mem_cons.mp h with h | h
      · exact .inl h
      · exact .inr (List.mem_cons_of_mem _ h)
    · split at h
      · rcases List.mem_cons.mp h with h | h
        · exact .inl h
        · exact .inr h
      · rcases List.mem_cons.mp h with h | h
        · exact .inr (h ▸ List.mem_cons_self)
        · exact (mem_insertMember h).imp_right (List.mem_cons_of_mem _)

theorem Increasing.insertMember {name : String} {v : Json} :
    ∀ {members}, Increasing members → Increasing (insertMember name v members)
  | [], _ => List.pairwise_singleton _ _
  | (n, w) :: rest, h => by
    obtain ⟨hhead, hrest⟩ := List.pairwise_cons.mp h
    unfold Json.insertMember
    split
    · next heq => exact List.pairwise_cons.mpr ⟨heq ▸ hhead, hrest⟩
    · next hne =>
      split
      · next hlt =>
        refine List.pairwise_cons.mpr ⟨fun m hm => ?_, h⟩
        rcases List.mem_cons.mp hm with rfl | hm
        · exact hlt
        · exact String.lt_trans hlt (hhead m hm)
      · next hnlt =>
        have hgt : n < name := by grind
        refine List.pairwise_cons.mpr ⟨fun m hm => ?_, Increasing.insertMember hrest⟩
        rcases mem_insertMember hm with rfl | hm
        · exact hgt
        · exact hhead m hm

/-! ## Paths -/

/-- The value that a path of names leads to. -/
def at? : Json → List String → Option Json
  | v, [] => some v
  | v, name :: rest => (v.get? name).bind fun w => at? w rest

/-- The value is an object. -/
def isObject : Json → Bool
  | .obj _ => true
  | _ => false

theorem isObject_iff {v : Json} : v.isObject = true ↔ ∃ members, v = .obj members := by
  cases v <;> simp [isObject]

theorem get?_of_not_isObject {v : Json} (h : v.isObject = false) (name : String) :
    v.get? name = none := by
  cases v with
  | obj members => exact nomatch h
  | _ => rfl

theorem at?_of_get? {v w : Json} {name : String} (h : v.get? name = some w) (rest : List String) :
    v.at? (name :: rest) = w.at? rest := by
  rw [at?, h, Option.bind_some]

theorem at?_of_get?_none {v : Json} {name : String} (h : v.get? name = none)
    (rest : List String) : v.at? (name :: rest) = none := by
  rw [at?, h, Option.bind_none]

/-- Every object that a path leads to has its members in order. -/
def InOrder (v : Json) : Prop :=
  ∀ path members, v.at? path = some (.obj members) → Increasing members

theorem InOrder.increasing {members : List (String × Json)} (h : (Json.obj members).InOrder) :
    Increasing members := h [] members rfl

theorem InOrder.get? {v w : Json} (h : v.InOrder) {name : String} (hw : v.get? name = some w) :
    w.InOrder := by
  intro path members hat
  refine h (name :: path) members ?_
  rwa [at?_of_get? hw]

theorem inOrder_of_not_isObject {v : Json} (h : v.isObject = false) : v.InOrder := by
  intro path members hat
  cases path with
  | nil =>
    injection hat with hat
    rw [hat] at h
    exact nomatch h
  | cons name rest =>
    rw [at?_of_get?_none (get?_of_not_isObject h name)] at hat
    exact nomatch hat

theorem inOrder_obj {members : List (String × Json)} (h : Increasing members)
    (hvalues : ∀ m ∈ members, m.2.InOrder) : (Json.obj members).InOrder := by
  intro path ms hat
  cases path with
  | nil =>
    injection hat with hat
    injection hat with hat
    exact hat ▸ h
  | cons name rest =>
    obtain ⟨w, hw, hat⟩ := Option.bind_eq_some_iff.mp hat
    exact hvalues _ ((lookup_eq_some_iff h.namesDiffer).mp hw) rest ms hat

/-! ## What readers leave -/

theorem increasing_foldl : ∀ (members : List (String × Json)) {acc : List (String × Json)},
    Increasing acc → Increasing (members.foldl (fun acc m => insertMember m.1 m.2 acc) acc)
  | [], _, h => h
  | _ :: members, _, h => increasing_foldl members h.insertMember

theorem mem_foldl {m : String × Json} :
    ∀ (members : List (String × Json)) {acc : List (String × Json)},
      m ∈ members.foldl (fun acc m => insertMember m.1 m.2 acc) acc → m ∈ acc ∨ m ∈ members
  | [], _, h => .inl h
  | n :: members, _, h => by
    rcases mem_foldl members h with h | h
    · rcases mem_insertMember h with rfl | h
      · exact .inr List.mem_cons_self
      · exact .inl h
    · exact .inr (List.mem_cons_of_mem _ h)

theorem orderedMembers_eq : ∀ members : List (String × Json),
    orderedMembers members = members.map fun m => (m.1, ordered m.2)
  | [] => rfl
  | (name, v) :: rest => by
    rw [orderedMembers, orderedMembers_eq rest, List.map_cons]

theorem increasing_orderMembers (members : List (String × Json)) :
    Increasing (orderMembers members) := increasing_foldl members List.Pairwise.nil

/-- A member of an ordered object is itself ordered. -/
theorem exists_of_get?_ordered {v w : Json} {name : String} (h : v.ordered.get? name = some w) :
    ∃ u : Json, w = u.ordered := by
  cases v with
  | obj members =>
    have hmem := (lookup_eq_some_iff (increasing_orderMembers _).namesDiffer).mp h
    rcases mem_foldl _ hmem with hmem | hmem
    · exact nomatch hmem
    · rw [orderedMembers_eq] at hmem
      obtain ⟨m, _, heq⟩ := List.mem_map.mp hmem
      injection heq with _ hw
      exact ⟨m.2, hw.symm⟩
  | _ => exact nomatch h

theorem inOrder_ordered (v : Json) : v.ordered.InOrder := by
  intro path
  induction path generalizing v with
  | nil =>
    intro members hat
    injection hat with hat
    cases v with
    | obj ms =>
      injection hat with hat
      exact hat ▸ increasing_orderMembers _
    | _ => exact nomatch hat
  | cons name rest ih =>
    intro members hat
    obtain ⟨w, hw, hat⟩ := Option.bind_eq_some_iff.mp hat
    obtain ⟨u, rfl⟩ := exists_of_get?_ordered hw
    exact ih u members hat

theorem inOrder_of_settled? {v w : Json} (h : v.settled? = some w) : w.InOrder := by
  unfold settled? at h
  split at h
  · injection h with h
    exact h ▸ inOrder_ordered v
  · exact nomatch h

/-- What is read from a text without a type is in order. -/
theorem inOrder_of_untyped? {text : String} {v : Json} (h : untyped? text = some v) :
    v.InOrder := by
  obtain ⟨_, _, h⟩ := Option.bind_eq_some_iff.mp h
  exact inOrder_of_settled? h

end Provenance.Json
