import Provenance.File.Tree
import Provenance.Proofs.Checks

/-!
# Writing one file

A write that succeeds sets what has the names that its path leads to. No directory is
changed by that, nor is the working directory, so paths lead where they led before:

> `write_eq_ok`: after a write the file is at its path, and whatever has other names is as
> it was (`OnlyChanged`).

`Enters` says what a path does with one of its parts, so that the walk is one induction,
wherever the path starts.
-/

namespace Provenance.FileTree

open Checks

variable {t t' : FileTree} {names : List String} {content : Bytes} {path : String}

/-! ## Setting what has some names -/

theorem node?_set (hnames : names ≠ []) (n : FileNode) (other : List String) :
    (t.set names n).node? other = if names = other then some n else t.node? other := by
  unfold set node?
  by_cases hroot : other.isEmpty = true
  · rw [List.isEmpty_iff] at hroot
    simp [hroot, hnames]
  simp only [hroot, Bool.false_eq_true, if_false]
  split
  · next hany =>
    -- what is found under any names keeps them
    have hkeys : (fun e : List String × FileNode => decide (e.1 = other)) ∘
        (fun e => if e.1 = names then (names, n) else e) = fun e => decide (e.1 = other) := by
      funext e
      by_cases he : e.1 = names <;> simp [he]
    rw [List.find?_map, hkeys]
    cases hfind : t.entries.find? fun e => e.1 = other with
    | none =>
      obtain ⟨e, he, hname⟩ := List.any_eq_true.mp hany
      have hother : e.1 ≠ other := by simpa using List.find?_eq_none.mp hfind e he
      rw [if_neg fun heq => hother ((of_decide_eq_true hname).trans heq)]
      rfl
    | some e =>
      have he : e.1 = other := by simpa using List.find?_some hfind
      by_cases hsame : names = other
      · simp [hsame, he]
      · simp [he, Ne.symm hsame, hsame]
  · next hany =>
    have hnone : t.entries.find? (fun e => e.1 = names) = none := by
      rw [List.find?_eq_none]
      intro e he hname
      exact hany (List.any_eq_true.mpr ⟨e, he, hname⟩)
    rw [List.find?_append]
    by_cases hsame : names = other
    · subst hsame
      simp [hnone]
    · simp [hsame]

/-! ## Where paths lead -/

/-- From one directory a part of a path leads to another. -/
inductive Enters (t : FileTree) : List String → String → List String → Prop where
  | stay {at_ part} : part = "" ∨ part = "." → Enters t at_ part at_
  | up {at_} : Enters t at_ ".." at_.dropLast
  | down {at_ part} : ¬(part = "" ∨ part = ".") → part ≠ ".." → part.utf8ByteSize ≤ maxName →
      t.node? (at_ ++ [part]) = some .directory → Enters t at_ part (at_ ++ [part])

theorem walk_cons_eq_ok_iff {at_ rest dir : List String} {part : String} :
    t.walk at_ (part :: rest) = .ok dir ↔
      ∃ next, t.Enters at_ part next ∧ t.walk next rest = .ok dir := by
  rw [walk]
  constructor
  · intro h
    split at h
    · next hstay => exact ⟨at_, .stay hstay, h⟩
    next hstay =>
    split at h
    · next hup => exact ⟨_, hup ▸ .up, h⟩
    next hup =>
    split at h
    · exact nomatch h
    next hlength =>
    split at h
    · exact nomatch h
    · exact nomatch h
    · next hnode => exact ⟨_, .down hstay hup (Nat.le_of_not_lt hlength) hnode, h⟩
  · intro h
    obtain ⟨next, henters, hrest⟩ := h
    cases henters with
    | stay hstay => rw [if_pos hstay, hrest]
    | up => simp [hrest]
    | down hstay hup hlength hnode =>
      rw [if_neg hstay, if_neg hup, if_neg (Nat.not_lt.mpr hlength), hnode]
      exact hrest

/-- The text can be a path. -/
structure IsPath (path : String) : Prop where
  nonempty : ¬path.isEmpty = true
  noZero : ¬path.toList.contains '\x00' = true
  length : path.utf8ByteSize ≤ maxPath

/-- A path that ends in a name leads to that name in a directory, and any other to the
directory itself. -/
theorem locate_eq_ok_iff {found : List String × Bool} :
    t.locate path = .ok found ↔ IsPath path ∧
      if isNoName ((t.route path).getLastD "") then
        ∃ dir, t.walk [] (t.route path) = .ok dir ∧ found = (dir, true)
      else
        ∃ dir, t.walk [] (t.route path).dropLast = .ok dir ∧
          ((t.route path).getLastD "").utf8ByteSize ≤ maxName ∧
          found = (dir ++ [(t.route path).getLastD ""], false) := by
  have hpath : IsPath path ↔ ¬path.isEmpty = true ∧ ¬path.toList.contains '\x00' = true ∧
      ¬maxPath < path.utf8ByteSize :=
    ⟨fun h => ⟨h.nonempty, h.noZero, Nat.not_lt.mpr h.length⟩,
      fun h => ⟨h.1, h.2.1, Nat.le_of_not_lt h.2.2⟩⟩
  unfold locate
  rw [guard_eq_ok_iff, guard_eq_ok_iff, guard_eq_ok_iff, hpath, and_assoc, and_assoc]
  refine and_congr_right fun _ => and_congr_right fun _ => and_congr_right fun _ => ?_
  by_cases hlast : isNoName ((t.route path).getLastD "") = true
  · rw [if_pos hlast, if_pos hlast, bind_eq_ok_iff]
    exact exists_congr fun dir => and_congr_right fun _ =>
      ⟨fun h => (Except.ok.inj h).symm, fun h => congrArg Except.ok h.symm⟩
  · rw [if_neg hlast, if_neg hlast, bind_eq_ok_iff]
    refine exists_congr fun dir => and_congr_right fun _ => ?_
    rw [guard_eq_ok_iff, Nat.not_lt]
    exact and_congr_right fun _ =>
      ⟨fun h => (Except.ok.inj h).symm, fun h => congrArg Except.ok h.symm⟩

theorem ne_nil_of_locate (h : t.locate path = .ok (names, false)) : names ≠ [] := by
  obtain ⟨_, hfound⟩ := locate_eq_ok_iff.mp h
  split at hfound
  · obtain ⟨_, _, heq⟩ := hfound
    exact nomatch heq
  · obtain ⟨dir, _, _, heq⟩ := hfound
    rw [Prod.mk.injEq] at heq
    rw [heq.1]
    exact List.append_ne_nil_of_right_ne_nil _ (List.cons_ne_nil _ _)

theorem find_eq_ok_iff {n : FileNode} : t.find path = .ok n ↔
    ∃ names isDirectory, t.locate path = .ok (names, isDirectory) ∧ t.node? names = some n := by
  unfold find
  simp only [bind_eq_ok_iff, Prod.exists]
  refine exists_congr fun names => exists_congr fun _ => and_congr_right fun _ => ?_
  cases t.node? names <;> simp [pure, Except.pure]

section Set

@[simp] theorem workingDirectory_set (n : FileNode) :
    (t.set names n).workingDirectory = t.workingDirectory := by
  unfold set
  split <;> rfl

@[simp] theorem route_set (n : FileNode) : (t.set names n).route path = t.route path := by
  rw [route, route, workingDirectory_set]

variable (hnames : names ≠ []) (hnode : t.node? names ≠ some .directory)

include hnames hnode

/-- Setting a file where there is no directory leaves all directories. -/
theorem Enters.set {at_ next : List String} {part : String} (h : t.Enters at_ part next) :
    (t.set names (.file content)).Enters at_ part next := by
  cases h with
  | stay hstay => exact .stay hstay
  | up => exact .up
  | down hstay hup hlength hdir =>
    refine .down hstay hup hlength ?_
    rw [node?_set hnames, if_neg, hdir]
    rintro rfl
    exact hnode hdir

theorem walk_set {at_ parts dir : List String} (h : t.walk at_ parts = .ok dir) :
    (t.set names (.file content)).walk at_ parts = .ok dir := by
  induction parts generalizing at_ with
  | nil => exact h
  | cons part rest ih =>
    obtain ⟨next, henters, hrest⟩ := walk_cons_eq_ok_iff.mp h
    exact walk_cons_eq_ok_iff.mpr ⟨next, henters.set hnames hnode, ih hrest⟩

theorem locate_set {found : List String × Bool} (h : t.locate path = .ok found) :
    (t.set names (.file content)).locate path = .ok found := by
  rw [locate_eq_ok_iff] at h ⊢
  rw [route_set]
  refine ⟨h.1, ?_⟩
  split
  · next hlast =>
    obtain ⟨dir, hwalk, hfound⟩ := if_pos hlast ▸ h.2
    exact ⟨dir, walk_set hnames hnode hwalk, hfound⟩
  · next hlast =>
    obtain ⟨dir, hwalk, hfound⟩ := if_neg hlast ▸ h.2
    exact ⟨dir, walk_set hnames hnode hwalk, hfound⟩

end Set

/-! ## Writing -/

theorem write_eq_ok_iff : t.write path content = .ok t' ↔
    ∃ names, t.locate path = .ok (names, false) ∧ withoutSlashes path = path ∧
      t.node? names ≠ some .directory ∧ t' = t.set names (.file content) := by
  unfold write
  simp only [bind_eq_ok_iff, guard_eq_ok_iff]
  constructor
  · intro h
    obtain ⟨⟨names, isDirectory⟩, hlocate, hname, hset⟩ := h
    have hpath : isDirectory = false ∧ withoutSlashes path = path := by simpa using hname
    obtain ⟨rfl, hpath⟩ := hpath
    rw [hpath] at hlocate
    split at hset
    · exact nomatch hset
    · next hnode => exact ⟨names, hlocate, hpath, hnode, (Except.ok.inj hset).symm⟩
  · intro h
    obtain ⟨names, hlocate, hpath, hnode, rfl⟩ := h
    refine ⟨(names, false), hpath.symm ▸ hlocate, by simp [hpath], ?_⟩
    split
    · next hdir => exact absurd hdir hnode
    · rfl

/-- A file can be written at the path. -/
def Writable (t : FileTree) (path : String) : Prop :=
  ∃ names, t.locate path = .ok (names, false) ∧ withoutSlashes path = path ∧
    t.node? names ≠ some .directory

theorem writable_iff (content : Bytes) :
    t.Writable path ↔ ∃ t', t.write path content = .ok t' := by
  simp only [write_eq_ok_iff]
  constructor
  · intro h
    obtain ⟨names, hlocate, hpath, hnode⟩ := h
    exact ⟨_, names, hlocate, hpath, hnode, rfl⟩
  · intro h
    obtain ⟨_, names, hlocate, hpath, hnode, _⟩ := h
    exact ⟨names, hlocate, hpath, hnode⟩

/-- From one tree to the other only what the path leads to has changed, and there is now that
file. -/
structure OnlyChanged (t t' : FileTree) (path : String) (content : Bytes) : Prop where
  written : t'.find path = .ok (.file content)
  stays : t'.workingDirectory = t.workingDirectory
  others : ∃ names, t.locate path = .ok (names, false) ∧
    ∀ other, other ≠ names → t'.node? other = t.node? other

theorem write_eq_ok (h : t.write path content = .ok t') : t.OnlyChanged t' path content := by
  obtain ⟨names, hlocate, _, hnode, rfl⟩ := write_eq_ok_iff.mp h
  have hnames := ne_nil_of_locate hlocate
  refine ⟨?_, workingDirectory_set _, names, hlocate, fun other hother => ?_⟩
  · refine find_eq_ok_iff.mpr ⟨names, false, locate_set hnames hnode hlocate, ?_⟩
    rw [node?_set hnames, if_pos rfl]
  · rw [node?_set hnames, if_neg (Ne.symm hother)]

end Provenance.FileTree
