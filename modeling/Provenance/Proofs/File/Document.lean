import Provenance.File.Document
import Provenance.File.Tree
import Provenance.Proofs.Checks
import Provenance.Proofs.Json.Record
import Provenance.Proofs.Text.Utf8

/-!
# Which files hold a document

Loading a document looks at the size of a file before it reads it, and at its bytes before it
takes them apart. `Holds` says the same without an order of checks:

> `loadWith_eq_ok_iff`: a document is loaded iff the path leads to a file with a text that is
> no longer than the limit, and the reader makes the document of it.
-/

namespace Provenance

open Checks

/-- The file of a document that is written over several lines. -/
def FileNode.document (v : Json) : FileNode := .file (textBytes v.pretty)

namespace FileTree

variable {α : Type} {t : FileTree} {path : String}

/-- The path leads to a file, and that is its text. -/
def HasText (t : FileTree) (path text : String) : Prop := t.find path = .ok (.file (textBytes text))

/-- The file at the path has a text of which the reader makes the document. -/
def HoldsUnbounded (t : FileTree) (read : String → Option α) (path : String) (d : α) : Prop :=
  ∃ text, t.HasText path text ∧ read text = some d

/-- The file at the path holds the document and has no more bytes than the limit. -/
def Holds (t : FileTree) (limit : Nat) (read : String → Option α) (path : String) (d : α) : Prop :=
  ∃ text, t.HasText path text ∧ (textBytes text).length ≤ limit ∧ read text = some d

theorem read_eq_ok_iff {content : Bytes} :
    t.view.read path = .ok content ↔ t.find path = .ok (.file content) := by
  unfold FileView.read
  rw [bind_eq_ok_iff]
  constructor
  · intro h
    obtain ⟨node, hnode, hcontent⟩ := h
    cases node with
    | directory => exact nomatch hcontent
    | file content' =>
      rw [← Except.ok.inj hcontent]
      exact hnode
  · intro h
    exact ⟨_, h, rfl⟩

theorem readText_eq_ok_iff {text : String} :
    t.view.readText path = .ok text ↔ t.HasText path text := by
  unfold FileView.readText
  rw [bind_eq_ok_iff]
  constructor
  · intro h
    obtain ⟨content, hcontent, htext⟩ := h
    split at htext
    · next text' hread =>
      rw [← Except.ok.inj htext]
      exact read_eq_ok_iff.mp (bytesText?_eq_some_iff.mp hread ▸ hcontent)
    · exact nomatch htext
  · intro h
    refine ⟨_, read_eq_ok_iff.mpr h, ?_⟩
    rw [bytesText?_textBytes]
    rfl

theorem readBounded_eq_ok_iff {limit : Nat} {text : String} :
    t.view.readBounded path limit = .ok text ↔
      t.HasText path text ∧ (textBytes text).length ≤ limit := by
  unfold FileView.readBounded
  simp only [bind_eq_ok_iff, guard_eq_ok_iff, mapError_eq_ok_iff, readText_eq_ok_iff, Nat.not_lt]
  -- the file that is read is the one whose size was looked at
  have hsize : t.HasText path text → t.view.size path = .ok (textBytes text).length :=
    fun h => bind_eq_ok h rfl
  constructor
  · intro h
    obtain ⟨size, hsize', hlimit, htext⟩ := h
    rw [hsize htext] at hsize'
    exact ⟨htext, Except.ok.inj hsize' ▸ hlimit⟩
  · intro h
    obtain ⟨htext, hlimit⟩ := h
    exact ⟨_, hsize htext, hlimit, htext⟩

theorem loadWith_eq_ok_iff {read : String → Option α} {limit : Nat} {d : α} :
    t.view.loadWith read path limit = .ok d ↔ t.Holds limit read path d := by
  unfold FileView.loadWith Holds
  simp only [bind_eq_ok_iff, readBounded_eq_ok_iff, and_assoc]
  refine exists_congr fun text => and_congr_right fun _ => and_congr_right fun _ => ?_
  cases read text <;> simp [pure, Except.pure]

theorem loadUnbounded_eq_ok_iff {decode : Json → Decoded α} {d : α} :
    t.view.loadUnbounded decode path = .ok d ↔
      t.HoldsUnbounded (Json.document? decode) path d := by
  unfold FileView.loadUnbounded HoldsUnbounded
  simp only [bind_eq_ok_iff, readText_eq_ok_iff]
  refine exists_congr fun text => and_congr_right fun _ => ?_
  cases Json.document? decode text <;> simp [pure, Except.pure]

/-! ## Documents that were written -/

section Written

variable {write : α → Json} {decode : Json → Decoded α} {d : α}
  (hfind : t.find path = .ok (.document (write d))) (hsurvives : Json.Survives write decode d)

include hfind hsurvives

theorem holdsUnbounded_document : t.HoldsUnbounded (Json.document? decode) path d :=
  ⟨_, hfind, hsurvives.1⟩

theorem holds_document {limit : Nat} (hlimit : 4 * ((write d).prettyChars 0).length ≤ limit) :
    t.Holds limit (Json.document? decode) path d :=
  ⟨_, hfind, Nat.le_trans (length_textBytes_ofList_le _) hlimit, hsurvives.1⟩

end Written

end FileTree

end Provenance
