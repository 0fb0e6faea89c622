import Provenance.Link
import Provenance.Proofs.Json.Canonical

/-!
# Links as documents

A link is written from strings and arrays, with the command left out when it was
not recorded. Nothing is lost on the way:

> `Link.faithful_toJson`: a link can be told from its document, in whatever order
> the members stand.
-/

namespace Provenance

open Json

theorem plain_strings (room : Nat) (texts : List String) :
    Plain (room + 1) (.arr (texts.map .str)) :=
  .list fun s _ => .str s

theorem faithful_strings : Faithful fun texts : List String => .arr (texts.map .str) :=
  faithful_str.arr

/-! ## Artifacts -/

theorem Artifact.plain_toJson (a : Artifact) : Plain 1 a.toJson := by
  refine .obj ?_
  simp only [List.forall_mem_cons]
  exact ⟨.str _, .str _, fun _ h => nomatch h⟩

/-- The members of the document of an artifact. -/
def Artifact.members (a : Artifact) : List (String × Json) :=
  [("uri", .str a.uri), ("hash", .str a.hash)]

theorem Artifact.namesDiffer_members (a : Artifact) : NamesDiffer a.members := by
  show ["uri", "hash"].Nodup
  decide

theorem Artifact.faithful_toJson : Faithful Artifact.toJson := by
  intro a b h
  have ha := a.namesDiffer_members
  have hb := b.namesDiffer_members
  have huri := faithful_str.field ha hb h "uri" rfl rfl
  have hhash := faithful_str.field ha hb h "hash" rfl rfl
  cases a
  cases b
  simp only at huri hhash
  rw [huri, hhash]

/-! ## Links -/

namespace Link

/-- The members of the document of a link. -/
def members (l : Link) : List (String × Json) :=
  [("stepName", .str l.stepName), ("runId", .str l.runId),
      ("layoutSegmentName", .str l.segmentName)]
    ++ Json.optional "command" (fun c => .arr (c.map .str)) l.command
    ++ [("materials", .arr (l.materials.map Artifact.toJson)),
      ("products", .arr (l.products.map Artifact.toJson))]

theorem toJson_eq (l : Link) : l.toJson = .obj l.members := rfl

theorem namesDiffer_members (l : Link) : NamesDiffer l.members := by
  unfold members
  cases l.command with
  | none =>
    show ["stepName", "runId", "layoutSegmentName", "materials", "products"].Nodup
    decide
  | some c =>
    show ["stepName", "runId", "layoutSegmentName", "command", "materials", "products"].Nodup
    decide

theorem plain_toJson (l : Link) : Plain 3 l.toJson := by
  rw [toJson_eq]
  refine .obj ?_
  have hartifacts : ∀ artifacts : List Artifact,
      Plain 2 (.arr (artifacts.map Artifact.toJson)) :=
    fun _ => .list fun a _ => a.plain_toJson
  have hcommand : ∀ m ∈ Json.optional "command" (fun c => .arr (c.map .str)) l.command,
      Plain 2 m.2 := by
    cases l.command with
    | none => exact fun _ h => nomatch h
    | some c =>
      intro m hm
      rw [List.mem_singleton.mp hm]
      exact plain_strings 1 c
  simp only [members, List.forall_mem_append, List.forall_mem_cons]
  exact ⟨⟨⟨.str _, .str _, .str _, fun _ h => nomatch h⟩, hcommand⟩, hartifacts _, hartifacts _,
    fun _ h => nomatch h⟩

/-- What stands behind the place where the command may be. -/
theorem lookup_members (l : Link) :
    lookup "command" l.members = l.command.map (fun c => .arr (c.map .str)) ∧
    lookup "materials" l.members = some (.arr (l.materials.map Artifact.toJson)) ∧
    lookup "products" l.members = some (.arr (l.products.map Artifact.toJson)) := by
  unfold members
  cases l.command <;> exact ⟨rfl, rfl, rfl⟩

theorem faithful_toJson : Faithful Link.toJson := by
  intro l m h
  rw [toJson_eq, toJson_eq] at h
  have hl := l.namesDiffer_members
  have hm := m.namesDiffer_members
  obtain ⟨hcommand, hmaterials, hproducts⟩ := l.lookup_members
  obtain ⟨hcommand', hmaterials', hproducts'⟩ := m.lookup_members
  have hartifacts := Artifact.faithful_toJson.arr
  have hstep := faithful_str.field hl hm h "stepName" rfl rfl
  have hrun := faithful_str.field hl hm h "runId" rfl rfl
  have hsegment := faithful_str.field hl hm h "layoutSegmentName" rfl rfl
  replace hcommand := faithful_strings.optional hl hm h "command" hcommand hcommand'
  replace hmaterials := hartifacts.field hl hm h "materials" hmaterials hmaterials'
  replace hproducts := hartifacts.field hl hm h "products" hproducts hproducts'
  cases l
  cases m
  simp only at hstep hrun hsegment hcommand hmaterials hproducts
  subst hstep hrun hsegment hcommand hmaterials hproducts
  rfl

end Link

end Provenance
