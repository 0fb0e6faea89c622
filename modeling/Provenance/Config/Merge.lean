import Provenance.Json.Basic

/-!
# Merging configurations

A later layer overrides an earlier one: objects are merged member by member, and every other value
replaces what was there, lists as a whole.
-/

namespace Provenance.Config

mutual

/-- The value with another one laid over it. -/
def overlay (base : Json) : Json → Json
  | .obj members =>
    match base with
    | .obj under => .obj (overlayMembers under members)
    | _ => .obj members
  | v => v

/-- Members with others laid over them. -/
def overlayMembers (under : List (String × Json)) : List (String × Json) → List (String × Json)
  | [] => under
  | (name, v) :: rest =>
    let merged := match Json.lookup name under with
      | some below => overlay below v
      | none => v
    overlayMembers (Json.insertMember name merged under) rest

end

/-- All layers, the last one on top. -/
def mergeLayers (layers : List Json) : Json := layers.foldl overlay .null

end Provenance.Config
