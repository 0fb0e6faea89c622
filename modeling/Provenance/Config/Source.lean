import Provenance.Json.Record

/-!
# Where a configuration comes from

A configuration is put together from layers. Each layer that takes part is noted, a file with its
path and the digest of its bytes.
-/

namespace Provenance

/-- Kinds of layers, in order of precedence. -/
inductive ConfigOrigin where
  | builtin
  | user
  | project
  | cli
  deriving DecidableEq, Repr, Inhabited

namespace ConfigOrigin

/-- All kinds. -/
def all : List ConfigOrigin := [builtin, user, project, cli]

/-- The name in documents. -/
def name : ConfigOrigin → String
  | builtin => "builtin"
  | user => "user"
  | project => "project"
  | cli => "cli"

/-- From a document. -/
def ofJson : Json → Decoded ConfigOrigin := Json.asChoice (all.map fun o => (o.name, o))

end ConfigOrigin

/-- A layer that takes part. -/
structure ConfigSource where
  origin : ConfigOrigin
  path : Option String
  digest : Option String
  deriving DecidableEq, Repr, Inhabited

namespace ConfigSource

/-- A layer that is no file. -/
def plain (origin : ConfigOrigin) : ConfigSource := ⟨origin, none, none⟩

/-- As a document. -/
def toJson (s : ConfigSource) : Json :=
  .obj ([("origin", .str s.origin.name)] ++ Json.optional "path" .str s.path
    ++ Json.optional "digest" .str s.digest)

/-- From a document. -/
def ofJson (v : Json) : Decoded ConfigSource := do
  let r ← v.record "ConfigSource" ["origin", "path", "digest"]
  let origin ← r.field "origin" ConfigOrigin.ofJson
  let path ← r.field? "path" Json.asString
  let digest ← r.field? "digest" Json.asString
  pure ⟨origin, path, digest⟩

end ConfigSource

end Provenance
