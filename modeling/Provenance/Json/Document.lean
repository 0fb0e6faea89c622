import Provenance.Json.Reader
import Provenance.Json.Record

/-!
# Documents in texts

A text can be read as a document of a known kind, or as a value of which nothing is known yet. In a
value of the second sort a name is given once: the last member of a name counts, and members are in
the order of their names.
-/

namespace Provenance.Json

/-- The document that a text writes. -/
def document? {α : Type} (decode : Json → Decoded α) (text : String) : Option α :=
  (read? text).bind fun v => (decode v).toOption

/-- The value that a text writes. -/
def untyped? (text : String) : Option Json := (read? text).bind settled?

end Provenance.Json
