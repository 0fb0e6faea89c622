import Provenance.Json.Basic
import Provenance.Number.Shortest
import Provenance.Text.Quoted

/-!
# Reading documents from JSON values

A document is a record of named fields. It is written as an object, and may also be given as an
array of its fields in their declared order. Members with other names are passed over; a field that
is given twice is refused. A choice between variants is a string, or an object with a tag member
beside the fields of the variant.

`DecodeError` says what is wrong with a value; `DecodeError.message` words it.
-/

namespace Provenance

/-- Why a value is not the document that was asked for. -/
inductive DecodeError where
  | wrongType (found expected : String)
  | wrongValue (found expected : String)
  | wrongLength (length : Nat) (expected : String)
  | missingField (name : String)
  | repeatedField (name : String)
  | unknownField (name : String) (known : List String)
  | unknownVariant (name : String) (known : List String)
  | unreadable (what : String)
  deriving DecidableEq, Repr

namespace DecodeError

/-- A list of names between backquotes, joined as an enumeration of alternatives. -/
def alternatives : List String → String
  | [] => "nothing"
  | [a] => s!"\x60{a}\x60"
  | [a, b] => s!"\x60{a}\x60 or \x60{b}\x60"
  | names => "one of " ++ ", ".intercalate (names.map fun n => s!"\x60{n}\x60")

/-- The wording of an error. -/
def message : DecodeError → String
  | wrongType found expected => s!"invalid type: {found}, expected {expected}"
  | wrongValue found expected => s!"invalid value: {found}, expected {expected}"
  | wrongLength length expected => s!"invalid length {length}, expected {expected}"
  | missingField name => s!"missing field \x60{name}\x60"
  | repeatedField name => s!"duplicate field \x60{name}\x60"
  | unknownField name known => s!"unknown field \x60{name}\x60, expected {alternatives known}"
  | unknownVariant name known => s!"unknown variant \x60{name}\x60, expected {alternatives known}"
  | unreadable what => what

end DecodeError

/-- The outcome of reading a document. -/
abbrev Decoded (α : Type) := Except DecodeError α

namespace Json

/-- A member that is left out when there is no value. -/
def optional {α : Type} (name : String) (toJson : α → Json) : Option α → List (String × Json)
  | some a => [(name, toJson a)]
  | none => []

/-- What kind of value was found, for messages. -/
def describe : Json → String
  | .null => "null"
  | .bool b => s!"boolean \x60{b}\x60"
  | .int n => s!"integer \x60{n}\x60"
  | .real x => s!"floating point \x60{Notation64.plain.write x}\x60"
  | .str s => s!"string {Text.quoted s}"
  | .arr _ => "sequence"
  | .obj _ => "map"
  | .invalid => "an unreadable value"

/-- A text. -/
def asString : Json → Decoded String
  | .str s => .ok s
  | v => .error (.wrongType v.describe "a string")

/-- A truth value. -/
def asBool : Json → Decoded Bool
  | .bool b => .ok b
  | v => .error (.wrongType v.describe "a boolean")

/-- A whole number from zero up to `2 ^ bits - 1`. -/
def asUnsigned (bits : Nat) : Json → Decoded Nat
  | .int n =>
    if 0 ≤ n ∧ n < (Nat.pow 2 bits : Int) then .ok n.toNat
    else .error (.wrongValue (Json.int n).describe s!"u{bits}")
  | v => .error (.wrongType v.describe s!"u{bits}")

/-- Reads every item in order. -/
def eachItem {α : Type} (decode : Json → Decoded α) : List Json → Decoded (List α)
  | [] => .ok []
  | v :: rest => do
    let a ← decode v
    let as ← eachItem decode rest
    pure (a :: as)

/-- A list of documents. -/
def asList {α : Type} (decode : Json → Decoded α) : Json → Decoded (List α)
  | .arr items => eachItem decode items
  | v => .error (.wrongType v.describe "a sequence")

/-- A document or null. -/
def asOption {α : Type} (decode : Json → Decoded α) : Json → Decoded (Option α)
  | .null => .ok none
  | v => (decode v).map some

/-- The alternative of that name. -/
def alternative {α : Type} (known : List (String × α)) (name : String) : Decoded α :=
  match known.find? (fun k => k.1 = name) with
  | some (_, a) => .ok a
  | none => .error (.unknownVariant name (known.map (·.1)))

/-- One of several names, as a string or as an object that maps the name to null. -/
def asChoice {α : Type} (known : List (String × α)) : Json → Decoded α
  | .str s => alternative known s
  | .obj [(s, .null)] => alternative known s
  | v => .error (.wrongType v.describe "string or map")

/-- One of several names inside a tagged document, where the object may also map it to an empty
object. -/
def asTaggedChoice {α : Type} (known : List (String × α)) : Json → Decoded α
  | .obj [(s, .obj [])] => alternative known s
  | v => asChoice known v

/-- The fields of a document, found by name. -/
structure Record where
  members : List (String × Json)
  /-- The document was given as an array. -/
  positional : Bool

/-- How many members have that name. -/
def occurrences (name : String) (members : List (String × Json)) : Nat :=
  members.countP (fun m => m.1 = name)

/-- The fields of a document of that shape with fields of those names. -/
def record (shape : String) (names : List String) : Json → Decoded Record
  | .obj members =>
    match names.find? (fun n => 1 < occurrences n members) with
    | some n => .error (.repeatedField n)
    | none => .ok ⟨members, false⟩
  | .arr items =>
    if names.length < items.length then .error (.wrongLength items.length "fewer elements in array")
    else .ok ⟨names.zip items, true⟩
  | v => .error (.wrongType v.describe s!"struct {shape}")

namespace Record

variable {α : Type}

/-- A field that must be there. -/
def field (r : Record) (name : String) (decode : Json → Decoded α) : Decoded α :=
  match lookup name r.members with
  | some v => decode v
  | none => .error (.missingField name)

/-- A field that has a default when it is absent. -/
def fieldD (r : Record) (name : String) (default : α) (decode : Json → Decoded α) : Decoded α :=
  match lookup name r.members with
  | some v => decode v
  | none => .ok default

/-- A field that may be null, and may be absent from an object but not from an array. -/
def field? (r : Record) (name : String) (decode : Json → Decoded α) : Decoded (Option α) :=
  match lookup name r.members with
  | some v => asOption decode v
  | none => if r.positional then .error (.missingField name) else .ok none

end Record

/-- The tag of a tagged document and the document of its other fields. The whole value counts, also
members that nothing reads. -/
def tagged (tag : String) (v : Json) : Decoded (String × Json) :=
  if v.isSound then
    match v with
    | .obj members =>
      match members.filter (fun m => m.1 = tag) with
      | [(_, t)] => do
        let name ← t.asString
        pure (name, .obj (members.filter (fun m => m.1 ≠ tag)))
      | [] => .error (.missingField tag)
      | _ => .error (.repeatedField tag)
    | .arr (t :: rest) => do
      let name ← t.asString
      pure (name, .arr rest)
    | .arr [] => .error (.missingField tag)
    | v => .error (.wrongType v.describe "a tagged document")
  else .error (.unreadable "a value is out of range")

end Json

end Provenance
