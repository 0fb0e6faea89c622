import Provenance.Number.Binary64

/-!
# JSON values

A `Json` is what a JSON text says, with the members of an object in the order of the text and a
repeated name kept. Whole numbers and numbers with a fraction or an exponent are different values.

A text can be well formed and still say nothing at some place: a number beyond every double, a
string with half of a surrogate pair, a nesting too deep to keep. Such a place is `invalid`. It does
no harm where nobody looks at it, and whoever looks at it refuses it, because it is none of the
values that can be asked for. `settled?` is the reading for which every place counts: it refuses
`invalid` anywhere, keeps the last of repeated members and orders members by name.
-/

namespace Provenance

/-- A JSON value. -/
inductive Json where
  | null
  | bool (b : Bool)
  | int (n : Int)
  | real (x : Binary64)
  | str (s : String)
  | arr (items : List Json)
  | obj (members : List (String × Json))
  | invalid
  deriving Inhabited

namespace Json

/-- The first member of that name. -/
def lookup (name : String) : List (String × Json) → Option Json
  | [] => none
  | (n, v) :: rest => if n = name then some v else lookup name rest

/-- The value of a member of an object; nothing for any other value. -/
def get? (v : Json) (name : String) : Option Json :=
  match v with
  | .obj members => lookup name members
  | _ => none

/-- Puts a member into a list ordered by name, in place of one with the same name. -/
def insertMember (name : String) (v : Json) : List (String × Json) → List (String × Json)
  | [] => [(name, v)]
  | (n, w) :: rest =>
    if name = n then (name, v) :: rest
    else if name < n then (name, v) :: (n, w) :: rest
    else (n, w) :: insertMember name v rest

/-- Members ordered by name, the last of repeated ones. -/
def orderMembers (members : List (String × Json)) : List (String × Json) :=
  members.foldl (fun acc m => insertMember m.1 m.2 acc) []

mutual

/-- No place in the value is `invalid`. -/
def isSound : Json → Bool
  | .arr items => areSound items
  | .obj members => membersSound members
  | .invalid => false
  | _ => true

/-- `isSound` of every item. -/
def areSound : List Json → Bool
  | [] => true
  | v :: rest => isSound v && areSound rest

/-- `isSound` of every member. -/
def membersSound : List (String × Json) → Bool
  | [] => true
  | (_, v) :: rest => isSound v && membersSound rest

end

mutual

/-- The value with the members of every object ordered by name and the last of repeated ones. -/
def ordered : Json → Json
  | .arr items => .arr (orderedItems items)
  | .obj members => .obj (orderMembers (orderedMembers members))
  | v => v

/-- `ordered` of every item. -/
def orderedItems : List Json → List Json
  | [] => []
  | v :: rest => ordered v :: orderedItems rest

/-- `ordered` of every member, in place. -/
def orderedMembers : List (String × Json) → List (String × Json)
  | [] => []
  | (n, v) :: rest => (n, ordered v) :: orderedMembers rest

end

/-- The value as a whole, if it says something at every place. -/
def settled? (v : Json) : Option Json := if v.isSound then some v.ordered else none

end Json

end Provenance
