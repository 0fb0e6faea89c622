import Provenance.Json.Basic

/-!
# Tables

A TOML document builds nested tables by statements: pairs of a key and a value, and headers that say
where the following pairs go. A key is a path of names. A table may be built up in one place only:
`Item.descend?` refuses a path through a value, and a dotted key does not reach into a table that has
a header of its own.

What is built is read as a `Json` value.
-/

namespace Provenance.Toml

/-- What a key stands for. -/
inductive Item where
  | value (v : Json)
  /-- A table is implicit until it has a header, and dotted if a dotted key has made it. -/
  | table (implicit dotted : Bool) (members : List (String × Item))
  /-- The tables of repeated headers, the latest first. -/
  | tables (items : List Item)
  deriving Inhabited

namespace Item

/-- A table under a header. -/
def empty : Item := .table false false []

/-- The member of a table. -/
def member? (name : String) : List (String × Item) → Option Item
  | [] => none
  | (n, i) :: rest => if n = name then some i else member? name rest

/-- Sets a member of a table. -/
def setMember (name : String) (item : Item) : List (String × Item) → List (String × Item)
  | [] => [(name, item)]
  | (n, i) :: rest => if n = name then (name, item) :: rest else (n, i) :: setMember name item rest

/-- Changes the table at the end of a path. Tables that are not there yet are made on the way; of
repeated tables it is the latest. -/
def descend? (dotted : Bool) (change : Item → Option Item) :
    List String → Item → Option Item
  | [], t => change t
  | name :: path, .table i d members =>
    match member? name members with
    | none => do
      let t ← descend? dotted change path (.table true dotted [])
      pure (.table i d (setMember name t members))
    | some (.table i' d' members') => do
      if dotted && !i' then none
      let t ← descend? dotted change path (.table i' d' members')
      pure (.table i d (setMember name t members))
    | some (.tables (latest :: others)) => do
      let t ← descend? dotted change path latest
      pure (.table i d (setMember name (.tables (t :: others)) members))
    | some _ => none
  | _ :: _, _ => none

/-- Adds a pair to a table. A key of one name goes into a table with a header, a dotted key into
tables that dotted keys have made. -/
def addPair? (dotted : Bool) (name : String) (v : Json) : Item → Option Item
  | .table i d members =>
    if d ≠ dotted ∨ (member? name members).isSome then none
    else some (.table i d (members ++ [(name, .value v)]))
  | _ => none

/-- Adds a pair below a table. -/
def insertPair? (key : List String) (v : Json) (t : Item) : Option Item :=
  let path := key.dropLast
  descend? true (addPair? (!path.isEmpty) (key.getLastD "") v) path t

/-- Makes a table for a header. One that is there already has to be implicit, and not made by a
dotted key. -/
def openTable? (name : String) : Item → Option Item
  | .table i d members =>
    match member? name members with
    | none => some (.table i d (setMember name empty members))
    | some (.table true false members') =>
      some (.table i d (setMember name (.table false false members') members))
    | some _ => none
  | _ => none

/-- Makes one more table for a repeated header. -/
def appendTable? (name : String) : Item → Option Item
  | .table i d members =>
    match member? name members with
    | none => some (.table i d (setMember name (.tables [empty]) members))
    | some (.tables items) => some (.table i d (setMember name (.tables (empty :: items)) members))
    | some _ => none
  | _ => none

mutual

/-- The item as a value. -/
def toJson : Item → Json
  | .value v => v
  | .table _ _ members => .obj (membersJson members)
  | .tables items => .arr (itemsJson items).reverse

/-- `toJson` of every item. -/
def itemsJson : List Item → List Json
  | [] => []
  | i :: rest => toJson i :: itemsJson rest

/-- `toJson` of every member. -/
def membersJson : List (String × Item) → List (String × Json)
  | [] => []
  | (n, i) :: rest => (n, toJson i) :: membersJson rest

end

end Item

/-- A statement of a document. -/
inductive Statement where
  | pair (key : List String) (v : Json)
  | header (key : List String)
  | repeatedHeader (key : List String)

/-- The document of statements; pairs go to the table at a path. -/
def build? : (path : List String) → Item → List Statement → Option Item
  | _, root, [] => some root
  | path, root, .pair key v :: rest => do
    let root ← root.descend? false (Item.insertPair? key v) path
    build? path root rest
  | _, root, .header key :: rest => do
    let root ← root.descend? false (Item.openTable? (key.getLastD "")) key.dropLast
    build? key root rest
  | _, root, .repeatedHeader key :: rest => do
    let root ← root.descend? false (Item.appendTable? (key.getLastD "")) key.dropLast
    build? key root rest

end Provenance.Toml
