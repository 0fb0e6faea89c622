import Provenance.Json.Printer

/-!
# Canonical JSON text

The one text of a value that is hashed and signed: no blanks, members ordered by the UTF-16 code
units of their names, and every number written as the shortest decimal of its double. Values that
differ only in the order of members have the same canonical text.
-/

namespace Provenance.Json

/-- The UTF-16 code units of a character. -/
def charUnits (c : Char) : List Nat :=
  let n := c.toNat
  if n < 0x10000 then [n] else [0xD800 + (n - 0x10000) / 1024, 0xDC00 + (n - 0x10000) % 1024]

/-- The UTF-16 code units of a text. -/
def units (s : String) : List Nat := s.toList.flatMap charUnits

/-- Order of texts by their UTF-16 code units. -/
def unitsLe (a b : String) : Bool :=
  !(units b).lex (units a) fun x y => decide (x < y)

/-- Members ordered by the UTF-16 code units of their names; equal names keep their order. -/
def sortMembers (members : List (String × Json)) : List (String × Json) :=
  members.mergeSort fun a b => unitsLe a.1 b.1

/-- A double as canonical text writes it. -/
def realText : Option Binary64 → List Char
  | some x => (Notation64.canonical.write x).toList
  | none => ['n', 'u', 'l', 'l']

/-- A whole number as canonical text writes it: its digits while it is a double exactly, and the
nearest double beyond. -/
def wholeText (n : Int) : List Char :=
  if n.natAbs ≤ Nat.pow 2 53 then (toString n).toList else realText (Binary64.ofInt? n)

mutual

/-- The canonical text of a value, its members in their given order. -/
def canonicalChars : Json → List Char
  | .arr items => '[' :: canonicalItems items
  | .obj members => '\x7b' :: canonicalMembers members
  | .int n => wholeText n
  | .real x => realText (some x)
  | v => scalarText v

/-- Items and the closing bracket. -/
def canonicalItems : List Json → List Char
  | [] => [']']
  | [v] => canonicalChars v ++ [']']
  | v :: rest => canonicalChars v ++ ',' :: canonicalItems rest

/-- Members and the closing brace. -/
def canonicalMembers : List (String × Json) → List Char
  | [] => ['\x7d']
  | [(n, v)] => stringText n ++ ':' :: (canonicalChars v ++ ['\x7d'])
  | (n, v) :: rest => stringText n ++ ':' :: (canonicalChars v ++ ',' :: canonicalMembers rest)

end

mutual

/-- The value with the members of every object in canonical order. -/
def sorted : Json → Json
  | .arr items => .arr (sortedItems items)
  | .obj members => .obj (sortMembers (sortedMembers members))
  | v => v

/-- `sorted` of every item. -/
def sortedItems : List Json → List Json
  | [] => []
  | v :: rest => sorted v :: sortedItems rest

/-- `sorted` of every member, in place. -/
def sortedMembers : List (String × Json) → List (String × Json)
  | [] => []
  | (n, v) :: rest => (n, sorted v) :: sortedMembers rest

end

/-- The canonical text of a value. -/
def canonical (v : Json) : String := String.ofList (canonicalChars v.sorted)

end Provenance.Json
