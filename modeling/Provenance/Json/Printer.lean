import Provenance.Json.Basic
import Provenance.Number.Shortest

/-!
# Writing JSON text

Two layouts of one value: `compact` has no blanks, `pretty` puts every item and member on a line of
its own, indented by two spaces a level, and writes an empty array or object without a line break.
Strings escape only what has to be escaped: the quote, the backslash and control characters.
-/

namespace Provenance.Json

/-- A character inside a string. -/
def stringChar (c : Char) : List Char :=
  if c = '"' then ['\\', '"']
  else if c = '\\' then ['\\', '\\']
  else if c = '\n' then ['\\', 'n']
  else if c = '\r' then ['\\', 'r']
  else if c = '\t' then ['\\', 't']
  else if c = '\x08' then ['\\', 'b']
  else if c = '\x0c' then ['\\', 'f']
  else if c.toNat < 32 then
    ['\\', 'u', '0', '0', Nat.digitChar (c.toNat / 16), Nat.digitChar (c.toNat % 16)]
  else [c]

/-- A string between quotes. -/
def stringText (s : String) : List Char := '"' :: (s.toList.flatMap stringChar ++ ['"'])

/-- A value without parts. Doubles are written in the plain notation, and what says nothing as
null. -/
def scalarText : Json → List Char
  | .null => ['n', 'u', 'l', 'l']
  | .bool true => ['t', 'r', 'u', 'e']
  | .bool false => ['f', 'a', 'l', 's', 'e']
  | .int n => (toString n).toList
  | .real x => (Notation64.plain.write x).toList
  | .str s => stringText s
  | _ => ['n', 'u', 'l', 'l']

mutual

/-- The value without blanks. -/
def compactChars : Json → List Char
  | .arr items => '[' :: compactItems items
  | .obj members => '\x7b' :: compactMembers members
  | v => scalarText v

/-- Items and the closing bracket. -/
def compactItems : List Json → List Char
  | [] => [']']
  | [v] => compactChars v ++ [']']
  | v :: rest => compactChars v ++ ',' :: compactItems rest

/-- Members and the closing brace. -/
def compactMembers : List (String × Json) → List Char
  | [] => ['\x7d']
  | [(n, v)] => stringText n ++ ':' :: (compactChars v ++ ['\x7d'])
  | (n, v) :: rest => stringText n ++ ':' :: (compactChars v ++ ',' :: compactMembers rest)

end

/-- A line break and the indentation of a level. -/
def newline (level : Nat) : List Char := '\n' :: List.replicate (2 * level) ' '

mutual

/-- The value over several lines; `level` is the indentation of its last line. -/
def prettyChars (level : Nat) : Json → List Char
  | .arr [] => ['[', ']']
  | .arr items => '[' :: (newline (level + 1) ++ prettyItems level items)
  | .obj [] => ['\x7b', '\x7d']
  | .obj members => '\x7b' :: (newline (level + 1) ++ prettyMembers level members)
  | v => scalarText v

/-- Items on lines of their own and the closing bracket. -/
def prettyItems (level : Nat) : List Json → List Char
  | [] => [']']
  | [v] => prettyChars (level + 1) v ++ (newline level ++ [']'])
  | v :: rest =>
    prettyChars (level + 1) v ++ ',' :: (newline (level + 1) ++ prettyItems level rest)

/-- Members on lines of their own and the closing brace. -/
def prettyMembers (level : Nat) : List (String × Json) → List Char
  | [] => ['\x7d']
  | [(n, v)] => stringText n ++ ':' :: ' ' :: (prettyChars (level + 1) v ++ (newline level ++ ['\x7d']))
  | (n, v) :: rest =>
    stringText n ++ ':' :: ' '
      :: (prettyChars (level + 1) v ++ ',' :: (newline (level + 1) ++ prettyMembers level rest))

end

/-- The value as one line without blanks. -/
def compact (v : Json) : String := String.ofList (compactChars v)

/-- The value over several lines, two spaces a level. -/
def pretty (v : Json) : String := String.ofList (prettyChars 0 v)

end Provenance.Json
