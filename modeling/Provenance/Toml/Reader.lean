import Provenance.Toml.Item
import Provenance.Toml.Lexical

/-!
# Reading TOML

`Toml.read?` reads a configuration file as a `Json` object. Dates and times become texts, and numbers
that are not finite become null.
-/

namespace Provenance.Toml

mutual

/-- A value; `depth` counts the arrays and tables around it. -/
def value? : (fuel depth : Nat) → List Char → Option (Json × List Char)
  | 0, _, _ => none
  | fuel + 1, depth, s =>
    match s with
    | '"' :: _ => (string? s).map fun (t, rest) => (.str t, rest)
    | '\'' :: _ => (string? s).map fun (t, rest) => (.str t, rest)
    | '[' :: rest => if depth < maxDepth then items? fuel (depth + 1) [] rest else none
    | '\x7b' :: rest => if depth < maxDepth then inlineTable? fuel (depth + 1) rest else none
    | 't' :: 'r' :: 'u' :: 'e' :: rest => some (.bool true, rest)
    | 'f' :: 'a' :: 'l' :: 's' :: 'e' :: rest => some (.bool false, rest)
    | s => scalar? s

/-- The items of an array, up to the closing bracket. `acc` has the latest item first. -/
def items? : (fuel depth : Nat) → (acc : List Json) → List Char → Option (Json × List Char)
  | 0, _, _, _ => none
  | fuel + 1, depth, acc, s =>
    match skipLines false s with
    | ']' :: rest => some (.arr acc.reverse, rest)
    | s => do
      let (v, rest) ← value? fuel depth s
      match skipLines false rest with
      | ',' :: rest => items? fuel depth (v :: acc) rest
      | ']' :: rest => pure (.arr (v :: acc).reverse, rest)
      | _ => none

/-- A table on one line, after the opening brace. -/
def inlineTable? : (fuel depth : Nat) → List Char → Option (Json × List Char)
  | 0, _, _ => none
  | fuel + 1, depth, s =>
    match skipBlanks s with
    | '\x7d' :: rest => some (.obj [], rest)
    | s => pairs? fuel depth .empty s

/-- The pairs of a table on one line, up to the closing brace. -/
def pairs? : (fuel depth : Nat) → Item → List Char → Option (Json × List Char)
  | 0, _, _, _ => none
  | fuel + 1, depth, t, s => do
    let (key, rest) ← key? s
    let rest ← mark? '=' rest
    let (v, rest) ← value? fuel depth (skipBlanks rest)
    let t ← t.insertPair? key v
    match skipBlanks rest with
    | ',' :: rest => pairs? fuel depth t rest
    | '\x7d' :: rest => pure (t.toJson, rest)
    | _ => none

end

/-- A header after its first bracket, and the text after its line. -/
def header? (s : List Char) : Option (Statement × List Char) :=
  match s with
  | '[' :: rest => do
    let (key, rest) ← key? rest
    let rest ← mark? ']' rest
    let rest ← mark? ']' rest
    pure (.repeatedHeader key, ← lineEnd? rest)
  | rest => do
    let (key, rest) ← key? rest
    let rest ← mark? ']' rest
    pure (.header key, ← lineEnd? rest)

/-- A pair, and the text after its line. -/
def pair? (s : List Char) : Option (Statement × List Char) := do
  let (key, rest) ← key? s
  let rest ← mark? '=' rest
  let (v, rest) ← value? (2 * rest.length + 2) 0 (skipBlanks rest)
  pure (.pair key v, ← lineEnd? rest)

/-- The statements of a text. -/
def statements? : (fuel : Nat) → List Char → Option (List Statement)
  | 0, _ => none
  | fuel + 1, s =>
    match skipBlanks s with
    | [] => some []
    | '[' :: rest => do
      let (st, rest) ← header? rest
      pure (st :: (← statements? fuel rest))
    | s =>
      match lineEnd? s with
      | some rest => statements? fuel rest
      | none => do
        let (st, rest) ← pair? s
        pure (st :: (← statements? fuel rest))

/-- The text without a mark of its byte order. -/
def withoutMark : List Char → List Char
  | '\ufeff' :: rest => rest
  | s => s

/-- The value of a configuration file. -/
def read? (text : String) : Option Json := do
  let s := withoutMark text.toList
  let statements ← statements? (s.length + 2) s
  let root ← build? [] .empty statements
  pure root.toJson.ordered

end Provenance.Toml
