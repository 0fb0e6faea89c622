import Provenance.Json.Basic
import Provenance.Text.Hex

/-!
# Reading JSON text

`Json.read?` reads a text that is one JSON value and blanks. The grammar is strict: no comments, no
trailing commas, no leading zeros or plus signs, no control character inside a string. What is well
formed but denotes nothing is read as `Json.invalid`; see `Provenance.Json.Basic`.

The reader runs on fuel that its input bounds: every call but one per value consumes a character.
-/

namespace Provenance.Json

/-- Values nested in more arrays and objects than this cannot be kept. -/
def maxDepth : Nat := 127

/-- A blank between tokens. -/
def isBlank (c : Char) : Bool := c = ' ' || c = '\n' || c = '\t' || c = '\r'

/-- The text after leading blanks. -/
def skipBlanks : List Char → List Char
  | [] => []
  | c :: rest => if isBlank c then skipBlanks rest else c :: rest

/-- A code unit written as four hexadecimal digits, and the rest. -/
def codeUnit? : List Char → Option (Nat × List Char)
  | a :: b :: c :: d :: rest => do
    let a ← Hex.value? a
    let b ← Hex.value? b
    let c ← Hex.value? c
    let d ← Hex.value? d
    pure (a * 4096 + b * 256 + c * 16 + d, rest)
  | _ => none

/-- The character that a one-letter escape stands for. -/
def escape? : Char → Option Char
  | '"' => some '"'
  | '\\' => some '\\'
  | '/' => some '/'
  | 'b' => some '\x08'
  | 'f' => some '\x0c'
  | 'n' => some '\n'
  | 'r' => some '\r'
  | 't' => some '\t'
  | _ => none

/-- A first half of a surrogate pair. -/
def isHighSurrogate (n : Nat) : Bool := 0xD800 ≤ n && n ≤ 0xDBFF

/-- A second half of a surrogate pair. -/
def isLowSurrogate (n : Nat) : Bool := 0xDC00 ≤ n && n ≤ 0xDFFF

/-- A string after its opening quote: its characters, unless a surrogate stands alone in it, and the
rest after the closing quote. `acc` holds the characters so far, last first. -/
def stringBody : (fuel : Nat) → (acc : List Char) → (sound : Bool) → List Char →
    Option (Option String × List Char)
  | 0, _, _, _ => none
  | fuel + 1, acc, sound, s =>
    match s with
    | '"' :: rest => some (if sound then some (String.ofList acc.reverse) else none, rest)
    | '\\' :: 'u' :: rest =>
      match codeUnit? rest with
      | none => none
      | some (n, rest) =>
        if isHighSurrogate n then
          match rest with
          | '\\' :: 'u' :: rest' =>
            match codeUnit? rest' with
            | none => none
            | some (m, rest'') =>
              if isLowSurrogate m then
                let c := Char.ofNat (0x10000 + (n - 0xD800) * 1024 + (m - 0xDC00))
                stringBody fuel (c :: acc) sound rest''
              else stringBody fuel acc false rest
          | _ => stringBody fuel acc false rest
        else if isLowSurrogate n then stringBody fuel acc false rest
        else stringBody fuel (Char.ofNat n :: acc) sound rest
    | '\\' :: c :: rest =>
      match escape? c with
      | some c => stringBody fuel (c :: acc) sound rest
      | none => none
    | c :: rest => if c.toNat < 32 then none else stringBody fuel (c :: acc) sound rest
    | [] => none

/-- A decimal digit. -/
def isDigit (c : Char) : Bool := 48 ≤ c.toNat && c.toNat ≤ 57

/-- The number that decimal digits write. -/
def digitsNat (digits : List Char) : Nat :=
  digits.foldl (fun n c => n * 10 + (c.toNat - 48)) 0

/-- The digits of a whole part: a single zero, or digits that start with none. -/
def wholeDigits? (s : List Char) : Option (List Char × List Char) :=
  let digits := s.takeWhile isDigit
  match digits with
  | [] => none
  | '0' :: _ :: _ => none
  | _ => some (digits, s.dropWhile isDigit)

/-- The digits after a decimal point, if there is one. -/
def fractionDigits? : List Char → Option (Option (List Char) × List Char)
  | '.' :: rest =>
    let digits := rest.takeWhile isDigit
    if digits.isEmpty then none else some (some digits, rest.dropWhile isDigit)
  | s => some (none, s)

/-- The exponent after a letter `e`, if there is one. -/
def exponent? : List Char → Option (Option Int × List Char)
  | c :: rest =>
    if c = 'e' || c = 'E' then
      let (negative, rest) := match rest with
        | '+' :: r => (false, r)
        | '-' :: r => (true, r)
        | r => (false, r)
      let digits := rest.takeWhile isDigit
      if digits.isEmpty then none
      else
        let n : Int := digitsNat digits
        some (some (if negative then -n else n), rest.dropWhile isDigit)
    else some (none, c :: rest)
  | [] => some (none, [])

/-- The value of a double that may be out of range. -/
def ofReal? : Option Binary64 → Json
  | some x => .real x
  | none => .invalid

/-- The value of a number without fraction and exponent. It is a whole number when it fits into
sixty-four bits, with or without a sign; minus zero and all others are doubles. -/
def wholeValue (negative : Bool) (n : Nat) : Json :=
  if negative then
    if n = 0 then ofReal? (Binary64.ofDecimal? true 0 0)
    else if n ≤ Nat.pow 2 63 then .int (-(n : Int))
    else ofReal? (Binary64.ofDecimal? true n 0)
  else if n < Nat.pow 2 64 then .int n
  else ofReal? (Binary64.ofDecimal? false n 0)

/-- A number after its sign. -/
def unsigned? (negative : Bool) (s : List Char) : Option (Json × List Char) := do
  let (whole, rest) ← wholeDigits? s
  let (fraction, rest) ← fractionDigits? rest
  let (exponent, rest) ← exponent? rest
  match fraction, exponent with
  | none, none => pure (wholeValue negative (digitsNat whole), rest)
  | _, _ =>
    let fraction := fraction.getD []
    let digits := digitsNat (whole ++ fraction)
    let exponent := exponent.getD 0 - fraction.length
    pure (ofReal? (Binary64.ofDecimal? negative digits exponent), rest)

/-- A number. -/
def number? : List Char → Option (Json × List Char)
  | '-' :: rest => unsigned? true rest
  | s => unsigned? false s

/-- An object read to its end: `invalid` when a member's name is none. -/
def closeObject (sound : Bool) (acc : List (String × Json)) : Json :=
  if sound then .obj acc.reverse else .invalid

/-- A container at a depth; too deep a container cannot be kept. -/
def kept (depth : Nat) (v : Json) : Json := if depth < maxDepth then v else .invalid

mutual

/-- A value, read from a text without leading blanks. `depth` counts the arrays and objects
around it. -/
def value? : (fuel depth : Nat) → List Char → Option (Json × List Char)
  | 0, _, _ => none
  | fuel + 1, depth, s =>
    match s with
    | 'n' :: 'u' :: 'l' :: 'l' :: rest => some (.null, rest)
    | 't' :: 'r' :: 'u' :: 'e' :: rest => some (.bool true, rest)
    | 'f' :: 'a' :: 'l' :: 's' :: 'e' :: rest => some (.bool false, rest)
    | '"' :: rest =>
      match stringBody (rest.length + 1) [] true rest with
      | some (some text, rest) => some (.str text, rest)
      | some (none, rest) => some (.invalid, rest)
      | none => none
    | '[' :: rest =>
      match skipBlanks rest with
      | ']' :: rest => some (kept depth (.arr []), rest)
      | rest =>
        match items? fuel (depth + 1) [] rest with
        | some (v, rest) => some (kept depth v, rest)
        | none => none
    | '\x7b' :: rest =>
      match skipBlanks rest with
      | '\x7d' :: rest => some (kept depth (.obj []), rest)
      | rest =>
        match members? fuel (depth + 1) true [] rest with
        | some (v, rest) => some (kept depth v, rest)
        | none => none
    | _ => number? s

/-- The items of an array up to its closing bracket, the first one without leading blanks. -/
def items? : (fuel depth : Nat) → (acc : List Json) → List Char → Option (Json × List Char)
  | 0, _, _, _ => none
  | fuel + 1, depth, acc, s =>
    match value? fuel depth s with
    | none => none
    | some (v, rest) =>
      match skipBlanks rest with
      | ']' :: rest => some (.arr (v :: acc).reverse, rest)
      | ',' :: rest => items? fuel depth (v :: acc) (skipBlanks rest)
      | _ => none

/-- The members of an object up to its closing brace, the first one without leading blanks. -/
def members? : (fuel depth : Nat) → (sound : Bool) → (acc : List (String × Json)) → List Char →
    Option (Json × List Char)
  | 0, _, _, _, _ => none
  | fuel + 1, depth, sound, acc, s =>
    match s with
    | '"' :: rest =>
      match stringBody (rest.length + 1) [] true rest with
      | none => none
      | some (name, rest) =>
        match skipBlanks rest with
        | ':' :: rest =>
          match value? fuel depth (skipBlanks rest) with
          | none => none
          | some (v, rest) =>
            let sound := sound && name.isSome
            let acc := (name.getD "", v) :: acc
            match skipBlanks rest with
            | '\x7d' :: rest => some (closeObject sound acc, rest)
            | ',' :: rest => members? fuel depth sound acc (skipBlanks rest)
            | _ => none
        | _ => none
    | _ => none

end

/-- The value that a text writes, with blanks around it. -/
def read? (text : String) : Option Json :=
  let s := text.toList
  match value? (2 * s.length + 2) 0 (skipBlanks s) with
  | some (v, rest) => if (skipBlanks rest).isEmpty then some v else none
  | none => none

end Provenance.Json
