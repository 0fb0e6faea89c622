import Provenance.Json.Basic
import Provenance.Text.Hex
import Provenance.Time.Instant

/-!
# Words of TOML

Blanks, comments, keys, strings, numbers, dates and times. Each reader takes a word off the front
of a text and gives the rest.
-/

namespace Provenance.Toml

/-- A space or a tab. -/
def isBlank (c : Char) : Bool := c = ' ' || c = '\t'

/-- The text after blanks. -/
def skipBlanks (s : List Char) : List Char := s.dropWhile isBlank

/-- A character that may stand in a comment. -/
def isCommentChar (c : Char) : Bool :=
  c = '\t' || (0x20 ≤ c.toNat && c.toNat ≤ 0x7e) || 0x80 ≤ c.toNat

/-- The text after a line break. -/
def newline? : List Char → Option (List Char)
  | '\n' :: rest => some rest
  | '\r' :: '\n' :: rest => some rest
  | _ => none

/-- The text after the rest of a line: blanks and perhaps a comment. -/
def lineEnd? (s : List Char) : Option (List Char) :=
  let s := match skipBlanks s with
    | '#' :: rest => rest.dropWhile isCommentChar
    | s => s
  match s with
  | [] => some []
  | s => newline? s

/-- The text after blanks, line breaks and comments; `comment` says that it starts inside a
comment. -/
def skipLines (comment : Bool) : List Char → List Char
  | '\n' :: rest => skipLines false rest
  | '\r' :: '\n' :: rest => skipLines false rest
  | c :: rest =>
    if comment then (if isCommentChar c then skipLines true rest else c :: rest)
    else if isBlank c then skipLines false rest
    else if c = '#' then skipLines true rest
    else c :: rest
  | [] => []

/-! ## Strings -/

/-- A character that stands for itself in a string between `quote`s. -/
def isPlainChar (quote c : Char) : Bool := isCommentChar c && c ≠ quote && (quote = '\'' || c ≠ '\\')

/-- The character of a hexadecimal number of `count` digits. -/
def hexChar? (count : Nat) (s : List Char) : Option (Char × List Char) := do
  let digits ← (s.take count).mapM Hex.value?
  let n := digits.foldl (fun n d => n * 16 + d) 0
  if digits.length = count ∧ n.isValidChar then pure (Char.ofNat n, s.drop count) else none

/-- The character of an escape, after the backslash. -/
def escape? : List Char → Option (Char × List Char)
  | 'b' :: rest => some ('\x08', rest)
  | 'f' :: rest => some ('\x0c', rest)
  | 'n' :: rest => some ('\n', rest)
  | 'r' :: rest => some ('\r', rest)
  | 't' :: rest => some ('\t', rest)
  | '"' :: rest => some ('"', rest)
  | '\\' :: rest => some ('\\', rest)
  | 'u' :: rest => hexChar? 4 rest
  | 'U' :: rest => hexChar? 8 rest
  | _ => none

/-- The text after a line break and the blanks and line breaks after it, where a backslash at the
end of a line has them left out. -/
def skipFolded? (s : List Char) : Option (List Char) := do
  let rest ← newline? (skipBlanks s)
  pure (dropAll rest)
where
  /-- The text after blanks and line breaks. -/
  dropAll : List Char → List Char
    | '\n' :: rest => dropAll rest
    | '\r' :: '\n' :: rest => dropAll rest
    | c :: rest => if isBlank c then dropAll rest else c :: rest
    | [] => []

/-- A string of one line after its opening quote. `acc` has the latest character first. -/
def lineString? (quote : Char) : (fuel : Nat) → (acc : List Char) → List Char →
    Option (String × List Char)
  | 0, _, _ => none
  | _ + 1, _, [] => none
  | fuel + 1, acc, c :: rest =>
    if c = quote then some (String.ofList acc.reverse, rest)
    else if c = '\\' && quote = '"' then
      match escape? rest with
      | some (c, rest) => lineString? quote fuel (c :: acc) rest
      | none => none
    else if isPlainChar quote c then lineString? quote fuel (c :: acc) rest
    else none

/-- A string of several lines after its opening quotes. Three quotes close it; one or two more
before them belong to it. -/
def linesString? (quote : Char) : (fuel : Nat) → (acc : List Char) → List Char →
    Option (String × List Char)
  | 0, _, _ => none
  | fuel + 1, acc, s =>
    match s with
    | [] => none
    | '\n' :: rest => linesString? quote fuel ('\n' :: acc) rest
    | '\r' :: '\n' :: rest => linesString? quote fuel ('\n' :: acc) rest
    | c :: rest =>
      if c = quote then
        let quotes := s.takeWhile (· = quote)
        let rest := s.drop quotes.length
        if quotes.length < 3 then linesString? quote fuel (quotes ++ acc) rest
        else if quotes.length ≤ 5 then
          some (String.ofList (quotes.drop 3 ++ acc).reverse, rest)
        else none
      else if c = '\\' && quote = '"' then
        match escape? rest with
        | some (c, rest) => linesString? quote fuel (c :: acc) rest
        | none =>
          match skipFolded? rest with
          | some rest => linesString? quote fuel acc rest
          | none => none
      else if isPlainChar quote c then linesString? quote fuel (c :: acc) rest
      else none

/-- A string of one line. -/
def shortString? (s : List Char) : Option (String × List Char) :=
  match s with
  | '"' :: rest => lineString? '"' (s.length + 1) [] rest
  | '\'' :: rest => lineString? '\'' (s.length + 1) [] rest
  | _ => none

/-- A string. A line break right after three opening quotes does not belong to it. -/
def string? (s : List Char) : Option (String × List Char) :=
  match s with
  | '"' :: '"' :: '"' :: rest => linesString? '"' (s.length + 1) [] ((newline? rest).getD rest)
  | '\'' :: '\'' :: '\'' :: rest => linesString? '\'' (s.length + 1) [] ((newline? rest).getD rest)
  | s => shortString? s

/-! ## Keys -/

/-- A character of a name without quotes. -/
def isBareChar (c : Char) : Bool := c.isAlphanum || c = '_' || c = '-'

/-- One name of a key. -/
def name? (s : List Char) : Option (String × List Char) :=
  match s with
  | '"' :: _ => shortString? s
  | '\'' :: _ => shortString? s
  | s =>
    let name := s.takeWhile isBareChar
    if name.isEmpty then none else some (String.ofList name, s.dropWhile isBareChar)

/-- The names of a key, with dots between them. -/
def names? : (fuel : Nat) → List Char → Option (List String × List Char)
  | 0, _ => none
  | fuel + 1, s => do
    let (name, rest) ← name? (skipBlanks s)
    match skipBlanks rest with
    | '.' :: rest => do
      let (names, rest) ← names? fuel rest
      pure (name :: names, rest)
    | rest => pure ([name], rest)

/-- Keys of more names, and values nested deeper, are refused. -/
def maxDepth : Nat := 79

/-- A key. -/
def key? (s : List Char) : Option (List String × List Char) := do
  let (names, rest) ← names? (s.length + 1) s
  if names.length ≤ maxDepth then pure (names, rest) else none

/-! ## Numbers -/

/-- A decimal digit. -/
def isDigit (c : Char) : Bool := 48 ≤ c.toNat && c.toNat ≤ 57

/-- Digits, where single underscores may stand between two of them. -/
def digits? (isDigit : Char → Bool) (s : List Char) : Option (List Char × List Char) :=
  match s with
  | c :: rest => if isDigit c then (more [c] rest) else none
  | [] => none
where
  /-- More digits after some, the latest first. -/
  more (acc : List Char) : List Char → Option (List Char × List Char)
    | '_' :: c :: rest => if isDigit c then more (c :: acc) rest else none
    | ['_'] => none
    | c :: rest => if isDigit c then more (c :: acc) rest else some (acc.reverse, c :: rest)
    | [] => some (acc.reverse, [])

/-- The number that digits to a base write. -/
def digitsNat (base : Nat) (digits : List Char) : Nat :=
  digits.foldl (fun n c => n * base + (Hex.value? c).getD 0) 0

/-- A whole number of sixty-four bits. -/
def whole? (n : Int) : Option Json :=
  if -(Nat.pow 2 63 : Int) ≤ n ∧ n < (Nat.pow 2 63 : Int) then some (.int n) else none

/-- A whole number to a base, after the letter of the base. -/
def based? (base : Nat) (s : List Char) : Option (Json × List Char) := do
  let (digits, rest) ← digits? (fun c => match Hex.value? c with
    | some v => v < base
    | none => false) s
  pure (← whole? (digitsNat base digits), rest)

/-- The digits before a point: a zero alone, or digits that start with none. -/
def wholeDigits? (s : List Char) : Option (List Char × List Char) :=
  match s with
  | '0' :: rest => some (['0'], rest)
  | s => digits? isDigit s

/-- The digits after a point, if there is one. -/
def fraction? : List Char → Option (Option (List Char) × List Char)
  | '.' :: rest => (digits? isDigit rest).map fun (d, r) => (some d, r)
  | s => some (none, s)

/-- The exponent, if there is one. -/
def exponent? : List Char → Option (Option Int × List Char)
  | c :: rest =>
    if c = 'e' || c = 'E' then
      let (negative, rest) := match rest with
        | '+' :: r => (false, r)
        | '-' :: r => (true, r)
        | r => (false, r)
      (digits? isDigit rest).map fun (d, r) =>
        let n : Int := digitsNat 10 d
        (some (if negative then -n else n), r)
    else some (none, c :: rest)
  | [] => some (none, [])

/-- The value of a number with a fraction or an exponent. One that is too large is refused, and read
as minus infinity, which is null, if it is negative. -/
def real? (negative : Bool) (digits : Nat) (exponent : Int) : Option Json :=
  match Binary64.ofDecimal? negative digits exponent with
  | some x => some (.real x)
  | none => if negative then some .null else none

/-- A number after its sign. Infinity and what is no number are null. -/
def unsigned? (negative : Bool) (s : List Char) : Option (Json × List Char) :=
  match s with
  | 'i' :: 'n' :: 'f' :: rest => some (.null, rest)
  | 'n' :: 'a' :: 'n' :: rest => some (.null, rest)
  | s => do
    let (whole, rest) ← wholeDigits? s
    let (fraction, rest) ← fraction? rest
    let (exponent, rest) ← exponent? rest
    match fraction, exponent with
    | none, none =>
      let n : Int := digitsNat 10 whole
      pure (← whole? (if negative then -n else n), rest)
    | _, _ =>
      let fraction := fraction.getD []
      let v ← real? negative (digitsNat 10 (whole ++ fraction)) (exponent.getD 0 - fraction.length)
      pure (v, rest)

/-- A number. -/
def number? : List Char → Option (Json × List Char)
  | '+' :: rest => unsigned? false rest
  | '-' :: rest => unsigned? true rest
  | '0' :: 'x' :: rest => based? 16 rest
  | '0' :: 'o' :: rest => based? 8 rest
  | '0' :: 'b' :: rest => based? 2 rest
  | s => unsigned? false s

/-! ## Dates and times -/

/-- A number of exactly `count` digits, in a range. -/
def fixed? (count low high : Nat) (s : List Char) : Option (Nat × List Char) :=
  let digits := s.take count
  let n := digitsNat 10 digits
  if digits.length = count ∧ digits.all isDigit ∧ low ≤ n ∧ n ≤ high then some (n, s.drop count)
  else none

/-- The text after a character. -/
def mark? (c : Char) : List Char → Option (List Char)
  | d :: rest => if d = c then some rest else none
  | [] => none

/-- A number with at least that many digits. -/
def padded (width n : Nat) : List Char :=
  let digits := Nat.toDigits 10 n
  List.replicate (width - digits.length) '0' ++ digits

/-- A date that exists, as text. -/
def date? (s : List Char) : Option (List Char × List Char) := do
  let (year, s) ← fixed? 4 0 9999 s
  let (month, s) ← fixed? 2 1 12 (← mark? '-' s)
  let (day, s) ← fixed? 2 1 31 (← mark? '-' s)
  if (⟨year, month, day⟩ : Calendar.Date).isValid then
    pure (padded 4 year ++ '-' :: padded 2 month ++ '-' :: padded 2 day, s)
  else none

/-- A fraction of a second as text: nine digits count, and zeros at the end do not. -/
def secondFraction? : List Char → Option (List Char × List Char)
  | '.' :: rest =>
    let digits := rest.takeWhile isDigit
    let counted := ((digits.take 9).reverse.dropWhile (· = '0')).reverse
    if digits.isEmpty then none
    else some (if counted.isEmpty then [] else '.' :: counted, rest.drop digits.length)
  | s => some ([], s)

/-- A time of day, as text. -/
def time? (s : List Char) : Option (List Char × List Char) := do
  let (hour, s) ← fixed? 2 0 23 s
  let (minute, s) ← fixed? 2 0 59 (← mark? ':' s)
  let (second, s) ← fixed? 2 0 60 (← mark? ':' s)
  let (fraction, s) ← secondFraction? s
  pure (padded 2 hour ++ ':' :: padded 2 minute ++ ':' :: padded 2 second ++ fraction, s)

/-- The distance from universal time after a sign, as text. No distance is written with a plus. -/
def distance? (sign : Char) (s : List Char) : Option (List Char × List Char) := do
  let (hour, s) ← fixed? 2 0 23 s
  let (minute, s) ← fixed? 2 0 59 (← mark? ':' s)
  let sign := if hour = 0 ∧ minute = 0 then '+' else sign
  pure (sign :: padded 2 hour ++ ':' :: padded 2 minute, s)

/-- The distance from universal time, if there is one, as text. -/
def offset? : List Char → Option (List Char × List Char)
  | 'Z' :: rest => some (['Z'], rest)
  | 'z' :: rest => some (['Z'], rest)
  | '+' :: rest => distance? '+' rest
  | '-' :: rest => distance? '-' rest
  | s => some ([], s)

/-- A time of day and a distance from universal time after a date, as text. After a blank there may
be something else. -/
def timeAfterDate? : List Char → Option (List Char × List Char)
  | ' ' :: a :: rest =>
    if isDigit a then withOffset (a :: rest) else some ([], ' ' :: a :: rest)
  | 'T' :: rest => withOffset rest
  | 't' :: rest => withOffset rest
  | s => some ([], s)
where
  /-- A time of day and a distance from universal time. -/
  withOffset (s : List Char) : Option (List Char × List Char) := do
    let (time, s) ← time? s
    let (offset, s) ← offset? s
    pure ('T' :: time ++ offset, s)

/-- Four digits and a hyphen begin a date. -/
def startsDate (s : List Char) : Bool :=
  (s.take 4).all isDigit && (s.drop 4).head? = some '-' && (s.take 4).length = 4

/-- Two digits and a colon begin a time of day. -/
def startsTime (s : List Char) : Bool :=
  (s.take 2).all isDigit && (s.drop 2).head? = some ':' && (s.take 2).length = 2

/-- A number, or a date and time as text. -/
def scalar? (s : List Char) : Option (Json × List Char) :=
  if startsDate s then do
    let (date, s) ← date? s
    let (time, s) ← timeAfterDate? s
    pure (.str (String.ofList (date ++ time)), s)
  else if startsTime s then (time? s).map fun (time, s) => (.str (String.ofList time), s)
  else number? s

end Provenance.Toml
