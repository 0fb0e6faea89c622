import Provenance.Text.Blank
import Provenance.Time.Instant

/-!
# Instants as text

An instant is written as date and time of universal time, `2024-05-06T07:08:09Z`, with three, six or
nine digits of a fraction if it has one. Reading is more generous: numbers may have fewer digits,
there may be blanks around them, and any distance from universal time may be given.
-/

namespace Provenance

namespace Timestamp

/-- A decimal digit. -/
def isDigit (c : Char) : Bool := 48 ≤ c.toNat && c.toNat ≤ 57

/-- The number that digits write. -/
def digitsNat (digits : List Char) : Nat := digits.foldl (fun n c => n * 10 + (c.toNat - 48)) 0

/-- A number of at most `width` digits after blanks, and the rest. -/
def number? (width : Nat) (s : List Char) : Option (Nat × List Char) :=
  let s := Text.trimStart s
  let digits := (s.take width).takeWhile isDigit
  if digits.isEmpty then none else some (digitsNat digits, s.drop digits.length)

/-- A number in a range. -/
def numberIn? (low high : Nat) (s : List Char) : Option (Nat × List Char) := do
  let (n, rest) ← number? 2 s
  if low ≤ n ∧ n ≤ high then pure (n, rest) else none

/-- A year: four digits, or any number of digits after a sign. -/
def year? (s : List Char) : Option (Int × List Char) :=
  match Text.trimStart s with
  | '-' :: rest => signed true rest
  | '+' :: rest => signed false rest
  | s => (number? 4 s).map fun (n, rest) => ((n : Int), rest)
where
  /-- The digits after a sign. -/
  signed (negative : Bool) (s : List Char) : Option (Int × List Char) :=
    let digits := s.takeWhile isDigit
    if digits.isEmpty then none
    else some (if negative then -(digitsNat digits : Int) else digitsNat digits, s.drop digits.length)

/-- A character after blanks. -/
def mark? (c : Char) (s : List Char) : Option (List Char) :=
  match Text.trimStart s with
  | d :: rest => if d = c then some rest else none
  | [] => none

/-- The nanoseconds of a fraction, of which nine digits count. -/
def fraction? : List Char → Option (Nat × List Char)
  | '.' :: rest =>
    let digits := rest.takeWhile isDigit
    let counted := digits.take 9
    if digits.isEmpty then none
    else some (digitsNat counted * Nat.pow 10 (9 - counted.length), rest.drop digits.length)
  | s => some (0, s)

/-- Two digits. -/
def twoDigits? : List Char → Option (Nat × List Char)
  | a :: b :: rest => if isDigit a && isDigit b then some (digitsNat [a, b], rest) else none
  | _ => none

/-- The hours and minutes after a sign, in seconds. -/
def distance? (s : List Char) : Option (Int × List Char) := do
  let (hours, s) ← twoDigits? s
  let (minutes, s) ← twoDigits? (s.dropWhile fun c => c = ':' || Text.isBlank c)
  if minutes < 60 then pure ((hours * 3600 + minutes * 60 : Nat), s) else none

/-- The distance from universal time, in seconds. -/
def offset? (s : List Char) : Option (Int × List Char) :=
  match Text.trimStart s with
  | 'Z' :: rest => some (0, rest)
  | 'z' :: rest => some (0, rest)
  | '+' :: rest => distance? rest
  | '-' :: rest => (distance? rest).map fun (n, rest) => (-n, rest)
  | '\u2212' :: rest => (distance? rest).map fun (n, rest) => (-n, rest)
  | a :: b :: c :: rest =>
    if [a.toLower, b.toLower, c.toLower] = ['u', 't', 'c'] then some (0, rest) else none
  | _ => none

/-- The seconds of a day. -/
def daySeconds : Int := 86400

/-- A date, and the rest. -/
def date? (s : List Char) : Option (Calendar.Date × List Char) := do
  let (year, s) ← year? s
  let (month, s) ← numberIn? 1 12 (← mark? '-' s)
  let (day, s) ← numberIn? 1 31 (← mark? '-' s)
  pure (⟨year, month, day⟩, s)

/-- The text after the letter or blank between date and time. -/
def timeMark? : List Char → Option (List Char)
  | c :: rest => if c = 'T' ∨ c = 't' ∨ c = ' ' then some rest else none
  | [] => none

/-- Seconds and nanoseconds of a time of day; a sixty-first second is a leap second. -/
def time? (s : List Char) : Option (Int × Nat × List Char) := do
  let (hour, s) ← numberIn? 0 23 s
  let (minute, s) ← numberIn? 0 59 (← mark? ':' s)
  let (second, s) ← numberIn? 0 60 (← mark? ':' s)
  let (nanos, s) ← fraction? s
  let (second, nanos) := if second = 60 then (59, nanos + 1000000000) else (second, nanos)
  pure ((hour * 3600 + minute * 60 + second : Nat), nanos, s)

/-- The year is counted. -/
def isCounted (year : Int) : Bool := Calendar.years.1 ≤ year && year ≤ Calendar.years.2

/-- Two digits of a number below a hundred. -/
def two (n : Nat) : String := String.ofList [Nat.digitChar (n / 10), Nat.digitChar (n % 10)]

/-- A number with at least that many digits. -/
def padded (width n : Nat) : String :=
  let digits := Nat.toDigits 10 n
  String.ofList (List.replicate (width - digits.length) '0' ++ digits)

/-- A year: four digits, or a sign and at least four digits. -/
def yearText (year : Int) : String :=
  if 0 ≤ year ∧ year ≤ 9999 then padded 4 year.toNat
  else (if year < 0 then "-" else "+") ++ padded 4 year.natAbs

/-- A fraction of a second with as many groups of three digits as it takes. -/
def fractionText (nanos : Nat) : String :=
  if nanos = 0 then ""
  else if nanos % 1000000 = 0 then "." ++ padded 3 (nanos / 1000000)
  else if nanos % 1000 = 0 then "." ++ padded 6 (nanos / 1000)
  else "." ++ padded 9 nanos

end Timestamp

namespace Instant

open Timestamp

/-- The instant that a text says. -/
def read? (text : String) : Option Instant := do
  let (date, s) ← date? text.toList
  let (second, nanos, s) ← time? (← timeMark? s)
  let (offset, s) ← offset? s
  if (Text.trimStart s).isEmpty ∧ date.isValid ∧ isCounted date.year ∧ offset.natAbs < 86400 then
    let seconds := date.dayNumber * daySeconds + second - offset
    if isCounted (Calendar.civil (seconds.fdiv daySeconds)).year then pure ⟨seconds, nanos⟩ else none
  else none

/-- The instant as text, in universal time. -/
def text (t : Instant) : String :=
  let date := Calendar.civil (t.seconds.fdiv daySeconds)
  let second := (t.seconds.fmod daySeconds).toNat
  let (leap, nanos) := if 1000000000 ≤ t.nanos then (1, t.nanos - 1000000000) else (0, t.nanos)
  s!"{yearText date.year}-{two date.month}-{two date.day}"
    ++ s!"T{two (second / 3600)}:{two (second / 60 % 60)}:{two (second % 60 + leap)}"
    ++ s!"{fractionText nanos}Z"

end Instant

end Provenance
