import Provenance.Glob.Basic

/-!
# Reading globs

`Glob.read` turns a text into tokens, one character after the other. A `Reader` holds what has been
read: the tokens of the innermost open group's current branch, and the groups around it.

Two stars are `segmentsBefore`, `segmentsAfter` or `segmentsBetween` where they fill a segment, and
otherwise two single stars. They start a segment at the beginning of a branch or after a separator,
and end it at the end of the glob, of a branch, or before a separator, which they take in.
-/

namespace Provenance.Glob

/-- What has been read of a glob; every list has the latest first. -/
structure Reader where
  tokens : List Token
  /-- Of each open group, the finished branches and the tokens before the group. -/
  groups : List (List (List Token) × List Token)

namespace Reader

/-- Nothing. -/
def start : Reader := ⟨[], []⟩

/-- One more token. -/
def push (r : Reader) (t : Token) : Reader := { r with tokens := t :: r.tokens }

/-- Two single stars. -/
def pushStars (r : Reader) : Reader := (r.push .anyBytes).push .anyBytes

/-- Some group is open. -/
def inGroup (r : Reader) : Bool := !r.groups.isEmpty

/-- Opens a group. -/
def openGroup (r : Reader) : Reader := ⟨[], ([], r.tokens) :: r.groups⟩

/-- Starts the next branch of the innermost group. -/
def nextBranch (r : Reader) : Reader :=
  match r.groups with
  | [] => r.push (.literal ',')
  | (branches, before) :: groups => ⟨[], (r.tokens.reverse :: branches, before) :: groups⟩

/-- Closes the innermost group. -/
def closeGroup (r : Reader) : Except Error Reader :=
  match r.groups with
  | [] => .error .unopenedGroup
  | (branches, before) :: groups =>
    .ok ⟨.group (r.tokens.reverse :: branches).reverse :: before, groups⟩

/-- Puts a token for segments in place of the separator before it. After segments there is no such
separator, and more segments add nothing. -/
def pushSegments (r : Reader) (t : Token) : Reader :=
  match r.tokens with
  | .segmentsBefore :: _ => r
  | .segmentsAfter :: _ => r
  | _ :: before => { r with tokens := t :: before }
  | [] => r.push t

/-- A segment starts after that character, in the middle of a branch. In a group it also starts
after a comma or a brace that stands for itself. -/
def startsSegment (r : Reader) (previous : Option Char) : Bool :=
  match previous with
  | some c => c = separator || (r.inGroup && (c = ',' || c = '\x7b'))
  | none => false

/-- All tokens, once every group is closed. -/
def finish (r : Reader) : Except Error (List Token) :=
  if r.inGroup then .error .unclosedGroup else .ok r.tokens.reverse

end Reader

/-- The ranges of a class, the latest first. -/
abbrev Ranges := List (Char × Char)

/-- Extends the latest range up to a character. -/
def extendRange (ranges : Ranges) (c : Char) : Except Error Ranges :=
  match ranges with
  | (low, _) :: rest => if c < low then .error (.invalidRange low c) else .ok ((low, c) :: rest)
  | [] => .ok [(c, c)]

/-- One more character of a class, the upper end of a range if a range was begun. -/
def addToClass (ranges : Ranges) (inRange : Bool) (c : Char) : Except Error Ranges :=
  if inRange then extendRange ranges c else .ok ((c, c) :: ranges)

/-- The class of those ranges; a range that was begun and not ended is a hyphen. -/
def classToken (negated : Bool) (ranges : Ranges) (inRange : Bool) : Token :=
  let ranges := if inRange then ('-', '-') :: ranges else ranges
  .oneOf negated ranges.reverse

/-- The inside of a class. The first character stands for itself, also if it is a bracket or a
hyphen. -/
inductive ClassStep where
  | done
  | more (ranges : Ranges) (inRange : Bool)

/-- What a character does inside a class. -/
def classStep (ranges : Ranges) (first inRange : Bool) (c : Char) : Except Error ClassStep :=
  if c = ']' && !first then .ok .done
  else if c = '-' && !first && !inRange then .ok (.more ranges true)
  else do
    let ranges ← addToClass ranges inRange c
    pure (.more ranges false)

mutual

/-- The tokens of a text, after what has been read. `previous` is the character before it. -/
def readFrom (r : Reader) (previous : Option Char) : List Char → Except Error (List Token)
  | [] => r.finish
  | '?' :: rest => readFrom (r.push .anyByte) (some '?') rest
  | '*' :: '*' :: '/' :: rest =>
    if r.tokens.isEmpty then readFrom (r.push .segmentsBefore) (some '/') rest
    else if r.startsSegment previous then
      readFrom (r.pushSegments .segmentsBetween) (some '/') rest
    else readFrom (r.pushStars.push (.literal '/')) (some '/') rest
  | '*' :: '*' :: [] =>
    if r.tokens.isEmpty then (r.push .segmentsBefore).finish
    else if r.startsSegment previous then (r.pushSegments .segmentsAfter).finish
    else r.pushStars.finish
  | '*' :: '*' :: c :: rest =>
    if !r.tokens.isEmpty && r.startsSegment previous && r.inGroup && (c = ',' || c = '\x7d') then
      readFrom (r.pushSegments .segmentsAfter) (some '*') (c :: rest)
    else readFrom r.pushStars (some '*') (c :: rest)
  | '*' :: rest => readFrom (r.push .anyBytes) (some '*') rest
  | '[' :: '!' :: rest => readClass r true [] true false rest
  | '[' :: '^' :: rest => readClass r true [] true false rest
  | '[' :: rest => readClass r false [] true false rest
  | '\x7b' :: rest => readFrom r.openGroup (some '\x7b') rest
  | '\x7d' :: rest => do
    let r ← r.closeGroup
    readFrom r (some '\x7d') rest
  | ',' :: rest => readFrom r.nextBranch (some ',') rest
  | '\\' :: [] => .error .danglingEscape
  | '\\' :: c :: rest => readFrom (r.push (.literal c)) (some c) rest
  | c :: rest => readFrom (r.push (.literal c)) (some c) rest

/-- The tokens of a text that starts inside a class. -/
def readClass (r : Reader) (negated : Bool) (ranges : Ranges) (first inRange : Bool) :
    List Char → Except Error (List Token)
  | [] => .error .unclosedClass
  | c :: rest => do
    match ← classStep ranges first inRange c with
    | .done => readFrom (r.push (classToken negated ranges inRange)) (some ']') rest
    | .more ranges inRange => readClass r negated ranges false inRange rest

end

/-- The tokens of a text. -/
def read (text : String) : Except Error (List Token) := readFrom .start none text.toList

end Provenance.Glob
