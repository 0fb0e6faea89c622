/-!
# Glob patterns

A glob is a list of tokens. Paths are split into segments by `/`: a question mark stands for one
byte and a star for any number of bytes inside a segment, two stars that fill a segment stand for
any number of segments, a class stands for one of several characters, and a group for one of several
globs. Why a text is no glob is an `Error`.

A glob may be of any size and its groups nested to any depth: the limits that a compiled glob is
held to are left out, so no glob is refused, or given up on, for being too large.
-/

namespace Provenance.Glob

/-- The character between segments. -/
def separator : Char := '/'

/-- A part of a glob. -/
inductive Token where
  | literal (c : Char)
  /-- One byte of a segment. -/
  | anyByte
  /-- Any bytes of a segment. -/
  | anyBytes
  /-- Any segments in front. -/
  | segmentsBefore
  /-- A separator and anything after it. -/
  | segmentsAfter
  /-- A separator, or any segments between two of them. -/
  | segmentsBetween
  /-- One of the characters in the ranges, or none of them. -/
  | oneOf (negated : Bool) (ranges : List (Char × Char))
  /-- One of several globs. -/
  | group (branches : List (List Token))

/-- Why a text is no glob. -/
inductive Error where
  | unclosedClass
  | invalidRange (low high : Char)
  | unopenedGroup
  | unclosedGroup
  | danglingEscape
  deriving DecidableEq, Repr

/-- The wording of an error. -/
def Error.message : Error → String
  | .unclosedClass => "unclosed character class; missing ']'"
  | .invalidRange low high => s!"invalid range; '{low}' > '{high}'"
  | .unopenedGroup =>
    "unopened alternate group; missing '\x7b' (maybe escape '\x7d' with '[\x7d]'?)"
  | .unclosedGroup =>
    "unclosed alternate group; missing '\x7d' (maybe escape '\x7b' with '[\x7b]'?)"
  | .danglingEscape => "dangling '\\'"

end Provenance.Glob
