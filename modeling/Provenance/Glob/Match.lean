import Provenance.Bytes
import Provenance.Glob.Basic

/-!
# Matching paths

Paths are matched as bytes. Tokens become a `Shape`: a sequence of single bytes from a set, of any
number of bytes from a set, and of choices between shapes. `Shape.Matches` says which bytes have a
shape. `Shape.accepts` decides it without trying one way after the other: it keeps, for every
position in the path, whether the part of the shape read so far can end there.
-/

namespace Provenance.Glob

/-- A set of bytes: the union of some ranges, or what is outside of it. -/
structure ByteSet where
  negated : Bool
  ranges : List (UInt8 × UInt8)
  deriving DecidableEq, Repr

namespace ByteSet

/-- The byte is in the set. -/
def contains (s : ByteSet) (b : UInt8) : Bool :=
  s.ranges.any (fun r => r.1 ≤ b && b ≤ r.2) != s.negated

/-- Every byte. -/
def all : ByteSet := ⟨true, []⟩

/-- One byte. -/
def only (b : UInt8) : ByteSet := ⟨false, [(b, b)]⟩

/-- The byte between segments. -/
def slash : ByteSet := only 0x2f

/-- The bytes of a segment. -/
def segment : ByteSet := ⟨true, [(0x2f, 0x2f)]⟩

end ByteSet

/-- A part of a shape. -/
inductive Piece where
  | one (set : ByteSet)
  | many (set : ByteSet)
  | choice (branches : List (List Piece))

/-- A sequence of parts. -/
abbrev Shape := List Piece

/-- The bytes of a character. -/
def charBytes (c : Char) : Bytes := textBytes (String.singleton c)

/-- Ranges of bytes for a range of characters. The characters of a class are taken apart into their
bytes: the last byte of the lower end and the first byte of the upper end bound a range. -/
def rangeBytes (low high : Char) : List (UInt8 × UInt8) :=
  if low = high then (charBytes low).map fun b => (b, b)
  else
    let l := charBytes low
    let h := charBytes high
    l.dropLast.map (fun b => (b, b)) ++ [(l.getLastD 0, h.headD 0)] ++ h.tail.map fun b => (b, b)

mutual

/-- The shape of a token. -/
def Token.shape : Token → Shape
  | .literal c => (charBytes c).map fun b => .one (.only b)
  | .anyByte => [.one .segment]
  | .anyBytes => [.many .segment]
  | .segmentsBefore => [.choice [[], [.one .slash], [.many .all, .one .slash]]]
  | .segmentsAfter => [.one .slash, .many .all]
  | .segmentsBetween => [.choice [[.one .slash], [.one .slash, .many .all, .one .slash]]]
  | .oneOf negated ranges => [.one ⟨negated, ranges.flatMap fun r => rangeBytes r.1 r.2⟩]
  | .group branches =>
    match branchShapes branches with
    | [] => []
    | shapes => [.choice shapes]

/-- The shape of a list of tokens. -/
def tokensShape : List Token → Shape
  | [] => []
  | t :: rest => t.shape ++ tokensShape rest

/-- The shapes of branches; empty ones do not count. -/
def branchShapes : List (List Token) → List Shape
  | [] => []
  | b :: rest =>
    match tokensShape b with
    | [] => branchShapes rest
    | s => s :: branchShapes rest

end

/-- The shape of a glob. A glob that is only two stars is for every path. -/
def shape : List Token → Shape
  | [.segmentsBefore] => [.many .all]
  | tokens => tokensShape tokens

/-- For every position in some bytes, from before the first byte to after the last. -/
abbrev Mask := List Bool

/-- The positions after one byte of a set; `here` is the position in front. -/
def advance (set : ByteSet) : (here : Bool) → Bytes → Mask → Mask
  | here, b :: bytes, m :: mask => here :: advance set (m && set.contains b) bytes mask
  | here, _, _ => [here]

/-- The positions after any number of bytes of a set; `here` says that the position in front is
reached from before. -/
def spread (set : ByteSet) : (here : Bool) → Bytes → Mask → Mask
  | here, b :: bytes, m :: mask =>
    (m || here) :: spread set ((m || here) && set.contains b) bytes mask
  | here, _, m :: _ => [m || here]
  | here, _, [] => [here]

/-- The positions in either of two masks. -/
def either : Mask → Mask → Mask
  | a :: as, b :: bs => (a || b) :: either as bs
  | as, [] => as
  | [], bs => bs

mutual

/-- The positions after a part of a shape, from those before it. -/
def Piece.positions : Piece → Bytes → Mask → Mask
  | .one set, bytes, mask => advance set false bytes mask
  | .many set, bytes, mask => spread set false bytes mask
  | .choice branches, bytes, mask => choicePositions branches bytes mask

/-- The positions after a shape. -/
def positions : List Piece → Bytes → Mask → Mask
  | [], _, mask => mask
  | p :: rest, bytes, mask => positions rest bytes (p.positions bytes mask)

/-- The positions after any of several shapes. -/
def choicePositions : List (List Piece) → Bytes → Mask → Mask
  | [], _, mask => mask.map fun _ => false
  | s :: rest, bytes, mask => either (positions s bytes mask) (choicePositions rest bytes mask)

end

/-- The whole of some bytes has a shape. -/
def accepts (s : Shape) (bytes : Bytes) : Bool :=
  (positions s bytes (true :: bytes.map fun _ => false)).getLastD false

mutual

/-- The bytes have the form of a part of a shape. -/
inductive Piece.Matches : Piece → Bytes → Prop where
  | one {set b} : set.contains b = true → Piece.Matches (.one set) [b]
  | many {set bytes} : (∀ b ∈ bytes, set.contains b = true) → Piece.Matches (.many set) bytes
  | choice {branches s bytes} : s ∈ branches → Shape.Matches s bytes →
      Piece.Matches (.choice branches) bytes

/-- The bytes have a shape. -/
inductive Shape.Matches : List Piece → Bytes → Prop where
  | nil : Shape.Matches [] []
  | cons {p s front back} : Piece.Matches p front → Shape.Matches s back →
      Shape.Matches (p :: s) (front ++ back)

end

end Provenance.Glob
