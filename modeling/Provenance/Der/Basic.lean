import Provenance.Bytes

/-!
# DER elements

Keys and signatures are nested elements: a tag, the length of the content in the fewest bytes, and
the content. `Element.read?` takes the first element off a byte string and `elements?` reads a
content that is elements from end to end, so that a structure is recognised by matching on a list.
Tags and lengths that the encoding rules do not allow are refused.
-/

namespace Provenance.Der

/-- A tag byte and a content. -/
structure Element where
  tag : UInt8
  content : Bytes
  deriving DecidableEq, Repr, Inhabited

/-- Tag of a whole number. -/
def integerTag : UInt8 := 0x02

/-- Tag of a string of bits. -/
def bitsTag : UInt8 := 0x03

/-- Tag of a string of bytes. -/
def octetsTag : UInt8 := 0x04

/-- Tag of the empty value. -/
def nullTag : UInt8 := 0x05

/-- Tag of an object identifier. -/
def oidTag : UInt8 := 0x06

/-- Tag of a sequence. -/
def sequenceTag : UInt8 := 0x30

/-- The universal tags that may occur. -/
def universalTags : List UInt8 :=
  [0x01, 0x02, 0x03, 0x04, 0x05, 0x06, 0x09, 0x0a, 0x0c, 0x12, 0x13, 0x14, 0x15, 0x16, 0x17, 0x18,
    0x1a, 0x1b, 0x1e, 0x30, 0x31]

/-- A tag is a known universal tag, or one of another class with its number in the tag byte. -/
def isTag (t : UInt8) : Bool := universalTags.contains t || (0x40 ≤ t && t &&& 0x1f != 0x1f)

/-- The longest content. -/
def maxLength : Nat := 0xfffffff

/-- The bytes of a length, after a first byte that tells their number when there are several. -/
def lengthBytes (n : Nat) : Bytes :=
  if n < 0x80 then [UInt8.ofNat n]
  else if n < 0x100 then 0x81 :: beBytes 1 n
  else if n < 0x10000 then 0x82 :: beBytes 2 n
  else if n < 0x1000000 then 0x83 :: beBytes 3 n
  else 0x84 :: beBytes 4 n

/-- A length and the rest. -/
def readLength? : Bytes → Option (Nat × Bytes)
  | [] => none
  | b :: rest =>
    if b < 0x80 then some (b.toNat, rest)
    else
      let count := b.toNat - 0x80
      if count = 0 ∨ 4 < count ∨ rest.length < count then none
      else
        let n := beNat (rest.take count)
        if n ≤ maxLength ∧ lengthBytes n = b :: rest.take count then some (n, rest.drop count)
        else none

namespace Element

/-- The first element and the rest. -/
def read? : Bytes → Option (Element × Bytes)
  | [] => none
  | t :: rest =>
    if isTag t then
      match readLength? rest with
      | some (n, rest) =>
        if rest.length < n then none else some (⟨t, rest.take n⟩, rest.drop n)
      | none => none
    else none

/-- The bytes of an element. -/
def bytes (e : Element) : Bytes := e.tag :: (lengthBytes e.content.length ++ e.content)

end Element

/-- Reads elements to the end of a byte string; `fuel` bounds their number. -/
def elementsFrom? : (fuel : Nat) → Bytes → Option (List Element)
  | _, [] => some []
  | 0, _ :: _ => none
  | fuel + 1, b =>
    match Element.read? b with
    | some (e, rest) => (elementsFrom? fuel rest).map (e :: ·)
    | none => none

/-- The elements that make up a byte string. -/
def elements? (b : Bytes) : Option (List Element) := elementsFrom? b.length b

/-- The one element that makes up a byte string. -/
def single? (b : Bytes) : Option Element :=
  match Element.read? b with
  | some (e, []) => some e
  | _ => none

/-- A byte string that is one element by its outermost tag and length. -/
def isDocument (b : Bytes) : Bool := (single? b).isSome

/-- A byte string that is one sequence by its outermost tag and length. -/
def isSequence (b : Bytes) : Bool := (single? b).any fun e => e.tag = sequenceTag

namespace Element

/-- The elements of a sequence. -/
def items? (e : Element) : Option (List Element) :=
  if e.tag = sequenceTag then elements? e.content else none

/-- The content of a string of bytes. -/
def octets? (e : Element) : Option Bytes := if e.tag = octetsTag then some e.content else none

/-- An unsigned whole number of at most `size` bytes, written with the fewest bytes. -/
def unsigned? (size : Nat) (e : Element) : Option Nat :=
  if e.tag = integerTag ∧ e.content.length ≤ size + 1 then
    match e.content with
    | [] => none
    | [b] => if b < 0x80 then some b.toNat else none
    | b :: c :: rest =>
      if b = 0 then
        if c < 0x80 then none else some (beNat (c :: rest))
      else if b < 0x80 ∧ rest.length + 2 ≤ size then some (beNat (b :: c :: rest))
      else none
  else none

/-- The content of a string of bits that fill whole bytes. -/
def wholeBits? : Bytes → Option Bytes
  | 0 :: rest => some rest
  | _ => none

/-- A string of bits that fill whole bytes. -/
def bits? (e : Element) : Option Bytes := if e.tag = bitsTag then wholeBits? e.content else none

/-- Arcs of an object identifier: groups of seven bits, each but the last of an arc with its top bit
set. An arc has at most thirty-two bits; `count` groups of it stand before. -/
def areArcs : (count : Nat) → Bytes → Bool
  | count, [] => count = 0
  | count, b :: rest =>
    (count < 4 || b < 0x10) && areArcs (if b < 0x80 then 0 else count + 1) rest

/-- The content of an object identifier of at least three bytes. -/
def oid? (e : Element) : Option Bytes :=
  match e.content with
  | b :: rest =>
    if e.tag = oidTag ∧ b < 120 ∧ 2 ≤ rest.length ∧ rest.length < 39 ∧ areArcs 0 rest then
      some e.content
    else none
  | [] => none

end Element

/-- A sequence of elements. -/
def sequence (items : List Element) : Element := ⟨sequenceTag, items.flatMap Element.bytes⟩

/-- A string of bytes. -/
def octets (b : Bytes) : Element := ⟨octetsTag, b⟩

/-- A string of bits that fill whole bytes. -/
def bits (b : Bytes) : Element := ⟨bitsTag, 0 :: b⟩

/-- An object identifier. -/
def oid (b : Bytes) : Element := ⟨oidTag, b⟩

/-- The empty value. -/
def null : Element := ⟨nullTag, []⟩

/-- The fewest bytes of a number, at most `size`. -/
def shortBytes : (size : Nat) → Nat → Bytes
  | 0, _ => []
  | size + 1, n => if n < Nat.pow 256 size ∧ size ≠ 0 then shortBytes size n else beBytes (size + 1) n

/-- A whole number from its unsigned bytes, with a zero before a byte that would read as a sign. -/
def unsignedContent : Bytes → Bytes
  | [] => [0]
  | b :: rest => if b < 0x80 then b :: rest else 0 :: b :: rest

/-- A whole number below `256 ^ size`. -/
def unsigned (size n : Nat) : Element := ⟨integerTag, unsignedContent (shortBytes size n)⟩

end Provenance.Der
