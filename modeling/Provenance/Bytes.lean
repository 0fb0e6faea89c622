/-!
# Bytes

Everything that is hashed, signed, encrypted or stored is a list of bytes, first byte first.
A text and its bytes are related by UTF-8: `textBytes` writes, `bytesText?` reads and refuses what
is not UTF-8. `beNat` and `beBytes` read and write unsigned numbers with the most significant
byte first, `leNat` and `leBytes` with the least significant byte first.
-/

namespace Provenance

/-- A byte string. -/
abbrev Bytes := List UInt8

/-- The UTF-8 bytes of a text. -/
def textBytes (s : String) : Bytes := s.toUTF8.data.toList

/-- The text whose UTF-8 bytes these are, if they are UTF-8 at all. -/
def bytesText? (b : Bytes) : Option String := String.fromUTF8? b.toByteArray

/-- The unsigned number that the bytes write, most significant byte first. -/
def beNat (b : Bytes) : Nat := b.foldl (fun n x => n * 256 + x.toNat) 0

/-- The `count` least significant bytes of a number, most significant byte first. -/
def beBytes : (count : Nat) → Nat → Bytes
  | 0, _ => []
  | count + 1, n => beBytes count (n / 256) ++ [UInt8.ofNat n]

/-- The unsigned number that the bytes write, least significant byte first. -/
def leNat (b : Bytes) : Nat := b.foldr (fun x n => x.toNat + 256 * n) 0

/-- The `count` least significant bytes of a number, least significant byte first. -/
def leBytes : (count : Nat) → Nat → Bytes
  | 0, _ => []
  | count + 1, n => UInt8.ofNat n :: leBytes count (n / 256)

@[simp] theorem length_beBytes (count n : Nat) : (beBytes count n).length = count := by
  induction count generalizing n with
  | zero => rfl
  | succ count ih => simp [beBytes, ih]

@[simp] theorem length_leBytes (count n : Nat) : (leBytes count n).length = count := by
  induction count generalizing n with
  | zero => rfl
  | succ count ih => simp [leBytes, ih]

end Provenance
