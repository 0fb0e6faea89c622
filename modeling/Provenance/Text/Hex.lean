import Provenance.Bytes

/-!
# Hexadecimal text

Keys and signatures are written as lowercase hexadecimal. Reading takes either case and refuses
anything that is not an even number of digits. `decode?_encode` says that reading gives back what
was written.
-/

namespace Provenance.Hex

/-- The lowercase digit of a value below sixteen. -/
def digit (n : Nat) : Char :=
  if n < 10 then Char.ofNat (48 + n) else Char.ofNat (87 + n)

/-- The value of a digit in either case. -/
def value? (c : Char) : Option Nat :=
  let n := c.toNat
  if 48 ≤ n ∧ n ≤ 57 then some (n - 48)
  else if 97 ≤ n ∧ n ≤ 102 then some (n - 87)
  else if 65 ≤ n ∧ n ≤ 70 then some (n - 55)
  else none

/-- Two digits for each byte. -/
def encodeChars : Bytes → List Char
  | [] => []
  | b :: rest => digit (b.toNat / 16) :: digit (b.toNat % 16) :: encodeChars rest

/-- One byte for each two digits. -/
def decodeChars? : List Char → Option Bytes
  | [] => some []
  | [_] => none
  | high :: low :: rest => do
    let h ← value? high
    let l ← value? low
    let bytes ← decodeChars? rest
    pure (UInt8.ofNat (16 * h + l) :: bytes)

/-- Lowercase hexadecimal. -/
def encode (b : Bytes) : String := String.ofList (encodeChars b)

/-- The bytes of a hexadecimal text. -/
def decode? (s : String) : Option Bytes := decodeChars? s.toList

theorem value?_digit {n : Nat} (h : n < 16) : value? (digit n) = some n := by
  have : ∀ m : Fin 16, value? (digit m.val) = some m.val := by decide
  exact this ⟨n, h⟩

theorem decodeChars?_encodeChars (b : Bytes) : decodeChars? (encodeChars b) = some b := by
  induction b with
  | nil => rfl
  | cons x rest ih =>
    have hx : x.toNat < 256 := x.toNat_lt
    have hh : value? (digit (x.toNat / 16)) = some (x.toNat / 16) := value?_digit (by omega)
    have hl : value? (digit (x.toNat % 16)) = some (x.toNat % 16) := value?_digit (by omega)
    have hs : 16 * (x.toNat / 16) + x.toNat % 16 = x.toNat := Nat.div_add_mod x.toNat 16
    have hx' : UInt8.ofNat (16 * (x.toNat / 16) + x.toNat % 16) = x := by rw [hs, UInt8.ofNat_toNat]
    simp only [encodeChars, decodeChars?, hh, hl, ih, hx', Option.bind_eq_bind, Option.bind_some,
      Option.pure_def]

theorem decode?_encode (b : Bytes) : decode? (encode b) = some b := by
  simp [decode?, encode, decodeChars?_encodeChars]

end Provenance.Hex
