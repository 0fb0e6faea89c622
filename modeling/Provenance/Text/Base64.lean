import Provenance.Bytes

/-!
# Base64 text

Encrypted keys are stored as base64 with the alphabet `A–Z a–z 0–9 + /` and `=` padding. There is
one spelling for each byte string: reading refuses missing padding, padding inside the text and
unused bits that are not zero. `decode?_encode` says that reading gives back what was written.
-/

namespace Provenance.Base64

/-- The character for a value below sixty-four. -/
def symbol (n : Nat) : Char :=
  if n < 26 then Char.ofNat (65 + n)
  else if n < 52 then Char.ofNat (71 + n)
  else if n < 62 then Char.ofNat (n - 4)
  else if n = 62 then '+' else '/'

/-- The value of a character of the alphabet. -/
def value? (c : Char) : Option Nat :=
  let n := c.toNat
  if 65 ≤ n ∧ n ≤ 90 then some (n - 65)
  else if 97 ≤ n ∧ n ≤ 122 then some (n - 71)
  else if 48 ≤ n ∧ n ≤ 57 then some (n + 4)
  else if c = '+' then some 62
  else if c = '/' then some 63
  else none

/-- Four characters for each three bytes, the last group padded. -/
def encodeChars : Bytes → List Char
  | [] => []
  | [a] => [symbol (a.toNat / 4), symbol (a.toNat % 4 * 16), '=', '=']
  | [a, b] =>
    [symbol (a.toNat / 4), symbol (a.toNat % 4 * 16 + b.toNat / 16), symbol (b.toNat % 16 * 4), '=']
  | a :: b :: c :: rest =>
    symbol (a.toNat / 4) :: symbol (a.toNat % 4 * 16 + b.toNat / 16)
      :: symbol (b.toNat % 16 * 4 + c.toNat / 64) :: symbol (c.toNat % 64) :: encodeChars rest

/-- The bytes of groups of four characters; only the last group may be padded. -/
def decodeChars? : List Char → Option Bytes
  | [] => some []
  | [w, x, '=', '='] => do
    let w ← value? w
    let x ← value? x
    if x % 16 = 0 then some [UInt8.ofNat (w * 4 + x / 16)] else none
  | [w, x, y, '='] => do
    let w ← value? w
    let x ← value? x
    let y ← value? y
    if y % 4 = 0 then
      some [UInt8.ofNat (w * 4 + x / 16), UInt8.ofNat (x % 16 * 16 + y / 4)]
    else none
  | w :: x :: y :: z :: rest => do
    let w ← value? w
    let x ← value? x
    let y ← value? y
    let z ← value? z
    let bytes ← decodeChars? rest
    pure (UInt8.ofNat (w * 4 + x / 16) :: UInt8.ofNat (x % 16 * 16 + y / 4)
      :: UInt8.ofNat (y % 4 * 64 + z) :: bytes)
  | _ => none

/-- Base64 with padding. -/
def encode (b : Bytes) : String := String.ofList (encodeChars b)

/-- The bytes of a base64 text. -/
def decode? (s : String) : Option Bytes := decodeChars? s.toList

theorem value?_symbol {n : Nat} (h : n < 64) : value? (symbol n) = some n := by
  have : ∀ m : Fin 64, value? (symbol m.val) = some m.val := by decide
  exact this ⟨n, h⟩

theorem symbol_ne_pad {n : Nat} (h : n < 64) : symbol n ≠ '=' := by
  have : ∀ m : Fin 64, symbol m.val ≠ '=' := by decide
  exact this ⟨n, h⟩

theorem decodeChars?_group {w x y z : Nat} (hw : w < 64) (hx : x < 64) (hy : y < 64) (hz : z < 64)
    (rest : List Char) :
    decodeChars? (symbol w :: symbol x :: symbol y :: symbol z :: rest) =
      (decodeChars? rest).map fun bytes => UInt8.ofNat (w * 4 + x / 16)
        :: UInt8.ofNat (x % 16 * 16 + y / 4) :: UInt8.ofNat (y % 4 * 64 + z) :: bytes := by
  rw [decodeChars?]
  · simp only [value?_symbol hw, value?_symbol hx, value?_symbol hy, value?_symbol hz,
      Option.bind_eq_bind, Option.bind_some]
    cases decodeChars? rest <;> rfl
  · exact fun _ h _ => symbol_ne_pad hz h
  · exact fun h _ => symbol_ne_pad hz h

theorem decodeChars?_encodeChars (b : Bytes) : decodeChars? (encodeChars b) = some b := by
  fun_induction encodeChars b with
  | case1 => rfl
  | case2 a =>
    have ha : a.toNat < 256 := a.toNat_lt
    have hw := value?_symbol (show a.toNat / 4 < 64 by omega)
    have hx := value?_symbol (show a.toNat % 4 * 16 < 64 by omega)
    have hpad : a.toNat % 4 * 16 % 16 = 0 := by omega
    have hbyte : a.toNat / 4 * 4 + a.toNat % 4 * 16 / 16 = a.toNat := by omega
    simp only [decodeChars?, hw, hx, Option.bind_eq_bind, Option.bind_some, hpad, if_true, hbyte,
      UInt8.ofNat_toNat]
  | case3 a b =>
    have ha : a.toNat < 256 := a.toNat_lt
    have hb : b.toNat < 256 := b.toNat_lt
    have hw := value?_symbol (show a.toNat / 4 < 64 by omega)
    have hx := value?_symbol (show a.toNat % 4 * 16 + b.toNat / 16 < 64 by omega)
    have hy : b.toNat % 16 * 4 < 64 := by omega
    have hpad : b.toNat % 16 * 4 % 4 = 0 := by omega
    have hfirst : a.toNat / 4 * 4 + (a.toNat % 4 * 16 + b.toNat / 16) / 16 = a.toNat := by omega
    have hsecond : (a.toNat % 4 * 16 + b.toNat / 16) % 16 * 16 + b.toNat % 16 * 4 / 4 = b.toNat := by
      omega
    -- the row of one byte comes first and does not apply: the third character is no padding
    rw [decodeChars?]
    · simp only [hw, hx, value?_symbol hy, Option.bind_eq_bind, Option.bind_some, hpad, if_true,
        hfirst, hsecond, UInt8.ofNat_toNat]
    · exact fun h => symbol_ne_pad hy h
  | case4 a b c rest ih =>
    have ha : a.toNat < 256 := a.toNat_lt
    have hb : b.toNat < 256 := b.toNat_lt
    have hc : c.toNat < 256 := c.toNat_lt
    rw [decodeChars?_group (by omega) (by omega) (by omega) (by omega), ih]
    have hfirst : a.toNat / 4 * 4 + (a.toNat % 4 * 16 + b.toNat / 16) / 16 = a.toNat := by omega
    have hsecond : (a.toNat % 4 * 16 + b.toNat / 16) % 16 * 16 +
        (b.toNat % 16 * 4 + c.toNat / 64) / 4 = b.toNat := by omega
    have hthird : (b.toNat % 16 * 4 + c.toNat / 64) % 4 * 64 + c.toNat % 64 = c.toNat := by omega
    rw [hfirst, hsecond, hthird, UInt8.ofNat_toNat, UInt8.ofNat_toNat, UInt8.ofNat_toNat]
    rfl

theorem decode?_encode (b : Bytes) : decode? (encode b) = some b := by
  simp [decode?, encode, decodeChars?_encodeChars]

end Provenance.Base64
