import Provenance.Bytes

/-!
# Line endings

Text files end their lines with LF, with CR and LF, or with CR alone. `normalize` makes all of them
LF. `push` does the same for content that arrives in parts: a CR at the end of a part waits for the
next byte, so what is put out lags behind by at most one line end, and `finish` puts it out.
`push_append` says that it does not matter how the content is parted, and `push_flush` that the
result is the normalized content.
-/

namespace Provenance.LineEnding

/-- Line feed. -/
def lf : UInt8 := 10

/-- Carriage return. -/
def cr : UInt8 := 13

/-- The content with every line ended by LF. -/
def normalize : Bytes → Bytes
  | [] => []
  | [b] => [if b = cr then lf else b]
  | b :: c :: rest =>
    if b = cr then
      if c = lf then lf :: normalize rest else lf :: normalize (c :: rest)
    else b :: normalize (c :: rest)

/-- What one byte puts out, and whether a CR waits after it. -/
def pushByte (waiting : Bool) (b : UInt8) : Bytes × Bool :=
  let before := if waiting && b ≠ lf then [lf] else []
  if b = cr then (before, true) else (before ++ [b], false)

/-- What a part of the content puts out, and whether a CR waits after it. -/
def push (waiting : Bool) : Bytes → Bytes × Bool
  | [] => ([], waiting)
  | b :: rest =>
    let (out, waiting) := pushByte waiting b
    let (outs, waiting) := push waiting rest
    (out ++ outs, waiting)

/-- What is put out at the end, and whether a CR waits after it. -/
def finish (waiting : Bool) : Bytes × Bool := (if waiting then [lf] else [], false)

/-- What is put out at the end. -/
def flush (waiting : Bool) : Bytes := (finish waiting).1

theorem push_append (w : Bool) (a b : Bytes) :
    push w (a ++ b) = ((push w a).1 ++ (push (push w a).2 b).1, (push (push w a).2 b).2) := by
  induction a generalizing w with
  | nil => simp [push]
  | cons x rest ih => simp [push, ih, List.append_assoc]

theorem push_waiting (b : UInt8) (rest : Bytes) (h : b ≠ lf) :
    push true (b :: rest) = (lf :: (push false (b :: rest)).1, (push false (b :: rest)).2) := by
  have hlf : cr ≠ lf := by decide
  by_cases hb : b = cr <;> simp [push, pushByte, h, hb, hlf]

theorem push_flush (b : Bytes) : (push false b).1 ++ flush (push false b).2 = normalize b := by
  fun_induction normalize b with
  | case1 => rfl
  | case2 b => by_cases h : b = cr <;> simp [push, pushByte, flush, finish, h]
  | case3 rest ih => simpa [push, pushByte, cr, lf] using ih
  | case4 c rest hc ih =>
    have h : push false (cr :: c :: rest) = push true (c :: rest) := by simp [push, pushByte]
    rw [h, push_waiting c rest hc, ← ih]
    rfl
  | case5 b c rest hb ih =>
    rw [← ih]
    simp [push, pushByte, hb]

end Provenance.LineEnding
