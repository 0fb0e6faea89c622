import Provenance.Text.Alphanumeric
import Provenance.Text.Blank

/-!
# Log filters

A log filter is a list of directives between commas. A directive is a level, a target with or
without a level, or a span in brackets, perhaps with fields in braces, before a level:
`info`, `target=debug`, `target[span\x7bfield=value\x7d]=trace`. Only whether a filter is one
matters here.

The value of a field is a regular expression. Expressions are not read here, so a directive whose
value is none, such as `a[b\x7bc=*\x7d]=info`, counts as one, though a filter with it is refused.

Positions in a directive are counted without blanks in front, while its parts are cut out of the
text with them; so a blank in front of a directive or behind its level makes the level unreadable.
-/

namespace Provenance.LogFilter

/-- A level: a name in letters of either case, a number up to five, or nothing. -/
def isLevel (s : List Char) : Bool :=
  let digits := match s with
    | '+' :: rest => rest
    | s => s
  let value := digits.foldl (fun n c => n * 10 + (c.toNat - 48)) 0
  s.isEmpty
    || ["error", "warn", "info", "debug", "trace", "off"].contains
      (String.ofList (s.map Char.toLower))
    || (!digits.isEmpty && digits.all (fun c => 48 ≤ c.toNat && c.toNat ≤ 57) && value ≤ 5)

/-- What has been read of a directive. -/
inductive State where
  | start
  | levelOrTarget
  | span
  | field (empty : Bool)
  | fields
  | target
  | level (start : Nat)
  deriving DecidableEq

/-- A character that a level or a target may begin with. -/
def isFirstChar (c : Char) : Bool := Text.isAlphanumeric c || c = '-' || c = ':' || c = '_'

/-- The state after a character at a position. -/
def next (i : Nat) (c : Char) : State → Option State
  | .start =>
    if c = '[' then some .span else if isFirstChar c then some .levelOrTarget else none
  | .levelOrTarget =>
    if c = '=' then some (.level (i + 1)) else if c = '[' then some .span else some .levelOrTarget
  | .span =>
    if c = ']' then some .target else if c = '\x7b' then some (.field true) else some .span
  | .field empty =>
    if c = '\x7d' then (if empty then none else some .fields) else some (.field false)
  | .fields => if c = ']' then some .target else none
  | .target => if c = '=' then some (.level (i + 1)) else none
  | .level start => some (.level start)

/-- The state after characters from a position on. -/
def run : (i : Nat) → State → List Char → Option State
  | _, s, [] => some s
  | i, s, c :: rest => (next i c s).bind fun s => run (i + 1) s rest

/-- The text is a directive. -/
def isDirective (s : List Char) : Bool :=
  match run 0 .start (Text.trim s) with
  | some .levelOrTarget => true
  | some .target => true
  | some (.level start) => isLevel (s.drop start)
  | _ => false

/-- The text is a filter. -/
def isValid (filter : String) : Bool :=
  (filter.toList.splitOn ',').all fun d => d.isEmpty || isDirective d

/-- The first filter that is not blank, or the one of the settings: first the command line's, then
the environment's. -/
def choose (candidates : List (Option String)) (settings : String) : String :=
  ((candidates.filterMap id).find? fun f => !(Text.trimStart f.toList).isEmpty).getD settings

end Provenance.LogFilter
