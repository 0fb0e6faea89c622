import Provenance.Glob.Match
import Provenance.Glob.Reader
import Provenance.Rule.Basic
import Provenance.Text.Quoted

/-!
# Patterns of rules

A rule names artifacts by a glob, and a REQUIRE rule by the path itself. `Rule.check` says whether a
rule can be used at all: its pattern has to be a glob, and the directories of a MATCH rule must not
lead out of the working directory.
-/

namespace Provenance

/-- Why a rule cannot be used. -/
inductive RuleError where
  | invalidPattern (pattern : String) (cause : Glob.Error)
  | absolutePrefix (path : String)
  | climbingPrefix (path : String)
  deriving DecidableEq, Repr

/-- The wording of an error. -/
def RuleError.message : RuleError → String
  | .invalidPattern pattern cause =>
    s!"invalid pattern {Text.quoted pattern}: error parsing glob '{pattern}': {cause.message}"
  | .absolutePrefix path => s!"invalid path prefix {Text.quoted path}: must be relative"
  | .climbingPrefix path => s!"invalid path prefix {Text.quoted path}: must not contain '..'"

/-- Names a set of paths. -/
inductive PathPattern where
  | glob (shape : Glob.Shape)
  | exact (uri : String)

namespace PathPattern

/-- The paths that a glob matches. -/
def ofGlob (pattern : String) : Except RuleError PathPattern :=
  match Glob.read pattern with
  | .ok tokens => .ok (.glob (Glob.shape tokens))
  | .error cause => .error (.invalidPattern pattern cause)

/-- The paths that a rule is about; a MATCH rule is about what follows a directory. -/
def ofRule : Rule → Except RuleError PathPattern
  | .require uri => .ok (.exact uri)
  | rule => ofGlob rule.pattern

/-- The path is one of them. -/
def matches? (p : PathPattern) (path : String) : Bool :=
  match p with
  | glob shape => Glob.accepts shape (textBytes path)
  | exact uri => uri = path

end PathPattern

/-- The name of a directory with a slash at the end; no directory is the empty name. -/
def directoryPrefix : Option String → String
  | none => ""
  | some p => if p.isEmpty || p.toList.getLast? = some '/' then p else p ++ "/"

/-- What follows a directory in a path that is inside of it. -/
def pathBelow? (directory path : String) : Option String :=
  if directory.toList.isPrefixOf path.toList then
    some (String.ofList (path.toList.drop directory.length))
  else none

/-- The parts of a path between slashes. -/
def pathSegments (path : String) : List (List Char) := path.toList.splitOn '/'

/-- A directory is inside the working directory. -/
def checkPrefix : Option String → Except RuleError Unit
  | none => .ok ()
  | some p =>
    if p.toList.head? = some '/' then .error (.absolutePrefix p)
    else if ['.', '.'] ∈ pathSegments p then .error (.climbingPrefix p)
    else .ok ()

/-- A rule can be used. -/
def Rule.check (r : Rule) : Except RuleError Unit := do
  let _ ← PathPattern.ofRule r
  match r with
  | .matching m => do
    checkPrefix m.sourcePrefix
    checkPrefix m.destinationPrefix
  | _ => .ok ()

end Provenance
