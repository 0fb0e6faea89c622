import Provenance.Cli.Error
import Provenance.File.Tree

/-!
# Plans

A command reads everything it needs, decides, and only then changes files. So a command is a function
from what it can see to a `Plan`: the changes to make in order, and what to print when they are all
made. `Plan.perform` carries a plan out on a file tree and stops at the first change that fails.

An error in place of a plan changes nothing.
-/

namespace Provenance.Cli

/-- What a file is written for. -/
inductive Purpose where
  | key
  | block
  | report
  deriving DecidableEq, Repr

/-- A change of files. -/
inductive Step where
  | makeDirectory (path : String)
  | write (purpose : Purpose) (path text : String)
  deriving DecidableEq, Repr

/-- The failure of a change. -/
def Step.failure (cause : FileError) : Step → CliError
  | makeDirectory path => .directory path cause
  | write .key path _ => .keyOutput path cause
  | write .block path _ => .blockOutput path (.file cause)
  | write .report path _ => .report path cause

/-- Makes a change. -/
def Step.apply (t : FileTree) : Step → FileTree.Change
  | makeDirectory path => t.makeDirectories path
  | write _ path text => .of t (t.write path (textBytes text))

/-- What is to be done: changes of files, then printing a text. -/
structure Plan where
  steps : List Step
  output : String
  isValid : Bool
  deriving DecidableEq, Repr

/-- What the program came to. -/
structure Outcome where
  exit : Exit
  output : String
  /-- Why it failed, if it did. -/
  error : Option CliError
  deriving DecidableEq, Repr

namespace Outcome

/-- A failure. -/
def failed (e : CliError) : Outcome := ⟨e.exit, "", some e⟩

/-- The end of a plan whose changes are made. -/
def done (p : Plan) : Outcome := ⟨if p.isValid then .valid else .invalid, p.output, none⟩

end Outcome

/-- Makes changes up to the first that fails. -/
def performSteps : FileTree → List Step → FileTree × Option CliError
  | t, [] => (t, none)
  | t, s :: rest =>
    match s.apply t with
    | ⟨t, none⟩ => performSteps t rest
    | ⟨t, some e⟩ => (t, some (s.failure e))

/-- Carries out a plan. -/
def Plan.perform (p : Plan) (t : FileTree) : FileTree × Outcome :=
  match performSteps t p.steps with
  | (t, none) => (t, .done p)
  | (t, some e) => (t, .failed e)

/-- Carries out what a command came to. -/
def perform (t : FileTree) : Except CliError Plan → FileTree × Outcome
  | .ok p => p.perform t
  | .error e => (t, .failed e)

end Provenance.Cli
