import Provenance.File.Basic
import Provenance.Json.Document

/-!
# Documents in files

A document of others is only read when it is not larger than a limit. The size is looked at first, so
a file that is too large is not read at all, and a file that is not text is not taken apart.
-/

namespace Provenance

/-- Why a document in a file cannot be used. -/
inductive DocumentError where
  | tooLarge (path : String) (size limit : Nat)
  | file (cause : FileError)
  | malformed
  deriving DecidableEq, Repr

/-- The wording of an error. -/
def DocumentError.message : DocumentError → String
  | tooLarge path size limit => s!"document {path} is {size} bytes, limit is {limit}"
  | file cause => s!"I/O error: {cause.message}"
  | malformed => "JSON error: not such a document"

namespace FileView

/-- The text of a file that is not larger than a limit. -/
def readBounded (v : FileView) (path : String) (limit : Nat) : Except DocumentError String := do
  let size ← (v.size path).mapError .file
  if limit < size then .error (.tooLarge path size limit)
  else (v.readText path).mapError .file

/-- What a reader of texts makes of a file that is not larger than a limit. -/
def loadWith {α : Type} (v : FileView) (read : String → Option α) (path : String) (limit : Nat) :
    Except DocumentError α := do
  match read (← v.readBounded path limit) with
  | some d => pure d
  | none => .error .malformed

/-- The document in a file that is not larger than a limit. -/
def load {α : Type} (v : FileView) (decode : Json → Decoded α) (path : String) (limit : Nat) :
    Except DocumentError α :=
  v.loadWith (Json.document? decode) path limit

/-- The document in a file of any size. -/
def loadUnbounded {α : Type} (v : FileView) (decode : Json → Decoded α) (path : String) :
    Except FileError α := do
  match Json.document? decode (← v.readText path) with
  | some d => pure d
  | none => .error (.other "not such a document")

end FileView

end Provenance
