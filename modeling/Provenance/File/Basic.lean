import Provenance.Bytes

/-!
# Files

What can be found at a path, and why a path cannot be used. A `FileView` is all that a program can
ask about the files it reads: what is found at each path.
-/

namespace Provenance

/-- Why a path cannot be used. -/
inductive FileError where
  | notFound
  | notADirectory
  | isADirectory
  | alreadyExists
  | notText
  | nameTooLong
  | badName
  /-- Any other reason, in words. -/
  | other (reason : String)
  deriving DecidableEq, Repr

/-- The wording of an error. -/
def FileError.message : FileError → String
  | notFound => "No such file or directory (os error 2)"
  | notADirectory => "Not a directory (os error 20)"
  | isADirectory => "Is a directory (os error 21)"
  | alreadyExists => "File exists (os error 17)"
  | notText => "stream did not contain valid UTF-8"
  | nameTooLong => "File name too long (os error 36)"
  | badName => "file name contained an unexpected NUL byte"
  | other reason => reason

/-- What is found at a path. -/
inductive FileNode where
  | file (content : Bytes)
  | directory
  deriving DecidableEq, Repr

/-- What is found at each path. -/
structure FileView where
  node : String → Except FileError FileNode

namespace FileView

/-- Nothing is there but what is listed. -/
def ofEntries (entries : List (String × Except FileError FileNode)) : FileView :=
  ⟨fun path => (entries.lookup path).getD (.error .notFound)⟩

/-- Something is there. -/
def contains (v : FileView) (path : String) : Bool := (v.node path).toOption.isSome

/-- What a directory counts as. -/
def directorySize : Nat := 4096

/-- The number of bytes that are there. -/
def size (v : FileView) (path : String) : Except FileError Nat := do
  match ← v.node path with
  | .file content => pure content.length
  | .directory => pure directorySize

/-- The bytes of a file. -/
def read (v : FileView) (path : String) : Except FileError Bytes := do
  match ← v.node path with
  | .file content => pure content
  | .directory => .error .isADirectory

/-- The text of a file. -/
def readText (v : FileView) (path : String) : Except FileError String := do
  match bytesText? (← v.read path) with
  | some text => pure text
  | none => .error .notText

end FileView

/-- The path starts at the root. -/
def startsAtRoot (path : String) : Bool := path.toList.head? = some '/'

/-- A path below a directory; a path that starts at the root stays what it is. -/
def joinPath (directory name : String) : String :=
  if startsAtRoot name ∨ directory.isEmpty then name
  else if directory.toList.getLast? = some '/' then directory ++ name
  else directory ++ "/" ++ name

end Provenance
