import Provenance.File.Basic

/-!
# File trees

A `FileTree` holds all files and directories by their names from the root, and the working
directory. A path that starts with a slash is taken from the root and any other from the working
directory. It goes through directories only; `.` stays and `..` goes up, which at the root is to
stay. Permissions and symbolic links are left out.

`write` changes what is at one path and nothing else; `makeDirectories` leaves what it has made when
it cannot go on, as its `Change` says.
-/

namespace Provenance

/-- The files and directories below the root. -/
structure FileTree where
  entries : List (List String × FileNode)
  /-- The names of the directory that a path starts from, unless it starts at the root. -/
  workingDirectory : List String
  deriving DecidableEq, Repr

namespace FileTree

/-- What has those names; without names it is the root. -/
def node? (t : FileTree) (names : List String) : Option FileNode :=
  if names.isEmpty then some .directory
  else (t.entries.find? fun e => e.1 = names).map (·.2)

/-- The longest name. -/
def maxName : Nat := 255

/-- The longest path. -/
def maxPath : Nat := 4095

/-- The names of the directory that parts of a path lead to. -/
def walk (t : FileTree) : (at_ : List String) → List String → Except FileError (List String)
  | at_, [] => .ok at_
  | at_, part :: rest =>
    if part = "" ∨ part = "." then walk t at_ rest
    else if part = ".." then walk t at_.dropLast rest
    else if maxName < part.utf8ByteSize then .error .nameTooLong
    else
      match t.node? (at_ ++ [part]) with
      | none => .error .notFound
      | some (.file _) => .error .notADirectory
      | some .directory => walk t (at_ ++ [part]) rest

/-- The parts of a path between slashes. -/
def parts (path : String) : List String := (path.toList.splitOn '/').map String.ofList

/-- The parts that a path leads through from the root. -/
def route (t : FileTree) (path : String) : List String :=
  if startsAtRoot path then parts path else t.workingDirectory ++ parts path

/-- A part of a path that is no name. -/
def isNoName (part : String) : Bool := part = "" || part = "." || part = ".."

/-- The names of what a path leads to: where it is, and whether it has to be a directory because the
path does not end in a name. Nothing need be there, but the directory around it has to be. -/
def locate (t : FileTree) (path : String) : Except FileError (List String × Bool) := do
  if path.isEmpty then .error .notFound
  else if path.toList.contains '\x00' then .error .badName
  else if maxPath < path.utf8ByteSize then .error .nameTooLong
  else
    let route := t.route path
    let last := route.getLastD ""
    if isNoName last then
      pure (← t.walk [] route, true)
    else
      let around ← t.walk [] route.dropLast
      if maxName < last.utf8ByteSize then .error .nameTooLong
      else pure (around ++ [last], false)

/-- What a path leads to. -/
def find (t : FileTree) (path : String) : Except FileError FileNode := do
  let (names, _) ← t.locate path
  match t.node? names with
  | some n => pure n
  | none => .error .notFound

/-- The tree as it is read. -/
def view (t : FileTree) : FileView := ⟨t.find⟩

/-- Sets what has those names. -/
def set (t : FileTree) (names : List String) (n : FileNode) : FileTree :=
  if t.entries.any fun e => e.1 = names then
    { t with entries := t.entries.map fun e => if e.1 = names then (names, n) else e }
  else { t with entries := t.entries ++ [(names, n)] }

/-- The path without slashes at its end, except for one that is the root. -/
def withoutSlashes (path : String) : String :=
  let front := String.ofList (path.toList.reverse.dropWhile (· = '/')).reverse
  if front.isEmpty && startsAtRoot path then "/" else front

/-- Writes a file, in place of one that is there. A path with a slash at its end is one of a
directory. -/
def write (t : FileTree) (path : String) (content : Bytes) : Except FileError FileTree := do
  let (names, isDirectory) ← t.locate (withoutSlashes path)
  if isDirectory || withoutSlashes path ≠ path then .error .isADirectory
  else
    match t.node? names with
    | some .directory => .error .isADirectory
    | _ => pure (t.set names (.file content))

/-- Makes a directory in a directory. -/
def makeDirectory (t : FileTree) (path : String) : Except FileError FileTree := do
  let (names, _) ← t.locate (withoutSlashes path)
  match t.node? names with
  | none => pure (t.set names .directory)
  | some _ => .error .alreadyExists

/-- Something is there, and it is a directory. -/
def isDirectory (t : FileTree) (path : String) : Bool :=
  match t.find path with
  | .ok .directory => true
  | _ => false

/-- Makes a directory, unless it is there. -/
def ensureDirectory (t : FileTree) (path : String) : Except FileError FileTree :=
  match t.makeDirectory path with
  | .error e => if t.isDirectory path then .ok t else .error e
  | .ok t => .ok t

/-- The path of the directory around a path; it is empty for a name alone, and the root for the
root. -/
def around (path : String) : String :=
  let names := "/".intercalate ((parts path).filter fun p => p ≠ "" ∧ p ≠ ".").dropLast
  if startsAtRoot path then "/" ++ names else names

/-- What a change came to: the tree after it, and why it could not go on if it could not. -/
structure Change where
  tree : FileTree
  error : Option FileError
  deriving DecidableEq, Repr

/-- A change that leaves the tree as it was when it fails. -/
def Change.of (t : FileTree) : Except FileError FileTree → Change
  | .ok t => ⟨t, none⟩
  | .error e => ⟨t, some e⟩

/-- Makes a directory and those around it, as far as they are not there. `fuel` bounds how far up
that goes. -/
def makeDirectoriesUp (t : FileTree) : (fuel : Nat) → (path : String) → Change
  | 0, path => .of t (t.ensureDirectory path)
  | fuel + 1, path =>
    if path.isEmpty then ⟨t, none⟩
    else
      match t.ensureDirectory path with
      | .error .notFound =>
        match t.makeDirectoriesUp fuel (around path) with
        | ⟨t, none⟩ => .of t (t.ensureDirectory path)
        | stopped => stopped
      | result => .of t result

/-- Makes a directory and those around it, as far as they are not there. -/
def makeDirectories (t : FileTree) (path : String) : Change :=
  t.makeDirectoriesUp (parts path).length path

/-- Nothing but the working directory. -/
def empty (workingDirectory : List String) : FileTree :=
  ⟨(List.range workingDirectory.length).map fun n => (workingDirectory.take (n + 1), .directory),
    workingDirectory⟩

/-- The tree of some files; the directories around them are made. -/
def ofFiles (files : List (String × Bytes)) (workingDirectory : List String := ["work"]) :
    Except FileError FileTree :=
  files.foldlM (fun t (path, content) =>
    match t.makeDirectories (around path) with
    | ⟨t, none⟩ => t.write path content
    | ⟨_, some e⟩ => .error e) (empty workingDirectory)

end FileTree

end Provenance
