import Provenance.Cli.Error
import Provenance.Key.PrivateKey
import Provenance.Layout.Basic
import Provenance.Link

/-!
# What a command can see

A command sees files, environment variables, the time and some random bytes. The functions here load
what several commands need.
-/

namespace Provenance.Cli

/-- What a command can see. -/
structure Surroundings where
  files : FileView
  /-- Variables and their values. -/
  environment : List (String × String)
  entropy : KeyEntropy
  now : Instant

namespace Surroundings

/-- The value of a variable. -/
def env? (s : Surroundings) (name : String) : Option String := s.environment.lookup name

/-- The passphrase, which must not be empty. -/
def passphrase (s : Surroundings) (variable_ : String) : Except CliError String :=
  match s.env? variable_ with
  | some p => if p.isEmpty then .error (.noPassphrase variable_) else .ok p
  | none => .error (.noPassphrase variable_)

/-- A private key; there is no limit to its size. -/
def key (s : Surroundings) (path : String) : Except CliError EncryptedPrivateKey :=
  (s.files.loadUnbounded EncryptedPrivateKey.ofJson path).mapError (.key path)

/-- A signed layout. -/
def layout (s : Surroundings) (limit : Nat) (path : String) : Except CliError LayoutBlock :=
  (s.files.load LayoutBlock.ofJson path limit).mapError (.layout path)

/-- A signed link. -/
def link (s : Surroundings) (limit : Nat) (path : String) : Except CliError LinkBlock :=
  (s.files.load LinkBlock.ofJson path limit).mapError (.link path)

/-- Another document. -/
def input {α : Type} (s : Surroundings) (limit : Nat) (decode : Json → Decoded α) (path : String) :
    Except CliError α :=
  (s.files.load decode path limit).mapError (.input path)

/-- A list of artifacts. -/
def artifacts (s : Surroundings) (limit : Nat) (path : String) : Except CliError (List Artifact) :=
  s.input limit (Json.asList Artifact.ofJson) path

end Surroundings

end Provenance.Cli
