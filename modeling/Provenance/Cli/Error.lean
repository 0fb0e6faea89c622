import Provenance.Cli.Arguments
import Provenance.Config.Effective
import Provenance.File.Document
import Provenance.Hash.Stream
import Provenance.Verification.Error

/-!
# Why the program fails

Everything that can stand between a call and its verdict, how it is worded and which exit status it
gets. `CliError.isSecurity` tells failures of keys and signatures from all others, which are of
usage, configuration or files.
-/

namespace Provenance.Cli

/-- How the program ends. -/
inductive Exit where
  | valid
  | invalid
  | misuse
  | insecure
  deriving DecidableEq, Repr

/-- The status of an end. -/
def Exit.code : Exit → UInt8
  | valid => 0
  | invalid => 1
  | misuse => 2
  | insecure => 3

/-- Why the program fails. -/
inductive CliError where
  | misuse
  | configuration (cause : ConfigError)
  | logFilter (filter : String)
  | noPassphrase (variable_ : String)
  /-- A private key cannot be loaded. -/
  | key (path : String) (cause : FileError)
  /-- A signed link cannot be loaded. -/
  | link (path : String) (cause : DocumentError)
  /-- A signed layout cannot be loaded. -/
  | layout (path : String) (cause : DocumentError)
  /-- Another document cannot be loaded. -/
  | input (path : String) (cause : DocumentError)
  | repeatedArtifact
  | notLayout (cause : DecodeError)
  | notLayoutBlock (cause : DecodeError)
  | noSupplyChain
  | otherSupplyChain (recorded given : String)
  | keyGeneration (cause : CryptoError)
  | signing (cause : CryptoError)
  | hashing (cause : HashError)
  | verification (cause : VerifyError)
  | directory (path : String) (cause : FileError)
  /-- A key cannot be written. -/
  | keyOutput (path : String) (cause : FileError)
  /-- A signed document cannot be written. -/
  | blockOutput (path : String) (cause : DocumentError)
  | report (path : String) (cause : FileError)
  deriving DecidableEq, Repr

/-- The options of a command, as the usage shows them. -/
def OptionSpec.usage (o : OptionSpec) : String :=
  let value := match o.kind with
    | .flag => ""
    | .text => " <TEXT>"
    | .path => " <PATH>"
    | .oneOf texts => " <" ++ "|".intercalate texts ++ ">"
  let option := s!"--{o.name}{value}" ++ if o.repeats then "..." else ""
  if o.required then option else s!"[{option}]"

/-- A command, as the usage shows it. -/
def CommandSpec.usage (c : CommandSpec) : String :=
  " ".intercalate ([c.name] ++ c.options.map OptionSpec.usage
    ++ if c.takesWords then ["<FILE>..."] else [])

/-- The name of the program. -/
def programName : String := "chainwitness"

/-- The version of the program. -/
def programVersion : String := "0.1.0"

/-- How the program is used. -/
def usage : String :=
  let common := " ".intercalate (commonOptions.map OptionSpec.usage)
  "\n".intercalate ([s!"Usage: {programName} {common} <COMMAND>", "", "Commands:"]
    ++ commands.map fun c => "  " ++ c.usage)

namespace CliError

/-- The wording of a failure. -/
def message : CliError → String
  | misuse => usage
  | configuration cause => s!"Configuration error: {cause.message}"
  | logFilter filter => s!"Invalid log filter: {filter}"
  | noPassphrase variable_ => s!"Passphrase variable {variable_} is not set"
  | key path cause => s!"Cannot load key {path}: {cause.message}"
  | link path cause => s!"Cannot load link {path}: {cause.message}"
  | layout path cause => s!"Cannot load layout {path}: {cause.message}"
  | input path (.tooLarge _ size limit) => s!"{path} is {size} bytes, limit is {limit}"
  | input path (.file cause) => s!"Cannot read {path}: {cause.message}"
  | input path .malformed => s!"Invalid JSON in {path}: not such a document"
  | repeatedArtifact => "Link lists the same artifact more than once"
  | notLayout cause => s!"Invalid layout: {cause.message}"
  | notLayoutBlock cause => s!"Invalid layout block: {cause.message}"
  | noSupplyChain => "--supply-chain is required when signing a bare layout"
  | otherSupplyChain recorded given =>
    s!"Layout belongs to supply chain {recorded}, not {given}"
  | keyGeneration cause => s!"Key generation failed: {cause.message}"
  | signing cause => s!"Signing failed: {cause.message}"
  | hashing cause => cause.message
  | verification cause => s!"Verification error: {cause.message}"
  | directory path cause => s!"Cannot create {path}: {cause.message}"
  | keyOutput path cause => s!"Cannot write {path}: {cause.message}"
  | blockOutput path cause => s!"Cannot write {path}: {cause.message}"
  | report path cause => s!"Cannot write report {path}: {cause.message}"

/-- Keys or signatures are at fault. -/
def isSecurity : CliError → Bool
  | keyGeneration _ | signing _ => true
  | verification cause => cause.isSecurity
  | _ => false

/-- How the program ends with a failure. -/
def exit (e : CliError) : Exit := if e.isSecurity then .insecure else .misuse

end CliError

end Provenance.Cli
