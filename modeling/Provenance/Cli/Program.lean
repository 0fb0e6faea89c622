import Provenance.Cli.Checking
import Provenance.Cli.Filter
import Provenance.Cli.Signing

/-!
# The program

What the program does with its arguments. The configuration is put together and the log filter is
checked before a command begins, so a fault in either keeps every command from running.
-/

namespace Provenance.Cli

/-- The configuration that the options for logging make. -/
def overrides (i : Invocation) : Option Json :=
  let filter := Json.optional "filter" .str i.logFilter
  let json := if i.logJson then [("json", Json.bool true)] else []
  if (filter ++ json).isEmpty then none else some (.obj [("logging", .obj (filter ++ json))])

/-- The variable for the log filter. -/
def filterVariable : String := "RUST_LOG"

/-- The variable for the home directory. -/
def homeVariable : String := "HOME"

/-- The log filter has to be one. -/
def checkFilter (s : Surroundings) (i : Invocation) (settings : Settings) : Except CliError Unit :=
  let filter := LogFilter.choose [i.logFilter, s.env? filterVariable] settings.logging.filter
  if LogFilter.isValid filter then .ok () else .error (.logFilter filter)

/-- The configuration in effect. -/
def configuration (s : Surroundings) (i : Invocation) : Except CliError EffectiveConfig :=
  (EffectiveConfig.discover s.files (s.env? homeVariable) i.config
    (overrides i)).mapError .configuration

/-- The files that a command reads. -/
def Command.reads : Command → List String
  | .keygen .. => []
  | .signLink key link .. => [key, link]
  | .signLayout key layout .. => [key, layout]
  | .hash files .. => files
  | .verify layout links expected approvals .. =>
    [layout] ++ links ++ [expected] ++ approvals.toList
  | .release layout links artifacts => [layout] ++ links ++ artifacts

/-- The variable that a command takes the passphrase from. -/
def Command.passphraseVariable? : Command → Option String
  | .keygen _ _ _ variable_ | .signLink _ _ _ _ variable_ | .signLayout _ _ _ _ variable_ =>
    some variable_
  | .hash .. | .verify .. | .release .. => none

/-- The files that the program reads, given the home directory. -/
def Invocation.reads (i : Invocation) (home : Option String) : List String :=
  (home.map EffectiveConfig.userPath).toList ++ [i.config.getD EffectiveConfig.projectFile]
    ++ i.command.reads

/-- The variables that the program looks at. -/
def Invocation.lookups (i : Invocation) : List String :=
  [homeVariable, filterVariable] ++ i.command.passphraseVariable?.toList

/-- What a command comes to. -/
def Command.plan (s : Surroundings) (registry : Registry) (config : EffectiveConfig) :
    Command → Except CliError Plan
  | .keygen algorithm directory name variable_ =>
    Cli.keygen s registry config.settings algorithm directory name variable_
  | .signLink key link supplyChain out variable_ =>
    Cli.signLink s registry config.settings key link supplyChain out variable_
  | .signLayout key layout supplyChain out variable_ =>
    Cli.signLayout s registry config.settings key layout supplyChain out variable_
  | .hash files normalize json => Cli.hash s config.settings files normalize json
  | .verify layout links expected approvals report json =>
    Cli.verify s registry config layout links expected approvals report json
  | .release layout links artifacts =>
    Cli.release s registry config.settings layout links artifacts

/-- What an invocation comes to, with the schemes of a registry. -/
def Invocation.plan (s : Surroundings) (registry : Registry) (i : Invocation) :
    Except CliError Plan := do
  let config ← configuration s i
  checkFilter s i config.settings
  i.command.plan s registry config

/-- What the arguments come to, with the schemes of a registry. -/
def planWith (registry : Registry) (s : Surroundings) (args : List String) :
    Except CliError Plan :=
  match Invocation.parse args with
  | .ok i => i.plan s registry
  | .error .misuse => .error .misuse
  | .error .version => .ok ⟨[], s!"{programName} {programVersion}\n", true⟩
  | .error .help => .ok ⟨[], usage ++ "\n", true⟩

/-- What the arguments come to. -/
def plan (s : Surroundings) (args : List String) : Except CliError Plan := planWith .standard s args

/-- Runs the program on a file tree, of which it sees what is there at the beginning, with the
schemes of a registry. -/
def runWith (registry : Registry) (t : FileTree) (environment : List (String × String))
    (entropy : KeyEntropy) (now : Instant) (args : List String) : FileTree × Outcome :=
  perform t (planWith registry ⟨t.view, environment, entropy, now⟩ args)

/-- Runs the program on a file tree. -/
def run (t : FileTree) (environment : List (String × String)) (entropy : KeyEntropy)
    (now : Instant) (args : List String) : FileTree × Outcome :=
  runWith .standard t environment entropy now args

end Provenance.Cli
