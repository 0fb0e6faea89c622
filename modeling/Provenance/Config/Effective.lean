import Provenance.Config.Merge
import Provenance.Config.Settings
import Provenance.Config.Source
import Provenance.File.Basic
import Provenance.Toml.Reader

/-!
# The configuration in effect

A configuration is merged from the defaults, a file of the user, a file of the project and what the
command line says, each layer over those before. Files that are not there are passed over, except one
that is named explicitly. The sources tell which layers took part.
-/

namespace Provenance

/-- Why there is no configuration. -/
inductive ConfigError where
  | missing (path : String)
  | unreadable (path : String) (cause : FileError)
  | notText (path : String)
  | malformed (path : String)
  | settings (cause : SettingsError)
  deriving DecidableEq, Repr

/-- The wording of an error. -/
def ConfigError.message : ConfigError → String
  | missing path => s!"IO error: config file not found: {path}"
  | unreadable path cause => s!"IO error: {path}: {cause.message}"
  | notText path => s!"Parse error: {path}: invalid UTF-8"
  | malformed path => s!"Parse error: {path}: not TOML"
  | settings cause => s!"Validation error: {cause.message}"

/-- A configuration and where it comes from. -/
structure EffectiveConfig where
  settings : Settings
  config : Json
  sources : List ConfigSource

namespace EffectiveConfig

/-- A layer of a configuration. -/
structure Layer where
  value : Json
  source : ConfigSource

/-- The layer of a file that is there. -/
def readLayer (files : FileView) (origin : ConfigOrigin) (path : String) :
    Except ConfigError Layer := do
  let bytes ← (files.read path).mapError (.unreadable path)
  match bytesText? bytes with
  | none => .error (.notText path)
  | some text =>
    match Toml.read? text with
    | none => .error (.malformed path)
    | some value =>
      let digest := Hex.encode (HashFunction.sha256.digest bytes)
      pure ⟨value, ⟨origin, some path, some digest⟩⟩

/-- The layer of a file, if the file is named and there. -/
def fileLayer (files : FileView) (origin : ConfigOrigin) :
    Option String → Except ConfigError (List Layer)
  | some path =>
    if files.contains path then do
      let layer ← readLayer files origin path
      pure [layer]
    else .ok []
  | none => .ok []

/-- The configuration of some layers. -/
def ofLayers (layers : List Layer) : Except ConfigError EffectiveConfig := do
  let config := Config.mergeLayers (layers.map Layer.value)
  let settings ← (Settings.ofConfig config).mapError .settings
  pure ⟨settings, config, layers.map Layer.source⟩

/-- The layer of the defaults. -/
def builtinLayer : Layer := ⟨Settings.default.toJson, .plain .builtin⟩

/-- The configuration with a file of the user, a file of the project and the command line's own
settings. -/
def build (files : FileView) (user project : Option String) (cli : Option Json) :
    Except ConfigError EffectiveConfig := do
  let user ← fileLayer files .user user
  let project ← fileLayer files .project project
  let cli := cli.toList.map fun v => (⟨v, .plain .cli⟩ : Layer)
  ofLayers ([builtinLayer] ++ user ++ project ++ cli)

/-- Where the file of the user is, below the home directory. -/
def userFile : String := ".config/chainwitness/config.toml"

/-- Where the file of the project is. -/
def projectFile : String := ".chainwitness.toml"

/-- The path of the user's file in a home directory. -/
def userPath (home : String) : String := joinPath home userFile

/-- The configuration of the usual files. A project file that is named has to be there. -/
def discover (files : FileView) (home explicit : Option String) (cli : Option Json) :
    Except ConfigError EffectiveConfig :=
  match explicit with
  | some path =>
    if files.contains path then build files (home.map userPath) (some path) cli
    else .error (.missing path)
  | none => build files (home.map userPath) (some projectFile) cli

/-- The value at a path of names with dots between them. -/
def get? (c : EffectiveConfig) (path : String) : Option Json :=
  ((path.toList.splitOn '.').map String.ofList).foldl
    (fun v name => v.bind fun v => v.get? name) (some c.config)

end EffectiveConfig

end Provenance
