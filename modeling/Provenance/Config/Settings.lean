import Provenance.Algorithm
import Provenance.Json.Record

/-!
# Settings

What can be configured, in four groups. Everything has a default, and there is nothing else: a name
that is not known is refused. `Settings.ofConfig` reads the settings of a merged configuration and
checks them.
-/

namespace Provenance

/-- How files are hashed. -/
structure HashingSettings where
  algorithm : String
  normalizeLineEndings : Bool
  deriving DecidableEq, Repr

/-- How new keys are encrypted. -/
structure KeySettings where
  iterations : Nat
  deriving DecidableEq, Repr

/-- What is logged. -/
structure LoggingSettings where
  filter : String
  json : Bool
  deriving DecidableEq, Repr

/-- What is read for a verification. -/
structure VerificationSettings where
  maxDocumentBytes : Nat
  deriving DecidableEq, Repr

/-- What can be configured. -/
structure Settings where
  hashing : HashingSettings
  keys : KeySettings
  logging : LoggingSettings
  verification : VerificationSettings
  deriving DecidableEq, Repr

/-- Why settings are refused. -/
inductive SettingsError where
  | unreadable (cause : DecodeError)
  | unknownHash (id : String)
  | noIterations
  | noDocumentBytes
  deriving DecidableEq, Repr

/-- The wording of an error. -/
def SettingsError.message : SettingsError → String
  | unreadable cause => cause.message
  | unknownHash id =>
    s!"hashing.algorithm must be sha256, sha384 or sha512, got {Text.quoted id}"
  | noIterations => "keys.pbkdf2_iterations must be at least 1"
  | noDocumentBytes => "verification.max_document_bytes must be positive"

namespace Settings

/-- What holds unless something else is configured. -/
def default : Settings where
  hashing := ⟨"sha256", false⟩
  keys := ⟨100000⟩
  logging := ⟨"info", false⟩
  verification := ⟨16 * 1024 * 1024⟩

/-- A setting: its name, and how its value changes a group. -/
abbrev Field (α : Type) := String × (α → Json → Decoded α)

/-- Reads members in order; each has to be the name of a field. -/
def readMembers {α : Type} (fields : List (Field α)) : α → List (String × Json) → Decoded α
  | group, [] => .ok group
  | group, (name, v) :: rest =>
    match fields.find? fun f => f.1 = name with
    | none => .error (.unknownField name (fields.map (·.1)))
    | some (_, read) => do
      let group ← read group v
      readMembers fields group rest

/-- Reads values of fields by their position. -/
def readItems {α : Type} : List (Field α) → α → List Json → Decoded α
  | (_, read) :: fields, group, v :: rest => do
    let group ← read group v
    readItems fields group rest
  | _, group, _ => .ok group

/-- A group of settings, from an object or from an array of the first fields. -/
def readGroup {α : Type} (shape : String) (fields : List (Field α)) (default : α) :
    Json → Decoded α
  | .obj members =>
    match fields.find? fun f => 1 < Json.occurrences f.1 members with
    | some f => .error (.repeatedField f.1)
    | none => readMembers fields default members
  | .arr items => do
    let group ← readItems fields default items
    if fields.length < items.length then
      .error (.wrongLength items.length "fewer elements in array")
    else pure group
  | v => .error (.wrongType v.describe s!"struct {shape}")

/-- The settings for hashing. -/
def hashingOfJson : Json → Decoded HashingSettings :=
  readGroup "HashingSettings"
    [("algorithm", fun g v => v.asString.map fun x => { g with algorithm := x }),
      ("normalize_line_endings",
        fun g v => v.asBool.map fun x => { g with normalizeLineEndings := x })]
    default.hashing

/-- The settings for keys. -/
def keysOfJson : Json → Decoded KeySettings :=
  readGroup "KeySettings"
    [("pbkdf2_iterations", fun g v => (v.asUnsigned 32).map fun x => { g with iterations := x })]
    default.keys

/-- The settings for logging. -/
def loggingOfJson : Json → Decoded LoggingSettings :=
  readGroup "LoggingSettings"
    [("filter", fun g v => v.asString.map fun x => { g with filter := x }),
      ("json", fun g v => v.asBool.map fun x => { g with json := x })]
    default.logging

/-- The settings for verification. -/
def verificationOfJson : Json → Decoded VerificationSettings :=
  readGroup "VerificationSettings"
    [("max_document_bytes",
      fun g v => (v.asUnsigned 64).map fun x => { g with maxDocumentBytes := x })]
    default.verification

/-- From a document. -/
def ofJson : Json → Decoded Settings :=
  readGroup "Settings"
    [("hashing", fun s v => (hashingOfJson v).map fun x => { s with hashing := x }),
      ("keys", fun s v => (keysOfJson v).map fun x => { s with keys := x }),
      ("logging", fun s v => (loggingOfJson v).map fun x => { s with logging := x }),
      ("verification", fun s v => (verificationOfJson v).map fun x => { s with verification := x })]
    default

/-- As a document. -/
def toJson (s : Settings) : Json :=
  .obj [("hashing", .obj [("algorithm", .str s.hashing.algorithm),
      ("normalize_line_endings", .bool s.hashing.normalizeLineEndings)]),
    ("keys", .obj [("pbkdf2_iterations", .int s.keys.iterations)]),
    ("logging", .obj [("filter", .str s.logging.filter), ("json", .bool s.logging.json)]),
    ("verification", .obj [("max_document_bytes", .int s.verification.maxDocumentBytes)])]

/-- The hash function for files. -/
def hashAlgorithm? (s : Settings) : Option HashAlgorithm := HashAlgorithm.ofId? s.hashing.algorithm

/-- The settings can be used. -/
def check (s : Settings) : Except SettingsError Unit :=
  if s.hashAlgorithm?.isNone then .error (.unknownHash s.hashing.algorithm)
  else if s.keys.iterations = 0 then .error .noIterations
  else if s.verification.maxDocumentBytes = 0 then .error .noDocumentBytes
  else .ok ()

/-- The settings of a merged configuration. -/
def ofConfig (config : Json) : Except SettingsError Settings := do
  let settings ← (ofJson config).mapError .unreadable
  settings.check
  pure settings

end Settings

end Provenance
