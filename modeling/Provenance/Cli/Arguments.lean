import Provenance.Algorithm

/-!
# Command line arguments

The program has six commands with options of their own, and three options that may stand before or
after the command. `Invocation.parse` reads the arguments. It stops at the first argument that does
not fit, and at a request for the version or for help; in all other cases it says what to do.
-/

namespace Provenance.Cli

/-- What to do. Paths are as they were given. -/
inductive Command where
  | keygen (algorithm : KeyAlgorithm) (outDir : String) (name : Option String) (variable_ : String)
  | signLink (key link supplyChain out variable_ : String)
  | signLayout (key layout : String) (supplyChain : Option String) (out variable_ : String)
  | hash (files : List String) (normalize json : Bool)
  | verify (layout : String) (links : List String) (expected : String)
      (approvals report : Option String) (json : Bool)
  | release (layout : String) (links artifacts : List String)
  deriving DecidableEq, Repr

/-- A command, and the options that every command has. -/
structure Invocation where
  config : Option String
  logFilter : Option String
  logJson : Bool
  command : Command
  deriving DecidableEq, Repr

/-- Why there is nothing to do. -/
inductive Stop where
  | misuse
  | version
  | help
  deriving DecidableEq, Repr

/-- What an option takes. -/
inductive OptionKind where
  | flag
  | text
  /-- A text that is not empty. -/
  | path
  /-- One of some texts. -/
  | oneOf (texts : List String)
  deriving DecidableEq, Repr

/-- An option. -/
structure OptionSpec where
  name : String
  kind : OptionKind
  /-- It may be given more than once. -/
  repeats : Bool
  required : Bool
  deriving DecidableEq, Repr

/-- The options of a command, and whether it takes other arguments. -/
structure CommandSpec where
  name : String
  options : List OptionSpec
  takesWords : Bool
  deriving DecidableEq, Repr

/-- Options that every command has. -/
def commonOptions : List OptionSpec :=
  [⟨"config", .path, false, false⟩, ⟨"log-filter", .text, false, false⟩,
    ⟨"log-json", .flag, false, false⟩]

/-- The option for the variable that holds the passphrase. -/
def passphraseOption : OptionSpec := ⟨"passphrase-env", .text, false, false⟩

/-- The variable that holds the passphrase unless another one is named. -/
def passphraseVariable : String := "CHAINWITNESS_PASSPHRASE"

/-- The commands. -/
def commands : List CommandSpec :=
  [⟨"keygen", [⟨"algorithm", .oneOf ["ec", "ed25519"], false, false⟩, ⟨"out-dir", .path, false, true⟩,
      ⟨"name", .text, false, false⟩, passphraseOption], false⟩,
    ⟨"sign-link", [⟨"key", .path, false, true⟩, ⟨"link", .path, false, true⟩,
      ⟨"supply-chain", .text, false, true⟩, ⟨"out", .path, false, true⟩, passphraseOption], false⟩,
    ⟨"sign-layout", [⟨"key", .path, false, true⟩, ⟨"layout", .path, false, true⟩,
      ⟨"supply-chain", .text, false, false⟩, ⟨"out", .path, false, true⟩, passphraseOption], false⟩,
    ⟨"hash", [⟨"normalize-line-endings", .flag, false, false⟩, ⟨"json", .flag, false, false⟩], true⟩,
    ⟨"verify", [⟨"layout", .path, false, true⟩, ⟨"link", .path, true, false⟩,
      ⟨"expected", .path, false, true⟩, ⟨"approvals", .path, false, false⟩,
      ⟨"report", .path, false, false⟩, ⟨"json", .flag, false, false⟩], false⟩,
    ⟨"release", [⟨"layout", .path, false, true⟩, ⟨"link", .path, true, false⟩,
      ⟨"artifacts", .path, true, true⟩], false⟩]

/-- Options that were given, in order, and other arguments. -/
structure Given where
  /-- Names and values; a flag has an empty value. -/
  options : List (String × String)
  words : List String
  deriving DecidableEq, Repr

namespace Given

/-- Nothing. -/
def empty : Given := ⟨[], []⟩

/-- An option was given. -/
def has (g : Given) (name : String) : Bool := g.options.any fun o => o.1 = name

/-- The values of an option. -/
def values (g : Given) (name : String) : List String :=
  (g.options.filter fun o => o.1 = name).map (·.2)

/-- The value of an option. -/
def value? (g : Given) (name : String) : Option String := (g.values name).head?

/-- The value of an option, or a default. -/
def valueD (g : Given) (name default : String) : String := (g.value? name).getD default

/-- One more option, unless its value does not fit or it must not be repeated. -/
def add (g : Given) (o : OptionSpec) (value : String) : Except Stop Given :=
  let fits := match o.kind with
    | .flag => true
    | .text => true
    | .path => !value.isEmpty
    | .oneOf texts => texts.contains value
  if fits && (o.repeats || !g.has o.name) then .ok { g with options := g.options ++ [(o.name, value)] }
  else .error .misuse

/-- One more argument that is no option. -/
def addWord (g : Given) (word : String) : Except Stop Given :=
  if word.isEmpty then .error .misuse else .ok { g with words := g.words ++ [word] }

end Given

/-- The text looks like an option; a hyphen alone does not. -/
def looksLikeOption (word : String) : Bool := word.toList.head? = some '-' && word ≠ "-"

/-- A long option after its hyphens: its name, and the value after an equals sign. -/
def splitLong (s : List Char) : String × Option String :=
  let name := s.takeWhile (· ≠ '=')
  match s.drop name.length with
  | _ :: value => (String.ofList name, some (String.ofList value))
  | [] => (String.ofList name, none)

/-- What the first argument is. -/
inductive Word where
  | long (name : String) (value : Option String)
  | short (letters : List Char)
  | separator
  | plain (word : String)

/-- Tells what an argument is. -/
def Word.of (word : String) : Word :=
  match word.toList with
  | ['-', '-'] => .separator
  | '-' :: '-' :: rest => let (name, value) := splitLong rest; .long name value
  | ['-'] => .plain word
  | '-' :: letters => .short letters
  | _ => .plain word

/-- Reads the value of an option, which is attached to it or the next argument. -/
def takeValue (g : Given) (o : OptionSpec) (attached : Option String) (rest : List String) :
    Except Stop (Given × List String) :=
  match attached, rest with
  | some value, _ => do pure (← g.add o value, rest)
  | none, value :: rest =>
    if looksLikeOption value then .error .misuse else do pure (← g.add o value, rest)
  | none, [] => .error .misuse

/-- Reads a long option. -/
def takeLong (options : List OptionSpec) (g : Given) (name : String) (value : Option String)
    (rest : List String) : Except Stop (Given × List String) :=
  match options.find? fun o => o.name = name with
  | none => .error .misuse
  | some o =>
    if o.kind = .flag then
      if value.isSome then .error .misuse else do pure (← g.add o "", rest)
    else takeValue g o value rest

/-- The letter for the configuration takes a value: what follows it, perhaps after an equals sign,
or the next argument. -/
def takeShort (options : List OptionSpec) (version : Bool) (g : Given) (letters : List Char)
    (rest : List String) : Except Stop (Given × List String) :=
  match letters with
  | 'h' :: _ => .error .help
  | 'V' :: _ => .error (if version then .version else .misuse)
  | 'c' :: attached =>
    let value := match attached with
      | [] => none
      | '=' :: value => some (String.ofList value)
      | value => some (String.ofList value)
    takeLong options g "config" value rest
  | _ => .error .misuse

/-- Reads arguments up to the first that is neither an option nor the value of one. `version` says
that the version may be asked for. -/
def readOptions (options : List OptionSpec) (version : Bool) : (fuel : Nat) → Given →
    List String → Except Stop (Given × List String)
  | 0, g, args => .ok (g, args)
  | _ + 1, g, [] => .ok (g, [])
  | fuel + 1, g, word :: rest =>
    match Word.of word with
    | .plain _ => .ok (g, word :: rest)
    | .separator => .ok (g, word :: rest)
    | .short letters => do
      let (g, rest) ← takeShort options version g letters rest
      readOptions options version fuel g rest
    | .long name value =>
      if name = "help" ∧ value.isNone then .error .help
      else if name = "version" ∧ value.isNone ∧ version then .error .version
      else do
        let (g, rest) ← takeLong options g name value rest
        readOptions options version fuel g rest

/-- Reads all arguments of a command. -/
def readArguments (c : CommandSpec) : (fuel : Nat) → Given → List String → Except Stop Given
  | 0, g, _ => .ok g
  | fuel + 1, g, args => do
    let (g, rest) ← readOptions (c.options ++ commonOptions) false args.length g args
    match rest with
    | [] => pure g
    | word :: rest =>
      if word = "--" then
        if c.takesWords then rest.foldlM Given.addWord g
        else if rest.isEmpty then pure g else .error .misuse
      else if c.takesWords then readArguments c fuel (← g.addWord word) rest
      else .error .misuse

/-- Every required option was given, and other arguments where there have to be some. -/
def CommandSpec.isComplete (c : CommandSpec) (g : Given) : Bool :=
  (c.options.all fun o => !o.required || g.has o.name) && (!c.takesWords || !g.words.isEmpty)

/-- The command with the options that were given. -/
def Command.of? (name : String) (g : Given) : Option Command :=
  let variable_ := g.valueD "passphrase-env" passphraseVariable
  match name with
  | "keygen" =>
    let algorithm := if g.value? "algorithm" = some "ed25519" then .ed25519 else .ec
    some (.keygen algorithm (g.valueD "out-dir" "") (g.value? "name") variable_)
  | "sign-link" =>
    some (.signLink (g.valueD "key" "") (g.valueD "link" "") (g.valueD "supply-chain" "")
      (g.valueD "out" "") variable_)
  | "sign-layout" =>
    some (.signLayout (g.valueD "key" "") (g.valueD "layout" "") (g.value? "supply-chain")
      (g.valueD "out" "") variable_)
  | "hash" => some (.hash g.words (g.has "normalize-line-endings") (g.has "json"))
  | "verify" =>
    some (.verify (g.valueD "layout" "") (g.values "link") (g.valueD "expected" "")
      (g.value? "approvals") (g.value? "report") (g.has "json"))
  | "release" => some (.release (g.valueD "layout" "") (g.values "link") (g.values "artifacts"))
  | _ => none

/-- Reads the arguments of a command after its name, given the options before it. -/
def parseCommand (before : Given) (c : CommandSpec) (rest : List String) :
    Except Stop Invocation := do
  let g ← readArguments c (rest.length + 1) .empty rest
  match Command.of? c.name g with
  | some command =>
    if c.isComplete g then
      pure ⟨(g.value? "config").or (before.value? "config"),
        (g.value? "log-filter").or (before.value? "log-filter"),
        g.has "log-json" || before.has "log-json", command⟩
    else .error .misuse
  | none => .error .misuse

/-- Asking for help with words that name a command. -/
def helpOn (rest : List String) : Stop :=
  match rest with
  | [] => .help
  | [name] => if name = "help" ∨ commands.any fun c => c.name = name then .help else .misuse
  | _ => .misuse

/-- Reads all arguments. -/
def Invocation.parse (args : List String) : Except Stop Invocation := do
  let (before, rest) ← readOptions commonOptions true args.length .empty args
  match rest with
  | [] => .error .misuse
  | name :: rest =>
    match commands.find? fun c => c.name = name with
    | some c => parseCommand before c rest
    | none => .error (if name = "help" then helpOn rest else .misuse)

end Provenance.Cli
