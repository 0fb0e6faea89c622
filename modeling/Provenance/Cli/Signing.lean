import Provenance.Cli.Plan
import Provenance.Cli.Surroundings

/-!
# Making keys and signatures

The commands that need a passphrase. A signing command writes one file, after everything else has
succeeded. Signing a layout that carries signatures keeps those of other keys.
-/

namespace Provenance.Cli

/-- The path of a half of a key pair. -/
def keyPath (directory stem half : String) : String := joinPath directory s!"{stem}.{half}.json"

/-- Makes a key pair and writes both halves into a directory. The files are named for the key id
unless they are given a name. -/
def keygen (s : Surroundings) (registry : Registry) (settings : Settings) (algorithm : KeyAlgorithm)
    (directory : String) (name : Option String) (variable_ : String) : Except CliError Plan := do
  let passphrase ← s.passphrase variable_
  let pair ← (KeyPair.generate registry algorithm passphrase settings.keys.iterations
    s.entropy).mapError .keyGeneration
  let id := pair.publicKey.keyId
  let stem := name.getD id
  pure {
    steps := [
      .makeDirectory directory,
      .write .key (keyPath directory stem "pub") pair.publicKey.toJson.pretty,
      .write .key (keyPath directory stem "key") pair.privateKey.toJson.pretty]
    output := id ++ "\n"
    isValid := true }

/-- Writes a signed document. -/
def writeBlock (path : String) (block : Json) : Plan := ⟨[.write .block path block.pretty], "", true⟩

/-- Signs a link that lists no artifact twice. -/
def signLink (s : Surroundings) (registry : Registry) (settings : Settings)
    (keyPath linkPath supplyChain out variable_ : String) : Except CliError Plan := do
  let key ← s.key keyPath
  let link ← s.input settings.verification.maxDocumentBytes Link.ofJson linkPath
  if !link.duplicates.isEmpty then .error .repeatedArtifact
  else
    let passphrase ← s.passphrase variable_
    let signature ← (signText registry key passphrase link.canonicalText).mapError .signing
    pure (writeBlock out (LinkBlock.toJson ⟨supplyChain, link, signature⟩))

/-- The layout to sign: a signed one, or a bare one for a supply chain. -/
def layoutToSign (value : Json) (supplyChain : Option String) : Except CliError LayoutBlock :=
  if (value.get? "layout").isSome then (LayoutBlock.ofJson value).mapError .notLayoutBlock
  else do
    let layout ← (Layout.ofJson value).mapError .notLayout
    match supplyChain with
    | some id => pure ⟨id, layout, []⟩
    | none => .error .noSupplyChain

/-- A supply chain that is named has to be that of the layout. -/
def checkSupplyChain (block : LayoutBlock) : Option String → Except CliError Unit
  | some id =>
    if id = block.supplyChainId then .ok () else .error (.otherSupplyChain block.supplyChainId id)
  | none => .ok ()

/-- Signs a layout, in place of the key's signature if it has one. -/
def signLayout (s : Surroundings) (registry : Registry) (settings : Settings)
    (keyPath layoutPath : String) (supplyChain : Option String) (out variable_ : String) :
    Except CliError Plan := do
  let key ← s.key keyPath
  let value ← (s.files.loadWith Json.untyped? layoutPath
    settings.verification.maxDocumentBytes).mapError (.input layoutPath)
  let block ← layoutToSign value supplyChain
  checkSupplyChain block supplyChain
  let passphrase ← s.passphrase variable_
  let signature ← (signText registry key passphrase block.layout.canonicalText).mapError .signing
  pure (writeBlock out (block.addSignature signature).toJson)

end Provenance.Cli
