import Provenance.Artifact.Basic
import Provenance.File.Basic
import Provenance.Hash.Stream

/-!
# Files as artifacts
-/

namespace Provenance.FileView

/-- The hexadecimal digest of a file. -/
def hash (v : FileView) (algorithm : HashAlgorithm) (normalize : Bool) (path : String) :
    Except HashError String := do
  let content ← (v.read path).mapError fun e => (⟨path, e.message⟩ : HashError)
  hashStream algorithm path normalize (chunks content)

/-- The artifact that a file is, under a name of its own. -/
def artifact (v : FileView) (algorithm : HashAlgorithm) (normalize : Bool) (uri path : String) :
    Except HashError Artifact := do
  let hash ← v.hash algorithm normalize path
  pure ⟨uri, hash⟩

end Provenance.FileView
