import Provenance.Proofs.Stored.Releases
import Provenance.Verification.Run

/-!
# Documents survive being stored

Documents are written without blanks or over several lines, and what is read from
either text is the document that was written:

> `documents_survive`: signed links, signed layouts and encrypted keys survive, and a
> release does iff the counts of its violations are in the ranges that documents have
> for them.

So the text that was signed survives too, and a signature is worth as much after
reading as it was before writing.
-/

namespace Provenance

open Json

theorem Link.survives (l : Link) : Survives Link.toJson Link.ofJson l :=
  (l.plain_toJson.stored.mono (by decide)).survives (Link.reads.restores l)

theorem LinkBlock.survives (b : LinkBlock) : Survives LinkBlock.toJson LinkBlock.ofJson b :=
  (b.plain_toJson.stored.mono (by decide)).survives (LinkBlock.reads.restores b)

theorem LayoutBlock.survives (b : LayoutBlock) :
    Survives LayoutBlock.toJson LayoutBlock.ofJson b :=
  (b.plain_toJson.stored.mono (by decide)).survives (LayoutBlock.reads.restores b)

theorem EncryptedPrivateKey.survives (k : EncryptedPrivateKey) :
    Survives EncryptedPrivateKey.toJson EncryptedPrivateKey.ofJson k :=
  (k.plain_toJson.stored.mono (by decide)).survives (EncryptedPrivateKey.reads.restores k)

theorem ReleaseResult.survives_iff (r : ReleaseResult) :
    Survives ReleaseResult.toJson ReleaseResult.ofJson r ↔ r.Storable := by
  constructor
  · exact fun h => h.yields ReleaseResult.yields_storable
  · exact fun h => (h.stored.mono (by decide)).survives h.ofJson_toJson

/-- Every signed link, signed layout and encrypted key is read as it was written, and so is
every release whose counts are in range. What was signed is the same text as before, and
each signature is by the same keys. -/
theorem documents_survive :
    (∀ b, Survives LinkBlock.toJson LinkBlock.ofJson b) ∧
    (∀ b, Survives LayoutBlock.toJson LayoutBlock.ofJson b) ∧
    (∀ k, Survives EncryptedPrivateKey.toJson EncryptedPrivateKey.ofJson k) ∧
    (∀ r, Survives ReleaseResult.toJson ReleaseResult.ofJson r ↔ r.Storable) ∧
    ∀ (registry : Registry) (s : Signature) (key : PublicKey),
      Keeps LinkBlock.toJson LinkBlock.ofJson
        (fun b => (b.link.canonicalText, b.link.isSignedBy registry s key)) ∧
      Keeps LayoutBlock.toJson LayoutBlock.ofJson
        (fun b => (b.layout.canonicalText, b.layout.isSignedBy registry s key)) := by
  refine ⟨LinkBlock.survives, LayoutBlock.survives, EncryptedPrivateKey.survives,
    ReleaseResult.survives_iff, fun registry s key => ⟨?_, ?_⟩⟩
  · exact keeps_of_survives LinkBlock.survives _
  · exact keeps_of_survives LayoutBlock.survives _

end Provenance
