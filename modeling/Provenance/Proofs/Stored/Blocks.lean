import Provenance.Key.PrivateKey
import Provenance.Layout.Basic
import Provenance.Link
import Provenance.Proofs.Json.Arrangement
import Provenance.Proofs.Layout.Document

/-!
# Keys, links and layouts are read as they were written

Each of these documents is an object with one member for each of its fields, so reading
it is reading each field (`Reads.field`, `Reads.optional`), and what is left out when it
is absent is absent when it is read. Rules are told apart by their tags.

> `LinkBlock.reads`, `LayoutBlock.reads`, `EncryptedPrivateKey.reads`: reading gives back
> what was written, the bytes of keys and signatures included, in whatever order the
> members stand.
-/

namespace Provenance

open Json Checks

/-! ## Keys and signatures -/

theorem KeyAlgorithm.reads : Reads KeyAlgorithm.toJson KeyAlgorithm.ofJson := by
  have hname : Restores (fun a : KeyAlgorithm => .str a.name) KeyAlgorithm.ofJson := by
    intro a
    cases a <;> rfl
  exact hname.reads_str

theorem HashAlgorithm.reads : Reads HashAlgorithm.toJson HashAlgorithm.ofJson := by
  have hname : Restores (fun a : HashAlgorithm => .str a.name) HashAlgorithm.ofJson := by
    intro a
    cases a <;> rfl
  exact hname.reads_str

theorem PublicKey.reads_bytes :
    Reads (fun b => .str (Hex.encode b)) PublicKey.bytesOfJson := by
  refine Restores.reads_str fun b => ?_
  simp only [PublicKey.bytesOfJson, asString, bind, Except.bind, Hex.decode?_encode, pure,
    Except.pure]

theorem PublicKey.reads : Reads PublicKey.toJson PublicKey.ofJson := by
  intro k v hv
  obtain ⟨members, rfl, hm⟩ := exists_rearranges k.namesDiffer_members hv
  have hid : Record.field ⟨members, false⟩ "keyId" asString = .ok k.keyId :=
    reads_str.field hm rfl
  have halgorithm : Record.field ⟨members, false⟩ "algorithm" KeyAlgorithm.ofJson =
      .ok k.algorithm := KeyAlgorithm.reads.field hm rfl
  have hkey : Record.field ⟨members, false⟩ "key" bytesOfJson = .ok k.key :=
    reads_bytes.field hm rfl
  exact bind_eq_ok (record_obj hm.names) <| bind_eq_ok hid <|
    bind_eq_ok halgorithm <| bind_eq_ok hkey rfl

/-- The members of the document of an encrypted private key. -/
def EncryptedPrivateKey.members (k : EncryptedPrivateKey) : List (String × Json) :=
  [("keyId", .str k.keyId), ("algorithm", k.algorithm.toJson),
    ("encryptedKey", .str (Base64.encode k.encryptedKey))]

theorem EncryptedPrivateKey.namesDiffer_members (k : EncryptedPrivateKey) :
    NamesDiffer k.members := by
  show ["keyId", "algorithm", "encryptedKey"].Nodup
  decide

theorem EncryptedPrivateKey.plain_toJson (k : EncryptedPrivateKey) : Plain 1 k.toJson := by
  refine .obj ?_
  simp only [List.forall_mem_cons]
  exact ⟨.str _, .str _, .str _, fun _ h => nomatch h⟩

theorem EncryptedPrivateKey.reads_bytes :
    Reads (fun b => .str (Base64.encode b)) EncryptedPrivateKey.bytesOfJson := by
  refine Restores.reads_str fun b => ?_
  simp only [EncryptedPrivateKey.bytesOfJson, asString, bind, Except.bind, Base64.decode?_encode,
    pure, Except.pure]

theorem EncryptedPrivateKey.reads :
    Reads EncryptedPrivateKey.toJson EncryptedPrivateKey.ofJson := by
  intro k v hv
  obtain ⟨members, rfl, hm⟩ := exists_rearranges k.namesDiffer_members hv
  have hid : Record.field ⟨members, false⟩ "keyId" asString = .ok k.keyId :=
    reads_str.field hm rfl
  have halgorithm : Record.field ⟨members, false⟩ "algorithm" KeyAlgorithm.ofJson =
      .ok k.algorithm := KeyAlgorithm.reads.field hm rfl
  have hkey : Record.field ⟨members, false⟩ "encryptedKey" bytesOfJson = .ok k.encryptedKey :=
    reads_bytes.field hm rfl
  exact bind_eq_ok (record_obj hm.names) <| bind_eq_ok hid <|
    bind_eq_ok halgorithm <| bind_eq_ok hkey rfl

/-- The members of the document of a signature. -/
def Signature.members (s : Signature) : List (String × Json) :=
  [("keyId", .str s.keyId), ("signature", .str s.signature),
    ("keyAlgorithm", s.keyAlgorithm.toJson), ("hashAlgorithm", s.hashAlgorithm.toJson)]

theorem Signature.namesDiffer_members (s : Signature) : NamesDiffer s.members := by
  show ["keyId", "signature", "keyAlgorithm", "hashAlgorithm"].Nodup
  decide

theorem Signature.plain_toJson (s : Signature) : Plain 1 s.toJson := by
  refine .obj ?_
  simp only [List.forall_mem_cons]
  exact ⟨.str _, .str _, .str _, .str _, fun _ h => nomatch h⟩

theorem Signature.reads : Reads Signature.toJson Signature.ofJson := by
  intro s v hv
  obtain ⟨members, rfl, hm⟩ := exists_rearranges s.namesDiffer_members hv
  have hid : Record.field ⟨members, false⟩ "keyId" asString = .ok s.keyId :=
    reads_str.field hm rfl
  have htext : Record.field ⟨members, false⟩ "signature" asString = .ok s.signature :=
    reads_str.field hm rfl
  have hkey : Record.field ⟨members, false⟩ "keyAlgorithm" KeyAlgorithm.ofJson =
      .ok s.keyAlgorithm := KeyAlgorithm.reads.field hm rfl
  have hhash : Record.field ⟨members, false⟩ "hashAlgorithm" HashAlgorithm.ofJson =
      .ok s.hashAlgorithm := HashAlgorithm.reads.field hm rfl
  exact bind_eq_ok (record_obj hm.names) <| bind_eq_ok hid <| bind_eq_ok htext <|
    bind_eq_ok hkey <| bind_eq_ok hhash rfl

/-! ## Links -/

theorem reads_strings :
    Reads (fun texts : List String => .arr (texts.map .str)) (asList asString) :=
  reads_str.list

theorem Artifact.reads : Reads Artifact.toJson Artifact.ofJson := by
  intro a v hv
  obtain ⟨members, rfl, hm⟩ := exists_rearranges a.namesDiffer_members hv
  have huri : Record.field ⟨members, false⟩ "uri" asString = .ok a.uri := reads_str.field hm rfl
  have hhash : Record.field ⟨members, false⟩ "hash" asString = .ok a.hash :=
    reads_str.field hm rfl
  exact bind_eq_ok (record_obj hm.names) <| bind_eq_ok huri <|
    bind_eq_ok hhash rfl

theorem Link.reads : Reads Link.toJson Link.ofJson := by
  intro l v hv
  obtain ⟨members, rfl, hm⟩ := exists_rearranges l.namesDiffer_members hv
  obtain ⟨hcommand, hmaterials, hproducts⟩ := l.lookup_members
  have hstep : Record.field ⟨members, false⟩ "stepName" asString = .ok l.stepName :=
    reads_str.field hm rfl
  have hrun : Record.field ⟨members, false⟩ "runId" asString = .ok l.runId :=
    reads_str.field hm rfl
  have hsegment : Record.field ⟨members, false⟩ "layoutSegmentName" asString =
      .ok l.segmentName := reads_str.field hm rfl
  replace hcommand : Record.fieldD ⟨members, false⟩ "command" none
      (asOption (asList asString)) = .ok l.command :=
    reads_strings.optional hm (fun _ h => nomatch h) hcommand
  replace hmaterials : Record.field ⟨members, false⟩ "materials" (asList Artifact.ofJson) =
      .ok l.materials := Artifact.reads.list.field hm hmaterials
  replace hproducts : Record.field ⟨members, false⟩ "products" (asList Artifact.ofJson) =
      .ok l.products := Artifact.reads.list.field hm hproducts
  exact bind_eq_ok (record_obj hm.names) <| bind_eq_ok hstep <| bind_eq_ok hrun <|
    bind_eq_ok hsegment <| bind_eq_ok hcommand <| bind_eq_ok hmaterials <|
    bind_eq_ok hproducts rfl

namespace LinkBlock

/-- The members of the document of a signed link. -/
def members (b : LinkBlock) : List (String × Json) :=
  [("supplyChainId", .str b.supplyChainId), ("link", b.link.toJson),
    ("signature", b.signature.toJson)]

theorem namesDiffer_members (b : LinkBlock) : NamesDiffer b.members := by
  show ["supplyChainId", "link", "signature"].Nodup
  decide

theorem plain_toJson (b : LinkBlock) : Plain 4 b.toJson := by
  refine .obj ?_
  simp only [List.forall_mem_cons]
  exact ⟨.str _, b.link.plain_toJson, b.signature.plain_toJson.mono (by omega),
    fun _ h => nomatch h⟩

theorem reads : Reads LinkBlock.toJson LinkBlock.ofJson := by
  intro b v hv
  obtain ⟨members, rfl, hm⟩ := exists_rearranges b.namesDiffer_members hv
  have hchain : Record.field ⟨members, false⟩ "supplyChainId" asString = .ok b.supplyChainId :=
    reads_str.field hm rfl
  have hlink : Record.field ⟨members, false⟩ "link" Link.ofJson = .ok b.link :=
    Link.reads.field hm rfl
  have hsignature : Record.field ⟨members, false⟩ "signature" Signature.ofJson =
      .ok b.signature := Signature.reads.field hm rfl
  exact bind_eq_ok (record_obj hm.names) <| bind_eq_ok hchain <| bind_eq_ok hlink <|
    bind_eq_ok hsignature rfl

end LinkBlock

/-! ## Rules -/

theorem Side.reads_name :
    Reads (fun s : Side => .str s.name) (asTaggedChoice Side.byName) := by
  refine Restores.reads_str fun s => ?_
  cases s <;> rfl

theorem MatchRule.ofJson_rearranged {m : MatchRule} {members : List (String × Json)}
    (hm : Rearranges members m.members) : MatchRule.ofJson (.obj members) = .ok m := by
  obtain ⟨hsource, hside, hprefix, hsegment, hstep⟩ := m.lookup_members
  have hpattern : Record.field ⟨members, false⟩ "pattern" asString = .ok m.pattern :=
    reads_str.field hm rfl
  replace hsource : Record.fieldD ⟨members, false⟩ "sourcePathPrefix" none
      (asOption asString) = .ok m.sourcePrefix :=
    reads_str.optional hm (fun _ h => nomatch h) hsource
  replace hside : Record.field ⟨members, false⟩ "destinationType"
      (asTaggedChoice Side.byName) = .ok m.side := Side.reads_name.field hm hside
  replace hprefix : Record.fieldD ⟨members, false⟩ "destinationPathPrefix" none
      (asOption asString) = .ok m.destinationPrefix :=
    reads_str.optional hm (fun _ h => nomatch h) hprefix
  replace hsegment : Record.field ⟨members, false⟩ "destinationSegmentName" asString =
      .ok m.destination.segmentName := reads_str.field hm hsegment
  replace hstep : Record.field ⟨members, false⟩ "destinationStepName" asString =
      .ok m.destination.stepName := reads_str.field hm hstep
  exact bind_eq_ok (record_obj hm.names) <| bind_eq_ok hpattern <|
    bind_eq_ok hsource <| bind_eq_ok hside <| bind_eq_ok hprefix <| bind_eq_ok hsegment <|
    bind_eq_ok hstep rfl

namespace Rule

theorem patternOfJson_rearranged {pattern : String} {members : List (String × Json)}
    (hm : Rearranges members [("pattern", .str pattern)]) :
    patternOfJson (.obj members) = .ok pattern :=
  bind_eq_ok (record_obj hm.names) (reads_str.field hm rfl)

/-- Reading the fields that stand beside the kind. -/
theorem ofJson_eq {r : Rule} {fields : List (String × Json)}
    (hmembers : r.members = ("ruleType", .str r.kind) :: fields) {read : Json → Decoded Rule}
    (hread : alternative readers r.kind = .ok read)
    (h : ∀ fields', Rearranges fields' fields → read (.obj fields') = .ok r) {v : Json}
    (hv : v.sorted = r.toJson.sorted) : ofJson v = .ok r := by
  have hsound : v.isSound = true := by
    rw [← isSound_sorted, hv, isSound_sorted]
    exact r.plain_toJson.stored.isSound
  have hnames := r.namesDiffer_members
  rw [toJson_eq] at hv
  obtain ⟨members, rfl, hm⟩ := exists_rearranges hnames hv
  rw [hmembers] at hnames hm
  exact hm.variant hnames hsound hread h

theorem reads : Reads Rule.toJson Rule.ofJson := by
  intro r v hv
  cases r with
  | matching m =>
    refine ofJson_eq rfl rfl (fun fields hfields => ?_) hv
    rw [MatchRule.ofJson_rearranged hfields]
    rfl
  | _ =>
    refine ofJson_eq rfl rfl (fun fields hfields => ?_) hv
    rw [patternOfJson_rearranged hfields]
    rfl

end Rule

/-! ## Layouts -/

theorem Step.reads : Reads Step.toJson Step.ofJson := by
  intro s v hv
  obtain ⟨members, rfl, hm⟩ := exists_rearranges s.namesDiffer_members hv
  have hlt : s.threshold.val < Nat.pow 2 32 := by
    have hpow : Nat.pow 2 32 = 4294967296 := by decide
    rw [hpow]
    exact s.threshold.isLt
  have hname : Record.field ⟨members, false⟩ "name" asString = .ok s.name :=
    reads_str.field hm rfl
  have hkeys : Record.field ⟨members, false⟩ "authorizedKeyIds" (asList asString) =
      .ok s.authorizedKeyIds := reads_strings.field hm rfl
  have hthreshold : Record.field ⟨members, false⟩ "requiredNumberOfSignatures" (asUnsigned 32) =
      .ok s.threshold.val := hm.field_count rfl hlt
  have hmaterials : Record.field ⟨members, false⟩ "expectedMaterialRules" (asList Rule.ofJson) =
      .ok s.materialRules := Rule.reads.list.field hm rfl
  have hproducts : Record.field ⟨members, false⟩ "expectedProductRules" (asList Rule.ofJson) =
      .ok s.productRules := Rule.reads.list.field hm rfl
  have hcount : Fin.ofNat _ s.threshold.val = s.threshold := Fin.ofNat_val_eq_self _
  refine bind_eq_ok (record_obj hm.names) <| bind_eq_ok hname <| bind_eq_ok hkeys <|
    bind_eq_ok hthreshold <| bind_eq_ok hmaterials <| bind_eq_ok hproducts ?_
  show Except.ok (Step.mk _ _ (Fin.ofNat _ s.threshold.val) _ _) = .ok s
  rw [hcount]

theorem Segment.reads : Reads Segment.toJson Segment.ofJson := by
  intro s v hv
  obtain ⟨members, rfl, hm⟩ := exists_rearranges s.namesDiffer_members hv
  have hname : Record.field ⟨members, false⟩ "name" asString = .ok s.name :=
    reads_str.field hm rfl
  have hsteps : Record.field ⟨members, false⟩ "steps" (asList Step.ofJson) = .ok s.steps :=
    Step.reads.list.field hm rfl
  exact bind_eq_ok (record_obj hm.names) <| bind_eq_ok hname <|
    bind_eq_ok hsteps rfl

theorem Layout.reads : Reads Layout.toJson Layout.ofJson := by
  intro l v hv
  obtain ⟨members, rfl, hm⟩ := exists_rearranges l.namesDiffer_members hv
  have hkeys : Record.field ⟨members, false⟩ "keys" (asList PublicKey.ofJson) = .ok l.keys :=
    PublicKey.reads.list.field hm rfl
  have hsigners : Record.field ⟨members, false⟩ "authorizedKeyIds" (asList asString) =
      .ok l.authorizedKeyIds := reads_strings.field hm rfl
  have hsegments : Record.field ⟨members, false⟩ "layoutSegments" (asList Segment.ofJson) =
      .ok l.segments := Segment.reads.list.field hm rfl
  have hrules : Record.field ⟨members, false⟩ "expectedEndProducts" (asList Rule.ofJson) =
      .ok l.endProductRules := Rule.reads.list.field hm rfl
  exact bind_eq_ok (record_obj hm.names) <| bind_eq_ok hkeys <|
    bind_eq_ok hsigners <| bind_eq_ok hsegments <| bind_eq_ok hrules rfl

namespace LayoutBlock

/-- The members of the document of a signed layout. -/
def members (b : LayoutBlock) : List (String × Json) :=
  [("supplyChainId", .str b.supplyChainId), ("layout", b.layout.toJson),
    ("signatures", .arr (b.signatures.map Signature.toJson))]

theorem namesDiffer_members (b : LayoutBlock) : NamesDiffer b.members := by
  show ["supplyChainId", "layout", "signatures"].Nodup
  decide

theorem plain_toJson (b : LayoutBlock) : Plain 8 b.toJson := by
  have hsignatures : Plain 7 (.arr (b.signatures.map Signature.toJson)) :=
    .list fun s _ => s.plain_toJson.mono (by omega)
  refine .obj ?_
  simp only [List.forall_mem_cons]
  exact ⟨.str _, b.layout.plain_toJson, hsignatures, fun _ h => nomatch h⟩

theorem reads : Reads LayoutBlock.toJson LayoutBlock.ofJson := by
  intro b v hv
  obtain ⟨members, rfl, hm⟩ := exists_rearranges b.namesDiffer_members hv
  have hchain : Record.field ⟨members, false⟩ "supplyChainId" asString = .ok b.supplyChainId :=
    reads_str.field hm rfl
  have hlayout : Record.field ⟨members, false⟩ "layout" Layout.ofJson = .ok b.layout :=
    Layout.reads.field hm rfl
  have hsignatures : Record.field ⟨members, false⟩ "signatures" (asList Signature.ofJson) =
      .ok b.signatures := Signature.reads.list.field hm rfl
  exact bind_eq_ok (record_obj hm.names) <| bind_eq_ok hchain <|
    bind_eq_ok hlayout <| bind_eq_ok hsignatures rfl

end LayoutBlock

end Provenance
