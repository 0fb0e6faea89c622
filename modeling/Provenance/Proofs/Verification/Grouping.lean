import Provenance.Proofs.Link.Repeats
import Provenance.Proofs.Payload
import Provenance.Proofs.Verification.Support

/-!
# What a content tells of a link

A signature is over lists of artifacts, which may repeat some, and signers are counted
for a content, which is a pair of sets. A set forgets how often an artifact was listed
(`Link.content_eq_iff`); only where nothing is listed twice does it forget the order
and nothing else. Links with duplicates do not count, so

> `grouping_exact`: duplicates are all that is listed again; links without them have the
> same content iff they list the same, which they do iff their texts agree once they are
> told of the same run; and each content that is kept has the signers of the links that
> list the same.
-/

namespace Provenance

/-- The links list the same artifacts on either side, each as often, in whatever order. -/
structure Link.SameArtifacts (l m : Link) : Prop where
  materials : l.materials.Perm m.materials
  products : l.products.Perm m.products

/-- The link as that of another run, perhaps of another command. -/
def Link.asRun (l : Link) (runId : String) (command : Option (List String)) : Link :=
  { l with runId := runId, command := command }

section Links

variable {l m : Link}

/-- All that a content tells of a link is which artifacts are listed. -/
theorem Link.content_eq_iff :
    l.content = m.content ↔
      (∀ a, a ∈ l.materials ↔ a ∈ m.materials) ∧ ∀ a, a ∈ l.products ↔ a ∈ m.products := by
  unfold Link.content
  rw [StepArtifacts.mk.injEq, ArtifactSet.ext_iff, ArtifactSet.ext_iff]
  simp only [ArtifactSet.mem_ofList]

-- Contents alone do not tell how often an artifact was listed.
example : (⟨"build", "run", "main", none, [⟨"app", "00"⟩, ⟨"app", "00"⟩], []⟩ : Link).content =
    (⟨"build", "run", "main", none, [⟨"app", "00"⟩], []⟩ : Link).content := by decide

theorem Link.content_eq_iff_sameArtifacts (hl : l.duplicates = []) (hm : m.duplicates = []) :
    l.content = m.content ↔ l.SameArtifacts m := by
  obtain ⟨hlm, hlp⟩ := Link.duplicates_eq_nil_iff.mp hl
  obtain ⟨hmm, hmp⟩ := Link.duplicates_eq_nil_iff.mp hm
  rw [Link.content_eq_iff, ← List.perm_ext_iff_of_nodup hlm hmm,
    ← List.perm_ext_iff_of_nodup hlp hmp]
  constructor
  · intro h
    exact ⟨h.1, h.2⟩
  · intro h
    exact ⟨h.materials, h.products⟩

/-- With the step, the run and the command the same, texts tell of the artifacts alone. -/
theorem Link.canonicalText_asRun_eq_iff (hstep : l.step = m.step) (runId : String)
    (command : Option (List String)) :
    (l.asRun runId command).canonicalText = (m.asRun runId command).canonicalText ↔
      l.SameArtifacts m := by
  rw [Link.canonicalText_eq_iff]
  injection hstep with hsegment hname
  constructor
  · intro h
    exact ⟨h.materials, h.products⟩
  · intro h
    exact ⟨hsegment, hname, rfl, rfl, h.materials, h.products⟩

end Links

/-- A link is counted in the one group of its content. -/
theorem Grouped.exists_group {links : List LinkBlock} {groups : List SignedContent}
    (h : Grouped links groups) {b : LinkBlock} (hb : b ∈ links) :
    ∃ g ∈ groups, g.artifacts = b.link.content ∧
      ∀ other ∈ groups, other.artifacts = b.link.content → other = g := by
  obtain ⟨g, hg, hcontent, _⟩ := (h.kept _ _).mpr ⟨b, hb, rfl, rfl⟩
  refine ⟨g, hg, hcontent, fun other hother hsame => ?_⟩
  exact List.inj_on_of_nodup_map h.contents hother hg (hsame.trans hcontent.symm)

/-- **Grouping by content loses and merges nothing.** The duplicates of a link are the
artifacts that are listed again on their side, materials first, in order; there are none
iff nothing is listed twice, and as many as the sets are smaller than the lists. Links
of one step that have none have the same content iff each lists what the other does, and
this is so iff their texts agree when both are told of one run. So of links without
duplicates each is counted in one group, for the signers of the links that list the same. -/
theorem grouping_exact :
    (∀ l : Link,
      (∃ materials products, l.duplicates = materials ++ products ∧
        Artifact.ListsRepeats l.materials materials ∧
        Artifact.ListsRepeats l.products products) ∧
      (l.duplicates = [] ↔ l.materials.Nodup ∧ l.products.Nodup) ∧
      l.duplicates.length + (l.content.materials.size + l.content.products.size) =
        l.materials.length + l.products.length) ∧
    (∀ l m : Link, l.step = m.step → l.duplicates = [] → m.duplicates = [] →
      (l.content = m.content ↔ l.SameArtifacts m) ∧
      ∀ runId command, l.SameArtifacts m ↔
        (l.asRun runId command).canonicalText = (m.asRun runId command).canonicalText) ∧
    ∀ links : List LinkBlock, (∀ b ∈ links, b.link.duplicates = []) → ∀ b ∈ links,
      ∃ g ∈ signedContents links, g.artifacts = b.link.content ∧
        (∀ other ∈ signedContents links, other.artifacts = b.link.content → other = g) ∧
        g.signers.Nodup ∧
        ∀ id, id ∈ g.signers ↔
          ∃ other ∈ links, other.link.SameArtifacts b.link ∧ other.signature.keyId = id := by
  refine ⟨fun l => ⟨?_, Link.duplicates_eq_nil_iff, l.length_duplicates⟩,
    fun l m hstep hl hm => ⟨Link.content_eq_iff_sameArtifacts hl hm, fun runId command => ?_⟩,
    fun links hnone b hb => ?_⟩
  · exact ⟨_, _, rfl, Artifact.listsRepeats_repeated _, Artifact.listsRepeats_repeated _⟩
  · exact (Link.canonicalText_asRun_eq_iff hstep runId command).symm
  · have hgrouped := grouped_signedContents links
    obtain ⟨g, hg, hcontent, hone⟩ := hgrouped.exists_group hb
    refine ⟨g, hg, hcontent, hone, hgrouped.signers g hg, fun id => ?_⟩
    rw [hgrouped.mem_signers_iff hg, hcontent]
    refine exists_congr fun other => and_congr_right fun hother => ?_
    rw [Link.content_eq_iff_sameArtifacts (hnone other hother) (hnone b hb)]

/-! ### Two links that list the same -/

namespace TwoOrders

/-- A link for the build by a key, of a run that made these products. -/
def told (runId : String) (keyId : KeyId) (products : List Artifact) : LinkBlock :=
  ⟨"chain", ⟨"build", runId, "main", none, [], products⟩, ⟨keyId, "", .ed25519, .sha512⟩⟩

def forward : LinkBlock := told "one" "first" [⟨"app", "00"⟩, ⟨"doc", "11"⟩]

def backward : LinkBlock := told "two" "second" [⟨"doc", "11"⟩, ⟨"app", "00"⟩]

theorem no_duplicates : ∀ b ∈ [forward, backward], b.link.duplicates = [] := by decide

theorem sameArtifacts : forward.link.SameArtifacts backward.link := ⟨.refl _, .swap _ _ _⟩

end TwoOrders

/-- Links of two runs that list the same in either order have one content, and both
signers are counted for it. -/
theorem twoOrders_grouped :
    TwoOrders.forward.link.content = TwoOrders.backward.link.content ∧
      (TwoOrders.forward.link.asRun "one" none).canonicalText =
        (TwoOrders.backward.link.asRun "one" none).canonicalText ∧
      ∃ g ∈ signedContents [TwoOrders.forward, TwoOrders.backward],
        "first" ∈ g.signers ∧ "second" ∈ g.signers := by
  obtain ⟨_, hlinks, hgroups⟩ := grouping_exact
  have hnone := TwoOrders.no_duplicates
  have hforward : TwoOrders.forward ∈ [TwoOrders.forward, TwoOrders.backward] :=
    List.mem_cons_self
  have hbackward : TwoOrders.backward ∈ [TwoOrders.forward, TwoOrders.backward] :=
    List.mem_cons_of_mem _ (List.mem_singleton_self _)
  obtain ⟨hcontent, htext⟩ := hlinks TwoOrders.forward.link TwoOrders.backward.link rfl
    (hnone _ hforward) (hnone _ hbackward)
  obtain ⟨g, hg, _, _, _, hsigners⟩ := hgroups _ hnone _ hbackward
  refine ⟨hcontent.mpr TwoOrders.sameArtifacts, (htext _ _).mp TwoOrders.sameArtifacts, g, hg, ?_,
    ?_⟩
  · exact (hsigners _).mpr ⟨_, hforward, TwoOrders.sameArtifacts, rfl⟩
  · exact (hsigners _).mpr ⟨_, hbackward, ⟨.refl _, .refl _⟩, rfl⟩

end Provenance
