import Mathlib.Data.List.Nodup
import Mathlib.Logic.Equiv.Basic
import Provenance.Proofs.Rule.FirstMatch

/-!
# Digests are opaque to rules

Rules compare digests and never look into one. Give every artifact another digest,
different ones to different digests, in the sets of the step and in those of all
verified steps:

> `verifyRules_rehash`: a rule list turns out the same. It explains everything when it
> did, fails at the rule where it failed, and leaves the images of what it left.

New digests come in another order, so sets list the artifacts of a path in another
order, and in fact in any order (`exists_listsIn`): what a rule list says does
not depend on which artifact of a path comes first.

All of it is membership. An injective map keeps and reflects membership
(`rehash_mem_iff`), a rule holds of the images of what it held of (`Rule.holds_rehash`),
and what a rule names it names by its path, so each rule has the image of its share
(`share_rehash`).
-/

namespace Provenance

/-! ## Other digests -/

/-- The artifact with the image of its digest. -/
def Artifact.rehash (f : String → String) (a : Artifact) : Artifact := ⟨a.uri, f a.hash⟩

/-- The images of the artifacts of a set. -/
def ArtifactSet.rehash (f : String → String) (s : ArtifactSet) : ArtifactSet :=
  .ofList (s.toList.map (Artifact.rehash f))

/-- The images of both sides. -/
def StepArtifacts.rehash (f : String → String) (s : StepArtifacts) : StepArtifacts :=
  ⟨s.materials.rehash f, s.products.rehash f⟩

/-- The images of the artifacts of all steps. -/
def VerifiedSteps.rehash (f : String → String) (v : VerifiedSteps) : VerifiedSteps :=
  ⟨v.entries.map fun e => (e.1, e.2.rehash f)⟩

/-- The images of everything that rules are evaluated against. -/
def RuleContext.rehash (f : String → String) (c : RuleContext) : RuleContext :=
  ⟨c.materials.rehash f, c.products.rehash f, c.unexplained.rehash f, c.verified.rehash f⟩

/-- The outcome that leaves the images of what was left. -/
def RuleOutcome.rehash (f : String → String) : RuleOutcome → RuleOutcome
  | unexplained artifacts => unexplained (ArtifactSet.ofList (artifacts.map (.rehash f))).toList
  | o => o

variable {f : String → String}

theorem Artifact.rehash_injective (hf : Function.Injective f) :
    Function.Injective (Artifact.rehash f) := by
  intro a b h
  obtain ⟨uri, hash⟩ := a
  obtain ⟨uri', hash'⟩ := b
  obtain ⟨huri, hhash⟩ := (Artifact.mk.injEq ..).mp h
  exact (Artifact.mk.injEq ..).mpr ⟨huri, hf hhash⟩

namespace ArtifactSet

theorem mem_rehash {s : ArtifactSet} {a : Artifact} :
    a ∈ s.rehash f ↔ ∃ b ∈ s, b.rehash f = a := by
  rw [rehash, mem_ofList, List.mem_map]
  rfl

theorem forall_mem_rehash {s : ArtifactSet} {P : Artifact → Prop} :
    (∀ a ∈ s.rehash f, P a) ↔ ∀ a ∈ s, P (a.rehash f) := by
  simp only [mem_rehash, forall_exists_index, and_imp, forall_apply_eq_imp_iff₂]

theorem rehash_mem_iff (hf : Function.Injective f) {s : ArtifactSet} {a : Artifact} :
    a.rehash f ∈ s.rehash f ↔ a ∈ s := by
  rw [mem_rehash]
  constructor
  · intro h
    obtain ⟨b, hb, heq⟩ := h
    exact Artifact.rehash_injective hf heq ▸ hb
  · exact fun h => ⟨a, h, rfl⟩

theorem exists_mem_rehash {s : ArtifactSet} {P : Artifact → Prop} :
    (∃ a ∈ s.rehash f, P a) ↔ ∃ a ∈ s, P (a.rehash f) := by
  constructor
  · intro h
    obtain ⟨a, ha, hP⟩ := h
    obtain ⟨b, hb, rfl⟩ := mem_rehash.mp ha
    exact ⟨b, hb, hP⟩
  · intro h
    obtain ⟨b, hb, hP⟩ := h
    exact ⟨_, mem_rehash.mpr ⟨b, hb, rfl⟩, hP⟩

theorem nonempty_rehash {s : ArtifactSet} : (∃ a, a ∈ s.rehash f) ↔ ∃ a, a ∈ s := by
  simpa only [and_true] using exists_mem_rehash (P := fun _ => True)

/-- Selecting by path commutes with other digests. -/
theorem filter_rehash {s : ArtifactSet} {p : Artifact → Bool}
    (hp : ∀ a : Artifact, p (a.rehash f) = p a) :
    (s.rehash f).filter p = (s.filter p).rehash f := by
  ext a
  simp only [mem_filter, mem_rehash]
  constructor
  · intro h
    obtain ⟨⟨b, hb, rfl⟩, hpb⟩ := h
    exact ⟨b, ⟨hb, (hp b).symm.trans hpb⟩, rfl⟩
  · intro h
    obtain ⟨b, ⟨hb, hpb⟩, rfl⟩ := h
    exact ⟨⟨b, hb, rfl⟩, (hp b).trans hpb⟩

theorem hasPath_rehash {s : ArtifactSet} {uri : String} :
    (s.rehash f).HasPath uri ↔ s.HasPath uri := exists_mem_rehash

theorem differAt_rehash (hf : Function.Injective f) {s t : ArtifactSet} {uri : String} :
    (s.rehash f).DifferAt (t.rehash f) uri ↔ s.DifferAt t uri := by
  constructor
  · intro h hash hs ht
    exact h (f hash) ((rehash_mem_iff hf).mpr hs) ((rehash_mem_iff hf).mpr ht)
  · intro h hash hs ht
    -- a digest that is there is the image of one that was there
    obtain ⟨a, ha, heq⟩ := mem_rehash.mp hs
    injection heq with huri hhash
    subst huri hhash
    exact h a.hash ha ((rehash_mem_iff hf).mp ht)

/-- A set has as many artifacts as before, listed in the order of their new digests. -/
theorem toList_rehash_perm (hf : Function.Injective f) (s : ArtifactSet) :
    (s.rehash f).toList.Perm (s.toList.map (Artifact.rehash f)) := by
  have hmap : (s.toList.map (Artifact.rehash f)).Nodup :=
    s.nodup_toList.map (Artifact.rehash_injective hf)
  exact (List.perm_ext_iff_of_nodup (nodup_toList _) hmap).mpr fun a => mem_ofList

end ArtifactSet

theorem StepArtifacts.side_rehash (s : StepArtifacts) (side : Side) :
    (s.rehash f).side side = (s.side side).rehash f := by
  cases side <;> rfl

theorem VerifiedSteps.get?_rehash (v : VerifiedSteps) (ref : StepRef) :
    (v.rehash f).get? ref = (v.get? ref).map (StepArtifacts.rehash f) := by
  unfold get? rehash
  rw [List.find?_map, Option.map_map, Option.map_map]
  rfl

/-! ## One rule -/

/-- The artifacts of a MATCH rule are found under their new digests where they were
found before. -/
theorem foundIn_rehash (hf : Function.Injective f) {named : ArtifactSet} {m : MatchRule}
    {destination : StepArtifacts} :
    (∀ a ∈ named.rehash f, ∀ rest, a.uri = directoryPrefix m.sourcePrefix ++ rest →
        (⟨directoryPrefix m.destinationPrefix ++ rest, a.hash⟩ : Artifact) ∈
          (destination.rehash f).side m.side) ↔
      ∀ a ∈ named, ∀ rest, a.uri = directoryPrefix m.sourcePrefix ++ rest →
        (⟨directoryPrefix m.destinationPrefix ++ rest, a.hash⟩ : Artifact) ∈
          destination.side m.side := by
  rw [ArtifactSet.forall_mem_rehash, StepArtifacts.side_rehash]
  refine forall₂_congr fun a _ => forall₂_congr fun rest _ => ?_
  have himage := ArtifactSet.rehash_mem_iff hf (s := destination.side m.side)
    (a := ⟨directoryPrefix m.destinationPrefix ++ rest, a.hash⟩)
  exact himage

theorem Rule.holds_rehash (hf : Function.Injective f) {materials products named : ArtifactSet}
    {verified : VerifiedSteps} {r : Rule} :
    r.Holds (materials.rehash f) (products.rehash f) (verified.rehash f) (named.rehash f) ↔
      r.Holds materials products verified named := by
  cases r with
  | create _ =>
    simp only [Holds, ArtifactSet.forall_mem_rehash, ArtifactSet.rehash_mem_iff hf]
  | delete _ =>
    simp only [Holds, ArtifactSet.forall_mem_rehash, ArtifactSet.rehash_mem_iff hf]
  | modify _ =>
    simp only [Holds, ArtifactSet.forall_mem_rehash, ArtifactSet.hasPath_rehash,
      ArtifactSet.differAt_rehash hf]
    rfl
  | createOrModify _ =>
    simp only [Holds, ArtifactSet.forall_mem_rehash, ArtifactSet.rehash_mem_iff hf,
      ArtifactSet.hasPath_rehash, ArtifactSet.differAt_rehash hf]
    rfl
  | allow _ => exact Iff.rfl
  | disallow _ =>
    unfold Holds
    rw [← not_exists, ← not_exists, ArtifactSet.nonempty_rehash]
  | require _ => exact ArtifactSet.nonempty_rehash
  | matching m =>
    simp only [Holds, VerifiedSteps.get?_rehash, Option.map_eq_some_iff]
    constructor
    · intro h
      obtain ⟨_, ⟨destination, hget, rfl⟩, hfound⟩ := h
      exact ⟨destination, hget, (foundIn_rehash hf).mp hfound⟩
    · intro h
      obtain ⟨destination, hget, hfound⟩ := h
      exact ⟨_, ⟨destination, hget, rfl⟩, (foundIn_rehash hf).mpr hfound⟩

/-! ## All rules -/

section Lists

variable {rules : List Rule} {c : RuleContext}

/-- A rule names an artifact by its path. -/
theorem selects_rehash (r : Rule) (a : Artifact) : r.selects (a.rehash f) = r.selects a :=
  Rule.selects_congr rfl

theorem claims_rehash (r : Rule) (a : Artifact) : r.claims (a.rehash f) = r.claims a := by
  rw [Bool.eq_iff_iff, Rule.claims_iff, Rule.claims_iff, ← Rule.selects_iff, ← Rule.selects_iff,
    selects_rehash]

theorem unclaimedBy_rehash (rules : List Rule) (a : Artifact) :
    unclaimedBy rules (a.rehash f) = unclaimedBy rules a := by
  simp only [unclaimedBy, claims_rehash]

theorem share_rehash {pool : ArtifactSet} {i : Nat} {r : Rule} :
    share rules (pool.rehash f) i r = (share rules pool i r).rehash f :=
  ArtifactSet.filter_rehash fun a => by rw [selects_rehash, unclaimedBy_rehash]

theorem leftover_rehash {pool : ArtifactSet} :
    leftover rules (pool.rehash f) = (leftover rules pool).rehash f :=
  ArtifactSet.filter_rehash (unclaimedBy_rehash rules)

theorem failsAt_rehash (hf : Function.Injective f) {i : Nat} {r : Rule} :
    FailsAt rules (c.rehash f) i r ↔ FailsAt rules c i r := by
  unfold FailsAt
  refine and_congr Iff.rfl (not_congr (and_congr Iff.rfl ?_))
  show r.Holds (c.materials.rehash f) (c.products.rehash f) (c.verified.rehash f)
    (share rules (c.unexplained.rehash f) i r) ↔ _
  rw [share_rehash]
  exact Rule.holds_rehash hf

theorem OutcomeOf.rehash (hf : Function.Injective f) {index : Nat} {o : RuleOutcome}
    (h : OutcomeOf rules c index o) : OutcomeOf rules (c.rehash f) index (o.rehash f) := by
  have hpool : leftover rules (c.rehash f).unexplained = (leftover rules c.unexplained).rehash f :=
    leftover_rehash
  cases o with
  | explained =>
    obtain ⟨hnone, hclaimed⟩ := h
    refine ⟨fun i r hfails => hnone i r ((failsAt_rehash hf).mp hfails), ?_⟩
    rw [hpool, ← not_exists, ArtifactSet.nonempty_rehash, not_exists]
    exact hclaimed
  | ruleFailed k r =>
    obtain ⟨i, hk, hfails, hfirst⟩ := h
    exact ⟨i, hk, (failsAt_rehash hf).mpr hfails,
      fun j hj q hq => hfirst j hj q ((failsAt_rehash hf).mp hq)⟩
  | unexplained artifacts =>
    obtain ⟨hnone, rfl, hne⟩ := h
    refine ⟨fun i r hfails => hnone i r ((failsAt_rehash hf).mp hfails), ?_, ?_⟩
    · rw [hpool]
      rfl
    · intro hnil
      have hperm := ArtifactSet.toList_rehash_perm hf (leftover rules c.unexplained)
      rw [ArtifactSet.rehash, hnil, List.nil_perm, List.map_eq_nil_iff] at hperm
      exact hne hperm

theorem verifyRules_rehash_eq (hf : Function.Injective f) (rules : List Rule) (c : RuleContext) :
    verifyRules rules (c.rehash f) = (verifyRules rules c).rehash f :=
  verifyRules_eq_iff.mpr ((outcomeOf_verifyRules rules c).rehash hf)

/-- What is left is listed as a set, so its images are left each once. -/
theorem unexplained_rehash_perm (hf : Function.Injective f) {left : List Artifact}
    (h : verifyRules rules c = .unexplained left) :
    (ArtifactSet.ofList (left.map (Artifact.rehash f))).toList.Perm
      (left.map (Artifact.rehash f)) := by
  obtain ⟨_, rfl, _⟩ := verifyRules_eq_iff.mp h
  exact ArtifactSet.toList_rehash_perm hf _

end Lists

theorem RuleContext.forSide_rehash (side : Side) (artifacts : StepArtifacts)
    (verified : VerifiedSteps) :
    RuleContext.forSide side (artifacts.rehash f) (verified.rehash f) =
      (RuleContext.forSide side artifacts verified).rehash f := by
  cases side <;> rfl

/-! ## The order in which sets list a path -/

/-- A digest in its place of a list, or behind all of the list. -/
def placed (order : List String) (hash : String) : String :=
  if hash ∈ order then .ofList (List.replicate (order.idxOf hash) 'a') else "b" ++ hash

section Placed

variable {order : List String}

theorem toList_placed {hash : String} (h : hash ∈ order) :
    (placed order hash).toList = List.replicate (order.idxOf hash) 'a' := by
  rw [placed, if_pos h, String.toList_ofList]

theorem placed_of_not_mem {hash : String} (h : hash ∉ order) :
    placed order hash = "b" ++ hash := if_neg h

theorem placed_ne {hash other : String} (h : hash ∈ order) (hother : other ∉ order) :
    placed order hash ≠ placed order other := by
  intro heq
  have hb : 'b' ∈ (placed order hash).toList := by
    rw [heq, placed_of_not_mem hother, String.toList_append]
    exact List.mem_append_left _ (by decide)
  rw [toList_placed h] at hb
  exact absurd (List.eq_of_mem_replicate hb) (by decide)

theorem placed_injective : Function.Injective (placed order) := by
  intro hash other heq
  by_cases h : hash ∈ order
  · by_cases hother : other ∈ order
    · have hlength := congrArg (fun text : String => text.toList.length) heq
      simp only [toList_placed h, toList_placed hother, List.length_replicate] at hlength
      exact (List.idxOf_inj h).mp hlength
    · exact absurd heq (placed_ne h hother)
  · by_cases hother : other ∈ order
    · exact absurd heq.symm (placed_ne hother h)
    · rw [placed_of_not_mem h, placed_of_not_mem hother] at heq
      exact (String.append_right_inj _).mp heq

theorem lex_replicate {c : Char} :
    ∀ {n m : Nat}, n < m → List.Lex (· < ·) (List.replicate n c) (List.replicate m c)
  | 0, _ + 1, _ => .nil
  | _ + 1, _ + 1, h => .cons (lex_replicate (Nat.lt_of_succ_lt_succ h))

/-- The listed digests come in the order of the list. -/
theorem pairwise_placed_lt (h : order.Nodup) :
    order.Pairwise fun hash other => placed order hash < placed order other := by
  rw [List.pairwise_iff_getElem]
  intro i j hi hj hij
  rw [String.lt_iff, toList_placed (List.getElem_mem hi), toList_placed (List.getElem_mem hj),
    h.idxOf_getElem i hi, h.idxOf_getElem j hj]
  exact lex_replicate hij

end Placed

/-- Every set lists the artifacts of a path in that order of their old digests. -/
def ListsIn (order : List String) (f : String → String) : Prop :=
  ∀ (s : ArtifactSet) (uri : String), (∀ a ∈ s, a.uri = uri → a.hash ∈ order) →
    (s.rehash f).atUri uri =
      (order.filter fun hash => (⟨uri, hash⟩ : Artifact) ∈ s).map fun hash => ⟨uri, f hash⟩

/-- There are digests for any order one likes. -/
theorem exists_listsIn {order : List String} (horder : order.Nodup) :
    ∃ f : String → String, Function.Injective f ∧ ListsIn order f := by
  refine ⟨placed order, placed_injective, fun s uri hlisted => ?_⟩
  refine ArtifactSet.eq_of_increasing ((s.rehash _).increasing.filter _) ?_ fun a => ?_
  · rw [List.pairwise_map]
    exact ((pairwise_placed_lt horder).filter _).imp fun h => .inr ⟨rfl, h⟩
  · rw [ArtifactSet.mem_atUri, ArtifactSet.mem_rehash, List.mem_map]
    simp only [List.mem_filter, decide_eq_true_eq]
    constructor
    · intro h
      obtain ⟨⟨b, hb, rfl⟩, rfl⟩ := h
      exact ⟨b.hash, ⟨hlisted b hb rfl, hb⟩, rfl⟩
    · intro h
      obtain ⟨hash, ⟨_, hs⟩, rfl⟩ := h
      exact ⟨⟨_, hs, rfl⟩, rfl⟩

/-- **Digests are opaque to rules.** With other digests everywhere, different ones for
different digests, a list explains everything iff it did, fails at the same index with the
same rule, and leaves the images of the artifacts that it left. That holds for digests
which make sets list the artifacts of a path in any given order, so that order has no
influence. -/
theorem verifyRules_rehash :
    (∀ f : String → String, Function.Injective f →
      ∀ (rules : List Rule) (side : Side) (artifacts : StepArtifacts) (verified : VerifiedSteps),
        let outcome := verifyRules rules (.forSide side artifacts verified)
        let image := verifyRules rules (.forSide side (artifacts.rehash f) (verified.rehash f))
        (image = .explained ↔ outcome = .explained) ∧
        (∀ i r, image = .ruleFailed i r ↔ outcome = .ruleFailed i r) ∧
        (∀ left, outcome = .unexplained left →
          ∃ left', image = .unexplained left' ∧ left'.Perm (left.map (Artifact.rehash f))) ∧
        ∀ left', image = .unexplained left' →
          ∃ left, outcome = .unexplained left ∧ left'.Perm (left.map (Artifact.rehash f))) ∧
    ∀ order : List String, order.Nodup →
      ∃ f : String → String, Function.Injective f ∧ ListsIn order f := by
  refine ⟨fun f hf rules side artifacts verified => ?_, fun order => exists_listsIn⟩
  intro outcome image
  have himage : image = outcome.rehash f := by
    show verifyRules rules _ = _
    rw [RuleContext.forSide_rehash, verifyRules_rehash_eq hf]
  have hperm : ∀ left, outcome = .unexplained left →
      (ArtifactSet.ofList (left.map (Artifact.rehash f))).toList.Perm
        (left.map (Artifact.rehash f)) := fun left => unexplained_rehash_perm hf
  clear_value image outcome
  subst himage
  cases outcome with
  | explained => simp [RuleOutcome.rehash]
  | ruleFailed i r => simp [RuleOutcome.rehash]
  | unexplained left =>
    refine ⟨by simp [RuleOutcome.rehash], by simp [RuleOutcome.rehash], ?_, ?_⟩
    · rintro _ ⟨⟩
      exact ⟨_, rfl, hperm left rfl⟩
    · rintro _ ⟨⟩
      exact ⟨left, rfl, hperm left rfl⟩

/-! ## Logs with new digests -/

namespace Logged

/-- A program is built and two logs are written to one path. -/
def artifacts : StepArtifacts :=
  ⟨.empty, .ofList [⟨"app", "10"⟩, ⟨"log", "00"⟩, ⟨"log", "01"⟩]⟩

def rules : List Rule := [.create "app"]

/-- The digest of the first log becomes the larger one. -/
def newDigest : String → String := Equiv.swap "00" "02"

end Logged

/-- No rule asks for the logs, under whichever digests. They are told of in the order of
the digests, and there are digests that list them the other way round. -/
theorem logged_rehash :
    Function.Injective Logged.newDigest ∧ ["01", "00"].Nodup ∧
    verifyRules Logged.rules (.forSide .products Logged.artifacts .empty) =
      .unexplained [⟨"log", "00"⟩, ⟨"log", "01"⟩] ∧
    (∃ left, verifyRules Logged.rules
        (.forSide .products (Logged.artifacts.rehash Logged.newDigest)
          (VerifiedSteps.empty.rehash Logged.newDigest)) = .unexplained left ∧
      left = [⟨"log", "01"⟩, ⟨"log", "02"⟩] ∧ left.Perm [⟨"log", "02"⟩, ⟨"log", "01"⟩]) ∧
    ∃ f : String → String, Function.Injective f ∧
      (Logged.artifacts.products.rehash f).atUri "log" = [⟨"log", f "01"⟩, ⟨"log", f "00"⟩] := by
  have hinjective : Function.Injective Logged.newDigest := Equiv.injective _
  have hnodup : ["01", "00"].Nodup := by decide
  have hleft : verifyRules Logged.rules (.forSide .products Logged.artifacts .empty) =
      .unexplained [⟨"log", "00"⟩, ⟨"log", "01"⟩] := by decide +kernel
  obtain ⟨houtcome, hlisting⟩ := verifyRules_rehash
  obtain ⟨_, _, hunexplained, _⟩ := houtcome Logged.newDigest hinjective Logged.rules .products
    Logged.artifacts .empty
  obtain ⟨left, himage, hperm⟩ := hunexplained _ hleft
  obtain ⟨f, hf, hlisted⟩ := hlisting ["01", "00"] hnodup
  refine ⟨hinjective, hnodup, hleft, ⟨left, himage, ?_, hperm⟩, f, hf, ?_⟩
  · have hcomputed : verifyRules Logged.rules
        (.forSide .products (Logged.artifacts.rehash Logged.newDigest)
          (VerifiedSteps.empty.rehash Logged.newDigest)) =
        .unexplained [⟨"log", "01"⟩, ⟨"log", "02"⟩] := by decide +kernel
    exact RuleOutcome.unexplained.inj (himage.symm.trans hcomputed)
  · refine (hlisted Logged.artifacts.products "log" ?_).trans ?_
    · have hall : ∀ a ∈ Logged.artifacts.products.toList, a.uri = "log" →
          a.hash ∈ ["01", "00"] := by decide
      exact hall
    · have hboth : (["01", "00"].filter fun hash =>
          (⟨"log", hash⟩ : Artifact) ∈ Logged.artifacts.products) = ["01", "00"] := by decide
      rw [hboth]
      rfl

end Provenance
