import Provenance.Layout.Basic
import Provenance.Proofs.Link.Document

/-!
# Layouts as documents

Everything that a layout holds goes into its document: keys, rules of every kind
with the directories they may leave out, thresholds, names.

> `Layout.faithful_toJson`: a layout can be told from its document, in whatever
> order the members stand.
-/

namespace Provenance

open Json

/-! ## Keys -/

theorem KeyAlgorithm.faithful_toJson : Faithful KeyAlgorithm.toJson := by
  intro a b h
  injection h with h
  cases a <;> cases b <;> first | rfl | exact absurd h (by decide)

theorem Hex.encode_injective {b c : Bytes} (h : Hex.encode b = Hex.encode c) : b = c := by
  have hdecode := Hex.decode?_encode b
  rw [h, Hex.decode?_encode] at hdecode
  exact (Option.some.inj hdecode).symm

theorem PublicKey.plain_toJson (k : PublicKey) : Plain 1 k.toJson := by
  refine .obj ?_
  simp only [List.forall_mem_cons]
  exact ⟨.str _, .str _, .str _, fun _ h => nomatch h⟩

/-- The members of the document of a public key. -/
def PublicKey.members (k : PublicKey) : List (String × Json) :=
  [("keyId", .str k.keyId), ("algorithm", k.algorithm.toJson), ("key", .str (Hex.encode k.key))]

theorem PublicKey.namesDiffer_members (k : PublicKey) : NamesDiffer k.members := by
  show ["keyId", "algorithm", "key"].Nodup
  decide

theorem PublicKey.faithful_toJson : Faithful PublicKey.toJson := by
  intro k l h
  have hk := k.namesDiffer_members
  have hl := l.namesDiffer_members
  have hkey : Faithful fun b : Bytes => .str (Hex.encode b) :=
    faithful_str.comp fun _ _ => Hex.encode_injective
  have hid := faithful_str.field hk hl h "keyId" rfl rfl
  have halgorithm := KeyAlgorithm.faithful_toJson.field hk hl h "algorithm" rfl rfl
  have hbytes := hkey.field hk hl h "key" rfl rfl
  cases k
  cases l
  simp only at hid halgorithm hbytes
  subst hid halgorithm hbytes
  rfl

/-! ## Rules -/

theorem Side.faithful_name : Faithful fun s : Side => .str s.name := by
  refine faithful_str.comp fun a b h => ?_
  cases a <;> cases b <;> first | rfl | exact absurd h (by decide)

/-- Each of the two directories is there or not, and the other members stay where they are. -/
theorem MatchRule.lookup_members (m : MatchRule) :
    lookup "sourcePathPrefix" m.members = m.sourcePrefix.map .str ∧
    lookup "destinationType" m.members = some (.str m.side.name) ∧
    lookup "destinationPathPrefix" m.members = m.destinationPrefix.map .str ∧
    lookup "destinationSegmentName" m.members = some (.str m.destination.segmentName) ∧
    lookup "destinationStepName" m.members = some (.str m.destination.stepName) := by
  obtain ⟨pattern, source, side, destination, step⟩ := m
  cases source <;> cases destination <;> exact ⟨rfl, rfl, rfl, rfl, rfl⟩

namespace Rule

/-- The members of the document of a rule. -/
def members : Rule → List (String × Json)
  | matching m => ("ruleType", .str "MATCH") :: m.members
  | r => [("ruleType", .str r.kind), ("pattern", .str r.pattern)]

theorem toJson_eq (r : Rule) : r.toJson = .obj r.members := by
  cases r <;> rfl

/-- Whatever the kind, the kind and the pattern are there. -/
theorem lookup_kind_pattern (r : Rule) : lookup "ruleType" r.members = some (.str r.kind) ∧
    lookup "pattern" r.members = some (.str r.pattern) := by
  cases r <;> exact ⟨rfl, rfl⟩

theorem namesDiffer_members (r : Rule) : NamesDiffer r.members := by
  cases r with
  | matching m =>
    -- each of the two directories is there or not
    obtain ⟨pattern, source, side, destination, step⟩ := m
    cases source <;> cases destination <;>
      simp [members, MatchRule.members, Json.optional, NamesDiffer]
  | _ =>
    show ["ruleType", "pattern"].Nodup
    decide

theorem plain_toJson (r : Rule) : Plain 1 r.toJson := by
  rw [toJson_eq]
  refine .obj ?_
  cases r with
  | matching m =>
    have hoptional : ∀ (name : String) (value : Option String),
        ∀ p ∈ Json.optional name Json.str value, Plain 0 p.2 := by
      intro name value
      cases value with
      | none => exact fun _ h => nomatch h
      | some s =>
        intro p hp
        rw [List.mem_singleton.mp hp]
        exact .str s
    simp only [members, MatchRule.members, List.forall_mem_cons, List.forall_mem_append]
    exact ⟨.str _, ⟨⟨⟨⟨.str _, fun _ h => nomatch h⟩, hoptional _ _⟩, .str _, fun _ h => nomatch h⟩,
      hoptional _ _⟩, .str _, .str _, fun _ h => nomatch h⟩
  | _ =>
    simp only [members, List.forall_mem_cons]
    exact ⟨.str _, .str _, fun _ h => nomatch h⟩

/-- Without further fields, kind and pattern are the rule. -/
theorem eq_of_kind_of_pattern {r s : Rule} (hr : ∀ m, r ≠ matching m) (hkind : r.kind = s.kind)
    (hpattern : r.pattern = s.pattern) : r = s := by
  cases r <;> cases s <;> first
    | exact absurd rfl (hr _)
    | exact congrArg _ hpattern
    | exact absurd hkind (by simp [kind])

theorem matching_of_sorted_eq {m n : MatchRule}
    (h : (matching m).toJson.sorted = (matching n).toJson.sorted) : m = n := by
  have hm := (matching m).namesDiffer_members
  have hn := (matching n).namesDiffer_members
  obtain ⟨hsource, hside, hprefix, hsegment, hstep⟩ := m.lookup_members
  obtain ⟨hsource', hside', hprefix', hsegment', hstep'⟩ := n.lookup_members
  have hpattern := faithful_str.field hm hn h "pattern" rfl rfl
  replace hsource := faithful_str.optional hm hn h "sourcePathPrefix" hsource hsource'
  replace hside := Side.faithful_name.field hm hn h "destinationType" hside hside'
  replace hprefix := faithful_str.optional hm hn h "destinationPathPrefix" hprefix hprefix'
  replace hsegment := faithful_str.field hm hn h "destinationSegmentName" hsegment hsegment'
  replace hstep := faithful_str.field hm hn h "destinationStepName" hstep hstep'
  obtain ⟨pattern, source, side, destination, segment, step⟩ := m
  obtain ⟨pattern', source', side', destination', segment', step'⟩ := n
  simp only at hpattern hsource hside hprefix hsegment hstep
  subst hpattern hsource hside hprefix hsegment hstep
  rfl

theorem faithful_toJson : Faithful Rule.toJson := by
  intro r s h
  have hmembers := h
  rw [toJson_eq, toJson_eq] at hmembers
  have hr := r.namesDiffer_members
  have hs := s.namesDiffer_members
  have hkind := faithful_str.field hr hs hmembers "ruleType" r.lookup_kind_pattern.1
    s.lookup_kind_pattern.1
  have hpattern := faithful_str.field hr hs hmembers "pattern" r.lookup_kind_pattern.2
    s.lookup_kind_pattern.2
  -- only a MATCH rule has more to it than kind and pattern
  by_cases hmatching : ∃ m, r = matching m
  · obtain ⟨m, rfl⟩ := hmatching
    cases s with
    | matching n => rw [matching_of_sorted_eq h]
    | _ => exact absurd hkind (by simp [kind])
  · exact eq_of_kind_of_pattern (fun m hm => hmatching ⟨m, hm⟩) hkind hpattern

theorem plain_list (rules : List Rule) : Plain 2 (.arr (rules.map Rule.toJson)) :=
  .list fun r _ => r.plain_toJson

end Rule

/-! ## Steps and segments -/

theorem Step.plain_toJson (s : Step) : Plain 3 s.toJson := by
  have hthreshold : s.threshold.val ≤ Nat.pow 2 53 := by
    have hlt := s.threshold.isLt
    have hpow : 4294967296 ≤ Nat.pow 2 53 := by decide
    omega
  refine .obj ?_
  simp only [List.forall_mem_cons]
  exact ⟨.str _, plain_strings 1 _, .count hthreshold, Rule.plain_list _, Rule.plain_list _,
    fun _ h => nomatch h⟩

/-- The members of the document of a step. -/
def Step.members (s : Step) : List (String × Json) :=
  [("name", .str s.name), ("authorizedKeyIds", .arr (s.authorizedKeyIds.map .str)),
    ("requiredNumberOfSignatures", .int s.threshold.val),
    ("expectedMaterialRules", .arr (s.materialRules.map Rule.toJson)),
    ("expectedProductRules", .arr (s.productRules.map Rule.toJson))]

theorem Step.namesDiffer_members (s : Step) : NamesDiffer s.members := by
  show ["name", "authorizedKeyIds", "requiredNumberOfSignatures", "expectedMaterialRules",
    "expectedProductRules"].Nodup
  decide

theorem Step.faithful_toJson : Faithful Step.toJson := by
  intro s t h
  have hs := s.namesDiffer_members
  have ht := t.namesDiffer_members
  have hcount : Faithful fun n : SignatureCount => .int (Int.ofNat n.val) :=
    faithful_count fun _ _ => Fin.ext
  have hname := faithful_str.field hs ht h "name" rfl rfl
  have hkeys := faithful_strings.field hs ht h "authorizedKeyIds" rfl rfl
  have hthreshold := hcount.field hs ht h "requiredNumberOfSignatures" rfl rfl
  have hmaterials := Rule.faithful_toJson.arr.field hs ht h "expectedMaterialRules" rfl rfl
  have hproducts := Rule.faithful_toJson.arr.field hs ht h "expectedProductRules" rfl rfl
  cases s
  cases t
  simp only at hname hkeys hthreshold hmaterials hproducts
  subst hname hkeys hthreshold hmaterials hproducts
  rfl

theorem Segment.plain_toJson (s : Segment) : Plain 5 s.toJson := by
  have hsteps : Plain 4 (.arr (s.steps.map Step.toJson)) := .list fun t _ => t.plain_toJson
  refine .obj ?_
  simp only [List.forall_mem_cons]
  exact ⟨.str _, hsteps, fun _ h => nomatch h⟩

/-- The members of the document of a segment. -/
def Segment.members (s : Segment) : List (String × Json) :=
  [("name", .str s.name), ("steps", .arr (s.steps.map Step.toJson))]

theorem Segment.namesDiffer_members (s : Segment) : NamesDiffer s.members := by
  show ["name", "steps"].Nodup
  decide

theorem Segment.faithful_toJson : Faithful Segment.toJson := by
  intro s t h
  have hs := s.namesDiffer_members
  have ht := t.namesDiffer_members
  have hname := faithful_str.field hs ht h "name" rfl rfl
  have hsteps := Step.faithful_toJson.arr.field hs ht h "steps" rfl rfl
  cases s
  cases t
  simp only at hname hsteps
  subst hname hsteps
  rfl

/-! ## Layouts -/

namespace Layout

/-- The members of the document of a layout. -/
def members (l : Layout) : List (String × Json) :=
  [("keys", .arr (l.keys.map PublicKey.toJson)),
    ("authorizedKeyIds", .arr (l.authorizedKeyIds.map .str)),
    ("layoutSegments", .arr (l.segments.map Segment.toJson)),
    ("expectedEndProducts", .arr (l.endProductRules.map Rule.toJson))]

theorem toJson_eq (l : Layout) : l.toJson = .obj l.members := rfl

theorem namesDiffer_members (l : Layout) : NamesDiffer l.members := by
  show ["keys", "authorizedKeyIds", "layoutSegments", "expectedEndProducts"].Nodup
  decide

theorem plain_toJson (l : Layout) : Plain 7 l.toJson := by
  have hkeys : Plain 6 (.arr (l.keys.map PublicKey.toJson)) :=
    .list fun k _ => k.plain_toJson.mono (by omega)
  have hsegments : Plain 6 (.arr (l.segments.map Segment.toJson)) :=
    .list fun s _ => s.plain_toJson
  rw [toJson_eq]
  refine .obj ?_
  simp only [members, List.forall_mem_cons]
  exact ⟨hkeys, plain_strings 5 _, hsegments, (Rule.plain_list _).mono (by omega),
    fun _ h => nomatch h⟩

theorem faithful_toJson : Faithful Layout.toJson := by
  intro l m h
  rw [toJson_eq, toJson_eq] at h
  have hl := l.namesDiffer_members
  have hm := m.namesDiffer_members
  have hkeys := PublicKey.faithful_toJson.arr.field hl hm h "keys" rfl rfl
  have hsigners := faithful_strings.field hl hm h "authorizedKeyIds" rfl rfl
  have hsegments := Segment.faithful_toJson.arr.field hl hm h "layoutSegments" rfl rfl
  have hrules := Rule.faithful_toJson.arr.field hl hm h "expectedEndProducts" rfl rfl
  cases l
  cases m
  simp only at hkeys hsigners hsegments hrules
  subst hkeys hsigners hsegments hrules
  rfl

end Layout

end Provenance
