import Mathlib.Data.List.Pairwise
import Provenance.Proofs.Config.Precedence
import Provenance.Proofs.Json.Record

/-!
# Two ways to fill in defaults

A setting that is not configured has its default, and there are two places where that
could be said: in a lowest layer that has every setting, or where the merged
configuration is read. Both are there, and it does not matter which is used:

> `defaults_agree`: with the defaults as the lowest layer or without it, the settings
> that are read are the same, or there are none either way.

The merged values differ. `Filled` is how: they are the same, or both are objects, and
the one that began with the defaults has the default of what the other is missing. Any
layer keeps that (`Filled.overlay`), also one that puts a scalar over a table and so
takes the defaults away on both sides. A reader of a group that starts from the
defaults cannot tell the two apart (`Defaults.indifferent`), because fields do not mind
the order in which they are set, and a default that is set once more changes nothing.
-/

namespace Provenance.Config

open Json

/-! ## Values with and without defaults -/

/-- `a` is `b` with what it is missing from the defaults, as deep as both are objects. -/
inductive Filled : (defaults a b : Json) → Prop
  | same (defaults v : Json) : Filled defaults v v
  | obj {ds as bs : List (String × Json)}
      (other : ∀ n, lookup n ds = none → lookup n as = lookup n bs)
      (missing : ∀ n, lookup n bs = none → lookup n as = lookup n ds)
      (present : ∀ n y, lookup n bs = some y → ∃ x, lookup n as = some x)
      (filled : ∀ n d x y, lookup n ds = some d → lookup n as = some x → lookup n bs = some y →
        Filled d x y) : Filled (.obj ds) (.obj as) (.obj bs)

theorem Filled.eq_of_not_isObject {d a b : Json} (h : Filled d a b) (hd : d.isObject = false) :
    a = b := by
  cases h with
  | same => rfl
  | obj => exact nomatch hd

theorem sizeOf_lookup_lt {n : String} {v : Json} : ∀ {members : List (String × Json)},
    lookup n members = some v → sizeOf v < sizeOf members
  | (m, w) :: rest, h => by
    rw [lookup] at h
    simp only [List.cons.sizeOf_spec, Prod.mk.sizeOf_spec]
    split at h
    · injection h with h
      subst h
      omega
    · have hrest := sizeOf_lookup_lt h
      omega

/-- A layer over the defaults is the layer, filled in. -/
theorem filled_overlay : ∀ (v : Json), v.InOrder → ∀ d : Json, Filled d (overlay d v) v
  | .obj members, hv, d => by
    cases d with
    | obj ds =>
      have hlookup := fun n => lookup_overlayMembers n hv.increasing.namesDiffer ds
      refine .obj (fun n hn => ?_) (fun n hn => ?_) (fun n y hy => ?_) fun n d x y hd hx hy => ?_
      · rw [hlookup, hn]
        cases lookup n members with
        | none => rfl
        | some w => exact congrArg some (overlay_null w)
      · rw [hlookup, hn]
      · rw [hlookup, hy]
        exact ⟨_, rfl⟩
      · rw [hlookup, hy, hd] at hx
        injection hx with hx
        have hsize := sizeOf_lookup_lt hy
        exact hx ▸ filled_overlay y (hv.get? hy) d
    | _ => exact .same _ _
  | .null, _, d | .bool _, _, d | .int _, _, d | .real _, _, d | .str _, _, d | .arr _, _, d
  | .invalid, _, d => .same d _
  termination_by v => sizeOf v

/-- One layer more is laid over both alike. -/
theorem Filled.overlay {d a b : Json} (h : Filled d a b) :
    ∀ {v : Json}, v.InOrder → Filled d (overlay a v) (overlay b v) := by
  induction h with
  | same => exact fun _ => .same _ _
  | @obj ds as bs other missing present filled ih =>
    intro v hv
    cases v with
    | obj upper =>
      have hlookup := fun n => lookup_overlayMembers n hv.increasing.namesDiffer
      refine .obj (fun n hn => ?_) (fun n hn => ?_) (fun n y hy => ?_) fun n d x y hd hx hy => ?_
      · rw [hlookup, hlookup, other n hn]
      · rw [hlookup] at hn ⊢
        cases hw : lookup n upper with
        | none =>
          rw [hw] at hn
          exact missing n hn
        | some w =>
          rw [hw] at hn
          exact nomatch hn
      · rw [hlookup] at hy ⊢
        cases hw : lookup n upper with
        | none =>
          rw [hw] at hy
          exact present n y hy
        | some w => exact ⟨_, rfl⟩
      · rw [hlookup] at hx hy
        cases hw : lookup n upper with
        | none =>
          rw [hw] at hx hy
          exact filled n d x y hd hx hy
        | some w =>
          rw [hw] at hx hy
          injection hx with hx
          injection hy with hy
          subst hx hy
          have hwo := hv.get? hw
          -- what was missing is the default on one side and nothing on the other
          cases hb : lookup n bs with
          | none =>
            rw [missing n hb, hd, Option.getD_some, Option.getD_none, overlay_null]
            exact filled_overlay w hwo d
          | some y =>
            obtain ⟨x, hx⟩ := present n y hb
            rw [hx, Option.getD_some, Option.getD_some]
            exact ih n d x y hd hx hb hwo
    | _ => exact .same _ _

theorem Filled.foldl {d : Json} : ∀ {layers : List Json}, (∀ v ∈ layers, v.InOrder) →
    ∀ {a b : Json}, Filled d a b →
      Filled d (layers.foldl Config.overlay a) (layers.foldl Config.overlay b)
  | [], _, _, _, h => h
  | _ :: _, hl, _, _, h => by
    rw [List.forall_mem_cons] at hl
    exact Filled.foldl hl.2 (h.overlay hl.1)

/-- Layers over the defaults, merged, are the layers merged, filled in. -/
theorem filled_mergeLayers {layers : List Json} (hne : layers ≠ [])
    (hl : ∀ v ∈ layers, v.InOrder) (d : Json) :
    Filled d (mergeLayers (d :: layers)) (mergeLayers layers) := by
  cases layers with
  | nil => exact absurd rfl hne
  | cons v rest =>
    rw [List.forall_mem_cons] at hl
    rw [mergeLayers, mergeLayers, List.foldl_cons, List.foldl_cons, List.foldl_cons, overlay_null,
      overlay_null]
    exact Filled.foldl hl.2 (filled_overlay v hl.1 d)

end Provenance.Config

namespace Provenance.Settings

open Json Config Checks

/-! ## Reading a group -/

variable {α : Type} {fields : List (Field α)}

/-- Two fields may be read in either order. -/
def Commute (f f' : Field α) : Prop :=
  ∀ g v w, ((f.2 g v).toOption.bind fun g => (f'.2 g w).toOption) =
    (f'.2 g w).toOption.bind fun g => (f.2 g v).toOption

instance commute_symm : Std.Symm (@Commute α) :=
  ⟨fun _ _ h g v w => (h g w v).symm⟩

/-- Fields that set different parts of a group. -/
theorem commute_of_set {β β' : Type} {name name' : String} {decode : Json → Decoded β}
    {decode' : Json → Decoded β'} {set : α → β → α} {set' : α → β' → α}
    (h : ∀ g x y, set' (set g x) y = set (set' g y) x) :
    Commute (name, fun g v => (decode v).map (set g))
      (name', fun g v => (decode' v).map (set' g)) := by
  intro g v w
  simp only [toOption_map]
  cases (decode v).toOption <;> cases (decode' w).toOption <;> simp [h]

theorem toOption_readMembers_cons (g : α) (name : String) (v : Json)
    (rest : List (String × Json)) : (readMembers fields g ((name, v) :: rest)).toOption =
      (fields.find? fun f => f.1 = name).bind fun f =>
        (f.2 g v).toOption.bind fun g => (readMembers fields g rest).toOption := by
  rw [readMembers]
  cases fields.find? fun f => f.1 = name with
  | none => rfl
  | some f =>
    exact toOption_bind (f.2 g v) _

/-- The order of members does not count. -/
theorem readMembers_perm (hc : fields.Pairwise Commute) {l m : List (String × Json)}
    (h : l.Perm m) : NamesDiffer l → ∀ g,
      (readMembers fields g l).toOption = (readMembers fields g m).toOption := by
  induction h with
  | nil => exact fun _ _ => rfl
  | cons a _ ih =>
    intro hn g
    obtain ⟨name, v⟩ := a
    simp only [toOption_readMembers_cons, ih (List.nodup_cons.mp hn).2]
  | swap a b rest =>
    intro hn g
    obtain ⟨n, v⟩ := a
    obtain ⟨m, w⟩ := b
    simp only [toOption_readMembers_cons]
    have hne : m ≠ n := by
      intro heq
      exact (List.nodup_cons.mp hn).1 (heq ▸ List.mem_cons_self)
    cases hf : fields.find? fun f => f.1 = n with
    | none => simp
    | some f =>
      cases hf' : fields.find? fun f => f.1 = m with
      | none => simp
      | some f' =>
        have hdiff : f' ≠ f := by
          rintro rfl
          have h1 := List.find?_some hf
          have h2 := List.find?_some hf'
          simp only [decide_eq_true_eq] at h1 h2
          exact hne (h2.symm.trans h1)
        have hcommute : Commute f' f :=
          hc.forall (List.mem_of_find?_eq_some hf')
            (List.mem_of_find?_eq_some hf) hdiff
        have hboth := hcommute g w v
        simp only [Option.bind_some]
        rw [← Option.bind_assoc, hboth, Option.bind_assoc]
  | trans hlm _ ihl ihm =>
    intro hn g
    exact (ihl hn g).trans (ihm ((hlm.map _).nodup_iff.mp hn) g)

theorem readGroup_obj {shape : String} {default : α} {members : List (String × Json)}
    (h : NamesDiffer members) :
    readGroup shape fields default (.obj members) = readMembers fields default members := by
  have hnone : fields.find? (fun f => 1 < occurrences f.1 members) = none := by
    refine List.find?_eq_none.mpr fun f _ => ?_
    have hle := occurrences_le_one h f.1
    simpa using hle
  rw [readGroup, hnone]

/-! ## Reading what is filled in -/

/-- A value is read as it is with the defaults filled in. -/
def Indifferent {β : Type} (defaults : Json) (decode : Json → Decoded β) : Prop :=
  ∀ a b, Filled defaults a b → a.InOrder → b.InOrder → (decode a).toOption = (decode b).toOption

theorem indifferent_of_not_isObject {β : Type} {d : Json} (hd : d.isObject = false)
    (decode : Json → Decoded β) : Indifferent d decode := by
  intro a b hf _ _
  rw [hf.eq_of_not_isObject hd]

theorem Indifferent.map {β γ : Type} {d : Json} {decode : Json → Decoded β}
    (h : Indifferent d decode) (set : β → γ) : Indifferent d fun v => (decode v).map set := by
  intro a b hf ha hb
  rw [toOption_map, toOption_map, h a b hf ha hb]

/-- The members are the defaults of fields: a group that has them already does not
change when one is read, and no field minds defaults that are filled in. -/
structure Defaults (fields : List (Field α)) (default : α) (ds : List (String × Json)) :
    Prop where
  commute : fields.Pairwise Commute
  namesDiffer : NamesDiffer ds
  field : ∀ m ∈ ds, ∃ f, fields.find? (fun f => f.1 = m.1) = some f ∧
    f.2 default m.2 = .ok default ∧ ∀ g, Indifferent m.2 (f.2 g)

/-- Defaults that are read change nothing. -/
theorem Defaults.readMembers_append {default : α} {ds : List (String × Json)}
    (h : Defaults fields default ds) : ∀ {missing rest : List (String × Json)},
    (∀ m ∈ missing, m ∈ ds) →
      readMembers fields default (missing ++ rest) = readMembers fields default rest
  | [], _, _ => rfl
  | (name, v) :: missing, rest, hsub => by
    rw [List.forall_mem_cons] at hsub
    obtain ⟨f, hf, hread, _⟩ := h.field _ hsub.1
    rw [List.cons_append, readMembers, hf]
    show (f.2 default v >>= fun g => readMembers fields g (missing ++ rest)) = _
    rw [hread]
    exact h.readMembers_append hsub.2

/-- Values that no field tells apart are read alike. -/
theorem readMembers_alike (fill : String → Json) : ∀ {members : List (String × Json)},
    (∀ m ∈ members, ∀ f, fields.find? (fun f => f.1 = m.1) = some f →
      ∀ g, (f.2 g (fill m.1)).toOption = (f.2 g m.2).toOption) →
    ∀ g, (readMembers fields g (members.map fun m => (m.1, fill m.1))).toOption =
      (readMembers fields g members).toOption
  | [], _, _ => rfl
  | (name, v) :: rest, h, g => by
    rw [List.forall_mem_cons] at h
    rw [List.map_cons, toOption_readMembers_cons, toOption_readMembers_cons]
    cases hf : fields.find? fun f => f.1 = name with
    | none => rfl
    | some f =>
      rw [Option.bind_some, Option.bind_some, h.1 f hf g]
      exact congrArg _ (funext fun g => readMembers_alike fill h.2 g)

/-- The filled-in members are the defaults of those that are missing, and what became
of those that are there. -/
theorem perm_filled {ds as bs : List (String × Json)} (hd : NamesDiffer ds)
    (ha : NamesDiffer as) (hb : NamesDiffer bs)
    (missing : ∀ n, lookup n bs = none → lookup n as = lookup n ds)
    (present : ∀ n y, lookup n bs = some y → ∃ x, lookup n as = some x) :
    as.Perm (ds.filter (fun m => (lookup m.1 bs).isNone) ++
      bs.map fun m => (m.1, (lookup m.1 as).getD .null)) := by
  have hnodup : (ds.filter (fun m => (lookup m.1 bs).isNone) ++
      bs.map fun m => (m.1, (lookup m.1 as).getD .null)).Nodup := by
    refine List.nodup_append.mpr ⟨hd.of_map.filter _, ?_, ?_⟩
    · refine List.Nodup.of_map (·.1) ?_
      rw [List.map_map]
      exact hb
    · rintro m hm _ hm' rfl
      obtain ⟨⟨n, y⟩, hy, rfl⟩ := List.mem_map.mp hm'
      have hnone := (List.mem_filter.mp hm).2
      rw [(lookup_eq_some_iff hb).mpr hy] at hnone
      exact nomatch hnone
  refine (List.perm_ext_iff_of_nodup ha.of_map hnodup).mpr fun m => ?_
  obtain ⟨n, x⟩ := m
  rw [← lookup_eq_some_iff ha, List.mem_append, List.mem_filter, ← lookup_eq_some_iff hd,
    List.mem_map]
  constructor
  · intro hx
    cases hy : lookup n bs with
    | none => exact .inl ⟨missing n hy ▸ hx, rfl⟩
    | some y => exact .inr ⟨(n, y), (lookup_eq_some_iff hb).mp hy, by rw [hx]; rfl⟩
  · intro hx
    rcases hx with ⟨hx, hy⟩ | ⟨⟨m, y⟩, hy, heq⟩
    · rwa [missing n (Option.isNone_iff_eq_none.mp hy)]
    · obtain ⟨x', hx'⟩ := present m y ((lookup_eq_some_iff hb).mpr hy)
      rw [hx'] at heq
      injection heq with hname hvalue
      rw [← hname, hx']
      exact congrArg some hvalue

/-- A reader of a group that starts from the defaults reads as if they were filled in. -/
theorem Defaults.indifferent {default : α} {ds : List (String × Json)}
    (h : Defaults fields default ds) (shape : String) :
    Indifferent (.obj ds) (readGroup shape fields default) := by
  intro a b hf ha hb
  cases hf with
  | same => rfl
  | @obj _ as bs other missing present filled =>
    have hna := ha.increasing.namesDiffer
    have hnb := hb.increasing.namesDiffer
    rw [readGroup_obj hna, readGroup_obj hnb,
      readMembers_perm h.commute (perm_filled h.namesDiffer hna hnb missing present) hna,
      h.readMembers_append fun m hm => (List.mem_filter.mp hm).1]
    refine readMembers_alike (fun n => (lookup n as).getD .null) (fun m hm f hfind g => ?_) _
    obtain ⟨n, y⟩ := m
    have hy := (lookup_eq_some_iff hnb).mpr hm
    obtain ⟨x, hx⟩ := present n y hy
    rw [hx, Option.getD_some]
    cases hd : lookup n ds with
    | none =>
      rw [other n hd, hy] at hx
      injection hx with hx
      rw [hx]
    | some d =>
      obtain ⟨f', hf', _, halike⟩ := h.field (n, d) ((lookup_eq_some_iff h.namesDiffer).mp hd)
      rw [hfind] at hf'
      injection hf' with hf'
      subst hf'
      exact halike g x y (filled n d x y hd hx hy) (ha.get? hx) (hb.get? hy)

/-- Defaults that are no objects are there or not, and nothing is filled in below them. -/
theorem indifferent_of_leaves {default : α} {ds : List (String × Json)}
    (hcommute : fields.Pairwise Commute) (hnames : NamesDiffer ds)
    (hleaves : ∀ m ∈ ds, m.2.isObject = false ∧
      ∃ f, fields.find? (fun f => f.1 = m.1) = some f ∧ f.2 default m.2 = .ok default)
    (shape : String) : Indifferent (.obj ds) (readGroup shape fields default) := by
  refine Defaults.indifferent ⟨hcommute, hnames, fun m hm => ?_⟩ shape
  obtain ⟨hleaf, f, hf, hread⟩ := hleaves m hm
  exact ⟨f, hf, hread, fun g => indifferent_of_not_isObject hleaf (f.2 g)⟩

/-! ## The settings -/

theorem hashing_indifferent : Indifferent (.obj [("algorithm", .str default.hashing.algorithm),
    ("normalize_line_endings", .bool default.hashing.normalizeLineEndings)]) hashingOfJson := by
  refine indifferent_of_leaves (List.pairwise_pair.mpr ?_) (by simp [NamesDiffer]) ?_ _
  · exact commute_of_set fun _ _ _ => rfl
  · simp only [List.forall_mem_cons]
    exact ⟨⟨rfl, _, rfl, rfl⟩, ⟨rfl, _, rfl, rfl⟩, List.forall_mem_nil _⟩

theorem keys_indifferent :
    Indifferent (.obj [("pbkdf2_iterations", .int default.keys.iterations)]) keysOfJson := by
  refine indifferent_of_leaves (List.pairwise_singleton _ _) (by simp [NamesDiffer]) ?_ _
  rw [List.forall_mem_singleton]
  refine ⟨rfl, _, rfl, ?_⟩
  have hread : asUnsigned 32 (.int default.keys.iterations) = .ok default.keys.iterations :=
    asUnsigned_count (by decide)
  simp only [hread]
  rfl

theorem logging_indifferent : Indifferent (.obj [("filter", .str default.logging.filter),
    ("json", .bool default.logging.json)]) loggingOfJson := by
  refine indifferent_of_leaves (List.pairwise_pair.mpr ?_) (by simp [NamesDiffer]) ?_ _
  · exact commute_of_set fun _ _ _ => rfl
  · simp only [List.forall_mem_cons]
    exact ⟨⟨rfl, _, rfl, rfl⟩, ⟨rfl, _, rfl, rfl⟩, List.forall_mem_nil _⟩

theorem verification_indifferent : Indifferent
    (.obj [("max_document_bytes", .int default.verification.maxDocumentBytes)])
    verificationOfJson := by
  refine indifferent_of_leaves (List.pairwise_singleton _ _) (by simp [NamesDiffer]) ?_ _
  rw [List.forall_mem_singleton]
  refine ⟨rfl, _, rfl, ?_⟩
  have hread : asUnsigned 64 (.int default.verification.maxDocumentBytes) =
      .ok default.verification.maxDocumentBytes := asUnsigned_count (by decide)
  simp only [hread]
  rfl

theorem settings_indifferent : Indifferent default.toJson ofJson := by
  refine Defaults.indifferent ⟨?_, by simp [NamesDiffer], ?_⟩ _
  · simp only [List.pairwise_cons, List.forall_mem_cons]
    refine ⟨⟨?_, ?_, ?_, List.forall_mem_nil _⟩, ⟨?_, ?_, List.forall_mem_nil _⟩,
      ⟨?_, List.forall_mem_nil _⟩, List.forall_mem_nil _, .nil⟩
    all_goals exact commute_of_set fun _ _ _ => rfl
  · simp only [List.forall_mem_cons]
    exact ⟨⟨_, rfl, rfl, fun _ => hashing_indifferent.map _⟩,
      ⟨_, rfl, rfl, fun _ => keys_indifferent.map _⟩,
      ⟨_, rfl, rfl, fun _ => logging_indifferent.map _⟩,
      ⟨_, rfl, rfl, fun _ => verification_indifferent.map _⟩, List.forall_mem_nil _⟩

theorem inOrder_default : default.toJson.InOrder := inOrder_ordered default.toJson

theorem toOption_ofConfig (config : Json) : (ofConfig config).toOption =
    (ofJson config).toOption.bind fun s => s.check.toOption.map fun _ => s := by
  rw [ofConfig, toOption_bind, toOption_mapError]
  refine congrArg _ (funext fun s => ?_)
  cases s.check <;> rfl

theorem toOption_ofConfig_mergeLayers {layers : List Json} (hne : layers ≠ [])
    (hl : ∀ v ∈ layers, v.InOrder) :
    (ofConfig (mergeLayers (default.toJson :: layers))).toOption =
      (ofConfig (mergeLayers layers)).toOption := by
  have hread := settings_indifferent _ _ (filled_mergeLayers hne hl _)
    (inOrder_mergeLayers (List.forall_mem_cons.mpr ⟨inOrder_default, hl⟩))
    (inOrder_mergeLayers hl)
  rw [toOption_ofConfig, toOption_ofConfig, hread]

theorem check_eq_ok_iff {s : Settings} : s.check = .ok () ↔
    (∃ a, s.hashAlgorithm? = some a) ∧ 1 ≤ s.keys.iterations ∧
      0 < s.verification.maxDocumentBytes := by
  rw [check, Nat.one_le_iff_ne_zero, Nat.pos_iff_ne_zero]
  cases s.hashAlgorithm? with
  | none => simp
  | some a =>
    by_cases hkeys : s.keys.iterations = 0
    · simp [hkeys]
    · by_cases hbytes : s.verification.maxDocumentBytes = 0 <;> simp [hkeys, hbytes]

/-- **The two ways to fill in defaults agree.** With the defaults as the lowest layer or
without it, the same settings are read, or none. Settings that are read at all have a
known hash function, at least one iteration, and a limit that is not zero. -/
theorem defaults_agree {layers : List Json} (hne : layers ≠ [])
    (hl : ∀ v ∈ layers, v.InOrder) :
    ((∃ s, ofConfig (mergeLayers (default.toJson :: layers)) = .ok s ∧
        ofConfig (mergeLayers layers) = .ok s) ∨
      ∃ e e', ofConfig (mergeLayers (default.toJson :: layers)) = .error e ∧
        ofConfig (mergeLayers layers) = .error e') ∧
    ∀ config s, ofConfig config = .ok s →
      (∃ a, s.hashAlgorithm? = some a) ∧ 1 ≤ s.keys.iterations ∧
        0 < s.verification.maxDocumentBytes := by
  constructor
  · exact toOption_eq_iff.mp (toOption_ofConfig_mergeLayers hne hl)
  · intro config s hs
    obtain ⟨s', _, hs⟩ := bind_eq_ok_iff.mp hs
    obtain ⟨⟨⟩, hcheck, hs⟩ := bind_eq_ok_iff.mp hs
    injection hs with hs
    exact check_eq_ok_iff.mp (hs ▸ hcheck)

/-! ### A group that is switched off and on again -/

namespace Regained

/-- The second layer has the group of the first again, less what it does not mention. -/
def layers : List Json :=
  [.obj [("keys", .obj [("pbkdf2_iterations", .int 5)]), ("logging", .str "off")],
    .obj [("logging", .obj [("json", .bool true)])]]

theorem inOrder_layers : ∀ v ∈ layers, v.InOrder := by
  simp only [layers, List.forall_mem_cons]
  exact ⟨inOrder_ordered (.obj [("keys", .obj [("pbkdf2_iterations", .int 5)]),
      ("logging", .str "off")]),
    inOrder_ordered (.obj [("logging", .obj [("json", .bool true)])]), List.forall_mem_nil _⟩

/-- What is read without a layer of defaults. -/
def settings : Settings := { default with keys := ⟨5⟩, logging := ⟨"info", true⟩ }

theorem ofConfig_layers : ofConfig (mergeLayers layers) = .ok settings := by
  decide

end Regained

/-- The text takes the default filter out of the merged layers, and reading puts it back. -/
theorem regained_defaults_agree :
    ofConfig (mergeLayers (default.toJson :: Regained.layers)) = .ok Regained.settings ∧
      1 ≤ Regained.settings.keys.iterations := by
  have hne : Regained.layers ≠ [] := List.cons_ne_nil _ _
  obtain ⟨hagree, hchecked⟩ := defaults_agree hne Regained.inOrder_layers
  refine ⟨?_, (hchecked _ _ Regained.ofConfig_layers).2.1⟩
  rcases hagree with ⟨s, hwith, hwithout⟩ | ⟨_, _, _, hwithout⟩
  · rw [Regained.ofConfig_layers] at hwithout
    rwa [hwithout]
  · rw [Regained.ofConfig_layers] at hwithout
    exact nomatch hwithout

end Provenance.Settings
