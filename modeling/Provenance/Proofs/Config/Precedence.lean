import Provenance.Config.Effective
import Provenance.Proofs.Checks
import Provenance.Proofs.Json.Paths

/-!
# Which layer a configured value comes from

Layers are laid over each other from the first to the last, and the order matters for
more than single values: a scalar in the place of a table takes away what earlier
layers had below it, and a later table does not bring it back. `Decides` says that a
layer has something to say at a path: it has a value there, or one that is no table on
the way.

> `mergeLayers_precedence`: at a path the merged layers hold what the last layer has
> that decides there, or nothing when no layer does.

One layer more puts its value over what was at the path (`at?_overlay_of_some`), takes
the path away (`at?_overlay_of_cut`), or leaves what was there (`at?_overlay_of_silent`),
and these are the three ways in which it may decide or not. The result for all layers is
by induction from the last one backwards.

Layers are values that were read as a whole, so they are in order
(`Json.inOrder_of_untyped?`), and only values in order are merged. `Json` also has the
objects with repeated names that a text may hold before it is read.
-/

namespace Provenance.Config

open Json

/-! ## One layer over another -/

theorem overlay_of_not_isObject {v : Json} (h : v.isObject = false) (base : Json) :
    overlay base v = v := by
  cases v with
  | obj members => exact nomatch h
  | _ => rfl

theorem overlay_null (v : Json) : overlay .null v = v := by
  cases v <;> rfl

theorem isObject_overlay {v : Json} (h : v.isObject = true) (base : Json) :
    (overlay base v).isObject = true := by
  obtain ⟨members, rfl⟩ := isObject_iff.mp h
  cases base <;> rfl

theorem overlayMembers_cons (under : List (String × Json)) (name : String) (v : Json)
    (rest : List (String × Json)) : overlayMembers under ((name, v) :: rest) =
      overlayMembers (insertMember name (overlay ((lookup name under).getD .null) v) under) rest := by
  rw [overlayMembers]
  cases lookup name under with
  | none => rw [Option.getD_none, overlay_null]
  | some below => rfl

/-- Each name of the members that are laid over is merged once. -/
theorem lookup_overlayMembers (n : String) : ∀ {members : List (String × Json)},
    NamesDiffer members → ∀ under : List (String × Json),
      lookup n (overlayMembers under members) =
        match lookup n members with
        | some v => some (overlay ((lookup n under).getD .null) v)
        | none => lookup n under
  | [], _, _ => rfl
  | (name, v) :: rest, h, under => by
    obtain ⟨hname, hrest⟩ := List.nodup_cons.mp h
    rw [overlayMembers_cons, lookup_overlayMembers n hrest, lookup_insertMember, lookup]
    by_cases hn : name = n
    · subst hn
      -- the rest does not give the name again
      have hnone : lookup name rest = none :=
        Option.eq_none_iff_forall_ne_some.mpr fun w hw =>
          hname (List.mem_map.mpr ⟨(name, w), (lookup_eq_some_iff hrest).mp hw, rfl⟩)
      rw [hnone, if_pos rfl, if_pos rfl]
    · rw [if_neg hn, if_neg hn]

theorem get?_overlay {v : Json} (hv : v.InOrder) (hobj : v.isObject = true) (base : Json)
    (name : String) : (overlay base v).get? name =
      match v.get? name with
      | some w => some (overlay ((base.get? name).getD .null) w)
      | none => base.get? name := by
  obtain ⟨members, rfl⟩ := isObject_iff.mp hobj
  cases base with
  | obj under => exact lookup_overlayMembers name hv.increasing.namesDiffer under
  | _ =>
    show lookup name members = _
    simp only [Json.get?]
    cases lookup name members with
    | none => rfl
    | some w => exact congrArg some (overlay_null w).symm

/-! ## What a layer decides -/

/-- The layer has a value at the path, or one that is no object on the way. -/
def Decides (layer : Json) (path : List String) : Prop :=
  (∃ v, layer.at? path = some v) ∨
    ∃ front v, front <+: path ∧ front ≠ path ∧ layer.at? front = some v ∧ v.isObject = false

theorem decides_of_not_isObject {v : Json} (h : v.isObject = false) {path : List String}
    (hpath : path ≠ []) : Decides v path :=
  .inr ⟨[], v, List.nil_prefix, hpath.symm, rfl, h⟩

theorem decides_nil (v : Json) : Decides v [] := .inl ⟨v, rfl⟩

theorem decides_cons_iff {v : Json} (h : v.isObject = true) {name : String}
    {rest : List String} :
    Decides v (name :: rest) ↔ ∃ w, v.get? name = some w ∧ Decides w rest := by
  constructor
  · intro hv
    rcases hv with ⟨x, hx⟩ | ⟨front, x, hfront, hne, hx, hobj⟩
    · obtain ⟨w, hw, hx⟩ := Option.bind_eq_some_iff.mp hx
      exact ⟨w, hw, .inl ⟨x, hx⟩⟩
    · cases front with
      | nil =>
        injection hx with hx
        rw [← hx, h] at hobj
        exact nomatch hobj
      | cons first front =>
        obtain ⟨rfl, hbelow⟩ := List.cons_prefix_cons.mp hfront
        obtain ⟨w, hw, hx⟩ := Option.bind_eq_some_iff.mp hx
        exact ⟨w, hw, .inr ⟨front, x, hbelow, fun heq => hne (heq ▸ rfl), hx, hobj⟩⟩
  · intro hv
    obtain ⟨w, hw, ⟨x, hx⟩ | ⟨front, x, hfront, hne, hx, hobj⟩⟩ := hv
    · exact .inl ⟨x, (at?_of_get? hw rest).trans hx⟩
    · refine .inr ⟨name :: front, x, List.cons_prefix_cons.mpr ⟨rfl, hfront⟩, fun heq => ?_,
        (at?_of_get? hw front).trans hx, hobj⟩
      injection heq with _ heq
      exact hne heq

theorem isObject_of_get? {v w : Json} {name : String} (h : v.get? name = some w) :
    v.isObject = true := by
  cases v with
  | obj members => rfl
  | _ => exact nomatch h

theorem decides_cons_of_get? {v w : Json} {name : String} (hw : v.get? name = some w)
    {rest : List String} : Decides v (name :: rest) ↔ Decides w rest := by
  rw [decides_cons_iff (isObject_of_get? hw), hw]
  constructor
  · intro h
    obtain ⟨_, hsome, h⟩ := h
    injection hsome with hsome
    rwa [hsome]
  · exact fun h => ⟨w, rfl, h⟩

theorem not_decides_of_get? {v : Json} (hobj : v.isObject = true) {name : String}
    (hnone : v.get? name = none) (rest : List String) : ¬Decides v (name :: rest) := by
  intro h
  obtain ⟨w, hw, _⟩ := (decides_cons_iff hobj).mp h
  rw [hnone] at hw
  exact nomatch hw

/-! ## One layer more, at a path -/

theorem at?_getD_null (base : Json) (name : String) {rest : List String} (h : rest ≠ []) :
    ((base.get? name).getD .null).at? rest = base.at? (name :: rest) := by
  cases hbase : base.get? name with
  | some b => exact (at?_of_get? hbase rest).symm
  | none =>
    rw [at?_of_get?_none hbase]
    cases rest with
    | nil => exact absurd rfl h
    | cons _ _ => rfl

/-- A value in the layer is laid over what was there. -/
theorem at?_overlay_of_some : ∀ {path : List String} {v x : Json}, v.InOrder →
    v.at? path = some x → ∀ base : Json,
      (overlay base v).at? path = some (overlay ((base.at? path).getD .null) x)
  | [], v, x, _, hx, base => by
    injection hx with hx
    exact hx ▸ rfl
  | name :: rest, v, x, hv, hx, base => by
    obtain ⟨w, hw, hx⟩ := Option.bind_eq_some_iff.mp hx
    have hget := get?_overlay hv (isObject_of_get? hw) base name
    rw [hw] at hget
    rw [at?_of_get? hget, at?_overlay_of_some (hv.get? hw) hx]
    cases rest with
    | nil => cases hbase : base.get? name <;> simp [at?, hbase]
    | cons _ _ => rw [at?_getD_null base name (List.cons_ne_nil _ _)]

/-- A value that is no object on the way takes the path away. -/
theorem at?_overlay_of_cut : ∀ {path : List String} {v : Json}, v.InOrder →
    v.at? path = none → Decides v path → ∀ base : Json, (overlay base v).at? path = none
  | [], _, _, hnone, _, _ => nomatch hnone
  | name :: rest, v, hv, hnone, hdecides, base => by
    cases hobj : v.isObject with
    | false => rwa [overlay_of_not_isObject hobj]
    | true =>
      obtain ⟨w, hw, hdecides⟩ := (decides_cons_iff hobj).mp hdecides
      have hget := get?_overlay hv hobj base name
      rw [hw] at hget
      rw [at?_of_get? hw] at hnone
      rw [at?_of_get? hget]
      exact at?_overlay_of_cut (hv.get? hw) hnone hdecides _

/-- A layer that does not decide leaves what was there. -/
theorem at?_overlay_of_silent : ∀ {path : List String} {v : Json}, v.InOrder →
    ¬Decides v path → ∀ base : Json, (overlay base v).at? path = base.at? path
  | [], v, _, hsilent, _ => absurd (decides_nil v) hsilent
  | name :: rest, v, hv, hsilent, base => by
    cases hobj : v.isObject with
    | false => exact absurd (decides_of_not_isObject hobj (List.cons_ne_nil _ _)) hsilent
    | true =>
      have hget := get?_overlay hv hobj base name
      cases hw : v.get? name with
      | none =>
        rw [hw] at hget
        rw [at?, at?, hget]
      | some w =>
        rw [hw] at hget
        have hbelow : ¬Decides w rest := (decides_cons_of_get? hw).not.mp hsilent
        have hrest : rest ≠ [] := fun h => hbelow (h ▸ decides_nil w)
        rw [at?_of_get? hget, at?_overlay_of_silent (hv.get? hw) hbelow,
          at?_getD_null base name hrest]

/-! ## All layers -/

/-- The last of the layers that decide at the path. -/
def LastDeciding (layers : List Json) (path : List String) (layer : Json) : Prop :=
  ∃ before after, layers = before ++ layer :: after ∧ Decides layer path ∧
    ∀ v ∈ after, ¬Decides v path

theorem mergeLayers_append (layers : List Json) (v : Json) :
    mergeLayers (layers ++ [v]) = overlay (mergeLayers layers) v :=
  List.foldl_append

/-- Silent layers at the end change nothing at the path. -/
theorem at?_foldl_of_silent {path : List String} : ∀ {layers : List Json},
    (∀ v ∈ layers, v.InOrder) → (∀ v ∈ layers, ¬Decides v path) → ∀ base : Json,
      (layers.foldl overlay base).at? path = base.at? path
  | [], _, _, _ => rfl
  | v :: rest, hv, hsilent, base => by
    rw [List.forall_mem_cons] at hv hsilent
    rw [List.foldl_cons, at?_foldl_of_silent hv.2 hsilent.2,
      at?_overlay_of_silent hv.1 hsilent.1]

theorem at?_mergeLayers_of_silent {path : List String} (hpath : path ≠ []) {layers : List Json}
    (hl : ∀ v ∈ layers, v.InOrder) (hsilent : ∀ v ∈ layers, ¬Decides v path) :
    (mergeLayers layers).at? path = none := by
  rw [mergeLayers, at?_foldl_of_silent hl hsilent]
  cases path with
  | nil => exact absurd rfl hpath
  | cons name rest => rfl

theorem increasing_overlayMembers : ∀ (members : List (String × Json)) {under},
    Increasing under → Increasing (overlayMembers under members)
  | [], _, h => h
  | (name, v) :: rest, under, h => by
    rw [overlayMembers_cons]
    exact increasing_overlayMembers rest h.insertMember

/-- Layers that are in order are merged to a value in order. -/
theorem inOrder_overlay {base v : Json} (hbase : base.InOrder) (hv : v.InOrder) :
    (overlay base v).InOrder := by
  intro path members hat
  cases hx : v.at? path with
  | some x =>
    rw [at?_overlay_of_some hv hx] at hat
    injection hat with hat
    cases hobj : x.isObject with
    | false =>
      rw [overlay_of_not_isObject hobj] at hat
      exact hv path members (hat ▸ hx)
    | true =>
      obtain ⟨upper, rfl⟩ := isObject_iff.mp hobj
      cases hunder : base.at? path with
      | none =>
        rw [hunder, Option.getD_none, overlay_null] at hat
        exact hv path members (hat ▸ hx)
      | some b =>
        rw [hunder, Option.getD_some] at hat
        cases b with
        | obj under =>
          injection hat with hat
          exact hat ▸ increasing_overlayMembers upper (hbase path under hunder)
        | _ =>
          injection hat with hat
          exact hat ▸ hv path upper hx
  | none =>
    by_cases hdecides : Decides v path
    · rw [at?_overlay_of_cut hv hx hdecides] at hat
      exact nomatch hat
    · rw [at?_overlay_of_silent hv hdecides] at hat
      exact hbase path members hat

theorem inOrder_foldl : ∀ {layers : List Json}, (∀ v ∈ layers, v.InOrder) → ∀ {base : Json},
    base.InOrder → (layers.foldl overlay base).InOrder
  | [], _, _, hbase => hbase
  | _ :: _, hv, _, hbase => by
    rw [List.forall_mem_cons] at hv
    exact inOrder_foldl hv.2 (inOrder_overlay hbase hv.1)

theorem inOrder_mergeLayers {layers : List Json} (hl : ∀ v ∈ layers, v.InOrder) :
    (mergeLayers layers).InOrder :=
  inOrder_foldl hl (inOrder_of_not_isObject rfl)

theorem LastDeciding.at?_mergeLayers {layers : List Json} {path : List String} {layer : Json}
    (h : LastDeciding layers path layer) (hl : ∀ v ∈ layers, v.InOrder) :
    layer.InOrder ∧ ∃ base,
      (mergeLayers layers).at? path = (overlay base layer).at? path := by
  obtain ⟨before, after, rfl, _, hsilent⟩ := h
  refine ⟨hl layer (by simp), mergeLayers before, ?_⟩
  rw [mergeLayers, List.foldl_append, List.foldl_cons]
  exact at?_foldl_of_silent (fun v hv => hl v (by simp [hv])) hsilent _

/-- **A configured value comes from the last layer that decides.** What that layer has
at the path, if it is no table, is what the merged layers have; if it is a table, they
have a table; and if the layer cuts the path off, or no layer decides, they have
nothing. So one layer more overrides the leaves that it mentions, and at every path
where it does not decide nothing is lost. -/
theorem mergeLayers_precedence {layers : List Json} (hl : ∀ v ∈ layers, v.InOrder)
    {path : List String} (hpath : path ≠ []) :
    (∀ layer, LastDeciding layers path layer →
      (∀ v, layer.at? path = some v → v.isObject = false →
        (mergeLayers layers).at? path = some v) ∧
      (∀ v, layer.at? path = some v → v.isObject = true →
        ∃ w, (mergeLayers layers).at? path = some w ∧ w.isObject = true) ∧
      (layer.at? path = none → (mergeLayers layers).at? path = none)) ∧
    ((∀ v ∈ layers, ¬Decides v path) → (mergeLayers layers).at? path = none) ∧
    ∀ layer : Json, layer.InOrder →
      (∀ v, layer.at? path = some v → v.isObject = false →
        (mergeLayers (layers ++ [layer])).at? path = some v) ∧
      (¬Decides layer path →
        (mergeLayers (layers ++ [layer])).at? path = (mergeLayers layers).at? path) := by
  refine ⟨fun layer hlast => ?_, fun hsilent => ?_, fun layer horder => ⟨fun v hv hobj => ?_,
    fun hsilent => ?_⟩⟩
  · obtain ⟨horder, base, hat⟩ := hlast.at?_mergeLayers hl
    obtain ⟨_, _, _, hdecides, _⟩ := hlast
    rw [hat]
    refine ⟨fun v hv hobj => ?_, fun v hv hobj => ?_, fun hnone => ?_⟩
    · rw [at?_overlay_of_some horder hv, overlay_of_not_isObject hobj]
    · exact ⟨_, at?_overlay_of_some horder hv base, isObject_overlay hobj _⟩
    · exact at?_overlay_of_cut horder hnone hdecides base
  · exact at?_mergeLayers_of_silent hpath hl hsilent
  · rw [mergeLayers_append, at?_overlay_of_some horder hv, overlay_of_not_isObject hobj]
  · rw [mergeLayers_append, at?_overlay_of_silent horder hsilent]

/-! ### A group that is switched off and on again -/

namespace SwitchedOff

/-- The defaults, a layer that has a text in place of the group, and one that sets a single
name of the group. -/
def layers : List Json :=
  [.obj [("logging", .obj [("filter", .str "info"), ("json", .bool false)])],
    .obj [("logging", .str "off")], .obj [("logging", .obj [("json", .bool true)])]]

/-- A layer that sets the other name. -/
def filter : Json := .obj [("logging", .obj [("filter", .str "debug")])]

theorem inOrder_layers : ∀ v ∈ layers, v.InOrder := by
  simp only [layers, List.forall_mem_cons]
  exact ⟨inOrder_ordered (.obj [("logging", .obj [("filter", .str "info"),
      ("json", .bool false)])]), inOrder_ordered (.obj [("logging", .str "off")]),
    inOrder_ordered (.obj [("logging", .obj [("json", .bool true)])]), List.forall_mem_nil _⟩

theorem inOrder_filter : filter.InOrder := inOrder_ordered filter

theorem lastDeciding_json : LastDeciding layers ["logging", "json"]
    (.obj [("logging", .obj [("json", .bool true)])]) :=
  ⟨[_, _], [], rfl, .inl ⟨_, rfl⟩, List.forall_mem_nil _⟩

/-- The text cuts the name off, and the layer after it does not mention the name. -/
theorem lastDeciding_filter :
    LastDeciding layers ["logging", "filter"] (.obj [("logging", .str "off")]) := by
  refine ⟨[_], [_], rfl, .inr ⟨["logging"], .str "off", ⟨_, rfl⟩, by decide, rfl, rfl⟩, ?_⟩
  rw [List.forall_mem_singleton, decides_cons_of_get? rfl]
  exact not_decides_of_get? rfl rfl _

theorem silent_filter : ¬Decides filter ["logging", "json"] := by
  rw [filter, decides_cons_of_get? rfl]
  exact not_decides_of_get? rfl rfl _

end SwitchedOff

/-- The default filter is gone, although the group is there again; the last layer's own
name is kept when another layer sets the filter. -/
theorem switchedOff_precedence :
    (mergeLayers SwitchedOff.layers).at? ["logging", "filter"] = none ∧
      (mergeLayers SwitchedOff.layers).at? ["logging", "json"] = some (.bool true) ∧
      (mergeLayers (SwitchedOff.layers ++ [SwitchedOff.filter])).at? ["logging", "json"] =
        some (.bool true) ∧
      (mergeLayers (SwitchedOff.layers ++ [SwitchedOff.filter])).at? ["logging", "filter"] =
        some (.str "debug") := by
  obtain ⟨hfilter, _, hmore⟩ := mergeLayers_precedence SwitchedOff.inOrder_layers
    (List.cons_ne_nil "logging" ["filter"])
  obtain ⟨hjson, _, hkept⟩ := mergeLayers_precedence SwitchedOff.inOrder_layers
    (List.cons_ne_nil "logging" ["json"])
  have hon := (hjson _ SwitchedOff.lastDeciding_json).1 _ rfl rfl
  refine ⟨(hfilter _ SwitchedOff.lastDeciding_filter).2.2 rfl, hon, ?_, ?_⟩
  · exact ((hkept _ SwitchedOff.inOrder_filter).2 SwitchedOff.silent_filter).trans hon
  · exact (hmore _ SwitchedOff.inOrder_filter).1 _ rfl rfl

end Provenance.Config
