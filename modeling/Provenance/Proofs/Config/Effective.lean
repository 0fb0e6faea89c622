import Provenance.Cli.Program
import Provenance.Proofs.Config.Defaults

/-!
# The configuration of a run

Files and the command line make the layers of a configuration, and all of them are in
order. So what holds of merged layers holds of every configuration that a command runs
under:

> `configuration_eq_ok`: a configuration is made of its layers (`EffectiveConfig.MadeOf`);
>
> `MadeOf.get?_eq_of_lastDeciding`: under dotted names it has what the last layer has that
> decides there, and nothing if no layer does (`MadeOf.get?_eq_none`);
>
> `MadeOf.settings_of_layers`: its settings are those of the layers without the defaults.
-/

namespace Provenance

open Json Config Checks

namespace EffectiveConfig

variable {files : FileView} {c : EffectiveConfig} {layers : List Layer}

theorem inOrder_of_readLayer {origin : ConfigOrigin} {path : String} {layer : Layer}
    (h : readLayer files origin path = .ok layer) : layer.value.InOrder := by
  obtain ⟨bytes, _, h⟩ := bind_eq_ok_iff.mp h
  split at h
  · exact nomatch h
  · next text _ =>
    split at h
    · exact nomatch h
    · next value hvalue =>
      injection h with h
      subst h
      -- the last step of the reader puts every table in order
      obtain ⟨_, _, hvalue⟩ := Option.bind_eq_some_iff.mp hvalue
      obtain ⟨root, _, hvalue⟩ := Option.bind_eq_some_iff.mp hvalue
      injection hvalue with hvalue
      exact hvalue ▸ inOrder_ordered root.toJson

theorem inOrder_of_fileLayer {origin : ConfigOrigin} {path : Option String}
    (h : fileLayer files origin path = .ok layers) : ∀ l ∈ layers, l.value.InOrder := by
  cases path with
  | none =>
    injection h with h
    exact h ▸ List.forall_mem_nil _
  | some path =>
    rw [fileLayer] at h
    split at h
    · obtain ⟨layer, hlayer, h⟩ := bind_eq_ok_iff.mp h
      injection h with h
      rw [← h, List.forall_mem_singleton]
      exact inOrder_of_readLayer hlayer
    · injection h with h
      exact h ▸ List.forall_mem_nil _

/-- The configuration is made of the layers, with the defaults below them. -/
structure MadeOf (c : EffectiveConfig) (layers : List Layer) : Prop where
  inOrder : ∀ l ∈ layers, l.value.InOrder
  config : c.config = mergeLayers (Settings.default.toJson :: layers.map Layer.value)
  settings : Settings.ofConfig c.config = .ok c.settings
  sources : c.sources = .plain .builtin :: layers.map Layer.source

theorem exists_madeOf {user project : Option String} {cli : Option Json}
    (hcli : ∀ v, cli = some v → v.InOrder) (h : build files user project cli = .ok c) :
    ∃ layers, c.MadeOf layers := by
  obtain ⟨user, huser, h⟩ := bind_eq_ok_iff.mp h
  obtain ⟨project, hproject, h⟩ := bind_eq_ok_iff.mp h
  obtain ⟨settings, hsettings, h⟩ := bind_eq_ok_iff.mp h
  rw [mapError_eq_ok_iff] at hsettings
  injection h with h
  subst h
  let top : List Layer := cli.toList.map fun v => ⟨v, .plain .cli⟩
  refine ⟨user ++ project ++ top, fun l hl => ?_, ?_, hsettings, ?_⟩
  · rcases List.mem_append.mp hl with hl | hl
    · rcases List.mem_append.mp hl with hl | hl
      · exact inOrder_of_fileLayer huser l hl
      · exact inOrder_of_fileLayer hproject l hl
    · obtain ⟨v, hv, rfl⟩ := List.mem_map.mp hl
      exact hcli v (Option.mem_toList.mp hv)
  · simp [builtinLayer, top]
  · simp [builtinLayer, top]

namespace MadeOf

variable (h : c.MadeOf layers)
include h

theorem inOrder_values : ∀ v ∈ layers.map Layer.value, v.InOrder :=
  List.forall_mem_map.mpr h.inOrder

/-- The settings do not depend on the defaults being a layer. -/
theorem settings_of_layers (hne : layers ≠ []) :
    Settings.ofConfig (mergeLayers (layers.map Layer.value)) = .ok c.settings := by
  have hsettings := h.settings
  rw [h.config] at hsettings
  have hread := Settings.toOption_ofConfig_mergeLayers (mt List.map_eq_nil_iff.mp hne)
    h.inOrder_values
  rw [hsettings] at hread
  rcases toOption_eq_iff.mp hread with ⟨s, hs, hlayers⟩ | ⟨_, _, herror, _⟩
  · rw [hlayers, hs]
  · exact nomatch herror

end MadeOf

/-- The names of a dotted path. -/
def names (path : String) : List String := (path.toList.splitOn '.').map String.ofList

theorem names_ne_nil (path : String) : names path ≠ [] := by
  rw [names, Ne, List.map_eq_nil_iff]
  exact List.splitOn_ne_nil _ _

theorem foldl_get? : ∀ (path : List String) (v : Json),
    path.foldl (fun v name => v.bind fun v => v.get? name) (some v) = v.at? path
  | [], _ => rfl
  | name :: rest, v => by
    rw [List.foldl_cons, Option.bind_some, at?]
    cases v.get? name with
    | some w => exact foldl_get? rest w
    | none =>
      rw [Option.bind_none]
      induction rest with
      | nil => rfl
      | cons _ _ ih => exact ih

theorem get?_eq (c : EffectiveConfig) (path : String) : c.get? path = c.config.at? (names path) :=
  foldl_get? _ _

theorem MadeOf.get?_eq_of_lastDeciding (h : c.MadeOf layers) {path : String} {layer v : Json}
    (hlast : LastDeciding (Settings.default.toJson :: layers.map Layer.value) (names path) layer)
    (hv : layer.at? (names path) = some v) (hleaf : v.isObject = false) :
    c.get? path = some v := by
  obtain ⟨horder, base, hat⟩ := hlast.at?_mergeLayers
    (List.forall_mem_cons.mpr ⟨Settings.inOrder_default, h.inOrder_values⟩)
  rw [get?_eq, h.config, hat, at?_overlay_of_some horder hv, overlay_of_not_isObject hleaf]

theorem MadeOf.get?_eq_none (h : c.MadeOf layers) {path : String}
    (hsilent : ∀ v ∈ Settings.default.toJson :: layers.map Layer.value, ¬Decides v (names path)) :
    c.get? path = none := by
  rw [get?_eq, h.config]
  exact at?_mergeLayers_of_silent (names_ne_nil path)
    (List.forall_mem_cons.mpr ⟨Settings.inOrder_default, h.inOrder_values⟩) hsilent

end EffectiveConfig

namespace Cli

theorem inOrder_overrides {i : Invocation} {v : Json} (h : overrides i = some v) :
    v.InOrder := by
  obtain ⟨_, h⟩ := Option.ite_none_left_eq_some.mp h
  injection h with h
  rw [← h]
  refine inOrder_obj (List.pairwise_singleton _ _) ?_
  rw [List.forall_mem_singleton]
  have hlt : "filter" < "json" := by decide
  refine inOrder_obj ?_ fun m hm => inOrder_of_not_isObject ?_
  · cases i.logFilter <;> cases i.logJson
    · exact List.Pairwise.nil
    · exact List.pairwise_singleton _ _
    · exact List.pairwise_singleton _ _
    · exact List.pairwise_pair.mpr hlt
  · revert m
    cases i.logFilter <;> cases i.logJson <;> simp [Json.optional, isObject]

/-- A command runs under a configuration that is made of its layers. -/
theorem configuration_eq_ok {s : Surroundings} {i : Invocation} {c : EffectiveConfig}
    (h : configuration s i = .ok c) : ∃ layers, c.MadeOf layers := by
  rw [configuration, mapError_eq_ok_iff] at h
  unfold EffectiveConfig.discover at h
  split at h
  · split at h
    · exact EffectiveConfig.exists_madeOf (fun _ => inOrder_overrides) h
    · exact nomatch h
  · exact EffectiveConfig.exists_madeOf (fun _ => inOrder_overrides) h

end Cli

end Provenance
