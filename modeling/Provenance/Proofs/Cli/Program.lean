import Provenance.Cli.Program
import Provenance.Proofs.File.Document
import Provenance.Proofs.File.Tree

/-!
# One command and what becomes of the files

A command comes to a plan or to an error, and an error changes nothing. The plans of the
commands that read documents have one change at most, so that what becomes of the files is
told by one write:

> `Plan.perform_write_cases`: either the file can be written, and the plan says how the
> program ends, or nothing has changed and the program ends with a failure.

What a command loads is said here of the file tree that it sees.
-/

namespace Provenance.Cli

open Checks

variable {registry : Registry} {t t' : FileTree} {environment : List (String × String)}
  {entropy : KeyEntropy} {now : Instant} {args : List String} {i : Invocation} {s : Surroundings}

/-! ## Ends -/

/-- A failure is neither of the two verdicts. -/
theorem Outcome.code_failed (e : CliError) :
    (failed e).exit.code = if e.isSecurity then 3 else 2 := by
  unfold failed CliError.exit
  cases e.isSecurity <;> rfl

theorem Outcome.code_done (p : Plan) : (done p).exit.code = if p.isValid then 0 else 1 := by
  unfold done
  cases p.isValid <;> rfl

/-! ## From arguments to a plan -/

theorem runWith_of_parse (h : Invocation.parse args = .ok i) :
    runWith registry t environment entropy now args =
      perform t (i.plan ⟨t.view, environment, entropy, now⟩ registry) := by
  rw [runWith, planWith, h]

theorem Invocation.plan_eq_ok_iff {p : Plan} : i.plan s registry = .ok p ↔
    ∃ config, configuration s i = .ok config ∧ checkFilter s i config.settings = .ok () ∧
      i.command.plan s registry config = .ok p := by
  unfold Invocation.plan
  simp only [bind_eq_ok_iff]
  exact exists_congr fun config => and_congr_right fun _ =>
    ⟨fun ⟨_, hfilter, hplan⟩ => ⟨hfilter, hplan⟩, fun ⟨hfilter, hplan⟩ => ⟨(), hfilter, hplan⟩⟩

/-- With a configuration and a log filter the command decides. -/
theorem Invocation.plan_of_configuration {config : EffectiveConfig}
    (hconfig : configuration s i = .ok config)
    (hfilter : checkFilter s i config.settings = .ok ()) :
    i.plan s registry = i.command.plan s registry config := by
  rw [Invocation.plan, hconfig]
  show (checkFilter s i config.settings >>= fun _ => i.command.plan s registry config) = _
  rw [hfilter]
  rfl

/-- There are no files of configuration, and neither variables nor options say anything. -/
structure Unconfigured (s : Surroundings) (i : Invocation) : Prop where
  home : s.env? homeVariable = none
  filter : s.env? filterVariable = none
  project : s.files.contains EffectiveConfig.projectFile = false
  config : i.config = none
  logFilter : i.logFilter = none
  logJson : i.logJson = false

/-- The defaults are a configuration. -/
theorem Unconfigured.exists_configuration (h : Unconfigured s i) :
    ∃ config, configuration s i = .ok config ∧ checkFilter s i config.settings = .ok () ∧
      config.settings = .default := by
  obtain ⟨config, hlayers, hsettings⟩ : ∃ config,
      EffectiveConfig.ofLayers [EffectiveConfig.builtinLayer] = .ok config ∧
      config.settings = .default := ⟨_, rfl, rfl⟩
  have hoverrides : overrides i = none := by
    rw [overrides, h.logFilter, h.logJson]
    rfl
  have hproject : EffectiveConfig.fileLayer s.files .project (some EffectiveConfig.projectFile) =
      .ok [] := if_neg (by simp [h.project])
  refine ⟨config, ?_, ?_, hsettings⟩
  · rw [configuration, mapError_eq_ok_iff, h.home, h.config, hoverrides]
    exact bind_eq_ok rfl <| bind_eq_ok hproject hlayers
  · rw [hsettings, checkFilter, h.logFilter, h.filter]
    exact if_pos (by decide)

/-! ## Changes of files -/

theorem Plan.perform_of_no_steps {p : Plan} (h : p.steps = []) (t : FileTree) :
    p.perform t = (t, .done p) := by
  rw [perform, h, performSteps]

theorem Plan.perform_write_of_ok {p : Plan} {purpose : Purpose} {path text : String}
    (h : p.steps = [.write purpose path text]) (hwrite : t.write path (textBytes text) = .ok t') :
    p.perform t = (t', .done p) := by
  simp only [perform, h, performSteps, Step.apply, hwrite, FileTree.Change.of]

theorem Plan.perform_write_of_error {p : Plan} {purpose : Purpose} {path text : String}
    {cause : FileError} (h : p.steps = [.write purpose path text])
    (hwrite : t.write path (textBytes text) = .error cause) :
    p.perform t = (t, .failed (Step.failure cause (.write purpose path text))) := by
  simp only [perform, h, performSteps, Step.apply, hwrite, FileTree.Change.of]

theorem Plan.perform_write_cases {p : Plan} {purpose : Purpose} {path text : String}
    (h : p.steps = [.write purpose path text]) {outcome : Outcome}
    (hperform : p.perform t = (t', outcome)) :
    (t.Writable path ∧ outcome = .done p ∧ t.OnlyChanged t' path (textBytes text)) ∨
      (¬t.Writable path ∧ t' = t ∧ ∃ e, outcome = .failed e ∧ e.isSecurity = false) := by
  rw [FileTree.writable_iff (textBytes text)]
  cases hwrite : t.write path (textBytes text) with
  | ok t'' =>
    rw [perform_write_of_ok h hwrite, Prod.mk.injEq] at hperform
    obtain ⟨rfl, rfl⟩ := hperform
    exact .inl ⟨⟨t'', rfl⟩, rfl, FileTree.write_eq_ok hwrite⟩
  | error cause =>
    rw [perform_write_of_error h hwrite, Prod.mk.injEq] at hperform
    obtain ⟨rfl, rfl⟩ := hperform
    refine .inr ⟨nofun, rfl, _, rfl, ?_⟩
    cases purpose <;> rfl

/-! ## What a command loads -/

namespace Surroundings

variable {limit : Nat} {path : String} (hs : s.files = t.view)

include hs

theorem key_eq_ok_iff {key : EncryptedPrivateKey} : s.key path = .ok key ↔
    t.HoldsUnbounded (Json.document? EncryptedPrivateKey.ofJson) path key := by
  rw [Surroundings.key, mapError_eq_ok_iff, hs, FileTree.loadUnbounded_eq_ok_iff]

theorem layout_eq_ok_iff {b : LayoutBlock} : s.layout limit path = .ok b ↔
    t.Holds limit (Json.document? LayoutBlock.ofJson) path b := by
  rw [Surroundings.layout, mapError_eq_ok_iff, hs, FileView.load, FileTree.loadWith_eq_ok_iff]

theorem link_eq_ok_iff {b : LinkBlock} : s.link limit path = .ok b ↔
    t.Holds limit (Json.document? LinkBlock.ofJson) path b := by
  rw [Surroundings.link, mapError_eq_ok_iff, hs, FileView.load, FileTree.loadWith_eq_ok_iff]

theorem input_eq_ok_iff {α : Type} {decode : Json → Decoded α} {d : α} :
    s.input limit decode path = .ok d ↔ t.Holds limit (Json.document? decode) path d := by
  rw [Surroundings.input, mapError_eq_ok_iff, hs, FileView.load, FileTree.loadWith_eq_ok_iff]

end Surroundings

theorem Surroundings.passphrase_eq_ok_iff {variable_ passphrase : String} :
    s.passphrase variable_ = .ok passphrase ↔
      s.environment.lookup variable_ = some passphrase ∧ passphrase ≠ "" := by
  unfold Surroundings.passphrase env?
  cases s.environment.lookup variable_ with
  | none => simp
  | some p =>
    by_cases hp : p = ""
    · simp [hp]
    · simp only [String.isEmpty_iff, hp, if_false, Except.ok.injEq, Option.some.injEq,
        iff_self_and]
      rintro rfl
      exact hp

end Provenance.Cli
