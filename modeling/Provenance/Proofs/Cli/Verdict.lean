import Provenance.Proofs.Cli.Program
import Provenance.Proofs.Stored.Reports
import Provenance.Proofs.Stored.Survival
import Provenance.Proofs.Verification.Contents

/-!
# The exit status is the verdict

A command that verifies goes through four things in order: it loads what it is asked about,
decides, writes a report if one is wanted, and prints. Each of them can end it, and the
status says which did:

> `exit_tells_verdict`: the status is 0 or 1 iff everything that was named could be read,
> the run came to a result and a wanted report could be written, and it is 0 iff the run is
> valid. It is 3 iff keys or signatures kept the run from a result, and 2 otherwise.

`decision` is the order in which that happens, for any question. What the two commands ask
is put in: a run, or a release. Whatever is told after a verdict is one text of the result
(`RunTold`), and without a verdict there is nothing to be seen (`TellsVerdict.silent`).
-/

namespace Provenance

open Checks

namespace Cli

variable {registry : Registry} {t t' : FileTree} {environment : List (String × String)}
  {entropy : KeyEntropy} {now : Instant} {args : List String} {i : Invocation} {s : Surroundings}
  {outcome : Outcome}

/-! ## Loading, deciding and telling -/

section Decision

variable {α β : Type}

/-- A question is loaded and decided, and the answer is told. -/
def decision (loaded : Except CliError α) (decide : α → Except VerifyError β)
    (tell : α → β → Plan) : Except CliError Plan := do
  let a ← loaded
  let b ← (decide a).mapError .verification
  pure (tell a b)

/-- The status tells how the question was decided that is loaded, if the answer can be told. -/
structure TellsVerdict (Loaded : α → Prop) (decide : α → Except VerifyError β)
    (isValid : β → Bool) (CanTell : Prop) (t t' : FileTree) (outcome : Outcome) : Prop where
  valid : outcome.exit.code = 0 ↔
    ∃ a b, Loaded a ∧ decide a = .ok b ∧ isValid b = true ∧ CanTell
  invalid : outcome.exit.code = 1 ↔
    ∃ a b, Loaded a ∧ decide a = .ok b ∧ isValid b = false ∧ CanTell
  security : outcome.exit.code = 3 ↔
    ∃ a e, Loaded a ∧ decide a = .error e ∧ e.isSecurity = true
  undecided : ∀ a e, Loaded a → decide a = .error e →
    outcome.exit.code = if e.isSecurity then 3 else 2
  /-- Without a verdict nothing is written and nothing is printed. -/
  silent : outcome.exit.code ≠ 0 → outcome.exit.code ≠ 1 → t' = t ∧ outcome.output = ""
  /-- Every document has a canonical text, so there is no failure of encoding to tell of. -/
  noOther : outcome.exit.code ≤ 3

/-- Nothing but the report was written, and that only if it was wanted. -/
structure Reported (t t' : FileTree) (reportPath : Option String) (text : String) : Prop where
  written : ∀ path, reportPath = some path → t.OnlyChanged t' path (textBytes text)
  unwanted : reportPath = none → t' = t

/-- A plan that writes a report at most is done iff the report can be written. -/
theorem Plan.perform_report_cases {p : Plan} {reportPath : Option String} {text : String}
    (hsteps : p.steps = reportPath.toList.map fun path => .write .report path text)
    (hperform : p.perform t = (t', outcome)) :
    ((∀ path, reportPath = some path → t.Writable path) ∧ outcome = .done p ∧
      Reported t t' reportPath text) ∨
    (¬(∀ path, reportPath = some path → t.Writable path) ∧ t' = t ∧
      ∃ e, outcome = .failed e ∧ e.isSecurity = false) := by
  cases reportPath with
  | none =>
    rw [Plan.perform_of_no_steps hsteps, Prod.mk.injEq] at hperform
    obtain ⟨rfl, rfl⟩ := hperform
    exact .inl ⟨nofun, rfl, nofun, fun _ => rfl⟩
  | some path =>
    have hwritable : (∀ path', some path = some path' → t.Writable path') ↔ t.Writable path := by
      simp
    rw [hwritable]
    refine (Plan.perform_write_cases hsteps hperform).imp_left fun h => ⟨h.1, h.2.1, ?_, nofun⟩
    rintro _ ⟨⟩
    exact h.2.2

section Ends

variable {Loaded : α → Prop} {decide : α → Except VerifyError β} {isValid : β → Bool}
  {CanTell : Prop}

/-- A failure tells that there is no verdict. -/
theorem tellsVerdict_failed {e : CliError}
    (hno : ∀ a b, Loaded a → decide a = .ok b → ¬CanTell)
    (hsecurity : e.isSecurity = true → ∃ a cause, Loaded a ∧ decide a = .error cause)
    (hcause : ∀ a cause, Loaded a → decide a = .error cause → cause.isSecurity = e.isSecurity) :
    TellsVerdict Loaded decide isValid CanTell t t (.failed e) := by
  have hnone : ∀ v, ¬∃ a b, Loaded a ∧ decide a = .ok b ∧ isValid b = v ∧ CanTell := by
    rintro v ⟨a, b, ha, hb, _, htell⟩
    exact hno a b ha hb htell
  have hcode := Outcome.code_failed e
  refine ⟨?valid, ?invalid, ?security, fun a cause ha hc => ?undecided, fun _ _ => ⟨rfl, rfl⟩,
    ?noOther⟩
  case valid => exact iff_of_false (by rw [hcode]; split <;> simp) (hnone true)
  case invalid => exact iff_of_false (by rw [hcode]; split <;> simp) (hnone false)
  case security =>
    have hthree : (Outcome.failed e).exit.code = 3 ↔ e.isSecurity = true := by
      rw [hcode]
      split <;> simp [*]
    rw [hthree]
    constructor
    · intro h
      obtain ⟨a, cause, ha, hc⟩ := hsecurity h
      exact ⟨a, cause, ha, hc, (hcause a cause ha hc).trans h⟩
    · intro h
      obtain ⟨a, cause, ha, hc, h⟩ := h
      exact (hcause a cause ha hc).symm.trans h
  case undecided => rw [hcode, hcause a cause ha hc]
  case noOther => rw [hcode]; split <;> simp

/-- The end of a plan tells the answer that the plan was made of. -/
theorem tellsVerdict_done {p : Plan} {a : α} {b : β} (hloaded : ∀ a', Loaded a' ↔ a' = a)
    (hdecide : decide a = .ok b) (htell : CanTell) (hvalid : p.isValid = isValid b) :
    TellsVerdict Loaded decide isValid CanTell t t' (.done p) := by
  have htold : ∀ v, (∃ a b, Loaded a ∧ decide a = .ok b ∧ isValid b = v ∧ CanTell) ↔
      isValid b = v := by
    simp [hloaded, hdecide, htell]
  have hcode := Outcome.code_done p
  rw [hvalid] at hcode
  refine ⟨?valid, ?invalid, ?security, fun a' e ha he => ?undecided, fun h h' => ?silent,
    ?noOther⟩
  case valid =>
    rw [htold, hcode]
    cases isValid b <;> simp
  case invalid =>
    rw [htold, hcode]
    cases isValid b <;> simp
  case security =>
    rw [hcode]
    refine iff_of_false (by cases isValid b <;> simp) fun h => ?_
    obtain ⟨a', e, ha, he, _⟩ := h
    rw [(hloaded a').mp ha, hdecide] at he
    exact nomatch he
  case undecided =>
    rw [(hloaded a').mp ha, hdecide] at he
    exact nomatch he
  case silent =>
    rw [hcode] at h h'
    cases hb : isValid b <;> simp [hb] at h h'
  case noOther =>
    rw [hcode]
    cases isValid b <;> simp

end Ends

variable {loaded : Except CliError α} {Loaded : α → Prop} {decide : α → Except VerifyError β}
  {isValid : β → Bool} {tell : α → β → Plan}

/-- Whatever is asked, the status tells how it was decided. What is loaded and what is told may be
of any kind, as long as loading never fails for reasons of security and nothing is written but
a report. -/
theorem tellsVerdict_of_decision (reportPath : Option String) (text : α → β → String)
    (hperform : perform t (decision loaded decide tell) = (t', outcome))
    (hloaded : ∀ a, loaded = .ok a ↔ Loaded a)
    (hload : ∀ e, loaded = .error e → e.isSecurity = false)
    (hsteps : ∀ a b, (tell a b).steps =
      reportPath.toList.map fun path => .write .report path (text a b))
    (hvalid : ∀ a b, (tell a b).isValid = isValid b) :
    TellsVerdict Loaded decide isValid
      (∀ path, reportPath = some path → t.Writable path) t t' outcome ∧
    ∀ a b, Loaded a → decide a = .ok b → outcome.exit.code = 0 ∨ outcome.exit.code = 1 →
      outcome.output = (tell a b).output ∧ Reported t t' reportPath (text a b) := by
  obtain rfl : (fun a => loaded = .ok a) = Loaded := funext fun a => propext (hloaded a)
  clear hloaded
  cases loaded with
  | error e =>
    obtain ⟨rfl, rfl⟩ := Prod.mk.inj hperform
    have hnot : ¬e.isSecurity = true := by simp [hload e rfl]
    exact ⟨tellsVerdict_failed nofun (fun h => absurd h hnot) nofun, nofun⟩
  | ok a =>
  cases hdecide : decide a with
  | error cause =>
    have hplan : decision (.ok a) decide tell = .error (.verification cause) := by
      simp [decision, hdecide, bind, Except.bind]
    rw [hplan] at hperform
    obtain ⟨rfl, rfl⟩ := Prod.mk.inj hperform
    have hno : ∀ a' b, (.ok a : Except CliError α) = .ok a' → decide a' ≠ .ok b := by
      rintro _ b ⟨⟩ hb
      exact nomatch hdecide.symm.trans hb
    refine ⟨tellsVerdict_failed (fun a' b ha hb => absurd hb (hno a' b ha))
      (fun _ => ⟨a, cause, rfl, hdecide⟩) ?_, fun a' b ha hb => absurd hb (hno a' b ha)⟩
    rintro _ cause' ⟨⟩ hcause
    rw [Except.error.inj (hcause.symm.trans hdecide)]
    rfl
  | ok b =>
    have hplan : decision (.ok a) decide tell = .ok (tell a b) := by
      simp [decision, hdecide, bind, Except.bind, pure, Except.pure]
    rw [hplan] at hperform
    rcases Plan.perform_report_cases (hsteps a b) hperform with
      ⟨hwritable, rfl, hreported⟩ | ⟨hnot, rfl, e, rfl, he⟩
    · refine ⟨tellsVerdict_done (by simp [eq_comm]) hdecide hwritable (hvalid a b), ?_⟩
      rintro _ b' ⟨⟩ hb _
      obtain rfl := Except.ok.inj (hdecide.symm.trans hb)
      exact ⟨rfl, hreported⟩
    · refine ⟨tellsVerdict_failed (fun _ _ _ _ => hnot) (by simp [he]) ?_, ?_⟩
      · rintro _ cause ⟨⟩ hcause
        exact nomatch hdecide.symm.trans hcause
      · intro _ _ _ _ hcode
        rw [Outcome.code_failed, he] at hcode
        simp at hcode

end Decision

/-! ## Verifying a run -/

/-- The documents that a verification is about can be read. -/
structure RequestLoaded (t : FileTree) (limit : Nat) (layoutPath : String)
    (linkPaths : List String) (expectedPath : String) (approvalsPath : Option String)
    (r : RunRequest) : Prop where
  layout : t.Holds limit (Json.document? LayoutBlock.ofJson) layoutPath r.layout
  links : List.Forall₂ (t.Holds limit (Json.document? LinkBlock.ofJson)) linkPaths r.links
  expected : t.Holds limit (Json.document? (Json.asList Artifact.ofJson)) expectedPath r.expected
  approvals : ∀ path, approvalsPath = some path →
    t.Holds limit (Json.document? (Json.asList Approval.ofJson)) path r.approvals
  noApprovals : approvalsPath = none → r.approvals = []

/-- Loads the approvals, if there are any. -/
def loadApprovals (s : Surroundings) (limit : Nat) : Option String → Except CliError (List Approval)
  | some path => s.input limit (Json.asList Approval.ofJson) path
  | none => .ok []

/-- Loads what a verification is about. -/
def loadRequest (s : Surroundings) (limit : Nat) (layoutPath : String) (linkPaths : List String)
    (expectedPath : String) (approvalsPath : Option String) : Except CliError RunRequest := do
  let layout ← s.layout limit layoutPath
  let links ← linkPaths.mapM (s.link limit)
  let expected ← s.artifacts limit expectedPath
  let approvals ← loadApprovals s limit approvalsPath
  pure ⟨layout, links, expected, approvals⟩

section Load

variable {limit : Nat} {layoutPath expectedPath : String} {linkPaths artifactPaths : List String}
  {approvalsPath : Option String} (hs : s.files = t.view)

include hs

theorem links_eq_ok_iff {links : List LinkBlock} : linkPaths.mapM (s.link limit) = .ok links ↔
    List.Forall₂ (t.Holds limit (Json.document? LinkBlock.ofJson)) linkPaths links := by
  simp only [mapM_eq_ok_iff, Surroundings.link_eq_ok_iff hs]

theorem loadRequest_eq_ok_iff {r : RunRequest} :
    loadRequest s limit layoutPath linkPaths expectedPath approvalsPath = .ok r ↔
      RequestLoaded t limit layoutPath linkPaths expectedPath approvalsPath r := by
  unfold loadRequest Surroundings.artifacts
  simp only [bind_eq_ok_iff, Surroundings.layout_eq_ok_iff hs, links_eq_ok_iff hs,
    Surroundings.input_eq_ok_iff hs]
  constructor
  · intro h
    obtain ⟨layout, hlayout, links, hlinks, expected, hexpected, approvals, happrovals, h⟩ := h
    obtain rfl := Except.ok.inj h
    refine ⟨hlayout, hlinks, hexpected, ?_, ?_⟩
    · rintro path rfl
      exact (Surroundings.input_eq_ok_iff hs).mp happrovals
    · rintro rfl
      exact (Except.ok.inj happrovals).symm
  · intro h
    refine ⟨_, h.layout, _, h.links, _, h.expected, r.approvals, ?_, rfl⟩
    cases hpath : approvalsPath with
    | none => rw [h.noApprovals hpath]; rfl
    | some path => exact (Surroundings.input_eq_ok_iff hs).mpr (h.approvals path hpath)

end Load

/-- That something cannot be loaded has nothing to do with keys or signatures. -/
theorem isSecurity_of_loadRequest {limit : Nat} {layoutPath expectedPath : String}
    {linkPaths : List String} {approvalsPath : Option String} :
    ∀ e, loadRequest s limit layoutPath linkPaths expectedPath approvalsPath = .error e →
      e.isSecurity = false := by
  refine forall_error_bind (forall_error_mapError fun _ => rfl) fun layout _ => ?_
  refine forall_error_bind (forall_error_mapM fun path _ => forall_error_mapError fun _ => rfl)
    fun links _ => ?_
  refine forall_error_bind (forall_error_mapError fun _ => rfl) fun expected _ => ?_
  refine forall_error_bind ?_ nofun
  cases approvalsPath with
  | none => exact nofun
  | some path => exact forall_error_mapError fun _ => rfl

theorem verify_eq (config : EffectiveConfig) (layoutPath : String) (linkPaths : List String)
    (expectedPath : String) (approvalsPath reportPath : Option String) (json : Bool) :
    verify s registry config layoutPath linkPaths expectedPath approvalsPath reportPath json =
      decision
        (loadRequest s config.settings.verification.maxDocumentBytes layoutPath linkPaths
          expectedPath approvalsPath)
        (verifyRun registry) fun r result => reportResult r.layout.supplyChainId result
          (.ofRun r.layout.supplyChainId result config.sources s.now) reportPath json := by
  unfold verify decision loadRequest
  cases approvalsPath <;> simp only [bind_assoc, pure_bind] <;> rfl

/-- The text tells of a run whether it is valid and what is wrong with it. It is read as the
result of the run if the counts of the violations are in the ranges that documents have. -/
structure Carries (text : String) (result : RunResult) : Prop where
  members : ∃ v : Json, text = v.pretty ∧ v.get? "run_is_valid" = some (.bool result.isValid) ∧
    v.get? "violations" = some (.arr (result.violations.map Violation.toJson))
  read : (∀ v ∈ result.violations, v.Storable) →
    Json.document? RunResult.ofJson text = some result

theorem carries_report (supplyChainId : String) (result : RunResult) (sources : List ConfigSource)
    (now : Instant) :
    Carries (Report.ofRun supplyChainId result sources now).toJson.pretty result :=
  ⟨⟨_, rfl, rfl, rfl⟩, Report.document?_pretty⟩

/-- What is told after a verdict on a run. The report that was wanted and the output in JSON are
the same text, which carries the result. The output in words is that the run passes, or that
it fails and then a line for each fatal violation, in order. -/
structure RunTold (t t' : FileTree) (supplyChainId : String) (result : RunResult)
    (reportPath : Option String) (asJson : Bool) (output text : String) : Prop where
  carries : Carries text result
  reported : Reported t t' reportPath text
  json : asJson = true → output = text ++ "\n"
  pass : asJson = false → result.isValid = true → output = "PASS " ++ supplyChainId ++ "\n"
  fail : asJson = false → result.isValid = false →
    output = "FAIL " ++ supplyChainId ++ "\n" ++ String.join
      ((result.violations.filter Violation.isFatal).map fun v => "  " ++ v.describe ++ "\n")

theorem runTold_of_reportResult {supplyChainId : String} {result : RunResult}
    {sources : List ConfigSource} {reportPath : Option String} {asJson : Bool} {p : Plan}
    (hp : p = reportResult supplyChainId result (.ofRun supplyChainId result sources now)
      reportPath asJson)
    (hreported : Reported t t' reportPath
      (Report.ofRun supplyChainId result sources now).toJson.pretty) :
    RunTold t t' supplyChainId result reportPath asJson p.output
      (Report.ofRun supplyChainId result sources now).toJson.pretty := by
  subst hp
  refine ⟨carries_report .., hreported, ?json, ?pass, ?fail⟩
  case json =>
    rintro rfl
    rfl
  case pass =>
    rintro rfl hvalid
    show verdictLines supplyChainId result = _
    rw [verdictLines, if_pos hvalid]
    rfl
  case fail =>
    rintro rfl hinvalid
    show verdictLines supplyChainId result = _
    rw [verdictLines, if_neg (by simp [hinvalid])]
    rfl

/-! ## Verifying a release -/

/-- What a release is made of. -/
structure ReleaseRequest where
  layout : LayoutBlock
  links : List LinkBlock
  artifacts : List (List Artifact)

/-- The documents that a release is made of can be read. -/
structure ReleaseLoaded (t : FileTree) (limit : Nat) (layoutPath : String)
    (linkPaths artifactPaths : List String) (r : ReleaseRequest) : Prop where
  layout : t.Holds limit (Json.document? LayoutBlock.ofJson) layoutPath r.layout
  links : List.Forall₂ (t.Holds limit (Json.document? LinkBlock.ofJson)) linkPaths r.links
  artifacts : List.Forall₂ (t.Holds limit (Json.document? (Json.asList Artifact.ofJson)))
    artifactPaths r.artifacts

/-- Decides on a release. -/
def ReleaseRequest.decide (registry : Registry) (r : ReleaseRequest) :
    Except VerifyError ReleaseResult :=
  createRelease registry r.layout r.links r.artifacts

/-- What is told after a verdict on a release. -/
structure ReleaseTold (release : ReleaseResult) (output : String) : Prop where
  output : output = release.toJson.pretty ++ "\n"
  verdict : release.toJson.get? "releaseIsValid" = some (.bool release.isValid)
  read : release.Storable →
    Json.document? ReleaseResult.ofJson release.toJson.pretty = some release

/-- Loads what a release is made of. -/
def loadRelease (s : Surroundings) (limit : Nat) (layoutPath : String)
    (linkPaths artifactPaths : List String) : Except CliError ReleaseRequest := do
  let layout ← s.layout limit layoutPath
  let links ← linkPaths.mapM (s.link limit)
  let sets ← artifactPaths.mapM (s.artifacts limit)
  pure ⟨layout, links, sets⟩

theorem loadRelease_eq_ok_iff {limit : Nat} {layoutPath : String}
    {linkPaths artifactPaths : List String} (hs : s.files = t.view) {r : ReleaseRequest} :
    loadRelease s limit layoutPath linkPaths artifactPaths = .ok r ↔
      ReleaseLoaded t limit layoutPath linkPaths artifactPaths r := by
  unfold loadRelease
  simp only [bind_eq_ok_iff, Surroundings.layout_eq_ok_iff hs, links_eq_ok_iff hs, mapM_eq_ok_iff,
    Surroundings.artifacts, Surroundings.input_eq_ok_iff hs]
  constructor
  · intro h
    obtain ⟨layout, hlayout, links, hlinks, sets, hsets, h⟩ := h
    obtain rfl := Except.ok.inj h
    exact ⟨hlayout, hlinks, hsets⟩
  · intro h
    exact ⟨_, h.layout, _, h.links, _, h.artifacts, rfl⟩

theorem isSecurity_of_loadRelease {limit : Nat} {layoutPath : String}
    {linkPaths artifactPaths : List String} :
    ∀ e, loadRelease s limit layoutPath linkPaths artifactPaths = .error e →
      e.isSecurity = false := by
  refine forall_error_bind (forall_error_mapError fun _ => rfl) fun layout _ => ?_
  refine forall_error_bind (forall_error_mapM fun path _ => forall_error_mapError fun _ => rfl)
    fun links _ => ?_
  exact forall_error_bind (forall_error_mapM fun path _ => forall_error_mapError fun _ => rfl)
    nofun

theorem release_eq (settings : Settings) (layoutPath : String)
    (linkPaths artifactPaths : List String) :
    release s registry settings layoutPath linkPaths artifactPaths =
      decision (loadRelease s settings.verification.maxDocumentBytes layoutPath linkPaths
          artifactPaths)
        (ReleaseRequest.decide registry)
        fun _ result => ⟨[], printed result.toJson, result.isValid⟩ := by
  unfold release decision loadRelease
  simp only [bind_assoc, pure_bind]
  rfl

/-! ## The status -/

section Status

variable {config : EffectiveConfig} (hparse : Invocation.parse args = .ok i)
  (hconfig : configuration ⟨t.view, environment, entropy, now⟩ i = .ok config)
  (hfilter : checkFilter ⟨t.view, environment, entropy, now⟩ i config.settings = .ok ())
  (hrun : runWith registry t environment entropy now args = (t', outcome))

include hparse hconfig hfilter hrun

theorem perform_of_run : perform t
    (i.command.plan ⟨t.view, environment, entropy, now⟩ registry config) = (t', outcome) := by
  rw [runWith_of_parse hparse, Invocation.plan_of_configuration hconfig hfilter] at hrun
  exact hrun

theorem verdict_on_run {layoutPath expectedPath : String} {linkPaths : List String}
    {approvalsPath reportPath : Option String} {json : Bool}
    (hcommand : i.command =
      .verify layoutPath linkPaths expectedPath approvalsPath reportPath json) :
    TellsVerdict
      (RequestLoaded t config.settings.verification.maxDocumentBytes layoutPath linkPaths
        expectedPath approvalsPath)
      (verifyRun registry) RunResult.isValid
      (∀ path, reportPath = some path → t.Writable path) t t' outcome ∧
    ∀ r result,
      RequestLoaded t config.settings.verification.maxDocumentBytes layoutPath linkPaths
        expectedPath approvalsPath r →
      verifyRun registry r = .ok result → outcome.exit.code = 0 ∨ outcome.exit.code = 1 →
      ∃ text, RunTold t t' r.layout.supplyChainId result reportPath json outcome.output text := by
  have hperform := perform_of_run hparse hconfig hfilter hrun
  rw [hcommand, Command.plan, verify_eq] at hperform
  obtain ⟨hverdict, htold⟩ := tellsVerdict_of_decision reportPath _ hperform
    (fun _ => loadRequest_eq_ok_iff rfl) isSecurity_of_loadRequest (fun _ _ => rfl) (fun _ _ => rfl)
  refine ⟨hverdict, fun r result hr hresult hcode => ?_⟩
  obtain ⟨houtput, hreported⟩ := htold r result hr hresult hcode
  rw [houtput]
  exact ⟨_, runTold_of_reportResult rfl hreported⟩

theorem verdict_on_release {layoutPath : String} {linkPaths artifactPaths : List String}
    (hcommand : i.command = .release layoutPath linkPaths artifactPaths) :
    TellsVerdict
      (ReleaseLoaded t config.settings.verification.maxDocumentBytes layoutPath linkPaths
        artifactPaths)
      (ReleaseRequest.decide registry) ReleaseResult.isValid True t t' outcome ∧
    ∀ r result,
      ReleaseLoaded t config.settings.verification.maxDocumentBytes layoutPath linkPaths
        artifactPaths r →
      r.decide registry = .ok result → outcome.exit.code = 0 ∨ outcome.exit.code = 1 →
      t' = t ∧ ReleaseTold result outcome.output := by
  have hperform := perform_of_run hparse hconfig hfilter hrun
  rw [hcommand, Command.plan, release_eq] at hperform
  -- there is no report
  obtain ⟨hverdict, htold⟩ := tellsVerdict_of_decision none (fun _ _ => "") hperform
    (fun _ => loadRelease_eq_ok_iff rfl) isSecurity_of_loadRelease (fun _ _ => rfl) (fun _ _ => rfl)
  have hcanTell : (∀ path, none = some path → t.Writable path) = True := eq_true nofun
  rw [hcanTell] at hverdict
  refine ⟨hverdict, fun r result hr hresult hcode => ?_⟩
  obtain ⟨houtput, hreported⟩ := htold r result hr hresult hcode
  exact ⟨hreported.unwanted rfl, houtput, rfl, fun h => (result.survives_iff.mpr h).1⟩

end Status

/-- **The exit status is the verdict.** With a configuration and a log filter, the status of a
verification is 0 or 1 iff all documents that it names can be read, the run has a result and a
wanted report can be written; it is 0 iff the run is valid then. If the run has no result, the
status is 3 where keys or signatures are at fault and 2 otherwise, and nothing is written or
printed. With a verdict, the report and the output carry the result. For a release it is the
same, and nothing is ever written. -/
theorem exit_tells_verdict {config : EffectiveConfig} (hparse : Invocation.parse args = .ok i)
    (hconfig : configuration ⟨t.view, environment, entropy, now⟩ i = .ok config)
    (hfilter : checkFilter ⟨t.view, environment, entropy, now⟩ i config.settings = .ok ())
    (hrun : runWith registry t environment entropy now args = (t', outcome)) :
    (∀ layoutPath linkPaths expectedPath approvalsPath reportPath json,
      i.command = .verify layoutPath linkPaths expectedPath approvalsPath reportPath json →
      TellsVerdict
        (RequestLoaded t config.settings.verification.maxDocumentBytes layoutPath linkPaths
          expectedPath approvalsPath)
        (verifyRun registry) RunResult.isValid
        (∀ path, reportPath = some path → t.Writable path) t t' outcome ∧
      ∀ r result,
        RequestLoaded t config.settings.verification.maxDocumentBytes layoutPath linkPaths
          expectedPath approvalsPath r →
        verifyRun registry r = .ok result → outcome.exit.code = 0 ∨ outcome.exit.code = 1 →
        ∃ text,
          RunTold t t' r.layout.supplyChainId result reportPath json outcome.output text) ∧
    (∀ layoutPath linkPaths artifactPaths,
      i.command = .release layoutPath linkPaths artifactPaths →
      TellsVerdict
        (ReleaseLoaded t config.settings.verification.maxDocumentBytes layoutPath linkPaths
          artifactPaths)
        (ReleaseRequest.decide registry) ReleaseResult.isValid True t t' outcome ∧
      ∀ r result,
        ReleaseLoaded t config.settings.verification.maxDocumentBytes layoutPath linkPaths
          artifactPaths r →
        r.decide registry = .ok result → outcome.exit.code = 0 ∨ outcome.exit.code = 1 →
        t' = t ∧ ReleaseTold result outcome.output) := by
  refine ⟨fun layoutPath linkPaths expectedPath approvalsPath reportPath json hcommand => ?_,
    fun layoutPath linkPaths artifactPaths hcommand => ?_⟩
  · exact verdict_on_run hparse hconfig hfilter hrun hcommand
  · exact verdict_on_release hparse hconfig hfilter hrun hcommand

end Cli

/-! ## The run of one step, from files -/

namespace OneStep

open Cli

/-- The documents of the run. -/
def files : FileTree :=
  ⟨[(["work"], .directory), (["work", "layout.json"], .document request.layout.toJson),
    (["work", "link.json"], .document link.toJson),
    (["expected.json"], .document (Violation.artifactsJson [app]))], ["work"]⟩

def arguments : List String :=
  ["verify", "--layout", "layout.json", "--link", "link.json", "--expected", "../expected.json",
    "--report", "/report.json"]

def invocation : Invocation :=
  ⟨none, none, false,
    .verify "layout.json" ["link.json"] "../expected.json" none (some "/report.json") false⟩

def now : Instant := ⟨0, 0⟩

theorem exists_valid : ∃ result, verifyRun registry request = .ok result ∧
    result.isValid = true := by
  obtain ⟨result, hresult⟩ := exists_verifyRun
  obtain ⟨ring, hr, rfl⟩ := exists_admitted hresult
  have hselected : SelectedAlong registry request (fun _ => link.link.content) .empty
      request.layout.layout.steps := selectedAlong_cons_iff.mpr ⟨selected, selectedAlong_nil⟩
  refine ⟨_, hresult, hr.isValid_iff_along.mpr ⟨_, hselected, ?_⟩⟩
  decide +kernel

theorem short : ∀ v ∈ [request.layout.toJson, link.toJson, Violation.artifactsJson [app]],
    4 * (v.prettyChars 0).length ≤ Settings.default.verification.maxDocumentBytes := by
  decide +kernel

theorem loaded : RequestLoaded files Settings.default.verification.maxDocumentBytes "layout.json"
    ["link.json"] "../expected.json" none request where
  layout := FileTree.holds_document rfl (LayoutBlock.survives _) (short _ (.head _))
  links := .cons (FileTree.holds_document rfl (LinkBlock.survives _) (short _ (.tail _ (.head _))))
    .nil
  expected := by
    have hsurvives : Json.Survives Violation.artifactsJson Violation.artifactsOfJson [app] :=
      ((Violation.stored_artifacts _).mono (by decide)).survives (Violation.restores_artifacts _)
    exact FileTree.holds_document rfl hsurvives (short _ (.tail _ (.tail _ (.head _))))
  approvals := nofun
  noApprovals _ := rfl

theorem writable : files.Writable "/report.json" := ⟨["report.json"], rfl, by decide, nofun⟩

end OneStep

namespace Cli

open OneStep

/-- The run is valid, and the report says so. -/
theorem oneStep_told : ∃ t' outcome text result,
    runWith registry files [] ⟨[], [], []⟩ now arguments = (t', outcome) ∧
    outcome.exit.code = 0 ∧ outcome.output = "PASS chain\n" ∧
    files.OnlyChanged t' "/report.json" (textBytes text) ∧ Carries text result ∧
    result.isValid = true := by
  obtain ⟨t', outcome, hrun⟩ : ∃ t' outcome,
      runWith registry files [] ⟨[], [], []⟩ now arguments = (t', outcome) :=
    ⟨_, _, (Prod.eta _).symm⟩
  have hparse : Invocation.parse arguments = .ok invocation := rfl
  have hunconfigured : Unconfigured ⟨files.view, [], ⟨[], [], []⟩, now⟩ invocation :=
    ⟨rfl, rfl, rfl, rfl, rfl, rfl⟩
  obtain ⟨config, hconfig, hfilter, hsettings⟩ := hunconfigured.exists_configuration
  obtain ⟨result, hresult, hvalid⟩ := exists_valid
  obtain ⟨hverdict, htold⟩ := (exit_tells_verdict hparse hconfig hfilter hrun).1 _ _ _ _ _ _ rfl
  rw [hsettings] at hverdict htold
  have hcode : outcome.exit.code = 0 := by
    refine hverdict.valid.mpr ⟨_, _, loaded, hresult, hvalid, ?_⟩
    rintro _ ⟨⟩
    exact writable
  obtain ⟨text, told⟩ := htold _ _ loaded hresult (.inl hcode)
  exact ⟨t', outcome, text, result, hrun, hcode, told.pass rfl hvalid,
    told.reported.written _ rfl, told.carries, hvalid⟩

end Cli

end Provenance
