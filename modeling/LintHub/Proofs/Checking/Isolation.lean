import LintHub.Proofs.Checking.Steady
import LintHub.Proofs.Disk.Names
import LintHub.Proofs.Report.Merging
import LintHub.Proofs.Report.Stamping

/-!
# Tools do not get in each other's way

A check runs the enabled tools one after another and merges what they find. Its result still says what each tool alone
would have said.

* `Checker.Apart` : what a tool says of the file does not depend on the runs before it. Steady tools are apart:
  `Host.Steady.apart`.
* `Checker.runTools_of_said` : what a round of tools gives, from what each of them says.
* `Checker.Separates` : the result is made of what each tool says, and every tool's part can be told from the others.
* `Checker.checkFile_separates` : every check that runs the tools has such a result.
-/

namespace LintHub

theorem Settings.nodup_enabledTools (s : Settings) : s.enabledTools.Nodup :=
  (by decide : Tool.all.Nodup).filter _

namespace Checker

/-- What tools say of a file: the dialect in which the output is read and the run, or why there is none. -/
abbrev Said := Tool → Except CheckError (Option Dialect × Execution)

variable {h : Host} {c : Checker} {d : Disk} {path : Path} {said : Said} {t : Tool} {tools : List Tool}

/-! ## One tool -/

/-- The failure that is noted for a tool. -/
def failure? (said : Said) (t : Tool) : Option ToolFailure :=
  match said t with
  | .ok _ => none
  | .error cause => some ⟨t, cause.message⟩

/-- The findings of a tool: none if it failed. -/
def own (c : Checker) (said : Said) (t : Tool) : List Finding :=
  match said t with
  | .ok (dialect, e) => c.findingsOf t dialect e
  | .error _ => []

theorem tool_of_mem_own {f : Finding} (hf : f ∈ c.own said t) : f.tool = t := by
  unfold own at hf
  split at hf
  · next dialect e _ =>
    obtain ⟨g, hg, rfl⟩ := List.mem_map.1 hf
    have htool : g.tool = t := Report.tool_of_mem_read hg
    exact htool
  · cases hf

theorem tool_of_mem_failures {f : ToolFailure} (hf : f ∈ tools.filterMap (failure? said)) :
    ∃ cause, said f.tool = .error cause := by
  obtain ⟨t, -, ht⟩ := List.mem_filterMap.1 hf
  unfold failure? at ht
  split at ht
  · cases ht
  · next cause hcause =>
    obtain rfl := Option.some.inj ht
    exact ⟨cause, hcause⟩

theorem filter_own (t u : Tool) : (c.own said u).filter (fun f => f.tool == t) = if u = t then c.own said t else [] := by
  by_cases htools : u = t
  · subst htools
    rw [if_pos rfl, List.filter_eq_self]
    intro f hf
    exact beq_iff_eq.2 (tool_of_mem_own hf)
  · rw [if_neg htools, List.filter_eq_nil_iff]
    intro f hf
    rw [tool_of_mem_own hf, beq_iff_eq]
    exact htools

/-! ## All tools -/

/-- What each tool says in a round makes up the round. -/
theorem runTools_of_said
    (hsaid : ∀ before t after, tools = before ++ t :: after →
      c.attempt h (c.runTools h d path before).2 t path = said t) :
    (c.runTools h d path tools).1.lists.flatten = tools.flatMap (c.own said) ∧
    (c.runTools h d path tools).1.ran = tools.filter (fun t => (said t).isOk) ∧
    (c.runTools h d path tools).1.failures = tools.filterMap (failure? said) := by
  induction tools generalizing d with
  | nil => exact ⟨rfl, rfl, rfl⟩
  | cons t ts ih =>
    have hfirst : (c.runTool h d t path).1 = (said t).map fun s => c.findingsOf t s.1 s.2 := by
      rw [fst_runTool, ← hsaid [] t ts rfl]
      rfl
    -- The runs before a later tool are the first one and those that come before it among the rest.
    obtain ⟨hlists, hran, hfailures⟩ := ih (d := (c.runTool h d t path).2) fun before u after hts =>
      hsaid (t :: before) u after (by rw [hts, List.cons_append])
    unfold runTools
    dsimp only
    rw [hfirst, List.flatMap_cons, List.filter_cons, List.filterMap_cons, own, failure?]
    cases said t with
    | ok s =>
      refine ⟨?_, ?_, hfailures⟩
      · exact congrArg (c.findingsOf t s.1 s.2 ++ ·) hlists
      · exact congrArg (t :: ·) hran
    | error cause =>
      refine ⟨hlists, hran, ?_⟩
      exact congrArg (ToolFailure.mk t cause.message :: ·) hfailures

theorem filter_flatMap_own (hnodup : tools.Nodup) (t : Tool) :
    (tools.flatMap (c.own said)).filter (fun f => f.tool == t) = if t ∈ tools then c.own said t else [] := by
  induction tools with
  | nil => rfl
  | cons u us ih =>
    obtain ⟨hu, hus⟩ := List.nodup_cons.1 hnodup
    rw [List.flatMap_cons, List.filter_append, filter_own, ih hus]
    by_cases htools : u = t
    · subst htools
      rw [if_pos rfl, if_neg hu, if_pos List.mem_cons_self, List.append_nil]
    · have hmem : t ∈ u :: us ↔ t ∈ us := by
        rw [List.mem_cons, or_iff_right (Ne.symm htools)]
      rw [if_neg htools, List.nil_append]
      simp only [hmem]

/-! ## One check -/

/-- The result of a check is made of what each tool says of the file. -/
structure Separates (c : Checker) (said : Said) (r : FileResult) : Prop where
  /-- The tools that ran, in the order in which they run. -/
  ran : r.ran = c.settings.enabledTools.filter fun t => (said t).isOk
  /-- The tools that failed, in the order in which they run. -/
  failures : r.failures = c.settings.enabledTools.filterMap (failure? said)
  /-- No tool both ran and failed, and none is left out. -/
  once : ∀ t ∈ c.settings.enabledTools, t ∈ r.ran ↔ t ∉ r.failures.map ToolFailure.tool
  increasing : Increasing r.findings
  /-- The findings of a tool that ran are those in its own output, merged and shown under its group. -/
  heard : ∀ t ∈ c.settings.enabledTools, ∀ dialect e, said t = .ok (dialect, e) →
    r.findings.filter (fun f => f.tool == t) =
      mergeFindings [Report.readGrouped (Report.combined e.stdout e.stderr) c.root t dialect
        (some (c.settings.group t))]
  /-- There are no findings of a tool that failed or that is not enabled. -/
  silent : ∀ t, (t ∈ c.settings.enabledTools → ∃ cause, said t = .error cause) →
    r.findings.filter (fun f => f.tool == t) = []

theorem mem_ran_iff (ht : t ∈ tools) :
    t ∈ tools.filter (fun t => (said t).isOk) ↔ t ∉ (tools.filterMap (failure? said)).map ToolFailure.tool := by
  rw [List.mem_filter, and_iff_right ht]
  constructor
  · intro hok hfailed
    obtain ⟨f, hf, rfl⟩ := List.mem_map.1 hfailed
    obtain ⟨cause, hcause⟩ := tool_of_mem_failures hf
    rw [hcause] at hok
    cases hok
  · intro hfailed
    cases hsaid : said t with
    | ok s => rfl
    | error cause =>
      have hnoted : ToolFailure.mk t cause.message ∈ tools.filterMap (failure? said) :=
        List.mem_filterMap.2 ⟨t, ht, by rw [failure?, hsaid]⟩
      exact absurd (List.mem_map.2 ⟨_, hnoted, rfl⟩) hfailed

theorem filter_tool_mergeFindings (lists : List (List Finding)) (t : Tool) :
    (mergeFindings lists).filter (fun f => f.tool == t) =
      mergeFindings [lists.flatten.filter (fun f => f.tool == t)] := by
  refine filter_mergeFindings (fun f g hsame => ?_) lists
  have htool : f.tool = g.tool := by
    rw [Finding.same, Bool.and_eq_true, beq_iff_eq] at hsame
    have hfields := congrArg Finding.tool hsame.2
    exact hfields
  rw [htool]

theorem separates_checkFresh
    (hsaid : ∀ before t after, c.settings.enabledTools = before ++ t :: after →
      c.attempt h (c.runTools h d path before).2 t path = said t) :
    c.Separates said (c.checkFresh h d path).1 := by
  obtain ⟨hlists, hran, hfailures⟩ := runTools_of_said hsaid
  have hpart (t : Tool) : (c.checkFresh h d path).1.findings.filter (fun f => f.tool == t) =
      mergeFindings [if t ∈ c.settings.enabledTools then c.own said t else []] := by
    show (mergeFindings (c.runTools h d path c.settings.enabledTools).1.lists).filter _ = _
    rw [filter_tool_mergeFindings, hlists, filter_flatMap_own c.settings.nodup_enabledTools]
  refine ⟨hran, hfailures, fun t ht => ?_, increasing_mergeFindings _, fun t ht dialect e he => ?_, fun t hfailed => ?_⟩
  · show t ∈ (c.runTools h d path c.settings.enabledTools).1.ran ↔
      t ∉ (c.runTools h d path c.settings.enabledTools).1.failures.map ToolFailure.tool
    rw [hran, hfailures]
    exact mem_ran_iff ht
  · rw [hpart, if_pos ht, own, he]
    rfl
  · have hnone : (if t ∈ c.settings.enabledTools then c.own said t else []) = [] := by
      split
      · next ht =>
        obtain ⟨cause, hcause⟩ := hfailed ht
        rw [own, hcause]
      · rfl
    rw [hpart, hnone, mergeFindings, List.flatten_cons, List.flatten_nil, List.append_nil, List.mergeSort_nil,
      dedupAdjacent]

/-- What a tool says of the file does not depend on the runs before it: those that ask for versions and those of the
tools before it. -/
def Apart (h : Host) (c : Checker) (d : Disk) (path : Path) : Prop :=
  ∀ before t after, c.settings.enabledTools = before ++ t :: after →
    (c.versionsNow h d).2.1.attempt h ((c.versionsNow h d).2.1.runTools h (c.versionsNow h d).2.2 path before).2 t path =
      c.attempt h d t path

theorem Separates.congr {c' : Checker} {r : FileResult} (hr : c'.Separates said r) (hsettings : c'.settings = c.settings)
    (hroot : c'.root = c.root) : c.Separates said r := by
  obtain ⟨hran, hfailures, honce, hincreasing, hheard, hsilent⟩ := hr
  rw [hsettings] at hran hfailures honce hheard hsilent
  rw [hroot] at hheard
  exact ⟨hran, hfailures, honce, hincreasing, hheard, hsilent⟩

/-- Tools are kept apart. A check of a file that can be read gives a result, and unless that was stored before, it is
made of what each tool says of the file when it is run alone, whatever the others say. -/
theorem checkFile_separates {text : String} (now : UInt64) (htext : d.readText (c.absolute path) = .ok text)
    (hapart : c.Apart h d (c.absolute path)) :
    ∃ r, (c.checkFile h now d path).1 = .ok r ∧
      (r.fromCache = false → c.Separates (fun t => c.attempt h d t (c.absolute path)) r) := by
  have halike := c.alike_versionsNow h d
  have hfresh : c.Separates (fun t => c.attempt h d t (c.absolute path))
      ((c.versionsNow h d).2.1.checkFresh h (c.versionsNow h d).2.2 (c.absolute path)).1 := by
    refine (separates_checkFresh fun before t after htools => ?_).congr halike.settings halike.root
    exact hapart before t after (by rw [← halike.settings, htools])
  refine ⟨(c.checkHashed h now d (c.absolute path) (contentHash text)).1, ?_, ?_⟩
  · rw [checkFile_of_ok h now (hashOf_of_readText htext)]
  · intro hcache
    obtain ⟨e, -, heq⟩ | ⟨-, -, heq⟩ | ⟨-, -, heq⟩ :=
      c.checkHashed_cases h now d (c.absolute path) (contentHash text)
    · rw [heq] at hcache
      cases hcache
    · rw [heq]
      exact hfresh
    · rw [heq]
      exact hfresh

end Checker

/-- Steady tools are apart. -/
theorem Host.Steady.apart {h : Host} {settings : Settings} {root : Path} {locator : Locator} {files : List Path}
    {alike : Disk → Disk → Prop} {c : Checker} (hs : h.Steady settings locator files alike)
    (hc : c.IsOf settings root locator) (d : Disk) (path : Path) : c.Apart h d path := by
  intro before t after _
  have hknown : alike d (c.versionsNow h d).2.2 :=
    Checker.versionsNow_keeps (hs.keeps d) (hs.equivalence.refl d) c
  have hran : alike d ((c.versionsNow h d).2.1.runTools h (c.versionsNow h d).2.2 path before).2 :=
    Checker.runTools_keeps (hs.keeps d) hknown _ path before
  exact hs.attempt hc (hc.versionsNow h d) hran t

namespace Checker

/-! ### Tools that fare differently -/

def unevenSettings : Settings :=
  { Settings.default with
    tools := .ofFn fun t => { ToolSettings.default with path := some (if t = .ansibleLint then "/w/gone" else "/w/lint") }
    cache := false }

/-- The hooks take too long. -/
def unevenHost : Host where
  run d i := (if i.args.head? = some "run" then .timedOut else .ended (some 1) truthyReport.toUTF8 "".toUTF8, d)

def deskChecker : Checker := new unevenSettings ⟨"/w"⟩ (.ofDirs []) desk

theorem steady_unevenHost : unevenHost.Steady unevenSettings (.ofDirs []) [] Eq where
  equivalence := eq_equivalence
  answer hd _ := by rw [hd]
  unchanged _ _ := rfl
  program hd _ := by rw [hd]
  text hd _ _ := by rw [hd]

theorem program_uneven (t : Tool) :
    deskChecker.program desk t = if t = .ansibleLint then .error (.toolNotFound t) else .ok ⟨"/w/lint"⟩ := by
  have hgone : desk.isFile ⟨"/w/gone"⟩ = false := Disk.isFile_of_follow? ["w", "gone"] (by decide) rfl
  have hconfigured : Locator.configuredName? (unevenSettings.tool t).path =
      some (if t = .ansibleLint then "/w/gone" else "/w/lint") := by
    cases t <;> decide
  have hpath (s : String) (hs : s = "/w/gone" ∨ s = "/w/lint") : Locator.isPathLike s = true := by
    rcases hs with rfl | rfl <;> decide
  show Locator.locate (.ofDirs []) desk t (unevenSettings.tool t).path = _
  rw [Locator.locate, hconfigured]
  by_cases ht : t = .ansibleLint
  · simp only [ht, if_true, hpath "/w/gone" (.inl rfl), hgone, Bool.false_eq_true, if_false]
  · simp only [ht, if_false, hpath "/w/lint" (.inr rfl), isFile_desk, if_true]

theorem prepare_uneven (t : Tool) (ht : t ≠ .ansibleLint) :
    deskChecker.prepare desk t ⟨"/w/a.yml"⟩ =
      .ok (.check t ⟨"/w/lint"⟩ (deskChecker.target ⟨"/w/a.yml"⟩) [], Dialect.preferred? t) := by
  have hdialect : deskChecker.dialect t = .ok (Dialect.preferred? t) := by
    cases t <;> rfl
  have hargs : (deskChecker.settings.tool t).args = [] := by
    cases t <;> rfl
  rw [prepare, hdialect, program_uneven, if_neg ht, hargs]
  rfl

/-- One tool finds something, the program of another is missing and the last one is stopped. -/
theorem attempt_uneven (t : Tool) : deskChecker.attempt unevenHost desk t ⟨"/w/a.yml"⟩ =
    match t with
    | .yamllint => .ok (none, ⟨.yamllint, truthyReport, "", 1⟩)
    | .ansibleLint => .error (.toolNotFound .ansibleLint)
    | .preCommit => .error (.timeout .preCommit 30000) := by
  cases t with
  | yamllint =>
    have hrun : unevenHost.execute desk (.check .yamllint ⟨"/w/lint"⟩ (deskChecker.target ⟨"/w/a.yml"⟩) [])
        deskChecker.root (deskChecker.limit .yamllint) = (.ok ⟨.yamllint, truthyReport, "", 1⟩, desk) :=
      Host.execute_of_run (by decide) rfl
    rw [attempt_of_prepare (prepare_uneven .yamllint (by decide)), hrun]
    rfl
  | ansibleLint =>
    have hdialect : deskChecker.dialect .ansibleLint = .ok none := rfl
    rw [attempt, prepare, hdialect, program_uneven, if_pos rfl]
    rfl
  | preCommit =>
    rw [attempt_of_prepare (prepare_uneven .preCommit (by decide))]
    rfl

theorem checkFile_separates_uneven :
    ∃ r, (deskChecker.checkFile unevenHost 0 desk ⟨"a.yml"⟩).1 = .ok r ∧ r.fromCache = false ∧ r.ran = [.yamllint] ∧
      r.failures = [⟨.ansibleLint, (CheckError.toolNotFound .ansibleLint).message⟩,
        ⟨.preCommit, (CheckError.timeout .preCommit 30000).message⟩] ∧
      Report.combined truthyReport "" = "a.yml:1:9: [warning] truthy value (truthy)\n\n" ∧
      r.findings.filter (fun f => f.tool == .yamllint) =
        mergeFindings [Report.readGrouped (Report.combined truthyReport "") ⟨"/w"⟩ .yamllint none (some "YAML style")] ∧
      r.findings.filter (fun f => f.tool == .ansibleLint) = [] ∧
      r.findings.filter (fun f => f.tool == .preCommit) = [] ∧
      r.findings = [truthyFinding] ∧
      (truthyFinding.file, truthyFinding.line, truthyFinding.column, truthyFinding.rule, truthyFinding.group) =
        (⟨"/w/a.yml"⟩, 1, 9, "truthy", some "YAML style") := by
  have hpath : deskChecker.absolute ⟨"a.yml"⟩ = ⟨"/w/a.yml"⟩ := by decide
  have hread : desk.readText (deskChecker.absolute ⟨"a.yml"⟩) = .ok "answer: yes\n" := by
    rw [hpath, readText_desk]
  have hoff : deskChecker.cache.enabled = false := rfl
  have hof : deskChecker.IsOf unevenSettings ⟨"/w"⟩ (.ofDirs []) := ⟨rfl, rfl, rfl⟩
  obtain ⟨r, hr, hseparates⟩ := checkFile_separates 0 hread (steady_unevenHost.apart hof desk _)
  have hfresh : r = (deskChecker.checkFresh unevenHost desk (deskChecker.absolute ⟨"a.yml"⟩)).1 := by
    rw [checkFile_of_disabled hoff hread] at hr
    exact (Except.ok.inj hr).symm
  have hcache : r.fromCache = false := by rw [hfresh, checkFresh]
  obtain ⟨hran, hfailures, -, -, hheard, hsilent⟩ := hseparates hcache
  have htools : deskChecker.settings.enabledTools = [.yamllint, .ansibleLint, .preCommit] := by decide +kernel
  rw [hpath, htools] at hran hfailures hheard hsilent
  have hlint := hheard .yamllint (by decide) none ⟨.yamllint, truthyReport, "", 1⟩ (attempt_uneven .yamllint)
  have hmissing := hsilent .ansibleLint fun _ => ⟨_, attempt_uneven .ansibleLint⟩
  have hstopped := hsilent .preCommit fun _ => ⟨_, attempt_uneven .preCommit⟩
  have hall : ∀ f ∈ r.findings, (f.tool == .yamllint) = true := by
    intro f hf
    cases htool : f.tool with
    | yamllint => rfl
    | ansibleLint => exact absurd (beq_iff_eq.2 htool) (List.filter_eq_nil_iff.1 hmissing f hf)
    | preCommit => exact absurd (beq_iff_eq.2 htool) (List.filter_eq_nil_iff.1 hstopped f hf)
  refine ⟨r, hr, hcache, ?_, ?_, by decide, hlint, hmissing, hstopped, ?_, by decide +kernel⟩
  · simp only [hran, attempt_uneven]
    rfl
  · simp only [hfailures, attempt_uneven]
    rfl
  · rw [List.filter_eq_self.2 hall] at hlint
    exact hlint.trans findings_truthyReport

end Checker

end LintHub
