import LintHub.CommandLine.Running
import LintHub.Proofs.Checking.Batch
import LintHub.Proofs.Report.Summary

/-!
# Exit codes

The exit code of a command that finds errors follows the summary of its results.

* `Checks`, `Parses` : what a check works on, and what the reading of a tool's output results in, if they can be carried
  out.
* `isBad_checkFiles` : whether a check finds something bad can be told from the summary and the disk before it.
* `code_follows_summary` : the laws of summaries, and the exit codes of both commands.
-/

namespace LintHub.CommandLine

/-- The arguments ask for a check, and the project is there: the checker and the files that it is to check. -/
inductive Checks (w : Surroundings) (args : List String) (d : Disk) : Checker → List Path → Prop
  | intro {r : Request} {names : List String} {format : Format} {tools : List Tool} {timings : Bool}
      {settings : Settings} {root : Path} {files : List Path} (hargs : Request.ofArgs args = .ok r)
      (hjob : r.job = .check names format tools timings) (hproject : project r d = .ok (settings, root))
      (hfiles : (Checker.new (settings.restrictTo tools) root w.locator d).discover d names = .ok files) :
      Checks w args d (.new (settings.restrictTo tools) root w.locator d) files

/-- The arguments ask for the output of a tool to be read, the tool did its work, and its output is a text: the results
in it. -/
inductive Parses (args : List String) (stdin : ByteArray) (d : Disk) : List FileResult → Prop
  | intro {r : Request} {tool : Tool} {dialect : Option Dialect} {code : Option Int} {format : Format} {root : Path}
      {output : String} (hargs : Request.ofArgs args = .ok r) (hjob : r.job = .parse tool dialect code format)
      (hwork : didWork code = true) (hroot : projectRoot r d = .ok root) (houtput : Text.decode? stdin = some output) :
      Parses args stdin d (parseReport root tool dialect output)

variable {w : Surroundings} {args : List String} {stdin : ByteArray} {d : Disk} {c : Checker} {files : List Path}
  {results : List FileResult}

/-! ## Bad results -/

theorem anyErrors_iff (results : List FileResult) : anyErrors results = true ↔ 0 < (Summary.of results).errors := by
  rw [Summary.errors_of_pos_iff]
  exact List.any_eq_true

/-- The files that could not be read are those that cannot be read before the first tool runs. -/
theorem unread_checkFiles (h : Host) (now : UInt64) (c : Checker) (d : Disk) (files : List Path) :
    (c.checkFiles h now d files).1.unread.map Prod.fst =
      (files.map c.absolute).filter fun path => !(d.readText path).isOk := by
  obtain ⟨-, hunread⟩ := Checker.paths_checkRead (c := c) (h := h) (d := d) now
    ((files.map c.absolute).map fun path => (path, Checker.hashOf d path))
  rw [Checker.checkFiles, hunread]
  exact Checker.paths_of_hashOf not d (files.map c.absolute)

theorem isBad_checkFiles (h : Host) (now : UInt64) (c : Checker) (d : Disk) (files : List Path) :
    isBad (c.checkFiles h now d files).1 = true ↔
      0 < (Summary.of (c.checkFiles h now d files).1.results).errors ∨
        ∃ file ∈ files, (d.readText (c.absolute file)).isOk = false := by
  have hunread : (!(c.checkFiles h now d files).1.unread.isEmpty) = true ↔
      ∃ file ∈ files, (d.readText (c.absolute file)).isOk = false := by
    rw [← List.isEmpty_map (f := Prod.fst), unread_checkFiles]
    simp
  rw [isBad, Bool.or_eq_true, anyErrors_iff, hunread]

/-! ## Runs -/

theorem code_ofResults (bad : Bool) (stdout : String) :
    ((Exit.ofResults bad stdout).code = 0 ∨ (Exit.ofResults bad stdout).code = 1) ∧
      ((Exit.ofResults bad stdout).code = 1 ↔ bad = true) := by
  cases bad <;> simp [Exit.ofResults]

section Requests

variable {r : Request} {names : List String} {format : Format} {tools : List Tool} {timings : Bool} {tool : Tool}
  {dialect : Option Dialect} {code : Option Int}

theorem run_of_check (hargs : Request.ofArgs args = .ok r) (hjob : r.job = .check names format tools timings)
    (w : Surroundings) (stdin : ByteArray) (d : Disk) : run w args stdin d = check w r names format tools d := by
  simp only [run, hargs, carryOut, hjob]

theorem run_of_parse (hargs : Request.ofArgs args = .ok r) (hjob : r.job = .parse tool dialect code format)
    (w : Surroundings) (stdin : ByteArray) (d : Disk) :
    run w args stdin d = (parse r tool dialect code format stdin d, d) := by
  simp only [run, hargs, carryOut, hjob]

theorem check_of_project {settings : Settings} {root : Path} (hproject : project r d = .ok (settings, root))
    (w : Surroundings) (names : List String) (format : Format) (tools : List Tool) :
    check w r names format tools d =
      match checkReport w (settings.restrictTo tools) root names d with
      | .error _ => (.failed, d)
      | .ok (batch, d) => (.ofResults (isBad batch) (format.render batch.results), d) := by
  rw [check, hproject]
  rfl

theorem exit_of_checks (h : Checks w args d c files) (stdin : ByteArray) :
    ∃ stdout, (run w args stdin d).1 = .ofResults (isBad (c.checkFiles w.host w.now d files).1) stdout := by
  obtain @⟨r, names, format, tools, timings, settings, root, files, hargs, hjob, hproject, hfiles⟩ := h
  rw [run_of_check hargs hjob, check_of_project hproject, checkReport, hfiles]
  exact ⟨_, rfl⟩

theorem exit_of_parses (h : Parses args stdin d results) (w : Surroundings) :
    ∃ stdout, (run w args stdin d).1 = .ofResults (anyErrors results) stdout := by
  obtain @⟨r, tool, dialect, code, format, root, output, hargs, hjob, hwork, hroot, houtput⟩ := h
  rw [run_of_parse hargs hjob, parse, hwork, hroot, houtput]
  exact ⟨_, rfl⟩

/-- A check that cannot be carried out fails. -/
theorem exit_of_not_checks (hargs : Request.ofArgs args = .ok r) (hjob : r.job = .check names format tools timings)
    (hnone : ∀ c files, ¬ Checks w args d c files) (stdin : ByteArray) : (run w args stdin d).1 = .failed := by
  rw [run_of_check hargs hjob]
  cases hproject : project r d with
  | error e =>
    rw [check, hproject]
    rfl
  | ok found =>
    obtain ⟨settings, root⟩ := found
    rw [check_of_project hproject]
    cases hfiles : (Checker.new (settings.restrictTo tools) root w.locator d).discover d names with
    | error e =>
      rw [checkReport, hfiles]
      rfl
    | ok files => exact absurd (.intro hargs hjob hproject hfiles) (hnone _ files)

/-- So does the reading of a tool's output that is not there. -/
theorem exit_of_not_parses (hargs : Request.ofArgs args = .ok r) (hjob : r.job = .parse tool dialect code format)
    (hnone : ∀ results, ¬ Parses args stdin d results) (w : Surroundings) : (run w args stdin d).1 = .failed := by
  rw [run_of_parse hargs hjob, parse]
  split
  · rfl
  · next hwork =>
    have hdone : didWork code = true := by simpa using hwork
    split
    · next root output hroot houtput => exact absurd (.intro hargs hjob hdone hroot houtput) (hnone _)
    · rfl

end Requests

/-! ## Exit codes -/

/-- Summaries are additive and consistent, and the exit codes of the two commands that find errors follow them. A check
that can be carried out ends with 0 or 1, and with 1 exactly if the summary counts errors or a file cannot be read; the
reading of a tool's output, exactly if the summary counts errors. What cannot be carried out ends with 2. -/
theorem code_follows_summary :
    (∀ a b : List FileResult, Summary.of (a ++ b) = (Summary.of a).plus (Summary.of b)) ∧
    (∀ results : List FileResult, Summary.of results = .tally results ∧ (Summary.of results).Consistent) ∧
    (∀ w args stdin d c files, Checks w args d c files →
      ((run w args stdin d).1.code = 0 ∨ (run w args stdin d).1.code = 1) ∧
      ((run w args stdin d).1.code = 1 ↔
        0 < (Summary.of (c.checkFiles w.host w.now d files).1.results).errors ∨
          ∃ file ∈ files, (d.readText (c.absolute file)).isOk = false)) ∧
    (∀ w args stdin d results, Parses args stdin d results →
      ((run w args stdin d).1.code = 0 ∨ (run w args stdin d).1.code = 1) ∧
      ((run w args stdin d).1.code = 1 ↔ 0 < (Summary.of results).errors)) ∧
    ∀ w args stdin d r, Request.ofArgs args = .ok r →
      (∀ names format tools timings, r.job = .check names format tools timings →
        (∀ c files, ¬ Checks w args d c files) → (run w args stdin d).1.code = 2) ∧
      ∀ tool dialect code format, r.job = .parse tool dialect code format →
        (∀ results, ¬ Parses args stdin d results) → (run w args stdin d).1.code = 2 := by
  refine ⟨Summary.of_append, fun results => ⟨Summary.of_eq_tally results, Summary.consistent_of results⟩, ?_, ?_, ?_⟩
  · intro w args stdin d c files h
    obtain ⟨stdout, hexit⟩ := exit_of_checks h stdin
    rw [← isBad_checkFiles, hexit]
    exact code_ofResults _ stdout
  · intro w args stdin d results h
    obtain ⟨stdout, hexit⟩ := exit_of_parses h w
    rw [← anyErrors_iff, hexit]
    exact code_ofResults _ stdout
  · intro w args stdin d r hargs
    constructor
    · intro names format tools timings hjob hnone
      rw [exit_of_not_checks hargs hjob hnone stdin]
      rfl
    · intro tool dialect code format hjob hnone
      rw [exit_of_not_parses hargs hjob hnone w]
      rfl

/-! ## A file that is no text -/

/-- A project of one file, which is no text. -/
def garbledDisk : Disk := ⟨[(["w"], .dir), (["w", "a.yml"], .file ⟨#[0xFF]⟩ false)], ["w"]⟩

/-- No program is there, and none would say anything. -/
def idleDesk : Surroundings := ⟨⟨fun d _ => (.ended (some 0) .empty .empty, d)⟩, .ofDirs [], 0⟩

def garbledChecker : Checker := .new (Settings.default.restrictTo []) ⟨"/w"⟩ idleDesk.locator garbledDisk

theorem stat_garbledDisk : garbledDisk.stat true ⟨"/w/a.yml"⟩ = .ok (["w", "a.yml"], .file ⟨#[0xFF]⟩ false) := by
  have hplain : Disk.IsPlain ⟨"/w/a.yml"⟩ ["w", "a.yml"] := by decide
  exact Disk.stat_of_follow? hplain rfl

theorem projectRoot_garbledDisk (r : Request) (hroot : r.root = none) : projectRoot r garbledDisk = .ok ⟨"/w"⟩ := by
  have hplain : Disk.IsPlain ⟨"/w"⟩ ["w"] := by decide
  have hcanonical : garbledDisk.canonical ⟨"/w"⟩ = .ok ⟨"/w"⟩ := by
    rw [Disk.canonical, Disk.stat_of_follow? hplain rfl]
    rfl
  have hhere : currentDir garbledDisk = ⟨"/w"⟩ := by decide
  rw [projectRoot, hroot, Option.map_none, Option.getD_none, hhere, hcanonical]

theorem loadFor_garbledDisk : Settings.loadFor garbledDisk ⟨"/w"⟩ = .ok .default := by
  have hnames : ((⟨"/w"⟩ : Path).ancestors.flatMap fun dir => Settings.fileNames.map dir.child) =
      [⟨"/w/.yamlsentry.jsonc"⟩, ⟨"/w/.yamlsentry.json"⟩, ⟨"/.yamlsentry.jsonc"⟩, ⟨"/.yamlsentry.json"⟩] := by decide
  have hfind : Settings.find? garbledDisk ⟨"/w"⟩ = none := by
    rw [Settings.find?, hnames, List.find?_eq_none]
    simp only [List.mem_cons, List.not_mem_nil, or_false, forall_eq_or_imp, forall_eq, Bool.not_eq_true]
    exact ⟨Disk.isFile_of_follow? ["w", ".yamlsentry.jsonc"] (by decide) rfl,
      Disk.isFile_of_follow? ["w", ".yamlsentry.json"] (by decide) rfl,
      Disk.isFile_of_follow? [".yamlsentry.jsonc"] (by decide) rfl,
      Disk.isFile_of_follow? [".yamlsentry.json"] (by decide) rfl⟩
  rw [Settings.loadFor, hfind]

theorem discover_garbledDisk : garbledChecker.discover garbledDisk ["a.yml"] = .ok [⟨"/w/a.yml"⟩] := by
  have hplain : Disk.IsPlain ⟨"/w/a.yml"⟩ ["w", "a.yml"] := by decide
  have hnamed : FileFilter.namedFile? garbledDisk ⟨"/w"⟩ "a.yml" = some ⟨"/w/a.yml"⟩ := by
    have hchild : Path.child ⟨"/w"⟩ "a.yml" = ⟨"/w/a.yml"⟩ := by decide
    rw [FileFilter.namedFile?, hchild, Disk.isPlainFile, Disk.stat, Disk.find_of_follow? hplain false rfl]
    rfl
  have hcanonical : garbledDisk.canonical ⟨"/w/a.yml"⟩ = .ok ⟨"/w/a.yml"⟩ := by
    rw [Disk.canonical, stat_garbledDisk]
    rfl
  have hkept : ((FileFilter.of Settings.default.included Settings.default.excluded).toOption.any fun f =>
      !f.excludes (Path.relativeTo ⟨"/w"⟩ ⟨"/w/a.yml"⟩)) = true := by
    decide +kernel
  cases hfilter : FileFilter.of Settings.default.included Settings.default.excluded with
  | error e =>
    rw [hfilter] at hkept
    cases hkept
  | ok f =>
    rw [hfilter] at hkept
    have hexcludes : f.excludes (Path.relativeTo ⟨"/w"⟩ ⟨"/w/a.yml"⟩) = false := by
      simpa [Except.toOption] using hkept
    have hpatterns : FileFilter.patternsAmong garbledDisk ⟨"/w"⟩ ["a.yml"] = .ok [] := by
      rw [FileFilter.patternsAmong, List.filter_cons_of_neg (by simp [hnamed])]
      rfl
    have hfound : f.named garbledDisk ⟨"/w"⟩ ["a.yml"] = [⟨"/w/a.yml"⟩] := by
      simp [FileFilter.named, hnamed, hexcludes, hcanonical]
      rfl
    have hdiscover : f.discover garbledDisk ⟨"/w"⟩ ["a.yml"] = .ok [⟨"/w/a.yml"⟩] := by
      rw [FileFilter.discover, hpatterns, hfound]
      simp [FileFilter.matching, FileFilter.inOrder, FileFilter.dropRepeats]
    show (FileFilter.of Settings.default.included Settings.default.excluded >>= _) = _
    rw [hfilter]
    exact hdiscover

theorem checks_garbledDisk : Checks idleDesk ["check", "a.yml"] garbledDisk garbledChecker [⟨"/w/a.yml"⟩] := by
  have hargs : Request.ofArgs ["check", "a.yml"] =
      .ok ⟨.check ["a.yml"] .text [] false, none, false, false, none⟩ := rfl
  have hproject : project ⟨.check ["a.yml"] .text [] false, none, false, false, none⟩ garbledDisk =
      .ok (.default, ⟨"/w"⟩) := by
    rw [project, projectRoot_garbledDisk _ rfl]
    show (Settings.loadFor garbledDisk ⟨"/w"⟩ >>= _) = _
    rw [loadFor_garbledDisk]
    rfl
  exact .intro hargs rfl hproject discover_garbledDisk

theorem parses_tooLong :
    Parses ["parse", "--tool", "yamllint"] "a.yml:1:1: [error] too long (line-length)".toUTF8 garbledDisk
      (parseReport ⟨"/w"⟩ .yamllint none "a.yml:1:1: [error] too long (line-length)") := by
  have hargs : Request.ofArgs ["parse", "--tool", "yamllint"] =
      .ok ⟨.parse .yamllint none none .text, none, false, false, none⟩ := rfl
  exact .intro hargs rfl rfl (projectRoot_garbledDisk _ rfl) (Text.decode?_toUTF8 _)

/-- A check ends with 1 for a file that cannot be read, and the reading of an output for an error in it. -/
theorem code_follows_summary_garbled :
    (run idleDesk ["check", "a.yml"] .empty garbledDisk).1.code = 1 ∧
    (run idleDesk ["parse", "--tool", "yamllint"] "a.yml:1:1: [error] too long (line-length)".toUTF8
      garbledDisk).1.code = 1 := by
  have hunread : (garbledDisk.readText (garbledChecker.absolute ⟨"/w/a.yml"⟩)).isOk = false := by
    have habsolute : garbledChecker.absolute ⟨"/w/a.yml"⟩ = ⟨"/w/a.yml"⟩ := by
      show (⟨"/w"⟩ : Path).join ⟨"/w/a.yml"⟩ = _
      decide
    rw [habsolute, Disk.readText, Disk.readBytes, stat_garbledDisk]
    decide
  have herrors : 0 < (Summary.of (parseReport ⟨"/w"⟩ .yamllint none
      "a.yml:1:1: [error] too long (line-length)")).errors := by
    decide +kernel
  obtain ⟨-, -, hchecks, hparses, -⟩ := code_follows_summary
  obtain ⟨-, hcheck⟩ := hchecks idleDesk ["check", "a.yml"] .empty garbledDisk _ _ checks_garbledDisk
  obtain ⟨-, hparse⟩ := hparses idleDesk _ _ garbledDisk _ parses_tooLong
  exact ⟨hcheck.2 (.inr ⟨_, List.mem_singleton_self _, hunread⟩), hparse.2 herrors⟩

end LintHub.CommandLine
