import LintHub.CommandLine.Running
import LintHub.Proofs.Checking.Isolation
import LintHub.Proofs.Report.ByFile
import LintHub.Proofs.Report.Labels
import LintHub.Proofs.Report.LastFeed

/-!
# One text read twice

A check reads what a tool prints, and a command reads the same text from its input.

* `CommandLine.findingsIn_parseReport` : the command lists the findings that it reads, merged.
* `Checker.Prints`, `Checker.runTool_of_prints` : a run of a tool that prints a text, and what is read of it.
* `Checker.merged_eq_parsed_iff` : the two agree unless the tool always prints one dialect and the text looks like another one.

A check takes the dialect that a tool always prints where none is chosen; the command guesses.
-/

namespace LintHub

/-! ## The command -/

theorem CommandLine.findingsIn_parseReport (root : Path) (tool : Tool) (dialect : Option Dialect) (text : String) :
    findingsIn (parseReport root tool dialect text) = mergeFindings [Report.read text root tool dialect] :=
  findingsIn_groupByFile (increasing_mergeFindings _)

/-! ## The guess -/

section Guess

variable {text : String}

/-- Only a blank text looks like nothing. -/
theorem Dialect.guessChars?_eq_none_iff {s : List Char} :
    guessChars? s = none ↔ (Text.trim s).isEmpty = true := by
  unfold guessChars?
  dsimp only
  split
  · next hblank => exact iff_of_true rfl hblank
  · next hink =>
    refine iff_of_false ?_ hink
    split
    · exact Option.some_ne_none _
    · exact Option.some_ne_none _
    · split
      · exact Option.some_ne_none _
      · exact Option.some_ne_none _

/-- A text that looks like a dialect is read in it unless another one is asked for. -/
theorem Report.read_of_guess {guessed : Dialect} (h : dialectOf text none = some guessed) (root : Path) (tool : Tool)
    (dialect : Option Dialect) :
    read text root tool dialect = findingsAs (dialect.getD guessed) root tool (cleanChars text.toList) := by
  rw [dialectOf, Option.none_or] at h
  have hink : ¬ (Text.trim (cleanChars text.toList)).isEmpty = true := by
    rw [← Dialect.guessChars?_eq_none_iff, h]
    exact Option.some_ne_none guessed
  unfold read readChars
  dsimp only
  rw [if_neg hink, h, Option.or_some]

/-- Nothing is read of a text that looks like none. -/
theorem Report.read_of_no_guess (h : dialectOf text none = none) (root : Path) (tool : Tool)
    (dialect : Option Dialect) : read text root tool dialect = [] := by
  rw [dialectOf, Option.none_or] at h
  unfold read readChars
  dsimp only
  rw [if_pos (Dialect.guessChars?_eq_none_iff.1 h)]

end Guess

namespace Checker

variable {h : Host} {c : Checker} {d : Disk} {t : Tool} {path : Path} {text : String}

/-! ## The check -/

/-- A run of the tool on the file ends as tools do, with the text on its first output and nothing on the second one. -/
def Prints (h : Host) (c : Checker) (d : Disk) (t : Tool) (path : Path) (text : String) : Prop :=
  ∃ program code ran, c.program d t = .ok program ∧ Execution.goodCodes.contains code = true ∧
    h.run d ⟨program, (ToolCommand.check t program (c.target path) (c.settings.tool t).args).args, c.root, c.limit t⟩ =
      (.ended (some code) text.toUTF8 "".toUTF8, ran)

/-- A tool's own dialect is taken where the settings choose none. -/
theorem runTool_of_prints (hdialect : (c.settings.tool t).dialect = none) (hprints : c.Prints h d t path text) :
    (c.runTool h d t path).1 =
      .ok (Report.readGrouped (Report.combined text "") c.root t (Dialect.preferred? t) (some (c.settings.group t))) := by
  obtain ⟨program, code, ran, hprogram, hcode, hrun⟩ := hprints
  have hforced : c.dialect t = .ok (Dialect.preferred? t) := by
    rw [dialect, ToolSettings.forcedDialect, hdialect]
    rfl
  have hprepare : c.prepare d t path =
      .ok (.check t program (c.target path) (c.settings.tool t).args, Dialect.preferred? t) := by
    rw [prepare, hforced, hprogram]
    rfl
  have hexecute : h.execute d (.check t program (c.target path) (c.settings.tool t).args) c.root (c.limit t) =
      (.ok ⟨t, text, "", code⟩, ran) := Host.execute_of_run hcode hrun
  rw [fst_runTool, attempt_of_prepare hprepare, hexecute]
  rfl

/-- What a check finds in a printed text is what the command finds in it when it is told the tool's own dialect. -/
theorem ungrouped_of_prints {fs : List Finding} (hdialect : (c.settings.tool t).dialect = none)
    (hprints : c.Prints h d t path text) (hfs : (c.runTool h d t path).1 = .ok fs) :
    (mergeFindings [fs]).map Finding.ungrouped =
      findingsIn (CommandLine.parseReport c.root t (Dialect.preferred? t) text) := by
  rw [runTool_of_prints hdialect hprints] at hfs
  obtain rfl := Except.ok.inj hfs
  rw [Report.ungrouped_mergeFindings, Report.read_combined, CommandLine.findingsIn_parseReport]

/-- Where the settings choose no dialect, a check finds in a printed text what the command finds in it when it is told
the dialect that the tool always prints. So without being told, the command finds the same exactly if there is no such
dialect, or the text looks like it or like nothing, or it happens to say the same in the dialect that it looks like. -/
theorem merged_eq_parsed_iff (hdialect : (c.settings.tool t).dialect = none) (hprints : c.Prints h d t path text) :
    ∃ fs, (c.runTool h d t path).1 = .ok fs ∧
      (mergeFindings [fs]).map Finding.ungrouped =
        findingsIn (CommandLine.parseReport c.root t (Dialect.preferred? t) text) ∧
      ((mergeFindings [fs]).map Finding.ungrouped = findingsIn (CommandLine.parseReport c.root t none text) ↔
        ∀ always ∈ Dialect.preferred? t, ∀ guessed ∈ Report.dialectOf text none, guessed = always ∨
          mergeFindings [Report.findingsAs guessed c.root t (Report.cleanChars text.toList)] =
            mergeFindings [Report.findingsAs always c.root t (Report.cleanChars text.toList)]) := by
  have hrun := runTool_of_prints hdialect hprints
  refine ⟨_, hrun, ungrouped_of_prints hdialect hprints hrun, ?_⟩
  rw [ungrouped_of_prints hdialect hprints hrun, CommandLine.findingsIn_parseReport,
    CommandLine.findingsIn_parseReport]
  cases hpreferred : Dialect.preferred? t with
  | none => simp
  | some always =>
    cases hguess : Report.dialectOf text none with
    | none => simp [Report.read_of_no_guess hguess]
    | some guessed =>
      simp only [Option.mem_def, Option.some.injEq, forall_eq', Report.read_of_guess hguess, Option.getD_some,
        Option.getD_none]
      constructor
      · intro heq
        exact .inr heq.symm
      · rintro (rfl | heq)
        · rfl
        · exact heq.symm

/-! ### A hook whose name starts with a bracket -/

/-- The text looks like an array, and it is none. -/
def bracketed : String :=
  "[yaml] trim trailing whitespace....Failed\n- hook id: trailing-whitespace\n- exit code: 1\n\nFixing a.yml\n"

def bracketedHost : Host where
  run d _ := (.ended (some 1) bracketed.toUTF8 "".toUTF8, d)

theorem prints_bracketed : deskChecker.Prints bracketedHost desk .preCommit ⟨"/w/a.yml"⟩ bracketed :=
  ⟨⟨"/w/lint"⟩, 1, desk, by rw [program_uneven, if_neg (by decide)], by decide, rfl⟩

/-- The check finds that a file was mended, the command finds nothing. -/
theorem merged_eq_parsed_iff_bracketed :
    ∃ fs, (deskChecker.runTool bracketedHost desk .preCommit ⟨"/w/a.yml"⟩).1 = .ok fs ∧
      (mergeFindings [fs]).map Finding.ungrouped =
        [{ Finding.new ⟨"/w/a.yml"⟩ "trailing-whitespace" "Trailing whitespace removed" .preCommit with
          severity := .info, fixable := true }] ∧
      findingsIn (CommandLine.parseReport ⟨"/w"⟩ .preCommit none bracketed) = [] := by
  have hmerge (f : Finding) : mergeFindings [[f]] = [f] := by
    rw [mergeFindings, List.flatten_singleton, List.mergeSort_singleton, dedupAdjacent]
  have hnone : mergeFindings [[]] = [] := by
    rw [mergeFindings, List.flatten_singleton, List.mergeSort_nil, dedupAdjacent]
  have htranscript : Report.read bracketed ⟨"/w"⟩ .preCommit (some .transcript) =
      [{ Finding.new ⟨"/w/a.yml"⟩ "trailing-whitespace" "Trailing whitespace removed" .preCommit with
        severity := .info, fixable := true }] := by decide +kernel
  have hguessed : Report.read bracketed ⟨"/w"⟩ .preCommit none = [] := by decide +kernel
  obtain ⟨fs, hfs, hmerged, -⟩ := merged_eq_parsed_iff (t := .preCommit) rfl prints_bracketed
  have hroot : deskChecker.root = ⟨"/w"⟩ := rfl
  rw [hroot, Dialect.preferred?, CommandLine.findingsIn_parseReport, htranscript, hmerge] at hmerged
  refine ⟨fs, hfs, hmerged, ?_⟩
  rw [CommandLine.findingsIn_parseReport, hguessed, hnone]

end Checker

end LintHub
