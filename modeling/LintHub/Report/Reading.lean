import LintHub.Report.Dialect
import LintHub.Report.Escapes
import LintHub.Report.Issues
import LintHub.Report.Transcript

/-!
# Reading a report

* `Report.findingsAs` reads a clean text in a dialect.
* `Report.read` cleans a tool's output, guesses the dialect unless it is given, and reads it. It never fails: what
  is not understood is dropped.
* `Report.combined` joins what a tool wrote to its two outputs, `Report.readGrouped` also names a group.
-/

namespace LintHub.Report

def findingsAs (dialect : Dialect) (root : Path) (tool : Tool) (s : List Char) : List Finding :=
  match dialect with
  | .issues => Issues.findings root tool s
  | .columns => Columns.findings root tool s
  | .transcript => Transcript.findings root tool s

/-- The findings in a tool's output. Relative paths are seen from `root`. -/
def readChars (output : List Char) (root : Path) (tool : Tool) (dialect : Option Dialect) : List Finding :=
  let text := cleanChars output
  if (Text.trim text).isEmpty then []
  else match dialect.or (Dialect.guessChars? text) with
    | some d => findingsAs d root tool text
    | none => []

def read (output : String) (root : Path) (tool : Tool) (dialect : Option Dialect) : List Finding :=
  readChars output.toList root tool dialect

/-- What a tool wrote to its outputs, a line feed between them. -/
def combined (stdout stderr : String) : String := stdout ++ "\n" ++ stderr

def readGrouped (output : String) (root : Path) (tool : Tool) (dialect : Option Dialect) (group : Option String) :
    List Finding :=
  match group with
  | none => read output root tool dialect
  | some g => (read output root tool dialect).map fun f => { f with group := some g }

end LintHub.Report
