import LintHub.Text.Search
import LintHub.Tool

/-!
# Dialects of reports

* `Dialect` is one of the three forms in which linters report.
* `Dialect.ofText?` reads the spellings a user may write, `Dialect.preferred?` is the one a tool always prints.
* `Dialect.guess?` tells from the report itself.
-/

namespace LintHub

inductive Dialect where
  /-- A JSON array of issues. -/
  | issues
  /-- One line a finding, or a rule's line and a place's line. -/
  | columns
  /-- What the hook runner prints, a block for each hook. -/
  | transcript
deriving DecidableEq, Inhabited

namespace Dialect

def name : Dialect → String
  | issues => "structured"
  | columns => "column"
  | transcript => "hook"

/-- The dialect that a user means, whatever the case of the letters. -/
def ofText? (s : String) : Option Dialect :=
  let word := Text.keyword s
  if ["structured", "json", "codeclimate"].contains word then some issues
  else if ["column", "column-based", "pep8", "parsable"].contains word then some columns
  else if ["hook", "hook-transcript", "pre-commit"].contains word then some transcript
  else none

def unknownText (s : String) : String := "Unknown dialect '" ++ s ++ "' (expected structured, column or hook)"

/-- The dialect that a tool always prints, if it has only one. -/
def preferred? : Tool → Option Dialect
  | .preCommit => some transcript
  | .yamllint => none
  | .ansibleLint => none

/-! ## Guessing -/

/-- What starts a line of the hook runner's log. -/
def logMarks : List String := ["[INFO]", "[WARNING]", "[ERROR]"]

def statusWords : List String := ["Passed", "Failed", "Skipped"]

def isLogLine (line : List Char) : Bool := logMarks.any fun mark => mark.toList.isPrefixOf line

/-- The first line that has text and is not of the log, from its first character that is no blank. -/
def firstLine (s : List Char) : List Char :=
  (((Text.lines s).map Text.trimStart).find? fun line => !line.isEmpty && !isLogLine line).getD []

/-- The dialect of a report, told from its first line and the words in it; none for a blank report. -/
def guessChars? (s : List Char) : Option Dialect :=
  let text := Text.trim s
  if text.isEmpty then none
  else match firstLine text with
    | '[' :: _ => some issues
    | '{' :: _ => some issues
    | _ => if statusWords.any fun word => Text.occurs word.toList text then some transcript else some columns

def guess? (s : String) : Option Dialect := guessChars? s.toList

end Dialect

end LintHub
