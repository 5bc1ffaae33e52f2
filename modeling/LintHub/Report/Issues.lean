import LintHub.Json.Reader
import LintHub.Report.Columns

/-!
# Reports of issues

A report is a JSON array of issues. Only the first value of the text counts, so that noise after it does no harm;
a text that does not start with an array is read in columns.

* `Issues.finding?` reads one issue, `Issues.place` its line and column.
* `Issues.findings` reads a whole report.
-/

namespace LintHub.Issues

/-- A natural number as a line or a column; one for an absent number. -/
def clamp (n : Option Nat) : UInt32 := n.elim 1 Text.clampWord

def begin? (name : String) (location : Json) : Option Json := (location.get? name).bind (Json.get? "begin")

def number? (name : String) (j : Json) : Option Nat := (j.get? name).bind Json.asNat?

/-- The line and column of a location. The field `lines` may hold a line or a line and a column; `positions` gives
the line only where `lines` does not, and the column before `lines` does. -/
def place (location : Json) : UInt32 × UInt32 :=
  let lines := begin? "lines" location
  let positions := begin? "positions" location
  let line := (lines.bind fun start => start.asNat?.or (number? "line" start)).or (positions.bind (number? "line"))
  let column := (positions.bind (number? "column")).or (lines.bind (number? "column"))
  (clamp line, clamp column)

/-- The finding of an issue. An object with neither a type nor a rule is none. -/
def finding? (root : Path) (tool : Tool) (issue : Json) : Option Finding :=
  if (issue.get? "type").isNone && (issue.get? "check_name").isNone then none
  else
    let text (name : String) : String := (issue.stringField? name).getD ""
    let location := issue.get? "location"
    let path := (location.bind (Json.stringField? "path")).getD ""
    let (line, column) := location.elim (1, 1) place
    let found := ((Finding.new (root.resolve path) (text "check_name") (text "description") tool).placed line
      column).ranked (.ofIssue (text "severity"))
    some <| match issue.stringField? "url" with
      | some url => if url = "" then found else { found with page := some url }
      | none => found

def findings (root : Path) (tool : Tool) (s : List Char) : List Finding :=
  match Json.valueAs? Json.maxDepth .whole s with
  | some (.arr issues, _) => issues.filterMap (finding? root tool)
  | _ => Columns.findings root tool s

end LintHub.Issues
