import LintHub.Text.Blank

/-!
# Severities

* `Severity` has three levels, errors first.
* `Severity.ofWord` reads any level that a tool prints, `Severity.ofIssue` the levels of an issue report.
-/

namespace LintHub

inductive Severity where
  | error
  | warning
  | info
deriving DecidableEq, Inhabited

namespace Severity

def rank : Severity → Nat
  | error => 0
  | warning => 1
  | info => 2

def name : Severity → String
  | error => "error"
  | warning => "warning"
  | info => "info"

def ofName? (s : String) : Option Severity :=
  if s = "error" then some error
  else if s = "warning" then some warning
  else if s = "info" then some info
  else none

/-- The severity of an issue's level; a level that is not known is a warning. -/
def ofIssue (level : String) : Severity :=
  let word := Text.keyword level
  if ["critical", "major"].contains word then error
  else if word = "info" then info
  else warning

/-- The severity of a word that a tool prints; a word that is not known is a warning. -/
def ofWord (level : String) : Severity :=
  let word := Text.keyword level
  if ["error", "err", "fatal", "critical", "major", "blocker", "failed", "failure"].contains word then error
  else if ["info", "information", "note", "hint", "passed", "skipped"].contains word then info
  else warning

end Severity

end LintHub
