import LintHub.CommandLine.Request
import LintHub.Report.Sarif

/-!
# Listings

* `Format.render` writes results in a form for people or programs.
* `RuleInfo.render` writes what is known about a rule.
-/

namespace LintHub

def Finding.listed (f : Finding) : String :=
  f.file.text ++ ":" ++ toString f.line.toNat ++ ":" ++ toString f.column.toNat ++ " " ++ f.severity.name ++ " [" ++
    f.rule ++ "] " ++ f.message ++ " (" ++ f.tool.id ++ ")"

def Summary.lines (s : Summary) : List String :=
  ("Checked " ++ toString s.files ++ " files (" ++ toString s.cachedFiles ++ " from cache), found " ++
    toString s.findings ++ " issues (" ++ toString s.errors ++ " errors, " ++ toString s.warnings ++ " warnings, " ++
    toString s.infos ++ " info)") ::
  if s.toolFailures = 0 then [] else [toString s.toolFailures ++ " tool run(s) failed"]

namespace CommandLine

/-- Lines, each with its end. -/
def ofLines (lines : List String) : String := String.join (lines.map fun l => l ++ "\n")

/-- Results for people: a line a finding, and the counts after a blank line. -/
def listing (results : List FileResult) : String :=
  ofLines ((findingsIn results).map Finding.listed ++ "" :: (Summary.of results).lines)

def Format.render (format : Format) (results : List FileResult) : String :=
  match format with
  | text => listing results
  | json => (Json.arr ((findingsIn results).map Finding.toJson)).pretty ++ "\n"
  | sarif => Sarif.render results ++ "\n"

def ruleLines (i : RuleInfo) : List String :=
  ["rule:     " ++ i.rule, "tool:     " ++ i.tool.displayName, "fixable:  " ++ (if i.fixable then "yes" else "no")] ++
    (i.page.map fun page => "docs:     " ++ page).toList ++
    match i.hint with
    | some hint => ["", hint]
    | none => []

def explanation (i : RuleInfo) (json : Bool) : String :=
  if json then i.toJson.pretty ++ "\n" else ofLines (ruleLines i)

end CommandLine

end LintHub
