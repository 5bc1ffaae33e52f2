import LintHub.Json.Printer
import LintHub.Program
import LintHub.Report.Result

/-!
# The interchange format for static analysis

* `Sarif.log` is the document for results: one run, with a table of the rules that its findings name.
* A rule's identifier is its tool and its name; the first finding of a rule describes it.
-/

namespace LintHub.Sarif

def ruleId (f : Finding) : String := f.tool.id ++ "/" ++ f.rule

def level : Severity → String
  | .error => "error"
  | .warning => "warning"
  | .info => "note"

def message (s : String) : Json := .obj [("text", .str s)]

/-- What the table of rules says of a finding's rule. -/
def descriptor (f : Finding) : Json :=
  .obj ([("id", .str (ruleId f)), ("name", .str f.rule), ("shortDescription", message f.message)] ++
    Json.fieldOf "helpUri" f.page)

/-- The entry of a finding in a check of the file at `path`. -/
def result (path : Path) (f : Finding) : Json :=
  .obj [("ruleId", .str (ruleId f)), ("level", .str (level f.severity)), ("message", message f.message),
    ("locations", .arr [.obj [("physicalLocation", .obj [
      ("artifactLocation", .obj [("uri", .str (Text.replaceChar '\\' '/' path.text))]),
      ("region", .obj [("startLine", .nat f.line.toNat), ("startColumn", .nat f.column.toNat)])])]])]

/-- Puts a finding's rule into a table sorted by identifier, unless it is there. -/
def insertRule (f : Finding) : List (String × Json) → List (String × Json)
  | [] => [(ruleId f, descriptor f)]
  | head :: rest =>
    match compare (ruleId f) head.1 with
    | .lt => (ruleId f, descriptor f) :: head :: rest
    | .eq => head :: rest
    | .gt => head :: insertRule f rest

def rules (results : List FileResult) : List (String × Json) :=
  (findingsIn results).foldl (fun table f => insertRule f table) []

def log (results : List FileResult) : Json :=
  let table := rules results
  let driver : List (String × Json) :=
    [("name", .str Program.name), ("version", .str Program.version)] ++
      if table.isEmpty then [] else [("rules", .arr (table.map (·.2)))]
  .obj [("$schema",
      .str "https://raw.githubusercontent.com/oasis-tcs/sarif-spec/master/Schemata/sarif-schema-2.1.0.json"),
    ("version", .str "2.1.0"),
    ("runs", .arr [.obj [("tool", .obj [("driver", .obj driver)]),
      ("results", .arr (results.flatMap fun r => r.findings.map (result r.path)))]])]

def render (results : List FileResult) : String := (log results).pretty

end LintHub.Sarif
