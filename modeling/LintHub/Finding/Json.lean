import LintHub.Finding
import LintHub.Json.Reader
import LintHub.Json.Record

/-!
# Findings in JSON

* `Finding.toJson` writes a finding with its fields in order; absent texts are left out.
* `Finding.ofJson?` reads one, `Finding.shape` says which of its fields count.
* `RuleInfo.toJson` writes what is known about a rule.
-/

namespace LintHub

def Finding.fieldNames : List String := ["file", "line", "column", "source", "rule", "message", "severity", "fixable",
  "detailed_explanation", "documentation_url", "check_group"]

/-- The fields that count when a finding is read. -/
def Finding.shape : Json.Shape := .record (Finding.fieldNames.map fun name => (name, .whole))

def Finding.toJson (f : Finding) : Json :=
  .obj ([("file", .str f.file.text), ("line", .nat f.line.toNat), ("column", .nat f.column.toNat),
    ("source", .str f.tool.id), ("rule", .str f.rule), ("message", .str f.message),
    ("severity", .str f.severity.name), ("fixable", .bool f.fixable)] ++
    Json.fieldOf "detailed_explanation" f.explanation ++ Json.fieldOf "documentation_url" f.page ++
    Json.fieldOf "check_group" f.group)

/-- The finding that an object or an array of fields holds. -/
def Finding.ofJson? (j : Json) : Option Finding :=
  if !j.isRecord Finding.fieldNames.length then none
  else do
    let file ← (← j.field? 0 "file").asString?
    let line ← (← j.field? 1 "line").word?
    let column ← (← j.field? 2 "column").word?
    let tool ← (← j.field? 3 "source").choice? Tool.ofId?
    let rule ← (← j.field? 4 "rule").asString?
    let message ← (← j.field? 5 "message").asString?
    let severity ← Json.optional? (Json.choice? Severity.ofName?) .warning (j.field? 6 "severity")
    let fixable ← Json.optional? Json.asBool? false (j.field? 7 "fixable")
    let explanation ← Json.nullable? Json.asString? (j.field? 8 "detailed_explanation")
    let page ← Json.nullable? Json.asString? (j.field? 9 "documentation_url")
    let group ← Json.nullable? Json.asString? (j.field? 10 "check_group")
    some { file := ⟨file⟩, line, column, tool, rule, message, severity, fixable, explanation, page, group }

def Finding.parse? (s : String) : Option Finding := (Json.parseAs? Finding.shape s).bind Finding.ofJson?

def RuleInfo.toJson (i : RuleInfo) : Json :=
  .obj ([("rule", .str i.rule), ("source", .str i.tool.id), ("fixable", .bool i.fixable)] ++
    Json.fieldOf "hint" i.hint ++ Json.fieldOf "documentation_url" i.page)

end LintHub
