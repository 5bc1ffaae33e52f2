import LintHub.Editor.Range
import LintHub.Finding
import LintHub.Url.Reading

/-!
# Marks

* `Mark` is a finding as an editor shows it.
* `Mark.of` places a finding in the text of a document.
* `Finding.hover?` is what the editor says of a line.
-/

namespace LintHub

/-- The line of a finding, counted from zero. -/
def Finding.row (f : Finding) : Nat := f.line.toNat - 1

structure Mark where
  range : Range
  severity : Severity
  rule : String
  page : Option Url
  tool : Tool
  message : String
  fixable : Bool
deriving DecidableEq, Inhabited

namespace Mark

/-- The mark of a finding in a document, whose text is known while it is open. A page whose address is malformed is
left out. -/
def of (f : Finding) (text : Option String) : Mark where
  range := .ofLine f.line.toNat f.column.toNat text
  severity := f.severity
  rule := f.rule
  page := f.page.bind Url.parse?
  tool := f.tool
  message := f.message
  fixable := f.fixable

def severityNumber : Severity → Nat
  | .error => 1
  | .warning => 2
  | .info => 3

def toJson (m : Mark) : Json :=
  .obj ([("range", m.range.toJson), ("severity", .nat (severityNumber m.severity)), ("code", .str m.rule)] ++
    (match m.page with
    | some u => [("codeDescription", .obj [("href", .str u.text)])]
    | none => []) ++
    [("source", .str m.tool.id), ("message", .str m.message),
      ("data", .obj [("fixable", .bool m.fixable), ("rule", .str m.rule), ("source", .str m.tool.id)])])

end Mark

/-! ## Hovering -/

def Finding.hoverText (f : Finding) : String :=
  "**" ++ f.rule ++ "** (" ++ f.tool.id ++ ")\n\n" ++ f.explanation.getD f.message ++
    match f.page with
    | some page => "\n\n[Documentation](" ++ page ++ ")"
    | none => ""

/-- What is said of the findings on a line, counted from zero. -/
def Finding.hover? (fs : List Finding) (line : Nat) : Option String :=
  match fs.filter fun f => f.row == line with
  | [] => none
  | found => some ("\n\n---\n\n".intercalate (found.map Finding.hoverText))

end LintHub
