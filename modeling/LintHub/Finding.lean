import LintHub.Path.Basic
import LintHub.Rule
import LintHub.Severity

/-!
# Findings

A finding is what a linter says about a place in a file.

* `Finding.new` fills in what follows from the rule.
* `Finding.compare` is the order of reports: file, place, tool, rule, message, then the rest.
* `Finding.same` is equality up to the spelling of the file's path.
-/

namespace LintHub

/-- What a linter says about a place in a file. Lines and columns count from one. -/
structure Finding where
  file : Path
  line : UInt32
  column : UInt32
  tool : Tool
  rule : String
  message : String
  severity : Severity
  fixable : Bool
  /-- The message with the rule's hint. -/
  explanation : Option String
  /-- The address of the rule's documentation. -/
  page : Option String
  /-- The group under which it is shown. -/
  group : Option String
deriving DecidableEq, Inhabited

namespace Finding

/-- A text without outer blanks, or the word for one that is missing. -/
def nonempty (s : String) : String :=
  let t := Text.trimmed s
  if t = "" then Rule.unknown else t

/-- A warning at the start of a file, with all that follows from its rule. -/
def new (file : Path) (rule message : String) (tool : Tool) : Finding :=
  let rule := nonempty rule
  let message := nonempty message
  { file, line := 1, column := 1, tool, rule, message, severity := .warning
    fixable := Rule.fixable rule
    explanation := (Rule.hint? rule).map (Rule.withHint message)
    page := Rule.page? rule tool
    group := none }

/-- The first line or column stands for number zero. -/
def fromOne (n : UInt32) : UInt32 := if n = 0 then 1 else n

def placed (f : Finding) (line column : UInt32) : Finding := { f with line := fromOne line, column := fromOne column }

def onLine (f : Finding) (line : UInt32) : Finding := { f with line := fromOne line }

def ranked (f : Finding) (severity : Severity) : Finding := { f with severity }

def isError (f : Finding) : Bool := f.severity == .error

/-! ## Order -/

/-- An absent value comes before every present one. -/
def orderOption : Option String → Option String → Ordering
  | none, none => .eq
  | none, some _ => .lt
  | some _, none => .gt
  | some a, some b => Ord.compare a b

def compare (a b : Finding) : Ordering :=
  (a.file.compare b.file).then <|
  (Ord.compare a.line b.line).then <|
  (Ord.compare a.column b.column).then <|
  (Ord.compare a.tool.rank b.tool.rank).then <|
  (Ord.compare a.rule b.rule).then <|
  (Ord.compare a.message b.message).then <|
  (Ord.compare a.severity.rank b.severity.rank).then <|
  (Ord.compare a.fixable b.fixable).then <|
  (orderOption a.explanation b.explanation).then <|
  (orderOption a.page b.page).then <|
  orderOption a.group b.group

/-- Equality up to the spelling of the file's path. -/
def same (a b : Finding) : Bool := a.file.same b.file && { a with file := b.file } == b

end Finding

end LintHub
