import LintHub.Finding
import LintHub.Path.Normal
import LintHub.Text.Digit
import LintHub.Text.Numeral
import LintHub.Text.Word

/-!
# Reports in columns

* `ColumnLine.of` tells what a line is: an entry `path:line:column: [rule] message`, a header
  `rule[type]: message (warning)`, a location `path:line[:column] text`, or something else.
* `Columns.step` takes one line: an entry is a finding, a header waits for the next location.
* `Columns.findings` reads a whole report. Lines that are nothing known are dropped.
-/

namespace LintHub

inductive ColumnLine where
  | entry (path line column token message : List Char)
  | header (rule message : List Char)
  | location (path line : List Char) (column : Option (List Char)) (rest : List Char)
  | other
deriving DecidableEq, Inhabited

namespace Columns

def anyChar (_ : Char) : Bool := true

def isInk (c : Char) : Bool := !Text.isBlank c

def isRuleChar (c : Char) : Bool := Text.isWord c || c == '.' || c == '-'

/-- A character of a rule's name with its subtype. -/
def isTypedRuleChar (c : Char) : Bool := isRuleChar c || c == '[' || c == ']'

/-! ## Places -/

def colonNumber? : List Char → Option (List Char × List Char)
  | ':' :: rest => Text.run? Text.isDigit rest
  | _ => none

/-- A line and a column with a colon before each. -/
def place? (s : List Char) : Option ((List Char × List Char) × List Char) := do
  let (line, rest) ← colonNumber? s
  let (column, rest) ← colonNumber? rest
  some ((line, column), rest)

/-! ## Entries -/

/-- The message after a token's closing bracket, which a blank must follow. -/
def afterToken? : List Char → Option (List Char)
  | ']' :: c :: rest => if Text.isBlank c then some (Text.trimStart rest) else none
  | _ => none

/-- The token in brackets and the message, after the place and its colon. -/
def tokenMessage? : List Char → Option (List Char × List Char)
  | ':' :: rest =>
    match Text.trimStart rest with
    | '[' :: rest => Text.shortestHead anyChar afterToken? rest
    | _ => none
  | _ => none

def afterPath? (s : List Char) : Option ((List Char × List Char) × List Char × List Char) := do
  let (place, rest) ← place? s
  let found ← tokenMessage? rest
  some (place, found)

/-- An entry. The path is the shortest that a place, a token and a message follow. -/
def entry? (s : List Char) : Option ColumnLine :=
  (Text.shortestHead anyChar afterPath? s).map fun (path, (line, column), token, message) =>
    .entry path line column token message

/-! ## Headers and locations -/

/-- A rule's name with an optional subtype in brackets. -/
def typedRule? (s : List Char) : Option (List Char × List Char) :=
  match Text.run? isRuleChar s with
  | none => none
  | some (name, '[' :: rest) =>
    match Text.run? isRuleChar rest with
    | some (type, ']' :: rest) => some (name ++ '[' :: type ++ [']'], rest)
    | _ => none
  | some found => some found

/-- The message of a header, from what stands between the rule's colon and the level at the end: blanks at both
ends, and something between them. -/
def headerMessage? (s : List Char) : Option (List Char) :=
  match s.head?, s.getLast? with
  | some first, some last =>
    if Text.isBlank first && Text.isBlank last && 3 ≤ s.length then some (Text.trim s) else none
  | _, _ => none

/-- A header: a rule, a message and a level in parentheses. -/
def header? (s : List Char) : Option ColumnLine :=
  match typedRule? s with
  | some (rule, ':' :: rest) =>
    match (Text.dropEnd? "(warning)".toList rest).or (Text.dropEnd? "(error)".toList rest) with
    | some inner => (headerMessage? inner).map (.header rule)
    | none => none
  | _ => none

/-- The end of a location: an optional colon, then nothing, or a blank and a text. -/
def locationEnd? (s : List Char) : Option (List Char) :=
  let s := match s with
    | ':' :: rest => rest
    | _ => s
  match s with
  | [] => some []
  | c :: rest => if Text.isBlank c then some (Text.trimStart rest) else none

/-- What follows the path of a location: a line, perhaps a column, and the end. -/
def afterLocation? (s : List Char) : Option (List Char × Option (List Char) × List Char) := do
  let (line, rest) ← colonNumber? s
  match colonNumber? rest with
  | some (column, rest) => (locationEnd? rest).map fun text => (line, some column, text)
  | none => (locationEnd? rest).map fun text => (line, none, text)

/-- A location. The path is the shortest without blanks that a line and an end follow. -/
def location? (s : List Char) : Option ColumnLine :=
  (Text.shortestHead isInk afterLocation? s).map fun (path, line, column, rest) => .location path line column rest

/-! ## Findings -/

/-- A message that ends with a rule in parentheses, and the rule. -/
def trailingRule? (message : List Char) : Option (List Char × List Char) :=
  match message.reverse with
  | ')' :: back =>
    match Text.run? isTypedRuleChar back with
    | some (rule, '(' :: front) => some (Text.trimEnd front.reverse, rule.reverse)
    | _ => none
  | _ => none

/-- The finding of an entry. A level in place of the rule gives the severity, and the rule stands at the end of the
message. -/
def entryFinding (root : Path) (tool : Tool) (path line column token message : List Char) : Finding :=
  let token := Text.trim token
  let message := Text.trim message
  let level := String.ofList (Text.lowerAscii token)
  let file := root.resolve (String.ofList path)
  match if level = "error" ∨ level = "warning" then trailingRule? message else none with
  | some (text, rule) =>
    ((Finding.new file (String.ofList rule) (String.ofList text) tool).placed
      (Text.position line) (Text.position column)).ranked (.ofWord level)
  | none =>
    ((Finding.new file (String.ofList token) (String.ofList message) tool).placed
      (Text.position line) (Text.position column)).ranked .warning

def joinMessage (message rest : List Char) : List Char :=
  let rest := Text.trim rest
  if rest.isEmpty then message else message ++ ':' :: ' ' :: rest

def locationFinding (root : Path) (tool : Tool) (rule message path line : List Char) (column : Option (List Char))
    (rest : List Char) : Finding :=
  ((Finding.new (root.resolve (String.ofList path)) (String.ofList rule) (String.ofList (joinMessage message rest))
    tool).placed (Text.position line) (column.elim 1 Text.position)).ranked .warning

end Columns

/-- What a line without outer blanks is. An entry comes before a header, and a header before a location. -/
def ColumnLine.of (line : List Char) : ColumnLine :=
  ((Columns.entry? line).or ((Columns.header? line).or (Columns.location? line))).getD .other

namespace Columns

/-- A header that waits for its location: the rule and the message. -/
abbrev Pending := Option (List Char × List Char)

/-- Takes one line: the header that waits after it, and the finding it brings. -/
def step (root : Path) (tool : Tool) (pending : Pending) : ColumnLine → Pending × Option Finding
  | .entry path line column token message =>
    (pending, some (entryFinding root tool path line column token message))
  | .header rule message => (some (rule, message), none)
  | .location path line column rest =>
    match pending with
    | some (rule, message) => (none, some (locationFinding root tool rule message path line column rest))
    | none => (none, none)
  | .other => (pending, none)

def findingsFrom (root : Path) (tool : Tool) : Pending → List ColumnLine → List Finding
  | _, [] => []
  | pending, line :: rest =>
    let (next, found) := step root tool pending line
    found.toList ++ findingsFrom root tool next rest

/-- The lines of a report that are not blank, without outer blanks. -/
def inkLines (s : List Char) : List (List Char) := ((Text.lines s).map Text.trim).filter fun line => !line.isEmpty

def findings (root : Path) (tool : Tool) (s : List Char) : List Finding :=
  findingsFrom root tool none ((inkLines s).map ColumnLine.of)

end Columns

end LintHub
