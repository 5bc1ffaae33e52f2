import LintHub.Json.Value
import LintHub.Text.Blank
import LintHub.Text.Units

/-!
# Places in a document

* `Position` counts lines and code units from zero, `Range` is what lies between two positions.
* `Range.ofLine` is the rest of a line from a column on, `Position.endOfLine` the place after its last character.
-/

namespace LintHub

/-- A place in a document: lines and UTF-16 code units before it. -/
structure Position where
  line : Nat
  character : Nat
deriving DecidableEq, Inhabited

structure Range where
  start : Position
  finish : Position
deriving DecidableEq, Inhabited

namespace Position

def le (p q : Position) : Bool := p.line < q.line || (p.line == q.line && p.character ≤ q.character)

/-- The place after the last character of a line, counted from zero; the start of a line that is not there. -/
def endOfLine (text : String) (line : Nat) : Position :=
  ⟨line, ((Text.lines text.toList)[line]?.map Text.unitLength).getD 0⟩

def toJson (p : Position) : Json := .obj [("line", .nat p.line), ("character", .nat p.character)]

end Position

namespace Range

def empty (p : Position) : Range := ⟨p, p⟩

/-- The line of a text, both counted from one as findings do; a finding on line zero is on the first. -/
def lineOf? (line : Nat) (text : Option String) : Option (List Char) :=
  text.bind fun t => (Text.lines t.toList)[line - 1]?

/-- From a line and a column, counted from one, to the end of the line. Without the line the range is empty. -/
def ofLine (line column : Nat) (text : Option String) : Range :=
  match lineOf? line text with
  | none => empty ⟨line - 1, column - 1⟩
  | some chars => ⟨⟨line - 1, Text.unitLength (chars.take (column - 1))⟩, ⟨line - 1, Text.unitLength chars⟩⟩

/-- Whether a line, counted from zero, has a part in the range. -/
def hasLine (r : Range) (line : Nat) : Bool := r.start.line ≤ line && line ≤ r.finish.line

def toJson (r : Range) : Json := .obj [("start", r.start.toJson), ("end", r.finish.toJson)]

end Range

end LintHub
