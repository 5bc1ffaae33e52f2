import LintHub.Checking.Error
import LintHub.Disk.Basic

/-!
# The ignore file

A line names a path, seen from the root of the project, and a rule that is not to be reported there. Other lines are
kept as they are.

* `IgnoreFile.parse` reads the lines of a text, `IgnoreFile.render` writes them.
* `IgnoreFile.entries` is the view; `IgnoreFile.add` and `IgnoreFile.remove` change one entry.
* `Tool.suppression?` is the comment that keeps a tool from reporting a rule on one line.
-/

namespace LintHub

inductive IgnoreLine where
  | entry (path rule text : String)
  /-- A comment, a blank line, or a line without a rule. -/
  | other (text : String)
deriving DecidableEq, Inhabited

namespace IgnoreLine

def text : IgnoreLine → String
  | entry _ _ t => t
  | other t => t

def pair? : IgnoreLine → Option (String × String)
  | entry path rule _ => some (path, rule)
  | other _ => none

/-- The line that a text is: an entry if it has two words and does not start with a number sign. -/
def parse (line : String) : IgnoreLine :=
  match Text.words line.toList with
  | ('#' :: _) :: _ => other line
  | path :: rule :: _ => entry (String.ofList path) (String.ofList rule) line
  | _ => other line

end IgnoreLine

structure IgnoreFile where
  file : Path
  /-- The directory from which the paths are seen. -/
  root : Path
  lines : List IgnoreLine
deriving DecidableEq, Inhabited

namespace IgnoreFile

def parse (text : String) : List IgnoreLine := (Text.stringLines text).map IgnoreLine.parse

def render (i : IgnoreFile) : String := String.join (i.lines.map fun l => l.text ++ "\n")

def entries (i : IgnoreFile) : List (String × String) := i.lines.filterMap IgnoreLine.pair?

/-- The text by which a path is named: its components from the root of the project on. -/
def keyOf (i : IgnoreFile) (path : Path) : String :=
  "/".intercalate ((Path.relativeTo i.root path).components.map Path.Component.text)

def contains (i : IgnoreFile) (path : Path) (rule : String) : Bool := i.entries.contains (i.keyOf path, rule)

def lineOf (key rule : String) : IgnoreLine := .entry key rule (key ++ " " ++ rule)

/-- Whether the rule was not yet ignored for the path, and the file in which it is. -/
def add (i : IgnoreFile) (path : Path) (rule : String) : Bool × IgnoreFile :=
  if i.contains path rule then (false, i)
  else (true, { i with lines := i.lines ++ [lineOf (i.keyOf path) rule] })

/-- Whether the rule was ignored for the path, and the file in which it is not. -/
def remove (i : IgnoreFile) (path : Path) (rule : String) : Bool × IgnoreFile :=
  let kept := i.lines.filter fun l => l.pair? != some (i.keyOf path, rule)
  (kept.length != i.lines.length, { i with lines := kept })

/-- The ignore file on the disk; an absent one has no lines. -/
def load (d : Disk) (file root : Path) : Except CheckError IgnoreFile :=
  match d.readText file with
  | .ok text => .ok ⟨file, root, parse text⟩
  | .error .notFound => .ok ⟨file, root, []⟩
  | .error e => .error (.os e)

/-- The disk with the file written, in a directory that is created if need be. -/
def save (i : IgnoreFile) (d : Disk) : Except CheckError Disk :=
  match (match i.file.parent? with
    | some dir => d.makeDirs dir
    | none => .ok d) with
  | .error e => .error (.os e)
  | .ok made =>
    match made.write i.file i.render with
    | .error e => .error (.os e)
    | .ok written => .ok written

end IgnoreFile

/-- The comment that keeps a tool from reporting a rule on a line. -/
def Tool.suppression? (t : Tool) (rule : String) : Option String :=
  match t with
  | .ansibleLint => some ("# noqa: " ++ rule)
  | .yamllint => some ("# yamllint disable-line rule:" ++ rule)
  | .preCommit => none

end LintHub
