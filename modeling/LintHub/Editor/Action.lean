import LintHub.Editor.Mark
import LintHub.IgnoreFile

/-!
# Actions

* `EditorCommand` is what an editor may ask for: to ignore a rule in a file, or to let a tool mend it.
* `Action.offered` lists what an editor offers for the findings on some lines.
-/

namespace LintHub

inductive EditorCommand where
  | ignoreRule (url : Url) (rule : String)
  | fix (url : Url) (tool : Tool)
deriving DecidableEq, Inhabited

namespace EditorCommand

def ignoreName : String := "yamlsentry.ignoreRule"

def fixName : String := "yamlsentry.fix"

def url : EditorCommand → Url
  | ignoreRule u _ => u
  | fix u _ => u

def name : EditorCommand → String
  | ignoreRule .. => ignoreName
  | fix .. => fixName

def argument : EditorCommand → String
  | ignoreRule _ rule => rule
  | fix _ tool => tool.id

/-- The command of a name and arguments: an address, and a rule or a tool. -/
def parse? (name : String) (args : List Json) : Option EditorCommand :=
  match args with
  | [.str address, .str second] =>
    match Url.parse? address with
    | none => none
    | some u =>
      if name = ignoreName then some (.ignoreRule u second)
      else if name = fixName then (Tool.ofText? second).map (.fix u)
      else none
  | _ => none

def args (c : EditorCommand) : List Json := [.str c.url.text, .str c.argument]

def toJson (c : EditorCommand) (title : String) : Json :=
  .obj [("title", .str title), ("command", .str c.name), ("arguments", .arr c.args)]

end EditorCommand

inductive Deed where
  /-- Inserts a text into a document. -/
  | insert (url : Url) (place : Position) (text : String)
  | command (c : EditorCommand)
deriving DecidableEq, Inhabited

structure Action where
  title : String
  mark : Mark
  deed : Deed
deriving DecidableEq, Inhabited

namespace Action

/-- Puts the comment that suppresses a finding at the end of its line. -/
def suppress? (url : Url) (text : Option String) (f : Finding) : Option Action := do
  let t ← text
  let comment ← f.tool.suppression? f.rule
  some ⟨"Suppress \x60" ++ f.rule ++ "\x60 on this line", .of f text,
    .insert url (.endOfLine t f.row) ("  " ++ comment)⟩

/-- Ignores the rule of a finding in the whole file, if its tool reads an ignore file. -/
def ignore? (url : Url) (text : Option String) (f : Finding) : Option Action :=
  if f.tool = .ansibleLint then
    some ⟨"Add \x60" ++ f.rule ++ "\x60 to ignore file", .of f text, .command (.ignoreRule url f.rule)⟩
  else none

/-- Lets the tool of a finding mend the file. One of the tools cannot. -/
def fix? (url : Url) (text : Option String) (f : Finding) : Option Action :=
  if f.fixable && f.tool != .yamllint then
    some ⟨"Fix with " ++ f.tool.displayName, .of f text, .command (.fix url f.tool)⟩
  else none

/-- The actions for findings; a tool is offered for mending only once. -/
def offeredFrom (url : Url) (text : Option String) : List Tool → List Finding → List Action
  | _, [] => []
  | offered, f :: rest =>
    let fix := if offered.contains f.tool then none else fix? url text f
    (suppress? url text f).toList ++ (ignore? url text f).toList ++ fix.toList ++
      offeredFrom url text (if fix.isSome then f.tool :: offered else offered) rest

def offered (url : Url) (text : Option String) (fs : List Finding) (range : Range) : List Action :=
  offeredFrom url text [] (fs.filter fun f => range.hasLine f.row)

def toJson (a : Action) : Json :=
  .obj ([("title", .str a.title), ("kind", .str "quickfix"), ("diagnostics", .arr [a.mark.toJson])] ++
    match a.deed with
    | .insert url place text =>
      [("edit", .obj [("changes", .obj [(url.text, .arr [.obj [("range", (Range.empty place).toJson),
        ("newText", .str text)]])])])]
    | .command c => [("command", c.toJson a.title)])

end Action

end LintHub
