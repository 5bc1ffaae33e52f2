import LintHub.Report.Columns

/-!
# Transcripts of hooks

A transcript has a block for each hook: a status line with dots, the hook's name, metadata, and what the hook
printed.

* `HookLine.of` tells what a line is; the first of its forms that fits counts.
* `Transcript.step` takes one line. A hook's name starts a block, free text waits for the next located error.
* `Transcript.findings` reads a whole report.
-/

namespace LintHub

inductive HookLine where
  | separator
  | hook (id : List Char)
  | metadata
  | status
  | fixing (path : List Char)
  | located (path line : List Char) (column : Option (List Char))
  | placed (path line column message : List Char)
  | filed (path message : List Char)
  | text (words : List Char)
deriving DecidableEq, Inhabited

namespace Transcript

open Columns (isInk colonNumber? place?)

def isRule (c : Char) : Bool := c == '-' || c == '=' || c == '.' || c == '*'

def afterHyphen? : List Char → Option (List Char)
  | '-' :: rest => some (Text.trimStart rest)
  | _ => none

/-- The name in a line `- hook id: name`. -/
def hookId? (s : List Char) : Option (List Char) := do
  let rest ← afterHyphen? s
  let rest ← "hook id:".toList.isPrefixOf? rest
  let (id, _) ← Text.run? isInk (Text.trimStart rest)
  some id

def metadataMarks : List String := ["files were modified by this hook", "exit code:", "duration:"]

def isMetadata (s : List Char) : Bool :=
  (afterHyphen? s).any fun rest => metadataMarks.any fun mark => mark.toList.isPrefixOf rest

/-- Whether dots, perhaps with a reason in parentheses, end the text. -/
def endsWithLeader (s : List Char) : Bool :=
  "...".toList.isSuffixOf s || (s.getLast? == some ')' && Text.occurs "...(".toList s.dropLast)

/-- Whether a line is the status of a hook: dots, perhaps a reason, and the outcome. -/
def isStatus (s : List Char) : Bool :=
  ["Passed", "Failed", "Skipped"].any fun word => (Text.dropEnd? word.toList s).any endsWithLeader

/-- The path in a line `Fixing path`. -/
def fixing? (s : List Char) : Option (List Char) := do
  let rest ← "Fixing".toList.isPrefixOf? s
  match rest with
  | c :: _ =>
    if Text.isBlank c then
      match Text.trimStart rest with
      | [] => none
      | path => some path
    else none
  | [] => none

/-- The place in a line `in "path", line 1, column 2`. -/
def located? (s : List Char) : Option HookLine := do
  let rest ← "in \"".toList.isPrefixOf? s
  let (path, rest) ← Text.run? (· != '"') rest
  let rest ← "\", line ".toList.isPrefixOf? rest
  let (line, rest) ← Text.run? Text.isDigit rest
  let column := do
    let rest ← ", column ".toList.isPrefixOf? rest
    let (column, _) ← Text.run? Text.isDigit rest
    some column
  some (.located path line column)

def colonMessage? : List Char → Option (List Char)
  | ':' :: c :: rest => some (Text.trimStart (c :: rest))
  | _ => none

def placeMessage? (s : List Char) : Option ((List Char × List Char) × List Char) := do
  let (place, rest) ← place? s
  let message ← colonMessage? rest
  some (place, message)

/-- A line `path:line:column: message`. -/
def placed? (s : List Char) : Option HookLine :=
  (Text.shortestHead isInk placeMessage? s).map fun (path, (line, column), message) =>
    .placed path line column message

def extensions : List String := [".yaml", ".yml", ".json", ".toml", ".j2", ".jinja2", ".cfg", ".ini", ".md", ".py",
  ".sh", ".txt"]

def extensionMessage? (s : List Char) : Option (List Char × List Char) :=
  extensions.findSome? fun extension => do
    let rest ← extension.toList.isPrefixOf? s
    let message ← colonMessage? rest
    some (extension.toList, message)

/-- A line `path.extension: message`. -/
def filed? (s : List Char) : Option HookLine :=
  (Text.shortestHead isInk extensionMessage? s).map fun (stem, extension, message) =>
    .filed (stem ++ extension) message

end Transcript

def HookLine.of (line : List Char) : HookLine :=
  if !line.isEmpty && line.all Transcript.isRule then separator
  else match Transcript.hookId? line with
    | some id => hook id
    | none =>
      if Transcript.isMetadata line then metadata
      else if Transcript.isStatus line then status
      else match Transcript.fixing? line with
        | some path => fixing path
        | none => ((Transcript.located? line).or ((Transcript.placed? line).or (Transcript.filed? line))).getD
            (text line)

namespace Transcript

def fixingMessage (hook : Option (List Char)) : String :=
  match hook.map String.ofList with
  | some "trailing-whitespace" => "Trailing whitespace removed"
  | some "end-of-file-fixer" => "Newline appended at end of file"
  | some "mixed-line-ending" => "Line endings normalized"
  | _ => "File modified by hook"

/-- The block that is being read: the hook, and the free text since the last finding that took it. -/
structure Block where
  hook : Option (List Char)
  context : List (List Char)
deriving DecidableEq, Inhabited

def Block.start : Block := ⟨none, []⟩

def Block.rule (b : Block) : String := (b.hook.map String.ofList).getD Rule.unknown

/-- The message of a located error: the free text before it. -/
def Block.message (b : Block) : String :=
  if b.context.isEmpty then "YAML syntax error" else String.ofList (b.context.intersperse [' ']).flatten

/-- Takes one line: the block after it, and the finding it brings. -/
def step (root : Path) (tool : Tool) (block : Block) : HookLine → Block × Option Finding
  | .separator => (block, none)
  | .hook id => (⟨some id, []⟩, none)
  | .metadata => (block, none)
  | .status => ({ block with context := [] }, none)
  | .fixing path =>
    (block, some { (Finding.new (root.resolveNormal (String.ofList path)) block.rule (fixingMessage block.hook)
      tool).ranked .info with fixable := block.hook.isSome })
  | .located path line column =>
    ({ block with context := [] },
      some (((Finding.new (root.resolveNormal (String.ofList path)) block.rule block.message tool).placed
        (Text.position line) (column.elim 1 Text.position)).ranked .error))
  | .placed path line column message =>
    (block, some (((Finding.new (root.resolveNormal (String.ofList path)) block.rule (String.ofList message)
      tool).placed (Text.position line) (Text.position column)).ranked .warning))
  | .filed path message =>
    (block, some ((Finding.new (root.resolveNormal (String.ofList path)) block.rule (String.ofList message)
      tool).ranked .warning))
  | .text words => ({ block with context := block.context ++ [words] }, none)

def findingsFrom (root : Path) (tool : Tool) : Block → List HookLine → List Finding
  | _, [] => []
  | block, line :: rest =>
    let (next, found) := step root tool block line
    found.toList ++ findingsFrom root tool next rest

def findings (root : Path) (tool : Tool) (s : List Char) : List Finding :=
  findingsFrom root tool .start ((Columns.inkLines s).map HookLine.of)

end Transcript

end LintHub
