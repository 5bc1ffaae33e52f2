import LintHub.Checking.Checker
import LintHub.Editor.Action
import LintHub.Settings.Discovery

/-!
# Editor sessions

* `Session` is what is known of an editor's documents, and the checker of its project.
* `ClientMessage` is what an editor says, `Reply` the answer to it, `Notice` what it is told unasked.
* `Session.handle` takes one message to its end.

Tools read files from the disk, so that only opening and saving a document checks it. Changes are kept so that marks
stand at the right places.
-/

namespace LintHub

structure Surroundings where
  host : Host
  locator : Locator
  /-- Seconds since the epoch. -/
  now : UInt64

structure OpenDocument where
  text : String
  version : Int
deriving DecidableEq, Inhabited

structure Session where
  documents : List (Url × OpenDocument)
  /-- The findings last published for each document. -/
  stored : List (Url × List Finding)
  checker : Option Checker
  root : Option Path
  /-- Whether the editor lets the server watch files. -/
  watches : Bool
deriving DecidableEq, Inhabited

inductive ClientMessage where
  | start (root : Option Url) (watches : Bool)
  | started
  | shutdown
  | didOpen (url : Url) (version : Int) (text : String)
  /-- The text after the last change, if there was one. -/
  | didChange (url : Url) (version : Int) (text : Option String)
  | didSave (url : Url)
  | didClose (url : Url)
  | filesChanged (urls : List Url)
  | hover (url : Url) (line : Nat)
  /-- The kinds of actions wanted; without them, all. -/
  | actions (url : Url) (range : Range) (only : Option (List String))
  /-- A command by its name, if it is one. -/
  | execute (name : String) (command : Option EditorCommand)
deriving Inhabited

inductive Reply where
  | nothing
  | capabilities
  | hover (markdown : Option String)
  | actions (offered : Option (List Action))
  | refused (reason : String)
deriving DecidableEq, Inhabited

inductive NoticeLevel where
  | error
  | warning
  | info
deriving DecidableEq, Inhabited

inductive Notice where
  | log (level : NoticeLevel) (text : String)
  | popUp (level : NoticeLevel) (text : String)
  /-- The marks of a document, and the version of the text that they are for. -/
  | publish (url : Url) (marks : List Mark) (version : Option Int)
  | watchSettings
deriving DecidableEq, Inhabited

namespace Session

def new : Session := ⟨[], [], none, none, false⟩

/-- The pairs with a value for a document, in place of its old one. -/
def replace {α : Type} (url : Url) (a : α) (pairs : List (Url × α)) : List (Url × α) :=
  match pairs with
  | [] => [(url, a)]
  | pair :: rest => if pair.1 = url then (url, a) :: rest else pair :: replace url a rest

def without {α : Type} (url : Url) (pairs : List (Url × α)) : List (Url × α) := pairs.filter fun p => p.1 != url

def textOf? (s : Session) (url : Url) : Option String := (s.documents.lookup url).map OpenDocument.text

/-- The findings last published for a document. -/
def findingsOf (s : Session) (url : Url) : List Finding := (s.stored.lookup url).getD []

/-! ## Checking documents -/

/-- What is told about a result: the tools that failed, and the marks. -/
def notices (url : Url) (version : Option Int) (failures : List ToolFailure) (marks : List Mark) : List Notice :=
  (failures.map fun f => .log .warning (f.tool.id ++ ": " ++ f.message)) ++ [.publish url marks version]

/-- The findings of a result that are about its own file. Tools may report others, such as those that it includes. -/
def ownFindings (r : FileResult) : List Finding := r.findings.filter fun f => f.file.same r.path

/-- Checks the file of a document and publishes what is found. Nothing is told if that cannot be done. -/
def validate (w : Surroundings) (s : Session) (d : Disk) (url : Url) (version : Option Int) :
    List Notice × Session × Disk :=
  match url.filePath?, s.checker with
  | some path, some checker =>
    match checker.checkFile w.host w.now d path with
    | (.error _, checker, d) => ([], { s with checker := some checker }, d)
    | (.ok result, checker, d) =>
      let d := (checker.saveCache d).toOption.getD d
      let found := ownFindings result
      let marks := found.map fun f => Mark.of f (s.textOf? url)
      (notices url version result.failures marks,
        { s with checker := some checker, stored := replace url found s.stored }, d)
  | _, _ => ([], s, d)

def validateAll (w : Surroundings) (s : Session) (d : Disk) : List Url → List Notice × Session × Disk
  | [] => ([], s, d)
  | url :: rest =>
    let (first, s, d) := s.validate w d url none
    let (more, s, d) := validateAll w s d rest
    (first ++ more, s, d)

/-! ## Settings -/

/-- The session with a checker for its root. Settings that cannot be read leave it without one, so that nothing is
checked until they are mended. -/
def reload (w : Surroundings) (s : Session) (d : Disk) : Session :=
  match s.root with
  | none => s
  | some root =>
    { s with checker := (Settings.loadFor d root).toOption.map fun settings => .new settings root w.locator d }

def namesSettings (url : Url) : Bool :=
  Settings.fileNames.any fun name => name.toList.isSuffixOf url.pathText.toList

/-! ## Commands -/

/-- Carries out a command; an error text if it fails. -/
def perform (w : Surroundings) (s : Session) (d : Disk) (c : EditorCommand) : Except String Unit × Session × Disk :=
  match s.checker, c.url.filePath? with
  | none, _ => (.error "No workspace configuration loaded", s, d)
  | some _, none => (.error ("Not a file: " ++ c.url.text), s, d)
  | some checker, some path =>
    match c with
    | .ignoreRule _ rule =>
      match checker.ignoreFile d with
      | .error e => (.error e.message, s, d)
      | .ok ignored =>
        match ignored.add path rule with
        | (false, _) => (.ok (), s, d)
        | (true, ignored) =>
          match ignored.save d with
          | .error e => (.error e.message, s, d)
          | .ok d => (.ok (), { s with checker := some (checker.invalidate path) }, d)
    | .fix _ tool =>
      match checker.fixFile w.host w.now d path tool with
      | (.error e, checker, d) => (.error e.message, { s with checker := some checker }, d)
      | (.ok _, checker, d) => (.ok (), { s with checker := some checker }, d)

/-- Carries out a command and checks its document again, or tells why it failed. -/
def execute (w : Surroundings) (s : Session) (d : Disk) (c : EditorCommand) : List Notice × Session × Disk :=
  match s.perform w d c with
  | (.error text, s, d) => ([.popUp .error text], s, d)
  | (.ok _, s, d) => s.validate w d c.url none

/-! ## Messages -/

def greeting : String := "yamlsentry LSP server initialized!"

def actionKind : String := "quickfix"

def withDocument (s : Session) (url : Url) (version : Int) (text : String) : Session :=
  { s with documents := replace url ⟨text, version⟩ s.documents }

def handle (w : Surroundings) (s : Session) (d : Disk) : ClientMessage → Reply × List Notice × Session × Disk
  | .start root watches =>
    let s := { s with watches }
    match root.bind Url.filePath? with
    | none => (.capabilities, [], s, d)
    | some path => (.capabilities, [], { s with root := some path }.reload w d, d)
  | .started =>
    (.nothing, .log .info greeting :: (if s.watches then [.watchSettings] else []), s, d)
  | .shutdown =>
    let saved := s.checker.bind fun checker => (checker.saveCache d).toOption
    (.nothing, [], s, saved.getD d)
  | .didOpen url version text => (.nothing, (s.withDocument url version text).validate w d url (some version))
  | .didChange url version text =>
    match text with
    | none => (.nothing, [], s, d)
    | some text => (.nothing, [], s.withDocument url version text, d)
  | .didSave url => (.nothing, s.validate w d url ((s.documents.lookup url).map OpenDocument.version))
  | .didClose url =>
    (.nothing, [.publish url [] none],
      { s with documents := without url s.documents, stored := without url s.stored }, d)
  | .filesChanged urls =>
    if urls.any namesSettings then
      let s := s.reload w d
      (.nothing, s.validateAll w d (s.documents.map (·.1)))
    else (.nothing, [], s, d)
  | .hover url line => (.hover (Finding.hover? (s.findingsOf url) line), [], s, d)
  | .actions url range only =>
    if only.all fun kinds => kinds.contains actionKind then
      (.actions (some (Action.offered url (s.textOf? url) (s.findingsOf url) range)), [], s, d)
    else (.actions none, [], s, d)
  | .execute name none => (.refused ("Unsupported command or arguments: " ++ name), [], s, d)
  | .execute _ (some c) => (.nothing, s.execute w d c)

end Session

end LintHub
