import LintHub.Editor.Call
import LintHub.Editor.Method
import LintHub.Program

/-!
# The server

* `Phase` is how far a conversation with an editor has come.
* `Server.take` takes a call: it answers it, or refuses it, and says what the editor is told meanwhile.

A conversation is started once, and nothing but starting it is allowed before. After it is shut down it can only be
ended, and then nothing is taken any more.
-/

namespace LintHub

inductive Phase where
  | fresh
  | running
  | shutDown
  | ended
deriving DecidableEq, Inhabited

structure Server where
  phase : Phase
  session : Session
  /-- How many calls with answer the editor was sent. -/
  asked : Nat
deriving DecidableEq, Inhabited

structure Exchange where
  /-- The answer, if the call has one. -/
  answer : Option Json
  /-- The calls that the editor is sent meanwhile. -/
  calls : List Json
deriving Inhabited

/-! ## Answers -/

/-- The name and the version of the server, and what it can do. -/
def capabilities : Json :=
  .obj [("capabilities", .obj [
      ("codeActionProvider", .obj [("codeActionKinds", .arr [.str Session.actionKind]),
        ("resolveProvider", .bool false)]),
      ("executeCommandProvider", .obj [("commands", .arr [.str EditorCommand.ignoreName, .str EditorCommand.fixName])]),
      ("hoverProvider", .bool true),
      ("textDocumentSync", .obj [("change", .nat 1), ("openClose", .bool true),
        ("save", .obj [("includeText", .bool false)])])]),
    ("serverInfo", .obj [("name", .str (Program.name ++ "-lsp")), ("version", .str Program.version)])]

/-- The result that a reply is, or why the call fails. -/
def Reply.result : Reply → Except Refusal Json
  | nothing => .ok .null
  | capabilities => .ok LintHub.capabilities
  | hover none => .ok .null
  | hover (some text) =>
    .ok (.obj [("contents", .obj [("kind", .str "markdown"), ("value", .str text)])])
  | actions none => .ok .null
  | actions (some offered) => .ok (.arr (offered.map Action.toJson))
  | refused reason => .error (.badParams reason)

/-! ## Notices -/

def NoticeLevel.number : NoticeLevel → Nat
  | error => 1
  | warning => 2
  | info => 3

def noticeText (level : NoticeLevel) (text : String) : Json :=
  .obj [("message", .str text), ("type", .nat level.number)]

/-- What the editor is asked to watch: every file that could hold settings. -/
def settingsWatchers : Json :=
  .arr (Settings.fileNames.map fun name => .obj [("globPattern", .str ("**/" ++ name))])

def watchRegistration : Json :=
  .obj [("registrations", .arr [.obj [("id", .str "yamlsentry-config-watcher"),
    ("method", .str "workspace/didChangeWatchedFiles"),
    ("registerOptions", .obj [("watchers", settingsWatchers)])]])]

/-- The call that a notice is, where so many calls with answer went before. -/
def Notice.toCall (asked : Nat) : Notice → Json
  | log level text => Call.notice "window/logMessage" (noticeText level text)
  | popUp level text => Call.notice "window/showMessage" (noticeText level text)
  | publish url marks version =>
    Call.notice "textDocument/publishDiagnostics" (.obj ([("diagnostics", .arr (marks.map Mark.toJson)),
      ("uri", .str url.text)] ++ (version.map fun v => ("version", Json.num (.whole v))).toList))
  | watchSettings => Call.question asked "client/registerCapability" watchRegistration

def Notice.isQuestion : Notice → Bool
  | watchSettings => true
  | _ => false

/-- The calls that notices are, and how many calls with answer there are then. -/
def Notice.toCalls (asked : Nat) : List Notice → List Json × Nat
  | [] => ([], asked)
  | n :: rest =>
    let (calls, total) := Notice.toCalls (if n.isQuestion then asked + 1 else asked) rest
    (n.toCall asked :: calls, total)

namespace Server

def new : Server := ⟨.fresh, .new, 0⟩

def silent : Exchange := ⟨none, []⟩

/-- A refusal, for a caller that waits. -/
def refuse (id : Option CallId) (r : Refusal) : Exchange := ⟨id.map fun i => Call.refusal i r, []⟩

/-- Carries out a call of a method whose time has come. It is passed over if the caller waits for no answer though
there is one, or waits though there is none. The truth value says whether an answer with a result was given. -/
def perform (w : Surroundings) (s : Server) (d : Disk) (m : Method) (c : Call) : (Exchange × Bool) × Server × Disk :=
  if c.id.isSome != m.asks then ((silent, false), s, d)
  else match m.misfit? c.params with
  | some reason => ((refuse c.id (.badParams reason), false), s, d)
  | none =>
    match ClientMessage.of? m.name (c.params.getD .null) with
    | none => ((refuse c.id .unserved, false), s, d)
    | some message =>
      let (reply, notices, session, d) := s.session.handle w d message
      let (calls, asked) := Notice.toCalls s.asked notices
      let s := { s with session, asked }
      match reply.result with
      | .ok result => ((⟨c.id.map fun i => Call.answer i result, calls⟩, true), s, d)
      | .error r => ((⟨c.id.map fun i => Call.refusal i r, calls⟩, false), s, d)

/-- What is wrong with the time of a call, in a phase where it is not taken. -/
def untimely : Phase → Refusal
  | .fresh => .notStarted
  | _ => .outOfTurn

def takeKnown (w : Surroundings) (s : Server) (d : Disk) (m : Method) (c : Call) : Exchange × Server × Disk :=
  if m.name = "initialize" then
    if s.phase = .fresh then
      let ((e, answered), s, d) := s.perform w d m c
      (e, if answered then { s with phase := .running } else s, d)
    else (refuse c.id .outOfTurn, s, d)
  else if s.phase = .running then
    let s := if m.name = "shutdown" then { s with phase := .shutDown } else s
    let ((e, _), s, d) := s.perform w d m c
    (e, s, d)
  else (refuse c.id (untimely s.phase), s, d)

/-- Whether a method is one that may be passed over when it is not known. -/
def isPassedOver (method : String) : Bool := "$/".toList.isPrefixOf method.toList

/-- Takes a call; nothing once the conversation has ended. -/
def take (w : Surroundings) (s : Server) (d : Disk) (c : Call) : Option Exchange × Server × Disk :=
  if s.phase = .ended then (none, s, d)
  else if c.method = "exit" then (some silent, { s with phase := .ended }, d)
  else match Method.find? c.method with
  | some m =>
    let (e, s, d) := s.takeKnown w d m c
    (some e, s, d)
  | none =>
    (some (if isPassedOver c.method then silent else refuse c.id (.unknownMethod c.method)), s, d)

end Server

end LintHub
