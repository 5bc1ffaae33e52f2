import LintHub.Editor.Mold
import LintHub.Editor.Session
import LintHub.Json.Record

/-!
# Methods

* `Method` is a method that editors may call, with the form of what it is given; `Method.all` lists them.
* `ClientMessage.of?` is what a call of a method says. Methods that say nothing here are known but not served.
-/

namespace LintHub

structure Method where
  name : String
  /-- Whether the editor waits for an answer. -/
  asks : Bool
  /-- The form of what a call is given; without one, nothing may be given. -/
  mold : Option Mold
deriving Inhabited

namespace Method

open Mold

/-! ## Forms -/

def document : Mold := .record "TextDocumentIdentifier" true [needed "uri" .address]

def position : Mold := .record "Position" true [needed "line" .word, needed "character" .word]

def range : Mold := .record "Range" true [needed "start" position, needed "end" position]

def mark : Mold :=
  .record "Diagnostic" true [needed "range" range, optional "severity" (.nullable .signed),
    optional "code" .anything, optional "codeDescription" .anything, optional "source" (.nullable .text),
    needed "message" .text, optional "relatedInformation" .anything, optional "tags" .anything,
    optional "data" .anything]

def folder : Mold := .record "WorkspaceFolder" true [needed "uri" .address, needed "name" .text]

def abilities : Mold :=
  .record "ClientCapabilities" false [optional "workspace" (.nullable (.record "WorkspaceClientCapabilities" false
    [optional "didChangeWatchedFiles" (.nullable (.record "DidChangeWatchedFilesClientCapabilities" false
      [optional "dynamicRegistration" (.nullable .boolean)]))]))]

/-- What a conversation starts with. -/
def start : Mold :=
  .record "InitializeParams" true [optional "processId" (.nullable .word), optional "rootPath" (.nullable .text),
    optional "rootUri" (.nullable .address), optional "initializationOptions" .anything,
    needed "capabilities" abilities, optional "trace" .anything,
    optional "workspaceFolders" (.nullable (.items folder)), optional "clientInfo" .anything,
    optional "locale" (.nullable .text)]

def opened : Mold :=
  .record "TextDocumentItem" true [needed "uri" .address, needed "languageId" .text, needed "version" .signed,
    needed "text" .text]

def versioned : Mold :=
  .record "VersionedTextDocumentIdentifier" true [needed "uri" .address, needed "version" .signed]

def change : Mold :=
  .record "TextDocumentContentChangeEvent" true [optional "range" (.nullable range),
    optional "rangeLength" (.nullable .word), needed "text" .text]

def fileChange : Mold := .record "FileEvent" true [needed "uri" .address, needed "type" .signed]

/-- How a document is to be laid out. -/
def layout : Mold := .record "FormattingOptions" false [needed "tabSize" .word, needed "insertSpaces" .boolean]

/-- A method that is asked with a record of fields. -/
def asked (name form : String) (fields : List (String × Bool × Mold)) : Method :=
  ⟨name, true, some (.record form false fields)⟩

/-- A method that is told a record of fields. -/
def told (name form : String) (fields : List (String × Bool × Mold)) : Method :=
  ⟨name, false, some (.record form true fields)⟩

def ofDocument : String × Bool × Mold := needed "textDocument" document

def atPlace : String × Bool × Mold := needed "position" position

/-! ## The methods -/

def served : List Method :=
  [⟨"initialize", true, some start⟩,
    told "initialized" "InitializedParams" [],
    ⟨"shutdown", true, none⟩,
    told "textDocument/didOpen" "DidOpenTextDocumentParams" [needed "textDocument" opened],
    told "textDocument/didChange" "DidChangeTextDocumentParams"
      [needed "textDocument" versioned, needed "contentChanges" (.items change)],
    told "textDocument/didSave" "DidSaveTextDocumentParams" [ofDocument, optional "text" (.nullable .text)],
    told "textDocument/didClose" "DidCloseTextDocumentParams" [ofDocument],
    told "workspace/didChangeWatchedFiles" "DidChangeWatchedFilesParams" [needed "changes" (.items fileChange)],
    asked "textDocument/hover" "HoverParams" [ofDocument, atPlace],
    asked "textDocument/codeAction" "CodeActionParams" [ofDocument, needed "range" range,
      needed "context" (.record "CodeActionContext" true [needed "diagnostics" (.items mark),
        optional "only" (.nullable (.items .text)), optional "triggerKind" .anything])],
    asked "workspace/executeCommand" "ExecuteCommandParams"
      [needed "command" .text, optional "arguments" (.items .anything)]]

/-- Methods for a place in a document, with the names of their records. -/
def placeMethods : List (String × String) :=
  [("textDocument/declaration", "GotoDefinitionParams"), ("textDocument/definition", "GotoDefinitionParams"),
    ("textDocument/typeDefinition", "GotoDefinitionParams"), ("textDocument/implementation", "GotoDefinitionParams"),
    ("textDocument/prepareCallHierarchy", "CallHierarchyPrepareParams"),
    ("textDocument/prepareTypeHierarchy", "TypeHierarchyPrepareParams"),
    ("textDocument/documentHighlight", "DocumentHighlightParams"), ("textDocument/moniker", "MonikerParams"),
    ("textDocument/completion", "CompletionParams"), ("textDocument/signatureHelp", "SignatureHelpParams"),
    ("textDocument/prepareRename", "TextDocumentPositionParams"),
    ("textDocument/linkedEditingRange", "LinkedEditingRangeParams")]

/-- Methods for a whole document, with the names of their records. -/
def documentMethods : List (String × String) :=
  [("textDocument/documentLink", "DocumentLinkParams"), ("textDocument/codeLens", "CodeLensParams"),
    ("textDocument/foldingRange", "FoldingRangeParams"), ("textDocument/documentSymbol", "DocumentSymbolParams"),
    ("textDocument/semanticTokens/full", "SemanticTokensParams"),
    ("textDocument/documentColor", "DocumentColorParams"), ("textDocument/diagnostic", "DocumentDiagnosticParams")]

/-- Other methods that are known but not served. -/
def otherMethods : List Method :=
  [asked "textDocument/references" "ReferenceParams" [ofDocument, atPlace, needed "context"
      (.record "ReferenceContext" true [needed "includeDeclaration" .boolean])],
    asked "textDocument/rename" "RenameParams" [ofDocument, atPlace, needed "newName" .text],
    asked "textDocument/onTypeFormatting" "DocumentOnTypeFormattingParams"
      [ofDocument, atPlace, needed "ch" .text, needed "options" layout],
    asked "textDocument/selectionRange" "SelectionRangeParams" [ofDocument, needed "positions" (.items position)],
    asked "textDocument/semanticTokens/full/delta" "SemanticTokensDeltaParams"
      [ofDocument, needed "previousResultId" .text],
    asked "textDocument/semanticTokens/range" "SemanticTokensRangeParams" [ofDocument, needed "range" range],
    asked "textDocument/inlineValue" "InlineValueParams"
      [ofDocument, needed "range" range, needed "context" .anything],
    asked "textDocument/inlayHint" "InlayHintParams" [ofDocument, needed "range" range],
    asked "textDocument/colorPresentation" "ColorPresentationParams"
      [ofDocument, needed "color" .anything, needed "range" range],
    asked "textDocument/formatting" "DocumentFormattingParams" [ofDocument, needed "options" layout],
    asked "textDocument/rangeFormatting" "DocumentRangeFormattingParams"
      [ofDocument, needed "range" range, needed "options" layout],
    asked "textDocument/willSaveWaitUntil" "WillSaveTextDocumentParams" [ofDocument, needed "reason" .signed],
    asked "callHierarchy/incomingCalls" "CallHierarchyIncomingCallsParams" [needed "item" .anything],
    asked "callHierarchy/outgoingCalls" "CallHierarchyOutgoingCallsParams" [needed "item" .anything],
    asked "typeHierarchy/supertypes" "TypeHierarchySupertypesParams" [needed "item" .anything],
    asked "typeHierarchy/subtypes" "TypeHierarchySubtypesParams" [needed "item" .anything],
    asked "codeLens/resolve" "CodeLens" [needed "range" range],
    asked "documentLink/resolve" "DocumentLink" [needed "range" range],
    asked "completionItem/resolve" "CompletionItem" [needed "label" .text],
    asked "inlayHint/resolve" "InlayHint" [needed "position" position, needed "label" .anything],
    asked "codeAction/resolve" "CodeAction" [needed "title" .text],
    asked "workspaceSymbol/resolve" "WorkspaceSymbol"
      [needed "name" .text, needed "kind" .signed, needed "location" .anything],
    asked "workspace/symbol" "WorkspaceSymbolParams" [needed "query" .text],
    asked "workspace/diagnostic" "WorkspaceDiagnosticParams" [needed "previousResultIds" (.items .anything)],
    asked "workspace/willCreateFiles" "CreateFilesParams" [needed "files" (.items .anything)],
    asked "workspace/willRenameFiles" "RenameFilesParams" [needed "files" (.items .anything)],
    asked "workspace/willDeleteFiles" "DeleteFilesParams" [needed "files" (.items .anything)]]

/-- Calls without answer that have no effect. -/
def ignored : List String :=
  ["textDocument/willSave", "workspace/didChangeConfiguration", "workspace/didChangeWorkspaceFolders",
    "workspace/didCreateFiles", "workspace/didRenameFiles", "workspace/didDeleteFiles"]

def all : List Method :=
  served ++ (placeMethods.map fun (name, form) => asked name form [ofDocument, atPlace]) ++
    (documentMethods.map fun (name, form) => asked name form [ofDocument]) ++ otherMethods ++
    ignored.map fun name => ⟨name, false, some .anything⟩

def find? (name : String) : Option Method := all.find? fun m => m.name == name

/-- Why a call may not be given something. -/
def misfit? (m : Method) (params : Option Json) : Option String :=
  match m.mold, params with
  | none, none => none
  | none, some j => some ("Unexpected params: " ++ j.canonical.compact)
  | some _, none => some "Missing params field"
  | some mold, some j => mold.misfit? j

end Method

/-! ## What calls say -/

namespace ClientMessage

def urlAt? (place : Nat) (name : String) (j : Json) : Option Url :=
  ((j.field? place name).bind Json.asString?).bind Url.parse?

def natAt? (place : Nat) (name : String) (j : Json) : Option Nat := (j.field? place name).bind Json.asNat?

def intAt? (place : Nat) (name : String) (j : Json) : Option Int :=
  match j.field? place name with
  | some (.num (.whole n)) => some n
  | _ => none

def textAt? (place : Nat) (name : String) (j : Json) : Option String := (j.field? place name).bind Json.asString?

def itemsAt (place : Nat) (name : String) (j : Json) : List Json :=
  ((j.field? place name).bind Json.asArray?).getD []

def positionOf? (j : Json) : Option Position := do some ⟨← natAt? 0 "line" j, ← natAt? 1 "character" j⟩

def rangeOf? (j : Json) : Option Range := do
  some ⟨← (j.field? 0 "start").bind positionOf?, ← (j.field? 1 "end").bind positionOf?⟩

/-- Whether an editor lets the server watch files. -/
def watchesOf (j : Json) : Bool :=
  ((((((j.field? 4 "capabilities").bind (Json.get? "workspace")).bind (Json.get? "didChangeWatchedFiles")).bind
    (Json.get? "dynamicRegistration")).bind Json.asBool?).getD false)

/-- The root of the project: the first folder, or else the root itself. -/
def rootOf? (j : Json) : Option Url :=
  match itemsAt 6 "workspaceFolders" j with
  | folder :: _ => urlAt? 0 "uri" folder
  | [] => urlAt? 2 "rootUri" j

/-- What a call of a method says, whose form is right. -/
def of? (method : String) (j : Json) : Option ClientMessage :=
  let document := (j.field? 0 "textDocument").getD .null
  let url? := urlAt? 0 "uri" document
  match method with
  | "initialize" => some (.start (rootOf? j) (watchesOf j))
  | "initialized" => some .started
  | "shutdown" => some .shutdown
  | "textDocument/didOpen" => do some (.didOpen (← url?) (← intAt? 2 "version" document) (← textAt? 3 "text" document))
  | "textDocument/didChange" => do
    some (.didChange (← url?) (← intAt? 1 "version" document)
      ((itemsAt 1 "contentChanges" j).getLast?.bind (textAt? 2 "text")))
  | "textDocument/didSave" => url?.map .didSave
  | "textDocument/didClose" => url?.map .didClose
  | "workspace/didChangeWatchedFiles" => some (.filesChanged ((itemsAt 0 "changes" j).filterMap (urlAt? 0 "uri")))
  | "textDocument/hover" => do
    some (.hover (← url?) (← (j.field? 1 "position").bind positionOf?).line)
  | "textDocument/codeAction" => do
    let only := ((j.field? 2 "context").bind (Json.field? · 1 "only")).bind (Json.listOf? Json.asString?)
    some (.actions (← url?) (← (j.field? 1 "range").bind rangeOf?) only)
  | "workspace/executeCommand" => do
    let name ← textAt? 0 "command" j
    some (.execute name (EditorCommand.parse? name (itemsAt 1 "arguments" j)))
  | _ => none

end ClientMessage

end LintHub
