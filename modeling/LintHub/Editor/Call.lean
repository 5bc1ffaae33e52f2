import LintHub.Json.Record

/-!
# Calls

An editor and its server call each other with JSON objects.

* `Call` names a method and what it is given; the caller waits for an answer if there is an identifier.
* `Refusal` is why a call fails.
* `Call.answer` and `Call.refusal` are the two kinds of answers, `Call.notice` is a call without answer.
-/

namespace LintHub

/-- What an answer is matched with its call by. -/
inductive CallId where
  | number (n : Int)
  | text (s : String)
  | null
deriving DecidableEq, Inhabited

def CallId.toJson : CallId → Json
  | number n => .num (.whole n)
  | text s => .str s
  | null => .null

/-- The identifier that a value is: a number has at most 64 bits with its sign. -/
def CallId.ofJson? : Json → Option CallId
  | .num (.whole n) => if n < 0x8000000000000000 then some (.number n) else none
  | .str s => some (.text s)
  | .null => some .null
  | _ => none

structure Call where
  method : String
  params : Option Json
  id : Option CallId
deriving Inhabited

inductive Refusal where
  /-- The conversation has not been started. -/
  | notStarted
  /-- The call comes at the wrong time. -/
  | outOfTurn
  | unserved
  | unknownMethod (name : String)
  | badParams (reason : String)
  | notJson
deriving DecidableEq, Inhabited

namespace Refusal

def code : Refusal → Int
  | notStarted => -32002
  | outOfTurn => -32600
  | unserved => -32601
  | unknownMethod _ => -32601
  | badParams _ => -32602
  | notJson => -32700

def message : Refusal → String
  | notStarted => "Server not initialized"
  | outOfTurn => "Invalid request"
  | unserved => "Method not found"
  | unknownMethod _ => "Method not found"
  | badParams reason => reason
  | notJson => "Parse error"

def toJson (r : Refusal) : Json :=
  .obj ([("code", .num (.whole r.code)), ("message", .str r.message)] ++
    match r with
    | unknownMethod name => [("data", .str name)]
    | _ => [])

end Refusal

namespace Call

def version : String × Json := ("jsonrpc", .str "2.0")

/-- The call that an object is. The version is not looked at. -/
def ofJson? (j : Json) : Option Call :=
  match j with
  | .obj _ => do
    let method ← match j.get? "method" with
      | none => some ""
      | some m => m.asString?
    let id ← match j.get? "id" with
      | none => some none
      | some i => (CallId.ofJson? i).map some
    some ⟨method, j.get? "params", id⟩
  | _ => none

def answer (id : CallId) (result : Json) : Json := .obj [version, ("result", result), ("id", id.toJson)]

def refusal (id : CallId) (r : Refusal) : Json := .obj [version, ("error", r.toJson), ("id", id.toJson)]

/-- A call without answer. -/
def notice (method : String) (params : Json) : Json :=
  .obj [version, ("method", .str method), ("params", params)]

/-- A call with answer. -/
def question (id : Nat) (method : String) (params : Json) : Json :=
  .obj [version, ("method", .str method), ("params", params), ("id", .nat id)]

end Call

end LintHub
