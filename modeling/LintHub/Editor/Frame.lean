import LintHub.Editor.Server
import LintHub.Json.Reader

/-!
# Frames

On a stream, each call and answer is framed: a header tells its length in bytes, and a blank line follows.

* `Frame.render` frames a value, `Frame.split?` cuts the first frame off.
* `Server.converse` takes all calls on a stream and writes what the editor is sent.
-/

namespace LintHub

namespace Frame

def lengthHeader : String := "Content-Length"

def render (j : Json) : String :=
  let body := j.compact
  lengthHeader ++ ": " ++ toString body.utf8ByteSize ++ "\r\n\r\n" ++ body

def headersEnd : List UInt8 := [13, 10, 13, 10]

/-- The bytes before the end of the headers, and those after it. -/
def cutHeaders : List UInt8 → Option (List UInt8 × List UInt8)
  | [] => none
  | b :: rest =>
    if headersEnd.isPrefixOf (b :: rest) then some ([], (b :: rest).drop 4)
    else (cutHeaders rest).map fun (headers, body) => (b :: headers, body)

def lengthIn? (header : List Char) : Option Nat := do
  let (name, value) ← Text.cutAt ':' header
  let digits := Text.trim value
  if Text.lowerAscii (Text.trim name) = Text.lowerAscii lengthHeader.toList && !digits.isEmpty &&
      digits.all Char.isDigit then some (Text.ofDigits digits)
  else none

/-- The bytes of the first value on a stream, and those after it; nothing if it is not all there. -/
def split? (bytes : List UInt8) : Option (List UInt8 × List UInt8) := do
  let (headers, body) ← cutHeaders bytes
  let length ← (Text.lines (Text.decodeChars headers)).findSome? lengthIn?
  if length ≤ body.length then some (body.take length, body.drop length) else none

def value? (bytes : List UInt8) : Option Json :=
  (Text.decode? ⟨bytes.toArray⟩).bind Json.parse?

def isVersioned (j : Json) : Bool := j.stringField? Call.version.1 == some "2.0"

/-- Whether a value is an answer. Those of editors are not looked at. -/
def isAnswer (j : Json) : Bool :=
  isVersioned j && (((j.get? "id").bind CallId.ofJson?).isSome && ((j.get? "result").isSome || (j.get? "error").isSome))

end Frame

namespace Server

/-- Takes what one frame holds: the values that the editor is sent, and whether the conversation goes on. -/
def takeFrame (w : Surroundings) (s : Server) (d : Disk) (bytes : List UInt8) : (List Json × Bool) × Server × Disk :=
  match Frame.value? bytes with
  | none => (([Call.refusal .null .notJson], true), s, d)
  | some j =>
    if Frame.isAnswer j then (([], true), s, d)
    else match (if Frame.isVersioned j then Call.ofJson? j else none) with
    | none => (([Call.refusal .null .outOfTurn], true), s, d)
    | some call =>
      match s.take w d call with
      | (none, s, d) => (([], false), s, d)
      | (some e, s, d) => ((e.calls ++ e.answer.toList, true), s, d)

/-- Takes the frames on a stream; `fuel` is more than their number. -/
def converseFrom (w : Surroundings) : Nat → Server → Disk → List UInt8 → List Json × Disk
  | 0, _, d, _ => ([], d)
  | fuel + 1, s, d, bytes =>
    if bytes.isEmpty then ([], d)
    else match Frame.split? bytes with
    | none => ([Call.refusal .null .notJson], d)
    | some (frame, rest) =>
      let ((sent, more), s, d) := s.takeFrame w d frame
      if more then
        let (later, d) := converseFrom w fuel s d rest
        (sent ++ later, d)
      else (sent, d)

/-- Takes all calls on a stream; what the editor is sent, in frames, and the disk afterwards. -/
def converse (w : Surroundings) (d : Disk) (input : ByteArray) : String × Disk :=
  let (sent, d) := converseFrom w (input.size + 1) .new d input.toList
  (String.join (sent.map Frame.render), d)

end Server

end LintHub
