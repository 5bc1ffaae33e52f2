/-!
# Scripts

Linters may be wrapped in scripts for the shell. This is the part of its language that such wrappers use.

* `Script.Raw` is a text of bytes, a character for each byte.
* `Script.Word` is a word before its parts are expanded, `Script.Command` a command.
-/

namespace LintHub.Script

/-- A text of bytes: every character is below 256. -/
abbrev Raw := List Char

namespace Raw

def ofString (s : String) : Raw := s.toUTF8.toList.map fun b => Char.ofNat b.toNat

def ofBytes (b : ByteArray) : Raw := b.toList.map fun b => Char.ofNat b.toNat

def toBytes (r : Raw) : ByteArray := ⟨(r.map fun c => UInt8.ofNat c.toNat).toArray⟩

end Raw

/-- A part of a word. Quoted parts are neither split nor matched. -/
inductive Part where
  | plain (text : Raw) (quoted : Bool)
  /-- The value of a parameter, with an operator and the source of its word. -/
  | parameter (name : Raw) (operator : Option (Raw × Raw)) (quoted : Bool)
  /-- What a script writes. -/
  | output (source : Raw) (quoted : Bool)
  /-- The value of an expression. -/
  | value (source : Raw) (quoted : Bool)
deriving Inhabited

abbrev Word := List Part

inductive Direction where
  | input
  | output
  | append
  | copy
  | here
deriving DecidableEq, Inhabited

structure Redirect where
  descriptor : Nat
  direction : Direction
  target : Word
deriving Inhabited

inductive Command where
  | nothing
  | simple (line : Nat) (assigns : List (Raw × Word)) (words : List Word) (redirects : List Redirect)
  | both (first second : Command)
  | andThen (first second : Command)
  | orElse (first second : Command)
  | negate (body : Command)
  | pipe (first second : Command)
  | choose (test yes no : Command)
  /-- Repeats the body while the test succeeds, or until it does. -/
  | loop (until_ : Bool) (test body : Command)
  /-- Runs the body for each item, or for each argument. -/
  | each (name : Raw) (items : Option (List Word)) (body : Command)
  | select (subject : Word) (arms : List (List Word × Command))
  | group (body : Command) (redirects : List Redirect)
  | subshell (body : Command) (redirects : List Redirect)
  | define (name : Raw) (body : Command)
deriving Inhabited

end LintHub.Script
