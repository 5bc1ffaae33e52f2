import LintHub.Text.Search

/-!
# Terminal escapes

Linters colour their output even when told not to, and some wrappers strip the escape character but leave the rest
of a colour behind.

* `Report.dropEscapes` removes control sequences, operating system commands and two-character escapes.
* `Report.colours` lists the colours that are removed without their escape character.
* `Report.clean` does both, the colours one after another.
-/

namespace LintHub.Report

def escape : Char := '\x1b'

def within (low high : Nat) (c : Char) : Bool := low ≤ c.toNat && c.toNat ≤ high

/-- The length of a control sequence after the escape character: a bracket, parameters, intermediates, and a final
character. -/
def controlLength? : List Char → Option Nat
  | '[' :: rest =>
    let parameters := rest.takeWhile (within 0x30 0x3F)
    let rest := rest.dropWhile (within 0x30 0x3F)
    let intermediates := rest.takeWhile (within 0x20 0x2F)
    match rest.dropWhile (within 0x20 0x2F) with
    | c :: _ => if within 0x40 0x7E c then some (parameters.length + intermediates.length + 2) else none
    | [] => none
  | _ => none

def isCommandText (c : Char) : Bool := c != '\x07' && c != escape

/-- The length of an operating system command after the escape character, with the bell or the string terminator
that ends it. -/
def commandLength? : List Char → Option Nat
  | ']' :: rest =>
    let text := rest.takeWhile isCommandText
    match rest.dropWhile isCommandText with
    | '\x07' :: _ => some (text.length + 2)
    | '\x1b' :: '\\' :: _ => some (text.length + 3)
    | _ => none
  | _ => none

/-- The length of an escape of two characters after the first. -/
def pairLength? : List Char → Option Nat
  | c :: _ => if within 0x40 0x5F c then some 1 else none
  | [] => none

def escapeLength? (rest : List Char) : Option Nat :=
  (controlLength? rest).or ((commandLength? rest).or (pairLength? rest))

/-- Drops escapes; `skip` characters of one are still to drop. -/
def dropEscapesFrom : Nat → List Char → List Char
  | _, [] => []
  | skip + 1, _ :: rest => dropEscapesFrom skip rest
  | 0, c :: rest =>
    if c = escape then
      match escapeLength? rest with
      | some n => dropEscapesFrom n rest
      | none => c :: dropEscapesFrom 0 rest
    else c :: dropEscapesFrom 0 rest

/-- The text without its escapes, found from left to right. -/
def dropEscapes (s : List Char) : List Char := dropEscapesFrom 0 s

/-- Colours without their escape character. Rules in brackets such as `[truthy]` are none of them. -/
def colours : List String := [
  "[0m", "[1m", "[2m", "[4m", "[22m", "[39m", "[49m", "[30m", "[31m", "[32m", "[33m", "[34m", "[35m", "[36m",
  "[37m", "[90m", "[91m", "[92m", "[93m", "[94m", "[1;31m", "[1;32m", "[1;33m", "[1;34m", "[1;35m", "[1;36m",
  "[0;31m", "[0;32m", "[0;33m"]

/-- The text without escapes and colours: one colour after another is erased. -/
def cleanChars (s : List Char) : List Char :=
  colours.foldl (fun text colour => Text.erase colour.toList text) (dropEscapes s)

def clean (s : String) : String := String.ofList (cleanChars s.toList)

end LintHub.Report
