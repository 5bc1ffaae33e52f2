import LintHub.Json.Value
import LintHub.Text.Numeral

/-!
# Writing JSON

* `Json.compact` writes a value without blanks.
* `Json.pretty` writes every item and field on a line of its own, two blanks deeper than what holds it.
* Both write objects in the order of their fields, and escape only what a string must not hold.
-/

namespace LintHub.Json

def escapeChar (c : Char) : List Char :=
  if c = '"' then ['\\', '"']
  else if c = '\\' then ['\\', '\\']
  else if c = '\n' then ['\\', 'n']
  else if c = '\r' then ['\\', 'r']
  else if c = '\t' then ['\\', 't']
  else if c.toNat = 8 then ['\\', 'b']
  else if c.toNat = 12 then ['\\', 'f']
  else if c.toNat < 32 then ['\\', 'u', '0', '0', Text.hexDigit (c.toNat / 16), Text.hexDigit (c.toNat % 16)]
  else [c]

def quote (s : String) : List Char := '"' :: s.toList.flatMap escapeChar ++ ['"']

def numberText : Number → List Char
  | .whole n => (toString n).toList
  | .double d => d.render.toList

mutual

def compactChars : Json → List Char
  | null => "null".toList
  | bool b => (if b then "true" else "false").toList
  | num n => numberText n
  | str s => quote s
  | arr items => '[' :: compactItems items
  | obj fields => '{' :: compactFields fields

/-- The rest of an array from its items on. -/
def compactItems : List Json → List Char
  | [] => [']']
  | [j] => compactChars j ++ [']']
  | j :: rest => compactChars j ++ ',' :: compactItems rest

def compactFields : List (String × Json) → List Char
  | [] => ['}']
  | [(name, j)] => quote name ++ ':' :: compactChars j ++ ['}']
  | (name, j) :: rest => quote name ++ ':' :: compactChars j ++ ',' :: compactFields rest

end

def compact (j : Json) : String := String.ofList j.compactChars

/-- A line feed and the blanks of a depth. -/
def newLine (depth : Nat) : List Char := '\n' :: List.replicate (2 * depth) ' '

mutual

/-- The value on lines of its own, inside `depth` others. -/
def prettyChars (depth : Nat) : Json → List Char
  | null => "null".toList
  | bool b => (if b then "true" else "false").toList
  | num n => numberText n
  | str s => quote s
  | arr [] => ['[', ']']
  | arr (j :: rest) => '[' :: newLine (depth + 1) ++ prettyChars (depth + 1) j ++ prettyItems depth rest
  | obj [] => ['{', '}']
  | obj ((name, j) :: rest) =>
    '{' :: newLine (depth + 1) ++ quote name ++ ':' :: ' ' :: prettyChars (depth + 1) j ++ prettyFields depth rest

def prettyItems (depth : Nat) : List Json → List Char
  | [] => newLine depth ++ [']']
  | j :: rest => ',' :: newLine (depth + 1) ++ prettyChars (depth + 1) j ++ prettyItems depth rest

def prettyFields (depth : Nat) : List (String × Json) → List Char
  | [] => newLine depth ++ ['}']
  | (name, j) :: rest =>
    ',' :: newLine (depth + 1) ++ quote name ++ ':' :: ' ' :: prettyChars (depth + 1) j ++ prettyFields depth rest

end

def pretty (j : Json) : String := String.ofList (j.prettyChars 0)

end LintHub.Json
