import LintHub.Json.Value

/-!
# Records in JSON

A record is written as an object. It may also be read from an array that holds its fields in order.

* `Json.field?` answers a field of a record by its name and place.
* `Json.optional?` reads a field that may be absent, `Json.nullable?` one that may also be null.
* `Json.word?` reads a number of 32 bits.
-/

namespace LintHub.Json

/-- Whether the value can be a record of so many fields. -/
def isRecord (count : Nat) : Json → Bool
  | obj _ => true
  | arr items => items.length ≤ count
  | _ => false

/-- The field of that name, or the item at its place. -/
def field? (j : Json) (place : Nat) (name : String) : Option Json :=
  match j with
  | obj fields => lookup name fields
  | arr items => items[place]?
  | _ => none

/-- A field that stands for `fallback` when it is absent. -/
def optional? {α : Type} (read : Json → Option α) (fallback : α) : Option Json → Option α
  | none => some fallback
  | some j => read j

/-- A field that may be absent or null. -/
def nullable? {α : Type} (read : Json → Option α) : Option Json → Option (Option α)
  | none => some none
  | some null => some none
  | some j => (read j).map some

/-- A number of 32 bits. -/
def word? (j : Json) : Option UInt32 :=
  match j.asNat? with
  | some n => if n < 0x100000000 then some (UInt32.ofNat n) else none
  | none => none

/-- A number of 64 bits. -/
def long? (j : Json) : Option UInt64 :=
  match j.asNat? with
  | some n => if n < 0x10000000000000000 then some (UInt64.ofNat n) else none
  | none => none

/-- A choice by name: the name itself, or an object of that one name and null. -/
def choice? {α : Type} (ofName : String → Option α) : Json → Option α
  | str s => ofName s
  | obj [(name, null)] => ofName name
  | _ => none

def fieldOf (name : String) : Option String → List (String × Json)
  | some s => [(name, .str s)]
  | none => []

def listOf? {α : Type} (read : Json → Option α) (j : Json) : Option (List α) := j.asArray?.bind fun items => items.mapM read

end LintHub.Json
