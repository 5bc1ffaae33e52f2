import LintHub.Json.Printer
import LintHub.Url.Refusal

/-!
# Molds

What a call brings must have a form that depends on the method.

* `Mold` is such a form.
* `Mold.misfit?` says why a value does not fit a mold; of several reasons it is that of the first field by name, and
  a field that is missing comes last.
-/

namespace LintHub

/-- The form of a value. -/
inductive Mold where
  | anything
  | text
  | boolean
  /-- A number without sign of 32 bits. -/
  | word
  /-- A number with a sign of 32 bits. -/
  | signed
  /-- An absolute address. -/
  | address
  /-- Null, or a value of this form. -/
  | nullable (m : Mold)
  | items (m : Mold)
  /-- An object that has these fields at least; true marks those that must be there. A tuple may also be given as an
  array of the fields in order. -/
  | record (name : String) (tuple : Bool) (fields : List (String × Bool × Mold))
deriving Inhabited

namespace Mold

/-! ## Words -/

def quotedChar (c : Char) : List Char :=
  if c = '"' then ['\\', '"']
  else if c = '\\' then ['\\', '\\']
  else if c = '\n' then ['\\', 'n']
  else if c = '\r' then ['\\', 'r']
  else if c = '\t' then ['\\', 't']
  else if c.toNat = 0 then ['\\', '0']
  else if c.toNat < 32 || c.toNat = 127 then "\\u\x7b".toList ++ Nat.toDigits 16 c.toNat ++ ['}']
  else [c]

def quoted (s : String) : String := String.ofList ('"' :: s.toList.flatMap quotedChar ++ ['"'])

def kindOf : Json → String
  | .null => "null"
  | .bool b => "boolean \x60" ++ (if b then "true" else "false") ++ "\x60"
  | .num (.whole n) => "integer \x60" ++ toString n ++ "\x60"
  | .num (.double d) => "floating point \x60" ++ d.render ++ "\x60"
  | .str s => "string " ++ quoted s
  | .arr _ => "sequence"
  | .obj _ => "map"

def wrongType (j : Json) (wanted : String) : String := "invalid type: " ++ kindOf j ++ ", expected " ++ wanted

def wrongValue (j : Json) (wanted : String) : String := "invalid value: " ++ kindOf j ++ ", expected " ++ wanted

def missing (name : String) : String := "missing field \x60" ++ name ++ "\x60"

def tooShort (length : Nat) (name : String) (count : Nat) : String :=
  "invalid length " ++ toString length ++ ", expected struct " ++ name ++ " with " ++ toString count ++
    (if count = 1 then " element" else " elements")

def tooLong (length : Nat) : String := "invalid length " ++ toString length ++ ", expected fewer elements in array"

/-- A number that does not lie between two others. -/
def outside? (low high : Int) (wanted : String) (j : Json) : Option String :=
  match j with
  | .num (.whole n) => if low ≤ n && n ≤ high then none else some (wrongValue j wanted)
  | j => some (wrongType j wanted)

/-! ## Fitting -/

/-- The first field that must be there and is not. -/
def absent? (fields : List (String × Bool × Mold)) (given : List (String × Json)) : Option String :=
  (fields.find? fun (name, needed, _) => needed && (Json.lookup name given).isNone).map fun (name, _, _) => missing name

mutual

/-- Why a value does not fit. -/
def misfit? (m : Mold) (j : Json) : Option String :=
  match m with
  | .anything => none
  | .text =>
    match j with
    | .str _ => none
    | j => some (wrongType j "a string")
  | .boolean =>
    match j with
    | .bool _ => none
    | j => some (wrongType j "a boolean")
  | .word => outside? 0 0xFFFFFFFF "u32" j
  | .signed => outside? (-0x80000000) 0x7FFFFFFF "i32" j
  | .address =>
    match j with
    | .str s => if (Url.parse? s).isSome then none else some (wrongValue j (Url.fault s).message)
    | j => some (wrongType j "a string representing an URL")
  | .nullable m =>
    match j with
    | .null => none
    | j => m.misfit? j
  | .items m =>
    match j with
    | .arr js => js.findSome? m.misfit?
    | j => some (wrongType j "a sequence")
  | .record name tuple fields =>
    match j with
    | .obj given =>
      ((given.mergeSort fun a b => a.1 ≤ b.1).findSome? fun (key, value) => misfitField? fields key value).or
        (absent? fields given)
    | .arr js =>
      if tuple then
        (misfitItems? name fields.length js.length fields js).or
          (if fields.length < js.length then some (tooLong js.length) else none)
      else some (wrongType (.arr js) ("struct " ++ name))
    | j => some (wrongType j ("struct " ++ name))

/-- Why a field's value does not fit; fields that are not named may hold anything. -/
def misfitField? (fields : List (String × Bool × Mold)) (key : String) (value : Json) : Option String :=
  match fields with
  | [] => none
  | (name, _, m) :: rest => if name = key then m.misfit? value else misfitField? rest key value

/-- Why an item does not fit the field at its place. -/
def misfitItems? (name : String) (count length : Nat) (fields : List (String × Bool × Mold)) (js : List Json) :
    Option String :=
  match fields with
  | [] => none
  | (_, _, m) :: rest =>
    match js with
    | [] => some (tooShort length name count)
    | j :: js => (m.misfit? j).or (misfitItems? name count length rest js)

end

def needed (name : String) (m : Mold) : String × Bool × Mold := (name, true, m)

def optional (name : String) (m : Mold) : String × Bool × Mold := (name, false, m)

end Mold

end LintHub
