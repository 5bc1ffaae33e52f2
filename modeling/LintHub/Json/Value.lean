import LintHub.Json.Double

/-!
# JSON values

* `Json` keeps the fields of an object in order, repeated names included.
* `Json.get?` answers a field by its last occurrence; `Json.canonical` sorts the fields and keeps the last of
  each name.
-/

namespace LintHub

/-- A JSON number: a whole one of at most 64 bits, or a double. -/
inductive Number where
  | whole (n : Int)
  | double (d : Double)
deriving DecidableEq, Inhabited

inductive Json where
  | null
  | bool (b : Bool)
  | num (n : Number)
  | str (s : String)
  | arr (items : List Json)
  | obj (fields : List (String × Json))
deriving Inhabited

namespace Json

def nat (n : Nat) : Json := .num (.whole n)

def strOrNull : Option String → Json
  | some s => .str s
  | none => .null

/-! ## Looking inside -/

/-- The value of the last field of that name. -/
def lookup (name : String) (fields : List (String × Json)) : Option Json :=
  (fields.reverse.find? fun field => field.1 == name).map (·.2)

def get? (name : String) : Json → Option Json
  | obj fields => lookup name fields
  | _ => none

def asString? : Json → Option String
  | str s => some s
  | _ => none

def asNat? : Json → Option Nat
  | num (.whole n) => if 0 ≤ n then some n.toNat else none
  | _ => none

def asBool? : Json → Option Bool
  | bool b => some b
  | _ => none

def asArray? : Json → Option (List Json)
  | arr items => some items
  | _ => none

def asFields? : Json → Option (List (String × Json))
  | obj fields => some fields
  | _ => none

def stringField? (name : String) (j : Json) : Option String := (j.get? name).bind asString?

/-! ## Canonical form -/

/-- Puts a field into fields sorted by name, in place of one of its name. -/
def insertField (field : String × Json) : List (String × Json) → List (String × Json)
  | [] => [field]
  | head :: rest =>
    match compare field.1 head.1 with
    | .lt => field :: head :: rest
    | .eq => field :: rest
    | .gt => head :: insertField field rest

mutual

/-- The value with the fields of its objects sorted by name, one of each. -/
def canonical : Json → Json
  | arr items => .arr (canonicalItems items)
  | obj fields => .obj ((canonicalFields fields).foldl (fun done field => insertField field done) [])
  | j => j

def canonicalItems : List Json → List Json
  | [] => []
  | j :: rest => canonical j :: canonicalItems rest

def canonicalFields : List (String × Json) → List (String × Json)
  | [] => []
  | (name, j) :: rest => (name, canonical j) :: canonicalFields rest

end

end Json

end LintHub
