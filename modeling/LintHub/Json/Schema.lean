import LintHub.Json.Printer

/-!
# Schemas

* `Schema` describes the documents of a format.
* `Schema.check` finds the first violation of a schema, `Violation.message` says it in words.
-/

namespace LintHub

/-- What a document of a format must be. -/
inductive Schema where
  | string
  | boolean
  /-- A whole number from one on. -/
  | count
  | nullableString
  /-- Null or one of the listed texts. -/
  | nullableChoice (choices : List String)
  | array (item : Schema)
  /-- An object without other properties than these. -/
  | object (properties : List (String × Schema))
deriving Inhabited

inductive Breach where
  | wrongType (types : List String)
  | belowOne
  | notListed (choices : List String)
  | unexpected (name : String)
deriving DecidableEq, Inhabited

/-- A breach, the value that fails, and the steps that lead to it. -/
structure Violation where
  breach : Breach
  value : Json
  place : List String
deriving Inhabited

namespace Violation

def quoted (s : String) : String := "\"" ++ s ++ "\""

/-- The violation of a value inside another. -/
def under (step : String) (v : Violation) : Violation := { v with place := step :: v.place }

/-- A listing of the texts to choose from: two of them, and the number of the others. -/
def listing : List String → String
  | a :: b :: rest =>
    Json.compact (.str a) ++ ", " ++ Json.compact (.str b) ++ " or " ++ toString (rest.length + 1) ++
      " other candidates"
  | few => ", ".intercalate (few.map fun s => Json.compact (.str s))

/-- The violation in words, with a pointer to the value. -/
def message (v : Violation) : String :=
  let value := v.value.canonical.compact
  let what := match v.breach with
    | .wrongType [type] => value ++ " is not of type " ++ quoted type
    | .wrongType types => value ++ " is not of types " ++ ", ".intercalate (types.map quoted)
    | .belowOne => value ++ " is less than the minimum of 1"
    | .notListed choices => value ++ " is not one of " ++ listing choices
    | .unexpected name => "Additional properties are not allowed ('" ++ name ++ "' was unexpected)"
  what ++ " at " ++ String.join (v.place.map ("/" ++ ·))

end Violation

namespace Schema

def isWhole : Number → Bool
  | .whole _ => true
  | .double d => d.isIntegral

def isBelowOne : Number → Bool
  | .whole n => n < 1
  | .double d => d.lessThanOne

def property? (properties : List (String × Schema)) (name : String) : Option Schema :=
  (properties.find? fun p => p.1 == name).map (·.2)

/-- Checks a value that is no container. -/
def checkScalar (schema : Schema) (j : Json) : Except Violation Unit :=
  let fail (b : Breach) : Except Violation Unit := .error ⟨b, j, []⟩
  match schema, j with
  | string, .str _ => .ok ()
  | string, _ => fail (.wrongType ["string"])
  | boolean, .bool _ => .ok ()
  | boolean, _ => fail (.wrongType ["boolean"])
  | count, .num n =>
    if !isWhole n then fail (.wrongType ["integer"]) else if isBelowOne n then fail .belowOne else .ok ()
  | count, _ => fail (.wrongType ["integer"])
  | nullableString, .str _ => .ok ()
  | nullableString, .null => .ok ()
  | nullableString, _ => fail (.wrongType ["null", "string"])
  | nullableChoice choices, .str s => if choices.contains s then .ok () else fail (.notListed choices)
  | nullableChoice _, .null => .ok ()
  | nullableChoice _, _ => fail (.wrongType ["null", "string"])
  | array _, _ => fail (.wrongType ["array"])
  | object _, _ => fail (.wrongType ["object"])

mutual

/-- Finds the first violation in a value. -/
def check (schema : Schema) : Json → Except Violation Unit
  | .arr items =>
    match schema with
    | array item => checkItems item 0 items
    | other => checkScalar other (.arr items)
  | .obj fields =>
    match schema with
    | object properties => checkFields properties fields
    | other => checkScalar other (.obj fields)
  | j => checkScalar schema j

/-- Finds the first violation in the items of an array, the first of which has the given place. -/
def checkItems (item : Schema) (place : Nat) : List Json → Except Violation Unit
  | [] => .ok ()
  | j :: rest =>
    match check item j with
    | .ok () => checkItems item (place + 1) rest
    | .error v => .error (v.under (toString place))

def checkFields (properties : List (String × Schema)) : List (String × Json) → Except Violation Unit
  | [] => .ok ()
  | (name, j) :: rest =>
    match property? properties name with
    | none => .error ⟨.unexpected name, j, []⟩
    | some schema =>
      match check schema j with
      | .ok () => checkFields properties rest
      | .error v => .error (v.under name)

end

end Schema

end LintHub
