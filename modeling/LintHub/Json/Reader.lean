import LintHub.Json.Value
import LintHub.Text.Digit
import LintHub.Text.Numeral

/-!
# Reading JSON

* `Json.parse?` reads a text that is one value.
* `Shape` says which parts of a document are wanted: a record's other fields are skipped, where only the grammar
  counts, and a repeated wanted field is refused. `Json.parseAs?` reads by a shape.
* Values nest at most 127 deep, except in skipped parts.
-/

namespace LintHub.Json

/-- A reader answers a value and what follows it in the text. -/
abbrev Reader (α : Type) := List Char → Option (α × List Char)

def isSpace (c : Char) : Bool := c == ' ' || c == '\n' || c == '\t' || c == '\r'

def skipSpace (s : List Char) : List Char := s.dropWhile isSpace

/-! ## Strings -/

def hexValue? (c : Char) : Option Nat :=
  let n := c.toNat
  if 48 ≤ n && n ≤ 57 then some (n - 48)
  else if 97 ≤ n && n ≤ 102 then some (n - 87)
  else if 65 ≤ n && n ≤ 70 then some (n - 55)
  else none

def hexFour? : Reader Nat
  | a :: b :: c :: d :: rest => do
    let a ← hexValue? a
    let b ← hexValue? b
    let c ← hexValue? c
    let d ← hexValue? d
    some (4096 * a + 256 * b + 16 * c + d, rest)
  | _ => none

def escapeLetter? (c : Char) : Option Char :=
  if c = '"' || c = '\\' || c = '/' then some c
  else if c = 'b' then some (Char.ofNat 8)
  else if c = 'f' then some (Char.ofNat 12)
  else if c = 'n' then some '\n'
  else if c = 'r' then some '\r'
  else if c = 't' then some '\t'
  else none

def isHighHalf (n : Nat) : Bool := 0xD800 ≤ n && n ≤ 0xDBFF

def isLowHalf (n : Nat) : Bool := 0xDC00 ≤ n && n ≤ 0xDFFF

def joinHalves (high low : Nat) : Char := Char.ofNat (0x10000 + (high - 0xD800) * 1024 + (low - 0xDC00))

/-- The character after an escape's letter `u`; halves of a pair must come together. -/
def escapedUnit? (s : List Char) : Option (Char × List Char) := do
  let (n, rest) ← hexFour? s
  if isLowHalf n then none
  else if isHighHalf n then
    match rest with
    | '\\' :: 'u' :: more => do
      let (low, rest) ← hexFour? more
      if isLowHalf low then some (joinHalves n low, rest) else none
    | _ => none
  else some (Char.ofNat n, rest)

/-- The characters of a string up to its closing quote. `fuel` is at least the length of the text. -/
def stringTail? : Nat → Reader (List Char)
  | 0, _ => none
  | _ + 1, [] => none
  | fuel + 1, c :: rest =>
    if c = '"' then some ([], rest)
    else if c = '\\' then
      match rest with
      | [] => none
      | e :: more => do
        let (d, rest) ← if e = 'u' then escapedUnit? more else (escapeLetter? e).map (·, more)
        let (tail, rest) ← stringTail? fuel rest
        some (d :: tail, rest)
    else if c.toNat < 32 then none
    else do
      let (tail, rest) ← stringTail? fuel rest
      some (c :: tail, rest)

def string? : Reader String
  | '"' :: rest => (stringTail? rest.length rest).map fun (s, rest) => (String.ofList s, rest)
  | _ => none

/-! ## Numbers -/

/-- The digits of a whole part: a zero stands alone. -/
def wholeDigits? (s : List Char) : Option (List Char × List Char) :=
  match s.takeWhile Text.isAsciiDigit, s.dropWhile Text.isAsciiDigit with
  | [], _ => none
  | '0' :: _ :: _, _ => none
  | digits, rest => some (digits, rest)

def fraction? : Reader (Option (List Char))
  | '.' :: rest =>
    match rest.takeWhile Text.isAsciiDigit with
    | [] => none
    | digits => some (some digits, rest.dropWhile Text.isAsciiDigit)
  | s => some (none, s)

def signedDigits? (s : List Char) : Option (Int × List Char) :=
  let (negative, s) := match s with
    | '+' :: rest => (false, rest)
    | '-' :: rest => (true, rest)
    | rest => (false, rest)
  match s.takeWhile Text.isAsciiDigit with
  | [] => none
  | digits =>
    let n : Int := Text.ofDigits digits
    some (if negative then -n else n, s.dropWhile Text.isAsciiDigit)

def exponent? : Reader (Option Int)
  | c :: rest =>
    if c = 'e' || c = 'E' then (signedDigits? rest).map fun (n, rest) => (some n, rest) else some (none, c :: rest)
  | [] => some (none, [])

structure Numeral where
  negative : Bool
  digits : List Char
  places : Option (List Char)
  power : Option Int

def numeral? (s : List Char) : Option (Numeral × List Char) := do
  let (negative, s) := match s with
    | '-' :: rest => (true, rest)
    | rest => (false, rest)
  let (digits, s) ← wholeDigits? s
  let (places, s) ← fraction? s
  let (power, s) ← exponent? s
  some (⟨negative, digits, places, power⟩, s)

/-- Digits as a significand below `2 ^ 64` and the count of digits that did not fit. -/
def significand : Nat → List Char → Nat × Nat
  | n, [] => (n, 0)
  | n, d :: rest =>
    let next := 10 * n + (d.toNat - 48)
    if next < 0x10000000000000000 then significand next rest else (n, rest.length + 1)

/-- The value of a numeral: whole if it is written without point and exponent and fits 64 bits; none if it is too
large for a double. -/
def Numeral.value? (x : Numeral) : Option Number :=
  let n : Int := Text.ofDigits x.digits
  match x.places, x.power with
  | none, none =>
    if !x.negative && n < 0x10000000000000000 then some (.whole n)
    else if x.negative && 0 < n && n ≤ 0x8000000000000000 then some (.whole (-n))
    else
      let (m, dropped) := significand 0 x.digits
      (Double.ofDecimal? x.negative m dropped).map .double
  | places, power =>
    let places := places.getD []
    let (m, dropped) := significand 0 (x.digits ++ places)
    let shift : Int := dropped - (places.length : Int)
    (Double.ofDecimal? x.negative m (shift + power.getD 0)).map .double

def number? (s : List Char) : Option (Number × List Char) := do
  let (x, rest) ← numeral? s
  let n ← x.value?
  some (n, rest)

/-! ## Skipped parts -/

/-- A string whose escapes need not name characters. -/
def skipString? : Nat → List Char → Option (List Char)
  | 0, _ => none
  | _ + 1, [] => none
  | fuel + 1, c :: rest =>
    if c = '"' then some rest
    else if c = '\\' then
      match rest with
      | [] => none
      | e :: more =>
        if e = 'u' then (hexFour? more).bind fun (_, rest) => skipString? fuel rest
        else if (escapeLetter? e).isSome then skipString? fuel more
        else none
    else if c.toNat < 32 then none
    else skipString? fuel rest

mutual

/-- Passes over a value of any depth. `fuel` is twice the length of the text, or more. -/
def skipValue? : Nat → List Char → Option (List Char)
  | 0, _ => none
  | fuel + 1, s =>
    match skipSpace s with
    | '"' :: rest => skipString? rest.length.succ rest
    | '[' :: rest =>
      match skipSpace rest with
      | ']' :: after => some after
      | items => skipItems? fuel items
    | '{' :: rest =>
      match skipSpace rest with
      | '}' :: after => some after
      | fields => skipFields? fuel fields
    | 'n' :: 'u' :: 'l' :: 'l' :: rest => some rest
    | 't' :: 'r' :: 'u' :: 'e' :: rest => some rest
    | 'f' :: 'a' :: 'l' :: 's' :: 'e' :: rest => some rest
    | other => (numeral? other).map (·.2)

def skipItems? : Nat → List Char → Option (List Char)
  | 0, _ => none
  | fuel + 1, s => do
    let rest ← skipValue? fuel s
    match skipSpace rest with
    | ',' :: more => skipItems? fuel more
    | ']' :: after => some after
    | _ => none

def skipFields? : Nat → List Char → Option (List Char)
  | 0, _ => none
  | fuel + 1, s =>
    match skipSpace s with
    | '"' :: rest => do
      let rest ← skipString? rest.length.succ rest
      match skipSpace rest with
      | ':' :: value => do
        let rest ← skipValue? fuel value
        match skipSpace rest with
        | ',' :: more => skipFields? fuel more
        | '}' :: after => some after
        | _ => none
      | _ => none
    | _ => none

end

/-! ## Values by shape -/

/-- The parts of a document that are wanted. -/
inductive Shape where
  /-- All of it. -/
  | whole
  /-- The named fields of an object, or as many first items of an array. -/
  | record (fields : List (String × Shape))
  /-- The items of an array. -/
  | items (item : Shape)
  /-- The fields of an object, whatever their names. -/
  | entries (value : Shape)

def Shape.itemAt : Shape → Nat → Option Shape
  | record fields, i => fields[i]?.map (·.2)
  | items item, _ => some item
  | _, _ => some whole

/-- The shape of a field; none if it is not wanted. -/
def Shape.fieldAt : Shape → String → Option Shape
  | record fields, name => (fields.find? fun field => field.1 == name).map (·.2)
  | entries value, _ => some value
  | _, _ => some whole

def Shape.allowsRepeats : Shape → Bool
  | record _ => false
  | _ => true

/-- The items of an array and its end; `read i` reads item number `i`. -/
def readItems (read : Nat → Option (Reader Json)) : Nat → Nat → Reader (List Json)
  | 0, _, _ => none
  | fuel + 1, i, s => do
    let reader ← read i
    let (j, rest) ← reader s
    match skipSpace rest with
    | ',' :: more => do
      let (tail, rest) ← readItems read fuel (i + 1) more
      some (j :: tail, rest)
    | ']' :: after => some ([j], after)
    | _ => none

/-- The fields of an object and its end; `read name` reads the value of that name, if it is wanted. `seen` holds
the names that must not come again. -/
def readFields (read : String → Option (Reader Json)) (repeats : Bool) :
    Nat → List String → Reader (List (String × Json))
  | 0, _, _ => none
  | fuel + 1, seen, s => do
    let (name, rest) ← string? (skipSpace s)
    match skipSpace rest with
    | ':' :: value =>
      match read name with
      | some reader =>
        if !repeats && seen.contains name then none
        else do
          let (j, rest) ← reader value
          match skipSpace rest with
          | ',' :: more => do
            let (tail, rest) ← readFields read repeats fuel (name :: seen) more
            some ((name, j) :: tail, rest)
          | '}' :: after => some ([(name, j)], after)
          | _ => none
      | none => do
        let rest ← skipValue? (2 * value.length + 2) value
        match skipSpace rest with
        | ',' :: more => readFields read repeats fuel seen more
        | '}' :: after => some ([], after)
        | _ => none
    | _ => none

/-- A value that holds no other. -/
def scalar? (s : List Char) : Option (Json × List Char) :=
  match s with
  | 'n' :: 'u' :: 'l' :: 'l' :: rest => some (.null, rest)
  | 't' :: 'r' :: 'u' :: 'e' :: rest => some (.bool true, rest)
  | 'f' :: 'a' :: 'l' :: 's' :: 'e' :: rest => some (.bool false, rest)
  | '"' :: _ => (string? s).map fun (t, rest) => (.str t, rest)
  | _ => (number? s).map fun (n, rest) => (.num n, rest)

/-- A value of at most the given depth, by its shape. -/
def valueAs? : Nat → Shape → Reader Json
  | 0, _, s =>
    match skipSpace s with
    | '[' :: _ => none
    | '{' :: _ => none
    | other => scalar? other
  | depth + 1, shape, s =>
    match skipSpace s with
    | '[' :: rest =>
      match skipSpace rest with
      | ']' :: after => some (.arr [], after)
      | inside =>
        (readItems (fun i => (shape.itemAt i).map (valueAs? depth)) (inside.length + 1) 0 inside).map
          fun (js, rest) => (.arr js, rest)
    | '{' :: rest =>
      match skipSpace rest with
      | '}' :: after => some (.obj [], after)
      | inside =>
        (readFields (fun name => (shape.fieldAt name).map (valueAs? depth)) shape.allowsRepeats
          (inside.length + 1) [] inside).map fun (fields, rest) => (.obj fields, rest)
    | other => scalar? other

def maxDepth : Nat := 127

/-- The wanted parts of a text that is one value. -/
def parseAs? (shape : Shape) (s : String) : Option Json :=
  match valueAs? maxDepth shape s.toList with
  | some (j, rest) => if (skipSpace rest).isEmpty then some j else none
  | none => none

def parse? (s : String) : Option Json := parseAs? .whole s

end LintHub.Json
