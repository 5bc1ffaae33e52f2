import LintHub.Json.Reader
import LintHub.Text.Blank
import LintHub.Text.Search
import LintHub.Text.Word

/-!
# JSON with comments

Documents written by hand: comments, missing and trailing commas, either quote, bare property names, numbers in
base sixteen and a leading plus.

* `Token.scan?` cuts a text into tokens.
* `Commented.parse?` reads one value; a text of blanks and comments is an empty object.
-/

namespace LintHub.Json.Commented

inductive Token where
  | openBrace
  | closeBrace
  | openBracket
  | closeBracket
  | comma
  | colon
  | null
  | bool (b : Bool)
  | str (s : String)
  | num (sign : Option Char) (text : List Char) (value : Json)
  | word (s : String)
deriving Inhabited

/-! ## Tokens -/

/-- The characters of a string up to its closing `quote`. The other quote may not be escaped. -/
def stringTail? (quote : Char) : Nat → Reader (List Char)
  | 0, _ => none
  | _ + 1, [] => none
  | fuel + 1, c :: rest =>
    if c = quote then some ([], rest)
    else if c = '\\' then
      match rest with
      | [] => none
      | e :: more => do
        let (d, rest) ←
          if e = 'u' then escapedUnit? more
          else if e = '"' || e = '\'' then (if e = quote then some (e, more) else none)
          else (escapeLetter? e).map (·, more)
        let (tail, rest) ← stringTail? quote fuel rest
        some (d :: tail, rest)
    else do
      let (tail, rest) ← stringTail? quote fuel rest
      some (c :: tail, rest)

def ofHexDigits (digits : List Char) : Nat := digits.foldl (fun n c => 16 * n + (hexValue? c).getD 0) 0

/-- A numeral of base sixteen after its sign. It is a number if it fits 63 bits, and its own text otherwise. -/
def hexNumeral? (sign : Option Char) : Reader Json
  | '0' :: x :: rest =>
    if x = 'x' || x = 'X' then
      match rest.takeWhile fun c => (hexValue? c).isSome with
      | [] => none
      | digits =>
        let n := ofHexDigits digits
        let after := rest.dropWhile fun c => (hexValue? c).isSome
        if n < 0x8000000000000000 then some (.num (.whole (if sign = some '-' then -(n : Int) else n)), after)
        else some (.str (String.ofList (sign.toList ++ '0' :: x :: digits)), after)
    else none
  | _ => none

/-- The whole part of a numeral: a zero ends it. -/
def wholePart? : Reader (List Char)
  | '0' :: rest => some (['0'], rest)
  | s => Text.run? Text.isAsciiDigit s

/-- A decimal numeral after its sign. It is its own text if it is too large for a number. -/
def decimalNumeral? (sign : Option Char) (s : List Char) : Option (Json × List Char) := do
  let (digits, rest) ← wholePart? s
  let (places, rest) ← fraction? rest
  let (power, rest) ← exponent? rest
  match Numeral.value? ⟨sign == some '-', digits, places, power⟩ with
  | some n => some (.num n, rest)
  | none => some (.str (String.ofList (sign.toList ++ s.take (s.length - rest.length))), rest)

def numeralToken? (s : List Char) : Option (Token × List Char) := do
  let (sign, digits) := match s with
    | '+' :: rest => (some '+', rest)
    | '-' :: rest => (some '-', rest)
    | rest => (none, rest)
  let (value, rest) ← (hexNumeral? sign digits).or
    (match digits with
    | '0' :: 'x' :: _ => none
    | '0' :: 'X' :: _ => none
    | _ => decimalNumeral? sign digits)
  some (.num sign (s.take (s.length - rest.length)) value, rest)

/-- The rest after a keyword that does not run on into a letter or a number. -/
def keyword? (word s : List Char) : Option (List Char) :=
  match word.isPrefixOf? s with
  | some [] => some []
  | some (c :: rest) => if Text.isAlphanumeric c then none else some (c :: rest)
  | none => none

def isNameChar (c : Char) : Bool := Text.isAlphanumeric c || c == '-' || c == '_'

/-- A bare name, which a blank or a colon ends. -/
def bareName? (s : List Char) : Option (Token × List Char) :=
  match s.takeWhile isNameChar, s.dropWhile isNameChar with
  | [], _ => none
  | name, [] => some (.word (String.ofList name), [])
  | name, c :: rest =>
    if Text.isBlank c || c == ':' then some (.word (String.ofList name), c :: rest) else none

def afterLine (s : List Char) : List Char := s.dropWhile (· != '\n')

/-- What follows a comment that ends with a star and a slash. -/
def afterBlock? : List Char → Option (List Char)
  | '*' :: '/' :: rest => some rest
  | _ :: rest => afterBlock? rest
  | [] => none

/-- A token that is no punctuation. -/
def longToken? (s : List Char) : Option (Token × List Char) :=
  match s with
  | [] => none
  | c :: rest =>
    if c = '"' || c = '\'' then
      (stringTail? c (rest.length + 1) rest).map fun (t, after) => (.str (String.ofList t), after)
    else if c = '-' || c = '+' || Text.isAsciiDigit c then numeralToken? s
    else ((keyword? "true".toList s).map (Token.bool true, ·)).or
      (((keyword? "false".toList s).map (Token.bool false, ·)).or
        (((keyword? "null".toList s).map (Token.null, ·)).or (bareName? s)))

/-- The tokens of a text. `fuel` is at least its length. -/
def scanFrom? : Nat → List Char → Option (List Token)
  | _, [] => some []
  | 0, _ :: _ => none
  | fuel + 1, c :: rest =>
    if Text.isBlank c then scanFrom? fuel rest
    else match c, rest with
      | '{', _ => (scanFrom? fuel rest).map (Token.openBrace :: ·)
      | '}', _ => (scanFrom? fuel rest).map (Token.closeBrace :: ·)
      | '[', _ => (scanFrom? fuel rest).map (Token.openBracket :: ·)
      | ']', _ => (scanFrom? fuel rest).map (Token.closeBracket :: ·)
      | ',', _ => (scanFrom? fuel rest).map (Token.comma :: ·)
      | ':', _ => (scanFrom? fuel rest).map (Token.colon :: ·)
      | '/', '/' :: more => scanFrom? fuel (afterLine more)
      | '/', '*' :: more => (afterBlock? more).bind (scanFrom? fuel)
      | _, _ => do
        let (token, after) ← longToken? (c :: rest)
        let tokens ← scanFrom? fuel after
        some (token :: tokens)

def Token.scan? (s : List Char) : Option (List Token) := scanFrom? s.length s

/-! ## Values -/

def Token.propertyName? : Token → Option String
  | .str s => some s
  | .word s => some s
  | .num _ text _ => some (String.ofList text)
  | _ => none

def skipComma : List Token → List Token
  | .comma :: rest => rest
  | tokens => tokens

mutual

/-- A value at the head of the tokens. `fuel` is twice their number, or more. -/
def value? : Nat → List Token → Option (Json × List Token)
  | 0, _ => none
  | fuel + 1, tokens =>
    match tokens with
    | .openBrace :: rest => (fields? fuel rest).map fun (fields, rest) => (.obj fields, rest)
    | .openBracket :: rest => (items? fuel rest).map fun (items, rest) => (.arr items, rest)
    | .null :: rest => some (.null, rest)
    | .bool b :: rest => some (.bool b, rest)
    | .str s :: rest => some (.str s, rest)
    | .num _ _ j :: rest => some (j, rest)
    | _ => none

def items? : Nat → List Token → Option (List Json × List Token)
  | 0, _ => none
  | fuel + 1, tokens =>
    match tokens with
    | .closeBracket :: rest => some ([], rest)
    | _ => do
      let (j, rest) ← value? fuel tokens
      let (tail, rest) ← items? fuel (skipComma rest)
      some (j :: tail, rest)

def fields? : Nat → List Token → Option (List (String × Json) × List Token)
  | 0, _ => none
  | fuel + 1, tokens =>
    match tokens with
    | .closeBrace :: rest => some ([], rest)
    | key :: .colon :: rest => do
      let name ← key.propertyName?
      let (j, rest) ← value? fuel rest
      let (tail, rest) ← fields? fuel (skipComma rest)
      some ((name, j) :: tail, rest)
    | _ => none

end

/-- The value that a commented text is, in canonical form. -/
def parse? (s : String) : Option Json := do
  let tokens ← Token.scan? s.toList
  match tokens with
  | [] => some (.obj [])
  | _ =>
    match value? (2 * tokens.length + 2) tokens with
    | some (j, []) => some j.canonical
    | _ => none

end LintHub.Json.Commented
