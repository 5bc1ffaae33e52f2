import LintHub.Url.Host

/-!
# Reading addresses

* `Url.parse?` reads an absolute address and brings it into normal form.
-/

namespace LintHub.Url

/-- The schemes with a form of their own, and their usual ports. -/
def wellKnown : List (String × Option Nat) :=
  [("http", some 80), ("https", some 443), ("ws", some 80), ("wss", some 443), ("ftp", some 21), ("file", none)]

def isSpecial (scheme : String) : Bool := wellKnown.any fun s => s.1 == scheme

/-! ## Paths -/

def isDot (s : List Char) : Bool := [".", "%2e", "%2E"].any fun d => d.toList == s

def isDoubleDot (s : List Char) : Bool :=
  ["..", ".%2e", "%2e.", "%2e%2e"].any fun d => d.toList == Text.lowerAscii s

def isDrive : List Char → Bool
  | [a, b] => a.isAlpha && (b == ':' || b == '|')
  | _ => false

/-- Takes segments onto those done, which are kept in reverse. -/
def takeSegments (file : Bool) : List (List Char) → List (List Char) → List (List Char)
  | done, [] => done
  | done, s :: rest =>
    let s := encode inPath s
    if isDoubleDot s then
      let done := match done with
        | [d] => if file && isDrive d then [d] else []
        | done => done.drop 1
      takeSegments file (if rest.isEmpty then [] :: done else done) rest
    else if isDot s then takeSegments file (if rest.isEmpty then [] :: done else done) rest
    else if file && done.isEmpty && s.isEmpty && !rest.isEmpty then takeSegments file done rest
    else if file && done.isEmpty && isDrive s then takeSegments file [[s.headD 'c', ':']] rest
    else takeSegments file (s :: done) rest

/-- The segments between slashes, in normal form. In addresses of well-known schemes a backslash is a slash. -/
def segmentsOf (scheme : String) (s : List Char) : List String :=
  let s := if isSpecial scheme then s.map fun c => if c = '\\' then '/' else c else s
  ((takeSegments (scheme == "file") [] (Text.pieces '/' s)).reverse).map String.ofList

/-- The path after the authority: a slash may be missing in addresses of well-known schemes. -/
def pathAfter (scheme : String) (s : List Char) : Trail :=
  match s with
  | '/' :: rest => .segments (segmentsOf scheme rest)
  | '\\' :: rest => .segments (segmentsOf scheme (if isSpecial scheme then rest else s))
  | [] => if isSpecial scheme then .segments [""] else .segments []
  | s => .segments (segmentsOf scheme s)

/-! ## Authorities -/

def cutUser (s : List Char) : Option (List Char) × List Char :=
  let after := (s.reverse.takeWhile (· != '@')).reverse
  match (s.reverse.dropWhile (· != '@')) with
  | [] => (none, s)
  | _ :: before => (some before.reverse, after)

/-- User and password, encoded; an empty password is left out. -/
def userText (s : List Char) : Option String :=
  let name := encode inUser (s.takeWhile (· != ':'))
  let password := encode inUser ((s.dropWhile (· != ':')).drop 1)
  let text := if password.isEmpty then name else name ++ ':' :: password
  if text.isEmpty then none else some (String.ofList text)

/-- The text before the colon of a port, and the port's digits. Colons in brackets do not count. -/
def cutPort (s : List Char) : List Char × Option (List Char) :=
  let digits := (s.reverse.takeWhile fun c => c != ':' && c != ']').reverse
  match s.reverse.dropWhile fun c => c != ':' && c != ']' with
  | ':' :: before => (before.reverse, some digits)
  | _ => (s, none)

/-- The port that digits name; the usual one of a scheme is left out. -/
def port? (scheme : String) : Option (List Char) → Option (Option Nat)
  | none => some none
  | some ds =>
    if !ds.all Char.isDigit then none
    else if ds.isEmpty then some none
    else
      let n := Text.ofDigits ds
      if 65535 < n then none else some (if wellKnown.contains (scheme, some n) then none else some n)

def withAuthority? (scheme : String) (s : List Char) : Option Url := do
  let special := isSpecial scheme
  let ends (c : Char) : Bool := c == '/' || (special && c == '\\')
  let (user, place) := cutUser (s.takeWhile fun c => !ends c)
  let (hostText, digits) := cutPort place
  let port ← port? scheme digits
  let host ← if special then Host.parse? hostText else Host.parseForeign? hostText
  if host.isEmpty && (user.isSome || port.isSome) then none
  else some { scheme, user := user.bind userText, host := some (String.ofList host), port
              trail := pathAfter scheme (s.dropWhile fun c => !ends c), query := none, fragment := none }

def isSlash (c : Char) : Bool := c == '/' || c == '\\'

def ofFile? (s : List Char) : Option Url := do
  let make (host : String) (s : List Char) : Url :=
    { scheme := "file", user := none, host := some host, port := none
      trail := .segments (segmentsOf "file" (match s with
        | c :: rest => if isSlash c then rest else s
        | [] => [])), query := none, fragment := none }
  match s with
  | a :: b :: rest =>
    if isSlash a && isSlash b then
      let hostText := rest.takeWhile fun c => !isSlash c
      if isDrive hostText then some (make "" rest)
      else if hostText.isEmpty then some (make "" (rest.dropWhile fun c => !isSlash c))
      else do
        let host ← Host.parse? hostText
        let host := if host = "localhost".toList then "" else String.ofList host
        some (make host (rest.dropWhile fun c => !isSlash c))
    else some (make "" s)
  | s => some (make "" s)

/-! ## Addresses -/

def isSchemeChar (c : Char) : Bool := c.isAlphanum || c == '+' || c == '-' || c == '.'

/-- The scheme before the first colon, in lower case, and what follows it. -/
def scheme? (s : List Char) : Option (String × List Char) :=
  match s with
  | [] => none
  | c :: _ =>
    if !c.isAlpha then none
    else match s.dropWhile isSchemeChar with
      | ':' :: rest => some (String.ofList (Text.lowerAscii (s.takeWhile isSchemeChar)), rest)
      | _ => none

/-- The text without line feeds and tabs, and without blanks and controls at its ends. -/
def strip (s : List Char) : List Char :=
  let isOuter (c : Char) : Bool := c.toNat ≤ 0x20
  let inner := ((s.dropWhile isOuter).reverse.dropWhile isOuter).reverse
  inner.filter fun c => c != '\t' && c != '\n' && c != '\r'

/-- The part up to a mark, and the part after it if the mark is there. -/
def cutMark (mark : Char) (s : List Char) : List Char × Option (List Char) :=
  match s.dropWhile (· != mark) with
  | [] => (s, none)
  | _ :: rest => (s.takeWhile (· != mark), some rest)

def main? (scheme : String) (s : List Char) : Option Url :=
  if scheme = "file" then ofFile? s
  else if isSpecial scheme then withAuthority? scheme (s.dropWhile isSlash)
  else
    let bare (trail : Trail) : Url :=
      { scheme, user := none, host := none, port := none, trail, query := none, fragment := none }
    match s with
    | '/' :: '/' :: rest => withAuthority? scheme rest
    | '/' :: rest => some (bare (.segments (segmentsOf scheme rest)))
    | s => some (bare (.flat (String.ofList (encode (fun _ => false) s))))

def parse? (text : String) : Option Url := do
  let (scheme, rest) ← scheme? (strip text.toList)
  let (rest, fragment) := cutMark '#' rest
  let (rest, query) := cutMark '?' rest
  let u ← main? scheme rest
  some { u with
    query := query.map fun q => String.ofList (encode (inQuery (isSpecial scheme)) q)
    fragment := fragment.map fun f => String.ofList (encode inFragment f) }

end LintHub.Url
