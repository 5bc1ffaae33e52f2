import LintHub.Path.Basic
import LintHub.Text.Numeral
import LintHub.Text.Utf8

/-!
# Addresses

* `Url` is an address in normal form: scheme, host and dot segments are as the standard wants them.
* `Url.text` writes it.
* `Url.filePath?` is the file that an address names.
-/

namespace LintHub

/-- The path of an address. -/
inductive Url.Trail where
  /-- A text without structure, as after a mail scheme. -/
  | flat (text : String)
  /-- Segments, each after a slash. -/
  | segments (ss : List String)
deriving DecidableEq, Inhabited

structure Url where
  scheme : String
  /-- User and password, encoded, with the colon between them. -/
  user : Option String
  /-- The host; an empty text where two slashes stand without one. -/
  host : Option String
  port : Option Nat
  trail : Url.Trail
  query : Option String
  fragment : Option String
deriving DecidableEq, Inhabited

namespace Url

/-! ## Writing -/

def slashed (ss : List String) : String := String.join (ss.map fun s => "/" ++ s)

def pathText (u : Url) : String :=
  match u.trail with
  | .flat s => s
  | .segments ss => slashed ss

/-- What stands between the scheme and the path. -/
def authorityText (u : Url) : String :=
  match u.host with
  | none =>
    match u.trail with
    | .segments ("" :: _ :: _) => "/."
    | _ => ""
  | some h =>
    "//" ++ (match u.user with
      | some s => s ++ "@"
      | none => "") ++ h ++
      match u.port with
      | some n => ":" ++ toString n
      | none => ""

def text (u : Url) : String :=
  u.scheme ++ ":" ++ u.authorityText ++ u.pathText ++
    (match u.query with
    | some q => "?" ++ q
    | none => "") ++
    match u.fragment with
    | some f => "#" ++ f
    | none => ""

/-! ## Percent signs -/

def percentByte (b : UInt8) : List Char :=
  let upper (c : Char) : Char := c.toUpper
  ['%', upper (Text.hexDigit (b.toNat / 16)), upper (Text.hexDigit (b.toNat % 16))]

/-- Writes the bytes of the characters of a set, and of those beyond ASCII, after percent signs. -/
def encode (inSet : Char → Bool) (s : List Char) : List Char :=
  s.flatMap fun c =>
    if inSet c || c.toNat < 0x20 || 0x7E < c.toNat then c.toString.toUTF8.toList.flatMap percentByte else [c]

def inFragment (c : Char) : Bool := " \"<>\x60".toList.contains c

def inPath (c : Char) : Bool := inFragment c || "#?\x7b\x7d".toList.contains c

def inUser (c : Char) : Bool := inPath c || "/:;=@[\\]^|".toList.contains c

def inQuery (special : Bool) (c : Char) : Bool := " \"#<>".toList.contains c || (special && c == '\'')

def hexValue? (c : Char) : Option Nat :=
  if c.isDigit then some (c.toNat - 48)
  else if 'a' ≤ c && c ≤ 'f' then some (c.toNat - 87)
  else if 'A' ≤ c && c ≤ 'F' then some (c.toNat - 55)
  else none

/-- The bytes of a text whose percent signs are resolved; one without two digits stands for itself. -/
def decodeBytes : List Char → List UInt8
  | [] => []
  | '%' :: a :: b :: rest =>
    match hexValue? a, hexValue? b with
    | some m, some n => UInt8.ofNat (16 * m + n) :: decodeBytes rest
    | _, _ => 37 :: decodeBytes (a :: b :: rest)
  | c :: rest => c.toString.toUTF8.toList ++ decodeBytes rest

def decode (s : List Char) : String := Text.decodeLossy ⟨(decodeBytes s).toArray⟩

/-! ## Files -/

/-- Whether a path ends in a drive letter, which wants a slash after it. -/
def endsWithDrive (s : List Char) : Bool :=
  match s.reverse with
  | c :: d :: _ :: _ => (c == ':' || c == '|') && d.isAlpha
  | _ => false

/-- The file that an address without a foreign host names. -/
def filePath? (u : Url) : Option Path :=
  match u.trail with
  | .flat _ => none
  | .segments ss =>
    if ss.isEmpty then none
    else match u.host.getD "" with
      | "" => some (pathOf ss)
      | "localhost" => some (pathOf ss)
      | _ => none
where
  /-- The path of decoded segments. -/
  pathOf (ss : List String) : Path :=
    let s := decode (slashed ss).toList
    ⟨if endsWithDrive s.toList then s ++ "/" else s⟩

end Url

end LintHub
