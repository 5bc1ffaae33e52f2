import LintHub.Url.Basic
import LintHub.Text.Blank

/-!
# Hosts

* `Host.parse?` reads the host of an address of a well-known scheme: a name, or a number of four or of sixteen bytes.
* `Host.parseForeign?` reads that of another scheme.
* `Host.Punycode.encode` writes a label beyond ASCII in ASCII.
-/

namespace LintHub.Url.Host

/-! ## Labels -/

namespace Punycode

/-- A digit of base thirty-six. -/
def digit (n : Nat) : Char := if n < 26 then Char.ofNat (97 + n) else Char.ofNat (22 + n)

/-- The least digit that ends a number at a place. -/
def threshold (place bias : Nat) : Nat := if place ≤ bias then 1 else min (place - bias) 26

/-- A number in digits, the lowest first. -/
def digits (bias : Nat) : Nat → Nat → Nat → List Char
  | 0, _, _ => []
  | fuel + 1, place, n =>
    let t := threshold place bias
    if n < t then [digit n]
    else digit (t + (n - t) % (36 - t)) :: digits bias fuel (place + 36) ((n - t) / (36 - t))

def shrink : Nat → Nat → Nat → Nat
  | 0, delta, k => k + 36 * delta / (delta + 38)
  | fuel + 1, delta, k => if 455 < delta then shrink fuel (delta / 35) (k + 36) else k + 36 * delta / (delta + 38)

def adapt (delta count : Nat) (first : Bool) : Nat :=
  let d := if first then delta / 700 else delta / 2
  shrink 64 (d + d / count) 0

/-- What was written, the step so far, the bias, and how many characters are written. -/
structure State where
  out : List Char
  delta : Nat
  bias : Nat
  written : Nat

/-- Takes one character of the label while characters of code `m` are written. -/
def take (basic m : Nat) (st : State) (c : Char) : State :=
  if c.toNat < m then { st with delta := st.delta + 1 }
  else if c.toNat = m then
    ⟨st.out ++ digits st.bias 64 36 st.delta, 0, adapt st.delta (st.written + 1) (st.written == basic), st.written + 1⟩
  else st

def encodeFrom (label : List Char) (basic : Nat) : List Nat → Nat → State → State
  | [], _, st => st
  | m :: rest, n, st =>
    let st := label.foldl (take basic m) { st with delta := st.delta + (m - n) * (st.written + 1) }
    encodeFrom label basic rest (m + 1) { st with delta := st.delta + 1 }

def encode (label : List Char) : List Char :=
  let basic := label.filter fun c => c.toNat < 0x80
  let codes := ((label.filter fun c => 0x80 ≤ c.toNat).map Char.toNat).mergeSort.eraseReps
  basic ++ (if basic.isEmpty then [] else ['-']) ++
    (encodeFrom label basic.length codes 0x80 ⟨[], 0, 72, basic.length⟩).out

end Punycode

/-- A label in ASCII and lower case. Beyond ASCII, letters of the first blocks lose their case. -/
def label (l : List Char) : List Char :=
  let lower (c : Char) : Char :=
    let n := c.toNat
    if (0xC0 ≤ n && n ≤ 0xDE && n != 0xD7) || (0x391 ≤ n && n ≤ 0x3A9) || (0x410 ≤ n && n ≤ 0x42F) then
      Char.ofNat (n + 32)
    else c.toLower
  let l := l.map lower
  if l.all fun c => c.toNat < 0x80 then l else "xn--".toList ++ Punycode.encode l

/-! ## Numbers of four bytes -/

def valueOf? (base : Nat) (s : List Char) : Option Nat :=
  s.foldlM (fun n c => match hexValue? c with
    | some d => if d < base then some (base * n + d) else none
    | none => none) 0

/-- A part of a number: decimal, octal after a zero, or of base sixteen after a zero and an x. -/
def number? : List Char → Option Nat
  | [] => none
  | '0' :: 'x' :: rest => valueOf? 16 rest
  | '0' :: 'X' :: rest => valueOf? 16 rest
  | '0' :: c :: rest => valueOf? 8 (c :: rest)
  | s => valueOf? 10 s

/-- The parts of a host between dots, without an empty last one. -/
def parts (s : List Char) : List (List Char) :=
  match (Text.pieces '.' s).reverse with
  | [] :: p :: rest => (p :: rest).reverse
  | all => all.reverse

/-- Whether the last part is a number, so that the host must be one. -/
def endsInNumber (s : List Char) : Bool :=
  match (parts s).getLast? with
  | none => false
  | some [] => false
  | some last => last.all Char.isDigit || (number? last).isSome

/-- The value of the parts of a number: the last one fills the bytes that are left. -/
def combine (ns : List Nat) : Option Nat :=
  match ns.reverse with
  | [] => none
  | last :: before =>
    let heads := before.reverse
    if 4 < ns.length || heads.any (255 < ·) || Nat.pow 256 (5 - ns.length) ≤ last then none
    else some (heads.zipIdx.foldl (fun sum (n, i) => sum + n * Nat.pow 256 (3 - i)) last)

def dotted (n : Nat) : List Char :=
  (".".intercalate ([n / 0x1000000, n / 0x10000 % 256, n / 256 % 256, n % 256].map toString)).toList

/-! ## Numbers of sixteen bytes -/

def group? (s : List Char) : Option Nat := if s.isEmpty || 4 < s.length then none else valueOf? 16 s

/-- The groups of a text between colons; the last may be four bytes in decimal. -/
def groups? (s : List Char) : Option (List Nat) :=
  if s.isEmpty then some []
  else
    let all := Text.pieces ':' s
    match all.getLast? with
    | none => some []
    | some last =>
      if last.contains '.' then do
        let heads ← all.dropLast.mapM group?
        let bytes ← (Text.pieces '.' last).mapM fun b => if b.isEmpty then none else valueOf? 10 b
        match bytes with
        | [a, b, c, d] => if bytes.any (255 < ·) then none else some (heads ++ [256 * a + b, 256 * c + d])
        | _ => none
      else all.mapM group?

def cutDouble : List Char → Option (List Char × List Char)
  | ':' :: ':' :: rest => some ([], rest)
  | c :: rest => (cutDouble rest).map fun (before, after) => (c :: before, after)
  | [] => none

def eight? (s : List Char) : Option (List Nat) := do
  match cutDouble s with
  | none =>
    let gs ← groups? s
    if gs.length = 8 then some gs else none
  | some (before, after) =>
    let a ← groups? before
    let b ← groups? after
    if 8 ≤ a.length + b.length then none
    else some (a ++ List.replicate (8 - a.length - b.length) 0 ++ b)

def zeros (gs : List Nat) : Nat := (gs.takeWhile (· == 0)).length

/-- Where the first of the longest runs of zeros starts, and its length. -/
def longestRun (gs : List Nat) : Nat × Nat :=
  (List.range gs.length).foldl (fun best i => if best.2 < zeros (gs.drop i) then (i, zeros (gs.drop i)) else best) (0, 0)

def colons (gs : List Nat) : List Char := ((gs.map (Nat.toDigits 16)).intersperse [':']).flatten

/-- A number of sixteen bytes as it is written: two colons stand for the first of the longest runs of zeros. -/
def bracketed (gs : List Nat) : List Char :=
  let (start, length) := longestRun gs
  if length < 2 then '[' :: colons gs ++ [']']
  else '[' :: colons (gs.take start) ++ "::".toList ++ colons (gs.drop (start + length)) ++ [']']

/-! ## Hosts -/

def isForbidden (c : Char) : Bool := c.toNat = 0 || "\t\n\r #/:<>?@[\\]^|".toList.contains c

def isForbiddenInName (c : Char) : Bool := isForbidden c || c == '%' || c.toNat < 0x20 || c.toNat = 0x7F

def inBrackets? : List Char → Option (List Char)
  | '[' :: rest => if rest.getLast? = some ']' then some rest.dropLast else none
  | _ => none

def parse? (s : List Char) : Option (List Char) :=
  match s with
  | '[' :: _ => (inBrackets? s).bind fun inside => (eight? inside).map bracketed
  | _ =>
    let name := ((Text.pieces '.' (decode s).toList).map label).intersperse ['.'] |>.flatten
    if name.isEmpty || name.any isForbiddenInName then none
    else if endsInNumber name then (((parts name).mapM number?).bind combine).map dotted
    else some name

def parseForeign? (s : List Char) : Option (List Char) :=
  match s with
  | '[' :: _ => (inBrackets? s).bind fun inside => (eight? inside).map bracketed
  | _ => if s.any isForbidden then none else some (encode (fun _ => false) s)

end LintHub.Url.Host
