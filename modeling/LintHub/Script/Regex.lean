import LintHub.Script.Syntax

/-!
# Regular expressions

* `Regex` is an expression over bytes, `Regex.rests` what may follow a match at the start of a text.
* `Regex.parse?` reads the basic and the extended notation.
* `Regex.occursIn` searches a line.
-/

namespace LintHub.Script

structure Bracket where
  negated : Bool
  ranges : List (Char × Char)
deriving Inhabited

namespace Bracket

def has (b : Bracket) (c : Char) : Bool := b.negated != b.ranges.any fun (low, high) => low ≤ c && c ≤ high

def classRanges : String → List (Char × Char)
  | "alpha" => [('a', 'z'), ('A', 'Z')]
  | "digit" => [('0', '9')]
  | "alnum" => [('a', 'z'), ('A', 'Z'), ('0', '9')]
  | "upper" => [('A', 'Z')]
  | "lower" => [('a', 'z')]
  | "space" => [('\t', '\r'), (' ', ' ')]
  | "blank" => [('\t', '\t'), (' ', ' ')]
  | _ => []

/-- The ranges up to the closing bracket, and what follows it. -/
def rangesFrom : Nat → Bool → Raw → Option (List (Char × Char) × Raw)
  | 0, _, _ => none
  | _ + 1, _, [] => none
  | fuel + 1, first, c :: rest =>
    if c = ']' && !first then some ([], rest)
    else match c, rest with
      | '[', ':' :: after =>
        (rangesFrom fuel false ((after.dropWhile (· != ']')).drop 1)).map fun (rs, r) =>
          (classRanges (String.ofList (after.takeWhile (· != ':'))) ++ rs, r)
      | low, '-' :: high :: after =>
        if high = ']' then (rangesFrom fuel false rest).map fun (rs, r) => ((low, low) :: rs, r)
        else (rangesFrom fuel false after).map fun (rs, r) => ((low, high) :: rs, r)
      | c, rest => (rangesFrom fuel false rest).map fun (rs, r) => ((c, c) :: rs, r)

/-- The set that stands after an opening bracket; `marks` negate it. -/
def parse? (marks : List Char) (s : Raw) : Option (Bracket × Raw) :=
  match s with
  | [] => none
  | c :: rest =>
    if marks.contains c then (rangesFrom s.length true rest).map fun (rs, r) => (⟨true, rs⟩, r)
    else (rangesFrom (s.length + 1) true s).map fun (rs, r) => (⟨false, rs⟩, r)

end Bracket

inductive Regex where
  | empty
  | char (c : Char)
  | any
  | bracket (b : Bracket)
  /-- The start of the line. -/
  | start
  /-- The end of the line. -/
  | finish
  | both (r s : Regex)
  | either (r s : Regex)
  /-- At least and at most so many times. -/
  | repeated (r : Regex) (least : Nat) (most : Option Nat)
deriving Inhabited

namespace Regex

/-! ## Matching -/

/-- Texts without repetition, told apart by their lengths. -/
def distinct (ts : List Raw) : List Raw :=
  ts.foldr (fun t done => if done.any fun u => u.length == t.length then done else t :: done) []

/-- What remains after further steps, while they shorten the text. -/
def closure (step : Raw → List Raw) : Nat → List Raw → List Raw
  | 0, ts => ts
  | n + 1, ts => distinct (ts ++ closure step n (distinct (ts.flatMap fun t =>
      (step t).filter fun u => u.length < t.length)))

/-- What may remain of a text after a match at its start; `size` is the length of the line. -/
def rests (size : Nat) : Regex → Raw → List Raw
  | empty, t => [t]
  | char c, t => match t with
    | d :: rest => if c = d then [rest] else []
    | [] => []
  | any, t => match t with
    | _ :: rest => [rest]
    | [] => []
  | bracket b, t => match t with
    | d :: rest => if b.has d then [rest] else []
    | [] => []
  | start, t => if t.length = size then [t] else []
  | finish, t => if t.isEmpty then [t] else []
  | both r s, t => distinct ((rests size r t).flatMap (rests size s))
  | either r s, t => distinct (rests size r t ++ rests size s t)
  | repeated r least most, t =>
    let forced := (List.range least).foldl (fun ts _ => distinct (ts.flatMap (rests size r))) [t]
    closure (rests size r) (match most with
      | some n => n - least
      | none => t.length) forced

def suffixes : Raw → List Raw
  | [] => [[]]
  | c :: rest => (c :: rest) :: suffixes rest

def occursIn (r : Regex) (line : Raw) : Bool := (suffixes line).any fun t => !(r.rests line.length t).isEmpty

/-- The first match in a line that starts in its last `t.length` characters: what stands before it, the match, and
what follows. The longest match at a place counts. -/
def first? (r : Regex) (size : Nat) : Raw → Option (Raw × Raw × Raw)
  | [] => if (r.rests size []).isEmpty then none else some ([], [], [])
  | c :: rest =>
    match r.rests size (c :: rest) with
    | [] => (first? r size rest).map fun (before, found, after) => (c :: before, found, after)
    | t :: ts =>
      let shortest := ts.foldl (fun best u => if u.length < best.length then u else best) t
      some ([], (c :: rest).take (rest.length + 1 - shortest.length), shortest)

/-! ## Notation -/

/-- Whether an operator stands at the head, and what follows it. Basic notation writes most operators after a
backslash, extended notation without. -/
def operator? (extended : Bool) (o : Char) : Raw → Option Raw
  | '\\' :: c :: rest => if !extended && c = o then some rest else none
  | c :: rest => if extended && c = o then some rest else none
  | [] => none

def counts? (extended : Bool) (s : Raw) : Option (Nat × Option Nat × Raw) :=
  let number (t : Raw) : Nat := t.foldl (fun n c => 10 * n + (c.toNat - 48)) 0
  let least := s.takeWhile Char.isDigit
  let rest := s.dropWhile Char.isDigit
  match rest with
  | ',' :: rest =>
    let most := rest.takeWhile Char.isDigit
    (operator? extended '\x7d' (rest.dropWhile Char.isDigit)).map fun r =>
      (number least, if most.isEmpty then none else some (number most), r)
  | _ => (operator? extended '\x7d' rest).map fun r => (number least, some (number least), r)

def repetitions (extended : Bool) : Nat → Regex → Raw → Regex × Raw
  | 0, r, s => (r, s)
  | fuel + 1, r, s =>
    match s with
    | '*' :: rest => repetitions extended fuel (.repeated r 0 none) rest
    | _ =>
      match operator? extended '+' s, operator? extended '?' s, (operator? extended '\x7b' s).bind (counts? extended) with
      | some rest, _, _ => repetitions extended fuel (.repeated r 1 none) rest
      | _, some rest, _ => repetitions extended fuel (.repeated r 0 (some 1)) rest
      | _, _, some (least, most, rest) => repetitions extended fuel (.repeated r least most) rest
      | none, none, none => (r, s)

mutual

def alternatives? (extended : Bool) : Nat → Raw → Option (Regex × Raw)
  | 0, _ => none
  | fuel + 1, s => do
    let (r, rest) ← sequence? extended fuel true s
    match operator? extended '|' rest with
    | some rest => (alternatives? extended fuel rest).map fun (t, rest) => (.either r t, rest)
    | none => some (r, rest)

/-- Items one after another; at the `first` one a star is a star. -/
def sequence? (extended : Bool) : Nat → Bool → Raw → Option (Regex × Raw)
  | 0, _, _ => none
  | fuel + 1, first, s =>
    if s.isEmpty || (operator? extended '|' s).isSome || (operator? extended ')' s).isSome then some (.empty, s)
    else do
      let (item, rest) ← item? extended fuel first s
      let (item, rest) := if item matches .start then (item, rest) else repetitions extended rest.length item rest
      (sequence? extended fuel (item matches .start) rest).map fun (r, rest) => (.both item r, rest)

def item? (extended : Bool) : Nat → Bool → Raw → Option (Regex × Raw)
  | 0, _, _ => none
  | fuel + 1, first, s =>
    match operator? extended '(' s with
    | some rest => do
      let (r, rest) ← alternatives? extended fuel rest
      (operator? extended ')' rest).map fun rest => (r, rest)
    | none =>
      match s with
      | [] => none
      | '.' :: rest => some (.any, rest)
      | '[' :: rest => (Bracket.parse? ['^'] rest).map fun (b, rest) => (.bracket b, rest)
      | '^' :: rest => some (if extended || first then .start else .char '^', rest)
      | '$' :: rest =>
        let last := rest.isEmpty || (operator? extended '|' rest).isSome || (operator? extended ')' rest).isSome
        some (if extended || last then .finish else .char '$', rest)
      | '\\' :: c :: rest => some (.char c, rest)
      | ['\\'] => none
      | c :: rest => some (.char c, rest)

end

def parse? (extended : Bool) (s : Raw) : Option Regex :=
  match alternatives? extended (4 * s.length + 8) s with
  | some (r, []) => some r
  | _ => none

end Regex

/-! ## Patterns of file names -/

inductive Glyph where
  | char (c : Char)
  | one
  | many
  | bracket (b : Bracket)
deriving Inhabited

namespace Glyph

/-- The steps of a pattern. Quoted characters, marked true, stand for themselves. -/
def parse : Nat → List (Char × Bool) → List Glyph
  | 0, _ => []
  | _ + 1, [] => []
  | fuel + 1, (c, quoted) :: rest =>
    if quoted then .char c :: parse fuel rest
    else match c with
      | '*' => .many :: parse fuel rest
      | '?' => .one :: parse fuel rest
      | '[' =>
        match Bracket.parse? ['!', '^'] (rest.map (·.1)) with
        | some (b, after) => .bracket b :: parse fuel (rest.drop (rest.length - after.length))
        | none => .char c :: parse fuel rest
      | _ => .char c :: parse fuel rest

def accepts : List Glyph → Raw → Bool
  | [], t => t.isEmpty
  | .many :: gs, t => (Regex.suffixes t).any (accepts gs)
  | .char c :: gs, t => match t with
    | d :: rest => c == d && accepts gs rest
    | [] => false
  | .one :: gs, t => match t with
    | _ :: rest => accepts gs rest
    | [] => false
  | .bracket b :: gs, t => match t with
    | d :: rest => b.has d && accepts gs rest
    | [] => false

/-- Whether a step stands for more than one text. -/
def isWild : Glyph → Bool
  | .char _ => false
  | _ => true

end Glyph

end LintHub.Script
