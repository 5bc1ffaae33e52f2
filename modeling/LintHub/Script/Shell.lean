import LintHub.Script.Reading
import LintHub.Script.Utility

/-!
# The state of a shell

* `Shell` is what a running script can see and change.
* `Shell.write` sends bytes where a descriptor is directed, `Shell.redirect` directs one.
* `Shell.condition` evaluates the tests that scripts make.
-/

namespace LintHub.Script

inductive Target where
  | buffer (n : Nat)
  | file (loc : Location)
  | nowhere
deriving Inhabited

structure Shell where
  disk : Disk
  /-- What was written to each buffer. The first two are the outputs of the whole run. -/
  buffers : Array ByteArray
  targets : List (Nat × Target)
  input : Raw
  bindings : List (Raw × Raw)
  exported : List Raw
  args : List Raw
  name : Raw
  status : Nat
  /-- Milliseconds since the start. -/
  now : Nat
  /-- Milliseconds after which the run is stopped. -/
  limit : Nat
  functions : List (Raw × Command)
  line : Nat
deriving Inhabited

inductive Flow where
  | next
  | leave
  | breakOut (levels : Nat)
  | again (levels : Nat)
  | back
  | killed (signal : Nat)
  | late
deriving DecidableEq, Inhabited

namespace Shell

def get? (sh : Shell) (name : Raw) : Option Raw := sh.bindings.lookup name

def set (sh : Shell) (name value : Raw) : Shell :=
  { sh with bindings := (name, value) :: sh.bindings.filter fun v => v.1 != name }

def ended (sh : Shell) (status : Nat) : Shell := { sh with status }

def writeTo (sh : Shell) (target : Target) (text : Raw) : Shell :=
  if text.isEmpty then sh
  else match target with
    | .buffer n => { sh with buffers := sh.buffers.modify n fun b => b ++ Raw.toBytes text }
    | .file loc =>
      match sh.disk.node? loc with
      | some (.file bytes executable) =>
        { sh with disk := sh.disk.put loc (.file (bytes ++ Raw.toBytes text) executable) }
      | _ => sh
    | .nowhere => sh

def write (sh : Shell) (descriptor : Nat) (text : Raw) : Shell :=
  sh.writeTo ((sh.targets.lookup descriptor).getD .nowhere) text

def complain (sh : Shell) (text : String) (status : Nat) : Shell :=
  (sh.write 2 (sh.name ++ Raw.ofString (": " ++ toString sh.line ++ ": " ++ text ++ "\n"))).ended status

def after (sh : Shell) (e : Effect) : Shell :=
  (({ sh with disk := e.disk, now := sh.now + e.pause }.write 1 e.out).write 2 e.err).ended e.status

def direct (sh : Shell) (descriptor : Nat) (t : Target) : Shell :=
  { sh with targets := (descriptor, t) :: sh.targets.filter fun entry => entry.1 != descriptor }

/-- Directs a descriptor as a redirection says, whose target was expanded; a message if that fails. -/
def redirect (sh : Shell) (descriptor : Nat) (direction : Direction) (target : Raw) : Except String Shell :=
  let opened (append : Bool) : Except String Shell :=
    let created (loc : Location) (bytes : ByteArray) (x : Bool) : Shell :=
      { sh with disk := sh.disk.put loc (.file bytes x) }.direct descriptor (.file loc)
    if target = "/dev/null".toList then .ok (sh.direct descriptor .nowhere)
    else match sh.disk.find true target.toPath with
      | .ok (loc, none) => .ok (created loc ⟨#[]⟩ false)
      | .ok (loc, some (.file bytes x)) => .ok (created loc (if append then bytes else ⟨#[]⟩) x)
      | .ok (_, some .dir) => .error ("cannot create " ++ target.toText ++ ": Is a directory")
      | .ok _ => .error ("cannot create " ++ target.toText ++ ": Permission denied")
      | .error .notFound => .error ("cannot create " ++ target.toText ++ ": Directory nonexistent")
      | .error e => .error ("cannot create " ++ target.toText ++ ": " ++ e.reason)
  match direction with
  | .output => opened false
  | .append => opened true
  | .here => .ok { sh with input := target }
  | .input =>
    if target = "/dev/null".toList then .ok { sh with input := [] }
    else match sh.disk.readBytes target.toPath with
      | .ok bytes => .ok { sh with input := Raw.ofBytes bytes }
      | .error .notFound => .error ("cannot open " ++ target.toText ++ ": No such file")
      | .error e => .error ("cannot open " ++ target.toText ++ ": " ++ e.reason)
  | .copy =>
    match target with
    | ['-'] => .ok (sh.direct descriptor .nowhere)
    | [d] =>
      if d.isDigit then
        if descriptor = 0 then .ok sh
        else .ok (sh.direct descriptor ((sh.targets.lookup (d.toNat - 48)).getD .nowhere))
      else .error "Bad fd number"
    | _ => .error "Bad fd number"

/-! ## Tests -/

def fileTest (d : Disk) (letter : Char) (name : Raw) : Bool :=
  let p := name.toPath
  match letter with
  | 'e' => d.has p
  | 'f' => d.isFile p
  | 'd' => d.isDir p
  | 'r' => d.has p
  | 'w' => d.has p
  | 'x' => match d.stat true p with
    | .ok (_, .file _ executable) => executable
    | .ok _ => true
    | .error _ => false
  | 's' => match d.readBytes p with
    | .ok bytes => 0 < bytes.size
    | .error _ => false
  | 'h' => match d.stat false p with
    | .ok (_, .link _) => true
    | _ => false
  | 'L' => match d.stat false p with
    | .ok (_, .link _) => true
    | _ => false
  | _ => false

/-- Whether two operands are in a relation; none if there is no such relation. -/
def relation? (a : Raw) (op : String) (b : Raw) : Option Bool :=
  let m := Printing.number a
  let n := Printing.number b
  match op with
  | "=" => some (a == b)
  | "==" => some (a == b)
  | "!=" => some (a != b)
  | "-eq" => some (m == n)
  | "-ne" => some (m != n)
  | "-lt" => some (decide (m < n))
  | "-le" => some (decide (m ≤ n))
  | "-gt" => some (decide (m > n))
  | "-ge" => some (decide (m ≥ n))
  | _ => none

/-- The value of a test; none if it is no test. -/
def condition (d : Disk) : Nat → List Raw → Option Bool
  | 0, _ => none
  | fuel + 1, args =>
    match args with
    | [] => some false
    | [a] => some (!a.isEmpty)
    | [a, b] =>
      if a = ['!'] then some b.isEmpty
      else match a with
        | ['-', 'z'] => some b.isEmpty
        | ['-', 'n'] => some (!b.isEmpty)
        | ['-', letter] => some (fileTest d letter b)
        | _ => none
    | a :: op :: b :: rest =>
      match relation? a (String.ofList op) b, rest with
      | some r, [] => some r
      | some r, ['-', 'a'] :: more => (condition d fuel more).map (r && ·)
      | some r, ['-', 'o'] :: more => (condition d fuel more).map (r || ·)
      | _, _ =>
        if a = ['!'] then (condition d fuel (op :: b :: rest)).map not
        else match b, rest with
          | ['-', 'a'], more => do
            let x ← condition d fuel [a, op]
            let y ← condition d fuel more
            some (x && y)
          | ['-', 'o'], more => do
            let x ← condition d fuel [a, op]
            let y ← condition d fuel more
            some (x || y)
          | _, _ => none

/-! ## Numbers -/

/-- The operators of expressions, from the loosest on. -/
def operatorLevels : List (List String) :=
  [["||"], ["&&"], ["==", "!="], ["<=", ">=", "<", ">"], ["+", "-"], ["*", "/", "%"]]

def operate (op : String) (a b : Int) : Int :=
  let truth (x : Bool) : Int := if x then 1 else 0
  match op with
  | "||" => truth (a != 0 || b != 0)
  | "&&" => truth (a != 0 && b != 0)
  | "==" => truth (a == b)
  | "!=" => truth (a != b)
  | "<=" => truth (decide (a ≤ b))
  | ">=" => truth (decide (a ≥ b))
  | "<" => truth (decide (a < b))
  | ">" => truth (decide (a > b))
  | "+" => a + b
  | "-" => a - b
  | "*" => a * b
  | "/" => Int.tdiv a b
  | _ => Int.tmod a b

def skipBlanks (s : Raw) : Raw := s.dropWhile fun c => c == ' ' || c == '\t' || c == '\n'

/-- The value of an expression at its head, and what follows it. `levels` are the operators that may stand in it. -/
def evaluate (sh : Shell) : Nat → List (List String) → Option (String × Int) → Raw → Int × Raw
  | 0, _, _, s => (0, s)
  | fuel + 1, levels, pending, s =>
    match levels with
    | [] =>
      match skipBlanks s with
      | '(' :: rest =>
        let (n, rest) := evaluate sh fuel operatorLevels none rest
        (n, (skipBlanks rest).drop 1)
      | '-' :: rest =>
        let (n, rest) := evaluate sh fuel [] none rest
        (-n, rest)
      | '!' :: rest =>
        let (n, rest) := evaluate sh fuel [] none rest
        (if n = 0 then 1 else 0, rest)
      | '$' :: rest => evaluate sh fuel [] none rest
      | c :: rest =>
        let s := c :: rest
        if c.isDigit then (Printing.number (s.takeWhile Char.isDigit), s.dropWhile Char.isDigit)
        else if isNameStart c then
          (Printing.number ((sh.get? (s.takeWhile isNameChar)).getD []), s.dropWhile isNameChar)
        else (0, rest)
      | [] => (0, [])
    | level :: tighter =>
      let (n, rest) := evaluate sh fuel tighter none s
      let n := match pending with
        | some (op, m) => operate op m n
        | none => n
      match level.find? fun op => op.toList.isPrefixOf (skipBlanks rest) with
      | some op => evaluate sh fuel levels (some (op, n)) ((skipBlanks rest).drop op.length)
      | none => (n, rest)

/-! ## Signals -/

def signalOf (s : String) : Nat :=
  match s with
  | "HUP" => 1
  | "INT" => 2
  | "QUIT" => 3
  | "ABRT" => 6
  | "KILL" => 9
  | "SEGV" => 11
  | "PIPE" => 13
  | "ALRM" => 14
  | "TERM" => 15
  | _ => Printing.decimal s.toList

/-- The number by which a shell calls itself. -/
def ownNumber : Raw := "4242".toList

end Shell

end LintHub.Script
