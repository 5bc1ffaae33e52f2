import LintHub.Disk.Basic
import LintHub.Script.Printing
import LintHub.Script.Regex
import LintHub.Text.Blank

/-!
# Programs of the system

* `Utility.run` is what the programs that scripts call do: they read files and their input, write, and change the
  disk.
-/

namespace LintHub.Script

/-- The text of bytes, as far as they are one. -/
def Raw.toText (r : Raw) : String := Text.decodeLossy r.toBytes

def Raw.toPath (r : Raw) : Path := ⟨r.toText⟩

structure Effect where
  out : Raw
  err : Raw
  status : Nat
  disk : Disk
  /-- Milliseconds that it slept. -/
  pause : Nat
deriving Inhabited

namespace Utility

def writes (d : Disk) (out : Raw) : Effect := ⟨out, [], 0, d, 0⟩

def fails (d : Disk) (name : String) (reason : String) : Effect :=
  ⟨[], Raw.ofString (name ++ ": " ++ reason ++ "\n"), 1, d, 0⟩

def Effect.followed (a : Effect) (b : Disk → Effect) : Effect :=
  let b := b a.disk
  ⟨a.out ++ b.out, a.err ++ b.err, max a.status b.status, b.disk, a.pause + b.pause⟩

def each (d : Disk) (args : List Raw) (f : Disk → Raw → Effect) : Effect :=
  args.foldl (fun done arg => Effect.followed done fun d => f d arg) (writes d [])

/-- Options before the other arguments: their letters, and the rest. -/
def options : List Raw → Raw × List Raw
  | ['-', '-'] :: rest => ([], rest)
  | ('-' :: c :: cs) :: rest =>
    let (letters, rest) := options rest
    (c :: cs ++ letters, rest)
  | args => ([], args)

/-- The bytes of a file, or of the input for a dash. -/
def contents (d : Disk) (input : Raw) (name : Raw) : Except OsError Raw :=
  if name = ['-'] then .ok input else (d.readBytes name.toPath).map Raw.ofBytes

/-- What files hold, or the input without files, one after another, and messages for those that cannot be read. -/
def gather (d : Disk) (program : String) (input : Raw) (files : List Raw) : Effect :=
  each d (if files.isEmpty then [['-']] else files) fun d file =>
    match contents d input file with
    | .ok bytes => writes d bytes
    | .error e => fails d program (file.toText ++ ": " ++ e.reason)

def linesOf (t : Raw) : List Raw :=
  match (Text.pieces '\n' t).reverse with
  | [] :: rest => rest.reverse
  | all => all.reverse

def unlines (ls : List Raw) : Raw := ls.flatMap fun l => l ++ ['\n']

def filter (d : Disk) (program : String) (input : Raw) (files : List Raw) (f : Raw → Raw) : Effect :=
  let all := gather d program input files
  { all with out := f all.out }

def decimalText (n : Int) : Raw := (toString n).toList

def sequence (first step last : Int) : List Int :=
  if step = 0 then []
  else
    let count := Int.fdiv (last - first) step
    if count < 0 then [] else (List.range (count.toNat + 1)).map fun (i : Nat) => first + step * (i : Int)

def seq (d : Disk) (args : List Raw) : Effect :=
  match args.map Printing.number with
  | [last] => writes d (unlines ((sequence 1 1 last).map decimalText))
  | [first, last] => writes d (unlines ((sequence first 1 last).map decimalText))
  | [first, step, last] => writes d (unlines ((sequence first step last).map decimalText))
  | _ => fails d "seq" "missing operand"

/-- The count of lines or bytes that the start or the end of a text is cut to: the letter, a plus, the number, and
the files. -/
def cutOptions : List Raw → Char × Bool × Nat × List Raw
  | ('-' :: 'n' :: '+' :: c :: cs) :: rest => ('n', true, Printing.decimal (c :: cs), rest)
  | ('-' :: 'n' :: c :: cs) :: rest => ('n', false, Printing.decimal (c :: cs), rest)
  | ('-' :: 'c' :: '+' :: c :: cs) :: rest => ('c', true, Printing.decimal (c :: cs), rest)
  | ('-' :: 'c' :: c :: cs) :: rest => ('c', false, Printing.decimal (c :: cs), rest)
  | ['-', k] :: ('+' :: cs) :: rest => if k.isDigit then ('n', false, k.toNat - 48, ('+' :: cs) :: rest) else
      (k, true, Printing.decimal cs, rest)
  | ['-', k] :: cs :: rest => if k.isDigit then ('n', false, k.toNat - 48, cs :: rest) else
      (k, false, Printing.decimal cs, rest)
  | ('-' :: c :: cs) :: rest => ('n', false, Printing.decimal (c :: cs), rest)
  | files => ('n', false, 10, files)

/-- The last so many items, or all from that position on. -/
def lastOf {α : Type} (plus : Bool) (n : Nat) (l : List α) : List α :=
  if plus then l.drop (n - 1) else l.drop (l.length - n)

/-- The lines of a text with their line feeds, the last one perhaps without. -/
def rawLines (t : Raw) : List Raw :=
  match (Text.pieces '\n' t).reverse with
  | [] => []
  | last :: rest => ((rest.reverse.map (· ++ ['\n'])) ++ if last.isEmpty then [] else [last])

def head (d : Disk) (args : List Raw) (input : Raw) : Effect :=
  let (unit, _, n, files) := cutOptions args
  filter d "head" input files fun t => if unit = 'c' then t.take n else ((rawLines t).take n).flatten

def tail (d : Disk) (args : List Raw) (input : Raw) : Effect :=
  let (unit, plus, n, files) := cutOptions args
  filter d "tail" input files fun t => if unit = 'c' then lastOf plus n t else (lastOf plus n (rawLines t)).flatten

def lower (t : Raw) : Raw := t.map Char.toLower

structure Search where
  wanted : Regex
  letters : Raw

def Search.takes (s : Search) (line : Raw) : Bool :=
  let line := if s.letters.contains 'i' then lower line else line
  (s.wanted.occursIn line) != s.letters.contains 'v'

def grep (d : Disk) (args : List Raw) (input : Raw) : Effect :=
  let (letters, rest) := options args
  match rest with
  | [] => { fails d "grep" "no pattern" with status := 2 }
  | pattern :: files =>
    let pattern := if letters.contains 'i' then lower pattern else pattern
    let one (p : Raw) : Option Regex :=
      let r := if letters.contains 'F' then some (p.foldr (fun c r => .both (.char c) r) .empty)
        else Regex.parse? (letters.contains 'E') p
      if letters.contains 'x' then r.map fun r => .both .start (.both r .finish) else r
    match (Text.pieces '\n' pattern).mapM one with
    | none => { fails d "grep" "Invalid regular expression" with status := 2 }
    | some rs =>
      let s : Search := ⟨(rs.drop 1).foldl .either (rs.headD .empty), letters⟩
      let named := 1 < files.length && !letters.contains 'h'
      let all := each d (if files.isEmpty then [['-']] else files) fun d file =>
        match contents d input file with
        | .error e =>
          { fails d "grep" (file.toText ++ ": " ++ e.reason) with
            err := if letters.contains 's' then [] else Raw.ofString ("grep: " ++ file.toText ++ ": " ++ e.reason ++ "\n")
            status := 2 }
        | .ok t =>
          let label := if named then file ++ [':'] else []
          let hits := ((linesOf t).zipIdx 1).filter fun (line, _) => s.takes line
          if letters.contains 'q' then ⟨if hits.isEmpty then [] else ['\n'], [], 0, d, 0⟩
          else if letters.contains 'l' then ⟨if hits.isEmpty then [] else file ++ ['\n'], [], 0, d, 0⟩
          else if letters.contains 'c' then ⟨label ++ decimalText hits.length ++ ['\n'], [], 0, d, 0⟩
          else ⟨hits.flatMap fun (line, n) =>
            label ++ (if letters.contains 'n' then decimalText n ++ [':'] else []) ++ line ++ ['\n'], [], 0, d, 0⟩
      if letters.contains 'q' then
        { all with out := [], status := if all.out.isEmpty then (if all.status = 2 then 2 else 1) else 0 }
      else
        let found := if letters.contains 'c' then all.out.any fun c => '1' ≤ c && c ≤ '9' else !all.out.isEmpty
        { all with status := if all.status = 2 then 2 else if found then 0 else 1 }

def substitute (r : Regex) (by_ : Raw) (all : Bool) : Nat → Raw → Raw
  | 0, line => line
  | fuel + 1, line =>
    match r.first? line.length line with
    | none => line
    | some (before, found, after) =>
      let put := by_.flatMap fun c => if c = '&' then found else [c]
      if !all then before ++ put ++ after
      else match found, after with
        | [], [] => before ++ put
        | [], c :: rest => before ++ put ++ c :: substitute r by_ all fuel rest
        | _, _ => before ++ put ++ substitute r by_ all fuel after

/-- Edits lines by one replacement. -/
def sed (d : Disk) (args : List Raw) (input : Raw) : Effect :=
  let (letters, rest) := options args
  match rest with
  | ('s' :: mark :: body) :: files =>
    match Text.pieces mark body with
    | [wanted, by_, flags] =>
      match Regex.parse? (letters.contains 'E') wanted with
      | none => fails d "sed" "bad expression"
      | some r =>
        let edit (t : Raw) : Raw := (rawLines t).flatMap fun line =>
          let bare := line.takeWhile (· != '\n')
          substitute r by_ (flags.contains 'g') (bare.length + 1) bare ++ line.drop bare.length
        if letters.contains 'i' then
          each d files fun d file =>
            match contents d input file with
            | .error e => fails d "sed" ("can't read " ++ file.toText ++ ": " ++ e.reason)
            | .ok t =>
              match d.writeBytes file.toPath (edit t).toBytes with
              | .ok d => writes d []
              | .error e => fails d "sed" e.reason
        else filter d "sed" input files edit
    | _ => fails d "sed" "bad expression"
  | _ => fails d "sed" "bad expression"

def change (d : Disk) (program : String) (what : String) (args : List Raw)
    (f : Disk → Path → Except OsError Disk) : Effect :=
  each d args fun d arg =>
    match f d arg.toPath with
    | .ok d => writes d []
    | .error e => fails d program (what ++ "\x27" ++ arg.toText ++ "\x27: " ++ e.reason)

/-- The disk without a location and what lies under it. -/
def eraseTree (d : Disk) (loc : Location) : Disk :=
  { d with nodes := d.nodes.filter fun entry => !loc.isPrefixOf entry.1 }

def rm (d : Disk) (args : List Raw) : Effect :=
  let (letters, files) := options args
  change d "rm" "cannot remove " files fun d p =>
    match d.stat false p with
    | .ok (loc, .dir) =>
      if letters.contains 'r' || letters.contains 'R' then .ok (eraseTree d loc) else .error .isDirectory
    | .ok (loc, _) => .ok (d.erase loc)
    | .error e => if letters.contains 'f' then .ok d else .error e

def touch (d : Disk) (args : List Raw) : Effect :=
  change d "touch" "cannot touch " (options args).2 fun d p => if d.has p then .ok d else d.writeBytes p ⟨#[]⟩

def mkdir (d : Disk) (args : List Raw) : Effect :=
  let (letters, dirs) := options args
  change d "mkdir" "cannot create directory " dirs fun d p =>
    if letters.contains 'p' then d.makeDirs p else d.makeDir p

/-- Where a file is copied or moved to: into a directory under its own name. -/
def destination (d : Disk) (source target : Raw) : Path :=
  if d.isDir target.toPath then
    target.toPath.child (String.ofList ((Text.pieces '/' source.toText.toList).getLastD []))
  else target.toPath

def cp (d : Disk) (args : List Raw) : Effect :=
  match (options args).2 with
  | [source, target] => change d "cp" "cannot stat " [source] fun d p =>
      match d.readBytes p with
      | .ok bytes => d.writeBytes (destination d source target) bytes
      | .error e => .error e
  | _ => fails d "cp" "missing file operand"

def mv (d : Disk) (args : List Raw) : Effect :=
  match (options args).2 with
  | [source, target] => change d "mv" "cannot stat " [source] fun d p =>
      match d.stat false p with
      | .ok (loc, n) =>
        match d.find false (destination d source target) with
        | .ok (there, _) => .ok ((d.erase loc).put there n)
        | .error e => .error e
      | .error e => .error e
  | _ => fails d "mv" "missing file operand"

def chmod (d : Disk) (args : List Raw) : Effect :=
  match args with
  | mode :: files =>
    let executable := mode.contains 'x' && !mode.contains '-' || mode.any fun c => c == '7' || c == '5' || c == '1'
    change d "chmod" "cannot access " files fun d p =>
      match d.stat true p with
      | .ok (loc, .file bytes _) => .ok (d.put loc (.file bytes executable))
      | .ok _ => .ok d
      | .error e => .error e
  | [] => fails d "chmod" "missing operand"

/-- Counts lines, words and bytes of the input or of one file. -/
def wc (d : Disk) (args : List Raw) (input : Raw) : Effect :=
  let (letters, files) := options args
  let all := gather d "wc" input files
  let counts := (if letters.isEmpty || letters.contains 'l' then [all.out.count '\n'] else []) ++
    (if letters.isEmpty || letters.contains 'w' then [(Text.words all.out).length] else []) ++
    (if letters.isEmpty || letters.contains 'c' then [all.out.length] else [])
  let width := if counts.length = 1 then 0 else 7
  let text := (counts.map fun (n : Nat) =>
    List.replicate (width - (decimalText n).length) ' ' ++ decimalText n).intersperse [' ']
  let label := match files with
    | [f] => ' ' :: f
    | _ => []
  if all.status = 0 then { all with out := text.flatten ++ label ++ ['\n'] } else { all with out := [] }

def sort (d : Disk) (args : List Raw) (input : Raw) : Effect :=
  let (letters, files) := options args
  filter d "sort" input files fun t =>
    let ls := (linesOf t).mergeSort fun a b => !(String.ofList b < String.ofList a)
    let ls := if letters.contains 'n' then ls.mergeSort fun a b => decide (Printing.number a ≤ Printing.number b)
      else ls
    let ls := if letters.contains 'r' then ls.reverse else ls
    unlines (if letters.contains 'u' then ls.eraseReps else ls)

/-- The range of characters that a text of the kind a-z denotes, or its characters. -/
def charRange : Raw → Raw
  | a :: '-' :: b :: rest =>
    (List.range (b.toNat + 1 - a.toNat)).map (fun i => Char.ofNat (a.toNat + i)) ++ charRange rest
  | c :: rest => c :: charRange rest
  | [] => []

def tr (d : Disk) (args : List Raw) (input : Raw) : Effect :=
  let expand (t : Raw) : Raw := charRange (Printing.unescape false (t.length + 1) t).1
  match args with
  | [['-', 'd'], set] => writes d (input.filter fun c => !(expand set).contains c)
  | [set, by_] => writes d (input.map fun c =>
      match (expand set).idxOf? c with
      | some i => ((expand by_)[i]?).getD ((expand by_).getLastD c)
      | none => c)
  | _ => fails d "tr" "missing operand"

def basename (t ending : Raw) : Raw :=
  let name := ((Text.pieces '/' t).filter fun s => !s.isEmpty).getLastD ['/']
  if ending.isSuffixOf name && ending != name then name.take (name.length - ending.length) else name

def dirname (t : Raw) : Raw :=
  match t.toPath.parent? with
  | some p => if p.text = "" then ['.'] else Raw.ofString p.text
  | none => if t.isEmpty then ['.'] else ['/']

def ls (d : Disk) (args : List Raw) : Effect :=
  let (letters, dirs) := options args
  each d (if dirs.isEmpty then [['.']] else dirs) fun d dir =>
    match d.stat true dir.toPath with
    | .ok (loc, .dir) =>
      let names := ((d.namesIn loc).filter fun n => letters.contains 'a' || letters.contains 'A' || n.front != '.')
      writes d (unlines ((names.mergeSort fun a b => !(b < a)).map Raw.ofString))
    | .ok _ => writes d (dir ++ ['\n'])
    | .error e =>
      { fails d "ls" ("cannot access \x27" ++ dir.toText ++ "\x27: " ++ e.reason) with status := 2 }

def milliseconds (t : Raw) : Nat :=
  let whole := Printing.decimal (t.takeWhile Char.isDigit)
  match t.dropWhile Char.isDigit with
  | '.' :: rest => 1000 * whole + Printing.decimal ((rest.takeWhile Char.isDigit ++ ['0', '0', '0']).take 3)
  | ['m'] => 60000 * whole
  | _ => 1000 * whole

def names : List String := ["true", "false", "echo", "printf", "cat", "seq", "head", "tail", "grep", "sed", "sleep",
  "rm", "touch", "mkdir", "cp", "mv", "chmod", "wc", "sort", "uniq", "tr", "basename", "dirname", "ls"]

def run (name : String) (d : Disk) (args : List Raw) (input : Raw) : Option Effect :=
  match name with
  | "true" => some (writes d [])
  | "false" => some ⟨[], [], 1, d, 0⟩
  | "echo" => some (writes d (Printing.echo args))
  | "printf" => some (writes d (Printing.format (args.headD []) (args.length + 1) (args.drop 1)))
  | "cat" => some (gather d "cat" input (options args).2)
  | "seq" => some (seq d args)
  | "head" => some (head d args input)
  | "tail" => some (tail d args input)
  | "grep" => some (grep d args input)
  | "sed" => some (sed d args input)
  | "sleep" => some ⟨[], [], 0, d, (args.map milliseconds).foldl (· + ·) 0⟩
  | "rm" => some (rm d args)
  | "touch" => some (touch d args)
  | "mkdir" => some (mkdir d args)
  | "cp" => some (cp d args)
  | "mv" => some (mv d args)
  | "chmod" => some (chmod d args)
  | "wc" => some (wc d args input)
  | "sort" => some (sort d args input)
  | "uniq" => some (filter d "uniq" input (options args).2 fun t => unlines (linesOf t).eraseReps)
  | "tr" => some (tr d args input)
  | "basename" => some (writes d (basename (args.headD []) ((args.drop 1).headD []) ++ ['\n']))
  | "dirname" => some (writes d (dirname (args.headD []) ++ ['\n']))
  | "ls" => some (ls d args)
  | _ => none

end Utility

end LintHub.Script
