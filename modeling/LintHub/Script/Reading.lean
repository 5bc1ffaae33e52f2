import LintHub.Script.Syntax
import LintHub.Text.Search

/-!
# Reading scripts

* `Script.tokens?` cuts a script into words and operators.
* `Script.parse?` reads a script; none if it breaks the grammar.
-/

namespace LintHub.Script

/-! ## Words -/

def isNameStart (c : Char) : Bool := c.isAlpha || c == '_'

def isNameChar (c : Char) : Bool := c.isAlphanum || c == '_'

def isMeta (c : Char) : Bool := " \t\n;&|<>()".toList.contains c

/-- The text up to the closing mark at depth zero, and what follows it. Quotes hide marks. -/
def balanced (opening closing : Char) : Nat → Nat → Raw → Option (Raw × Raw)
  | 0, _, _ => none
  | _ + 1, _, [] => none
  | fuel + 1, depth, c :: rest =>
    if c = closing && depth = 0 then some ([], rest)
    else if c = '\\' then
      match rest with
      | [] => none
      | e :: rest => (balanced opening closing fuel depth rest).map fun (t, r) => ('\\' :: e :: t, r)
    else if c = '\'' || c = '"' then
      let inside := rest.takeWhile (· != c)
      match rest.dropWhile (· != c) with
      | [] => none
      | _ :: after => (balanced opening closing fuel depth after).map fun (t, r) => (c :: inside ++ c :: t, r)
    else
      let depth := if c = opening then depth + 1 else if c = closing then depth - 1 else depth
      (balanced opening closing fuel depth rest).map fun (t, r) => (c :: t, r)

/-- The operator and word of a parameter in braces, after its name. -/
def operatorOf (s : Raw) : Option (Raw × Raw) :=
  match s with
  | [] => none
  | ':' :: o :: rest => some ([':', o], rest)
  | '%' :: '%' :: rest => some (['%', '%'], rest)
  | '#' :: '#' :: rest => some (['#', '#'], rest)
  | o :: rest => some ([o], rest)

/-- The name at the start of a parameter: a name, digits, or one special character. -/
def parameterName (s : Raw) : Raw × Raw :=
  match s with
  | c :: rest =>
    if isNameStart c then (s.takeWhile isNameChar, s.dropWhile isNameChar)
    else if c.isDigit then (s.takeWhile Char.isDigit, s.dropWhile Char.isDigit)
    else ([c], rest)
  | [] => ([], [])

def bracedParameter (s : Raw) (quoted : Bool) : Part :=
  match s with
  | '#' :: c :: rest => .parameter (c :: rest) (some (['#'], [])) quoted
  | _ =>
    let (name, rest) := parameterName s
    .parameter name ((operatorOf rest).map fun (o, w) => (if o = ['#'] then ['#', '-'] else o, w)) quoted

def dollarPart (s : Raw) (quoted : Bool) : Option (Part × Raw) :=
  match s with
  | '(' :: '(' :: rest =>
    match balanced '(' ')' (rest.length + 1) 0 rest with
    | some (source, ')' :: after) => some (.value source quoted, after)
    | _ => none
  | '(' :: rest => (balanced '(' ')' (rest.length + 1) 0 rest).map fun (source, after) =>
      (.output source quoted, after)
  | '{' :: rest => (balanced '{' '}' (rest.length + 1) 0 rest).map fun (inside, after) =>
      (bracedParameter inside quoted, after)
  | c :: rest =>
    if isNameStart c then some (.parameter (s.takeWhile isNameChar) none quoted, s.dropWhile isNameChar)
    else if c.isDigit || "@*#?$!-".toList.contains c then some (.parameter [c] none quoted, rest)
    else some (.plain ['$'] quoted, s)
  | [] => some (.plain ['$'] quoted, [])

def backquoted : Raw → Option (Raw × Raw)
  | [] => none
  | '\x60' :: rest => some ([], rest)
  | '\\' :: c :: rest =>
    (backquoted rest).map fun (t, r) => (if "\x60$\\".toList.contains c then c :: t else '\\' :: c :: t, r)
  | c :: rest => (backquoted rest).map fun (t, r) => (c :: t, r)

/-- The parts inside double quotes up to the closing one, or all of a here document. -/
def quotedParts (closing : Option Char) : Nat → Raw → Option (Word × Raw)
  | 0, _ => none
  | _ + 1, [] => if closing.isNone then some ([], []) else none
  | fuel + 1, c :: rest =>
    if some c = closing then some ([], rest)
    else if c = '\\' then
      match rest with
      | [] => some ([.plain ['\\'] true], [])
      | e :: after =>
        let text := if e = '\n' then [] else if "$\x60\"\\".toList.contains e then [e] else ['\\', e]
        (quotedParts closing fuel after).map fun (w, r) => (.plain text true :: w, r)
    else if c = '$' then do
      let (part, after) ← dollarPart rest true
      let (w, r) ← quotedParts closing fuel after
      some (part :: w, r)
    else if c = '\x60' then do
      let (source, after) ← backquoted rest
      let (w, r) ← quotedParts closing fuel after
      some (.output source true :: w, r)
    else (quotedParts closing fuel rest).map fun (w, r) => (.plain [c] true :: w, r)

/-- The parts of a word, up to a character that ends it. -/
def wordParts : Nat → Raw → Option (Word × Raw)
  | 0, _ => none
  | _ + 1, [] => some ([], [])
  | fuel + 1, c :: rest =>
    if isMeta c then some ([], c :: rest)
    else if c = '\\' then
      match rest with
      | [] => some ([.plain ['\\'] true], [])
      | '\n' :: after => wordParts fuel after
      | e :: after => (wordParts fuel after).map fun (w, r) => (.plain [e] true :: w, r)
    else if c = '\'' then
      match rest.dropWhile (· != '\'') with
      | [] => none
      | _ :: after => (wordParts fuel after).map fun (w, r) =>
          (.plain (rest.takeWhile (· != '\'')) true :: w, r)
    else if c = '"' then do
      let (inside, after) ← quotedParts (some '"') (rest.length + 1) rest
      let (w, r) ← wordParts fuel after
      some (.plain [] true :: inside ++ w, r)
    else if c = '$' then do
      let (part, after) ← dollarPart rest false
      let (w, r) ← wordParts fuel after
      some (part :: w, r)
    else if c = '\x60' then do
      let (source, after) ← backquoted rest
      let (w, r) ← wordParts fuel after
      some (.output source false :: w, r)
    else (wordParts fuel rest).map fun (w, r) => (.plain [c] false :: w, r)

def bare? : Part → Option Raw
  | .plain t false => some t
  | _ => none

def bareText? (w : Word) : Option Raw := (w.mapM bare?).map List.flatten

/-! ## Tokens -/

inductive Token where
  | word (line : Nat) (w : Word)
  | operator (text : String)
  | descriptor (n : Nat)
  | hereText (w : Word)
deriving Inhabited

/-- The operators, longer ones first. -/
def operators : List String := ["&&", "||", ";;", ">>", ">&", "<&", ">|", "\n", ";", "&", "|", "(", ")", "<", ">"]

/-- The lines of a here document up to the line `mark`, and what follows it. -/
def hereLines (mark : Raw) (stripTabs : Bool) : Nat → Raw → Raw × Raw
  | 0, s => ([], s)
  | fuel + 1, s =>
    match s with
    | [] => ([], [])
    | _ =>
      let line := s.takeWhile (· != '\n')
      let after := (s.dropWhile (· != '\n')).drop 1
      let line := if stripTabs then line.dropWhile (· == '\t') else line
      if line = mark then ([], after)
      else
        let (body, rest) := hereLines mark stripTabs fuel after
        (line ++ '\n' :: body, rest)

def unquoted (w : Word) : Raw := w.flatMap fun part => match part with
  | .plain t _ => t
  | _ => []

def isQuoted (w : Word) : Bool := w.any fun part => match part with
  | .plain _ q => q
  | _ => false

def tokensFrom : Nat → Nat → Raw → Option (List Token)
  | 0, _, _ => none
  | _ + 1, _, [] => some []
  | fuel + 1, line, c :: rest =>
    if c = ' ' || c = '\t' then tokensFrom fuel line rest
    else if c = '\\' && rest.head? = some '\n' then tokensFrom fuel (line + 1) (rest.drop 1)
    else if c = '#' then tokensFrom fuel line (rest.dropWhile (· != '\n'))
    else if c = '<' && rest.head? = some '<' then do
      let stripTabs := (rest.drop 1).head? == some '-'
      let after := ((rest.drop (if stripTabs then 2 else 1)).dropWhile fun c => c == ' ' || c == '\t')
      let (mark, after) ← wordParts (after.length + 1) after
      let restOfLine := after.takeWhile (· != '\n')
      let (body, beyond) := hereLines (unquoted mark) stripTabs (after.length + 1)
        ((after.dropWhile (· != '\n')).drop 1)
      let text ← if isQuoted mark then some [Part.plain body true]
        else (quotedParts none (body.length + 1) body).map (·.1)
      let tokens ← tokensFrom fuel line (restOfLine ++ '\n' :: beyond)
      some (.hereText text :: tokens)
    else match operators.find? fun o => o.toList.isPrefixOf (c :: rest) with
      | some o =>
        (tokensFrom fuel (if c = '\n' then line + 1 else line) ((c :: rest).drop o.length)).map (.operator o :: ·)
      | none => do
        let (w, after) ← wordParts (rest.length + 2) (c :: rest)
        let used := (c :: rest).take (rest.length + 1 - after.length)
        let tokens ← tokensFrom fuel (line + used.count '\n') after
        match bareText? w, after.head? with
        | some [d], some '<' => if d.isDigit then some (.descriptor (d.toNat - 48) :: tokens) else
            some (.word line w :: tokens)
        | some [d], some '>' => if d.isDigit then some (.descriptor (d.toNat - 48) :: tokens) else
            some (.word line w :: tokens)
        | _, _ => some (.word line w :: tokens)

def tokens? (s : Raw) : Option (List Token) := tokensFrom (2 * s.length + 2) 1 s

/-! ## Commands -/

def keyword? : Token → Option String
  | .word _ w => (bareText? w).map String.ofList
  | _ => none

def closers : List String := ["then", "else", "elif", "fi", "do", "done", "esac", "\x7d"]

def skipNewlines : List Token → List Token
  | .operator "\n" :: rest => skipNewlines rest
  | ts => ts

def expect (k : String) : List Token → Option (List Token)
  | t :: rest => if keyword? t = some k then some rest else none
  | [] => none

def atEnd : List Token → Bool
  | [] => true
  | .operator ")" :: _ => true
  | .operator ";;" :: _ => true
  | t :: _ => (keyword? t).any closers.contains

def directionOf? : String → Option (Direction × Nat)
  | "<" => some (.input, 0)
  | ">" => some (.output, 1)
  | ">|" => some (.output, 1)
  | ">>" => some (.append, 1)
  | ">&" => some (.copy, 1)
  | "<&" => some (.copy, 0)
  | _ => none

def redirect? : List Token → Option (Redirect × List Token)
  | .descriptor n :: .operator o :: .word _ w :: rest =>
    (directionOf? o).map fun (d, _) => (⟨n, d, w⟩, rest)
  | .descriptor n :: .hereText w :: rest => some (⟨n, .here, w⟩, rest)
  | .operator o :: .word _ w :: rest => (directionOf? o).map fun (d, n) => (⟨n, d, w⟩, rest)
  | .hereText w :: rest => some (⟨0, .here, w⟩, rest)
  | _ => none

def redirects : Nat → List Token → List Redirect × List Token
  | 0, ts => ([], ts)
  | fuel + 1, ts =>
    match redirect? ts with
    | some (r, rest) =>
      let (more, rest) := redirects fuel rest
      (r :: more, rest)
    | none => ([], ts)

/-- Joins neighbouring plain parts at the start of a word that is an assignment. -/
def assignment? (w : Word) : Option (Raw × Word) :=
  let rec name (done : Raw) : Word → Option (Raw × Word)
    | .plain [] false :: rest => name done rest
    | .plain (c :: t) false :: rest =>
      if c = '=' then
        match done.reverse with
        | [] => none
        | d :: _ => if isNameStart d then some (done.reverse, .plain t false :: rest) else none
      else if isNameChar c && t.isEmpty then name (c :: done) rest
      else none
    | _ => none
  name [] w

/-- A simple command: assignments, words and redirections. -/
def simple (line : Nat) : Nat → List (Raw × Word) → List Word → List Redirect → List Token →
    Command × List Token
  | 0, as, ws, rs, ts => (.simple line as.reverse ws.reverse rs.reverse, ts)
  | fuel + 1, as, ws, rs, ts =>
    match redirect? ts with
    | some (r, rest) => simple line fuel as ws (r :: rs) rest
    | none =>
      match ts with
      | .word _ w :: rest =>
        match (if ws.isEmpty then assignment? w else none) with
        | some a => simple line fuel (a :: as) ws rs rest
        | none => simple line fuel as (w :: ws) rs rest
      | _ => (.simple line as.reverse ws.reverse rs.reverse, ts)

def itemWords : List Token → List Word × List Token
  | .word _ w :: rest =>
    let (ws, rest) := itemWords rest
    (w :: ws, rest)
  | ts => ([], ts)

def armPatterns : List Token → Option (List Word × List Token)
  | .word _ w :: .operator "|" :: rest => (armPatterns rest).map fun (ws, r) => (w :: ws, r)
  | .word _ w :: .operator ")" :: rest => some ([w], rest)
  | _ => none

def withRedirects (c : Command) (ts : List Token) : Command × List Token :=
  match redirects ts.length ts with
  | ([], rest) => (c, rest)
  | (rs, rest) => (.group c rs, rest)

mutual

def list? : Nat → List Token → Option (Command × List Token)
  | 0, _ => none
  | fuel + 1, ts =>
    match skipNewlines ts with
    | .operator ";" :: rest => list? fuel rest
    | ts =>
      if atEnd ts then some (.nothing, ts)
      else do
        let (first, rest) ← andOr? fuel ts
        match rest with
        | .operator ";" :: rest => (list? fuel rest).map fun (c, r) => (.both first c, r)
        | .operator "&" :: rest => (list? fuel rest).map fun (c, r) => (.both first c, r)
        | .operator "\n" :: rest => (list? fuel rest).map fun (c, r) => (.both first c, r)
        | rest => if atEnd rest then some (first, rest) else none

/-- Pipelines joined by conditions, from the left. -/
def andOr? : Nat → List Token → Option (Command × List Token)
  | 0, _ => none
  | fuel + 1, ts => do
    let (first, rest) ← pipeline? fuel ts
    more? fuel first rest

def more? : Nat → Command → List Token → Option (Command × List Token)
  | 0, _, _ => none
  | fuel + 1, first, ts =>
    match ts with
    | .operator "&&" :: rest => do
      let (second, rest) ← pipeline? fuel (skipNewlines rest)
      more? fuel (.andThen first second) rest
    | .operator "||" :: rest => do
      let (second, rest) ← pipeline? fuel (skipNewlines rest)
      more? fuel (.orElse first second) rest
    | ts => some (first, ts)

def pipeline? : Nat → List Token → Option (Command × List Token)
  | 0, _ => none
  | fuel + 1, ts =>
    match expect "!" ts with
    | some rest => (pipeline? fuel rest).map fun (c, r) => (.negate c, r)
    | none => do
      let (first, rest) ← command? fuel ts
      match rest with
      | .operator "|" :: rest => (pipeline? fuel (skipNewlines rest)).map fun (c, r) => (.pipe first c, r)
      | rest => some (first, rest)

def command? : Nat → List Token → Option (Command × List Token)
  | 0, _ => none
  | fuel + 1, ts =>
    match ts with
    | [] => none
    | .operator "(" :: rest => do
      let (body, rest) ← list? fuel rest
      match rest with
      | .operator ")" :: rest =>
        let (rs, rest) := redirects rest.length rest
        some (.subshell body rs, rest)
      | _ => none
    | .word line w :: rest =>
      match (bareText? w).map String.ofList with
      | some "if" => (conditional? fuel rest).map fun (c, r) => withRedirects c r
      | some "while" => (loop? fuel false rest).map fun (c, r) => withRedirects c r
      | some "until" => (loop? fuel true rest).map fun (c, r) => withRedirects c r
      | some "for" => (each? fuel rest).map fun (c, r) => withRedirects c r
      | some "case" => (select? fuel rest).map fun (c, r) => withRedirects c r
      | some "\x7b" => do
        let (body, rest) ← list? fuel rest
        let rest ← expect "\x7d" rest
        let (c, rest) := withRedirects body rest
        some (.group c [], rest)
      | text =>
        if text.any closers.contains then none
        else match rest with
          | .operator "(" :: .operator ")" :: rest => do
            let name ← bareText? w
            let (body, rest) ← command? fuel (skipNewlines rest)
            some (.define name body, rest)
          | _ => some (simple line ts.length [] [] [] ts)
    | .operator _ :: _ =>
      match simple 1 ts.length [] [] [] ts with
      | (.simple _ [] [] [], _) => none
      | found => some found
    | _ => some (simple 1 ts.length [] [] [] ts)

def conditional? : Nat → List Token → Option (Command × List Token)
  | 0, _ => none
  | fuel + 1, ts => do
    let (test, rest) ← list? fuel ts
    let rest ← expect "then" rest
    let (yes, rest) ← list? fuel rest
    match rest.head?.bind keyword? with
    | some "fi" => some (.choose test yes .nothing, rest.drop 1)
    | some "else" => do
      let (no, rest) ← list? fuel (rest.drop 1)
      let rest ← expect "fi" rest
      some (.choose test yes no, rest)
    | some "elif" => (conditional? fuel (rest.drop 1)).map fun (no, r) => (.choose test yes no, r)
    | _ => none

def loop? : Nat → Bool → List Token → Option (Command × List Token)
  | 0, _, _ => none
  | fuel + 1, until_, ts => do
    let (test, rest) ← list? fuel ts
    let rest ← expect "do" rest
    let (body, rest) ← list? fuel rest
    let rest ← expect "done" rest
    some (.loop until_ test body, rest)

def each? : Nat → List Token → Option (Command × List Token)
  | 0, _ => none
  | fuel + 1, ts =>
    match ts with
    | .word _ w :: rest => do
      let name ← bareText? w
      let (items, rest) := match expect "in" (skipNewlines rest) with
        | some rest => (fun x : List Word × List Token => (some x.1, x.2)) (itemWords rest)
        | none => (none, rest)
      let rest := match rest with
        | .operator ";" :: rest => rest
        | rest => rest
      let rest ← expect "do" (skipNewlines rest)
      let (body, rest) ← list? fuel rest
      let rest ← expect "done" rest
      some (.each name items body, rest)
    | _ => none

def select? : Nat → List Token → Option (Command × List Token)
  | 0, _ => none
  | fuel + 1, ts =>
    match ts with
    | .word _ subject :: rest => do
      let rest ← expect "in" (skipNewlines rest)
      let (arms, rest) ← arms? fuel (skipNewlines rest)
      some (.select subject arms, rest)
    | _ => none

def arms? : Nat → List Token → Option (List (List Word × Command) × List Token)
  | 0, _ => none
  | fuel + 1, ts =>
    match expect "esac" ts with
    | some rest => some ([], rest)
    | none => do
      let ts := match ts with
        | .operator "(" :: rest => rest
        | ts => ts
      let (patterns, rest) ← armPatterns ts
      let (body, rest) ← list? fuel rest
      let rest := match rest with
        | .operator ";;" :: rest => rest
        | rest => rest
      let (arms, rest) ← arms? fuel (skipNewlines rest)
      some ((patterns, body) :: arms, rest)

end

def parse? (s : Raw) : Option Command := do
  let ts ← tokens? s
  match list? (8 * ts.length + 16) ts with
  | some (c, []) => some c
  | _ => none

end LintHub.Script
