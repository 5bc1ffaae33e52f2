import LintHub.Running.Host
import LintHub.Script.Shell

/-!
# Running scripts

* `Shell.exec` runs a command; every step spends fuel, and a script that runs out of it counts as one that never
  ends.
* `Shell.launch` runs a program: a shell, another program of the system, or a file that names its interpreter.
* `Script.host` is the host that runs tools this way.
-/

namespace LintHub.Script

inductive Chunk where
  | text (t : Raw) (quoted split : Bool)
  /-- The end of a field. -/
  | cut
  /-- All arguments where there are none: nothing, not even an empty field. -/
  | vanish
deriving Inhabited

namespace Shell

def isLate (sh : Shell) : Bool := sh.limit ≤ sh.now

def exhausted (sh : Shell) : Shell := { sh with now := sh.limit }

/-- The shell after another that it started: what the other wrote and changed on the disk stays. -/
def resume (sh other : Shell) : Shell :=
  { sh with
    disk := { other.disk with here := sh.disk.here }
    buffers := other.buffers
    now := other.now
    status := other.status
    input := other.input }

/-- The shell with a new buffer for a descriptor, and the number of the buffer. -/
def capture (sh : Shell) (descriptor : Nat) : Nat × Shell :=
  let n := sh.buffers.size
  (n, { sh with buffers := sh.buffers.push ⟨#[]⟩ }.direct descriptor (.buffer n))

def captured (sh : Shell) (n : Nat) : Raw := Raw.ofBytes (sh.buffers[n]?.getD ⟨#[]⟩)

/-! ## Fields -/

def separators (sh : Shell) : Raw := (sh.get? "IFS".toList).getD [' ', '\t', '\n']

/-- Cuts pieces into fields; characters of a field are marked true if they are quoted. -/
def fieldsOf (ifs : Raw) : List Chunk → Option (List (Char × Bool)) → List (List (Char × Bool))
  | [], current => current.toList
  | .cut :: rest, current => current.toList ++ fieldsOf ifs rest none
  | .vanish :: rest, current => fieldsOf ifs rest (if current = some [] then none else current)
  | .text t quoted split :: rest, current =>
    if quoted || !split then
      if t.isEmpty && !quoted then fieldsOf ifs rest current
      else fieldsOf ifs rest (some (current.getD [] ++ t.map fun c => (c, quoted)))
    else
      let step (state : List (List (Char × Bool)) × Option (List (Char × Bool))) (c : Char) :
          List (List (Char × Bool)) × Option (List (Char × Bool)) :=
        if ifs.contains c then
          if c == ' ' || c == '\t' || c == '\n' then (state.1 ++ state.2.toList, none)
          else (state.1 ++ [state.2.getD []], none)
        else (state.1, some (state.2.getD [] ++ [(c, false)]))
      let (done, current) := t.foldl step ([], current)
      done ++ fieldsOf ifs rest current

def extend (d : Disk) (paths : List Raw) (step : List (Char × Bool)) : List Raw :=
  let glyphs := Glyph.parse (step.length + 1) step
  if glyphs.any Glyph.isWild then
    paths.flatMap fun base =>
      match d.stat true (if base.isEmpty then ⟨"."⟩ else base.toPath) with
      | .ok (loc, .dir) =>
        let names := ((d.namesIn loc).mergeSort fun a b => !(b < a)).map Raw.ofString
        (names.filter fun name => Glyph.accepts glyphs name && (name.head? != some '.' ||
          step.head?.map (·.1) == some '.')).map (base ++ ·)
      | _ => []
  else paths.map (· ++ step.map (·.1))

def stepsOf (field : List (Char × Bool)) : List (List (Char × Bool)) :=
  field.foldr (fun c steps => match steps with
    | [] => [[c]]
    | step :: rest => if c.1 = '/' then [] :: step :: rest else (c :: step) :: rest) [[]]

/-- The paths that a field matches, or its text if it matches none. -/
def matchPaths (d : Disk) (field : List (Char × Bool)) : List Raw :=
  let plain := field.map (·.1)
  if (Glyph.parse (field.length + 1) field).any Glyph.isWild then
    let found := match stepsOf field with
      | [] => []
      | step :: rest => rest.foldl (fun paths step => extend d (paths.map (· ++ ['/'])) step) (extend d [[]] step)
    match found.filter fun p => d.has p.toPath with
    | [] => [plain]
    | paths => paths
  else [plain]

/-- The text of pieces that are no fields. -/
def joined (chunks : List Chunk) : Raw := chunks.flatMap fun chunk => match chunk with
  | .text t _ _ => t
  | .cut => [' ']
  | .vanish => []

/-- The characters of pieces with marks on the quoted ones. -/
def marked (chunks : List Chunk) : List (Char × Bool) := chunks.flatMap fun chunk => match chunk with
  | .text t quoted _ => t.map fun c => (c, quoted)
  | _ => []

def dropFeeds (t : Raw) : Raw := (t.reverse.dropWhile (· == '\n')).reverse

/-! ## Parameters -/

/-- The value of a parameter that is one text. -/
def parameter? (sh : Shell) (name : Raw) : Option Raw :=
  match name with
  | ['#'] => some (toString sh.args.length).toList
  | ['?'] => some (toString sh.status).toList
  | ['$'] => some ownNumber
  | ['!'] => none
  | ['-'] => some []
  | ['0'] => some sh.name
  | ['@'] => if sh.args.isEmpty then none else some (sh.args.intersperse [' ']).flatten
  | ['*'] => if sh.args.isEmpty then none else some (sh.args.intersperse [' ']).flatten
  | c :: _ => if c.isDigit then sh.args[Printing.decimal name - 1]? else sh.get? name
  | [] => none

def allArgs (sh : Shell) (quoted : Bool) : List Chunk :=
  if sh.args.isEmpty then (if quoted then [.vanish] else [])
  else (sh.args.map fun a => Chunk.text a quoted true).intersperse .cut

/-- Removes the shortest or the longest start that a pattern matches. -/
def dropStart (gs : List Glyph) (longest : Bool) (t : Raw) : Raw :=
  let cuts := (Regex.suffixes t).filter fun rest => Glyph.accepts gs (t.take (t.length - rest.length))
  (if longest then cuts.getLast? else cuts.head?).getD t

def dropEnd (gs : List Glyph) (longest : Bool) (t : Raw) : Raw :=
  let cuts := (Regex.suffixes t).filter (Glyph.accepts gs)
  match (if longest then cuts.head? else cuts.getLast?) with
  | some found => t.take (t.length - found.length)
  | none => t

def operand (source : Raw) (quoted : Bool) : Word :=
  let loose := ((quotedParts none (source.length + 1) source).map (·.1)).getD []
  if quoted then loose
  else match wordParts (source.length + 1) source with
    | some (w, []) => w
    | _ => loose

/-! ## Programs -/

/-- A program by its name: a path as it is, another name in the search path. -/
def findProgram (sh : Shell) (name : Raw) : Except OsError (Path × Node) :=
  if name.contains '/' then (sh.disk.stat true name.toPath).map fun (_, n) => (name.toPath, n)
  else if name.isEmpty then .error .notFound
  else
    let dirs := (Text.pieces ':' ((sh.get? "PATH".toList).getD [])).map Raw.toPath
    let found := dirs.filterMap fun dir =>
      match sh.disk.stat true (dir.child name.toText) with
      | .ok (_, .dir) => none
      | .ok (_, n) => some (dir.child name.toText, n)
      | .error _ => none
    match found.find? fun f => match f.2 with
      | .file _ executable => executable
      | _ => true with
    | some f => .ok f
    | none => match found with
      | f :: _ => .ok f
      | [] => .error .notFound

def interpreter? (bytes : ByteArray) : Option (Raw × Option Raw) :=
  match Raw.ofBytes (bytes.extract 0 256) with
  | '#' :: '!' :: rest =>
    let isSpace (c : Char) : Bool := c == ' ' || c == '\t'
    let line := (rest.takeWhile (· != '\n')).dropWhile isSpace
    let program := line.takeWhile fun c => !isSpace c
    let arg := ((line.dropWhile fun c => !isSpace c).dropWhile isSpace).reverse.dropWhile isSpace
    if program.isEmpty then none else some (program, if arg.isEmpty then none else some arg.reverse)
  | _ => none

def shells : List String := ["sh", "dash", "bash"]

/-- The options of a shell before its other arguments: whether a script follows as text. -/
def shellOptions : List Raw → Bool × List Raw
  | ('-' :: c :: cs) :: rest =>
    let (text, rest) := shellOptions rest
    (text || (c :: cs).contains 'c', rest)
  | args => (false, args)

/-- Whether pieces come from running a script. -/
def hasOutput (w : Word) : Bool := w.any fun part => match part with
  | .output .. => true
  | _ => false

mutual

def expandPart (assigning : Bool) : Nat → Shell → Part → List Chunk × Shell
  | 0, sh, _ => ([], sh.exhausted)
  | fuel + 1, sh, part =>
    match part with
    | .plain t quoted => ([.text t quoted false], sh)
    | .output source quoted =>
      let (n, inner) := sh.capture 1
      let sub := match parse? source with
        | some c => (exec fuel inner c).2
        | none => inner.complain "Syntax error" 2
      let sh := sh.resume sub
      ([.text (dropFeeds (sh.captured n)) quoted true], sh)
    | .value source quoted =>
      let (chunks, sh) := expandWord assigning fuel sh (operand source true)
      let t := joined chunks
      let (n, _) := evaluate sh (16 * t.length + 64) operatorLevels none t
      ([.text (toString n).toList quoted true], sh)
    | .parameter name op quoted =>
      let value := sh.parameter? name
      let whole (sh : Shell) : List Chunk × Shell :=
        if name = ['@'] && !assigning then (sh.allArgs quoted, sh)
        else if name = ['*'] && !quoted && !assigning then (sh.allArgs quoted, sh)
        else ([.text (value.getD []) quoted true], sh)
      let other (sh : Shell) (source : Raw) : List Chunk × Shell :=
        expandWord assigning fuel sh (operand source quoted)
      match op with
      | none => whole sh
      | some (o, source) =>
        let unset := value.isNone || (o.head? = some ':' && value = some [])
        let trimmed (f : List Glyph → Raw → Raw) : List Chunk × Shell :=
          let (chunks, sh) := expandWord true fuel sh (operand source false)
          let pattern := marked chunks
          ([.text (f (Glyph.parse (pattern.length + 1) pattern) (value.getD [])) quoted true], sh)
        match o with
        | ['#'] => ([.text (toString (value.getD []).length).toList quoted true], sh)
        | ['#', '-'] => trimmed fun gs t => dropStart gs false t
        | ['#', '#'] => trimmed fun gs t => dropStart gs true t
        | ['%'] => trimmed fun gs t => dropEnd gs false t
        | ['%', '%'] => trimmed fun gs t => dropEnd gs true t
        | _ =>
          match o.getLast? with
          | some '-' => if unset then other sh source else whole sh
          | some '+' => if unset then ([], sh) else other sh source
          | some '=' =>
            if unset then
              let (chunks, sh) := other sh source
              (chunks, sh.set name (joined chunks))
            else whole sh
          | _ => whole sh

def expandWord (assigning : Bool) : Nat → Shell → Word → List Chunk × Shell
  | 0, sh, _ => ([], sh.exhausted)
  | _ + 1, sh, [] => ([], sh)
  | fuel + 1, sh, part :: rest =>
    let (first, sh) := expandPart assigning fuel sh part
    let (more, sh) := expandWord assigning fuel sh rest
    (first ++ more, sh)

def expandWords : Nat → Shell → List Word → List Raw × Shell
  | 0, sh, _ => ([], sh.exhausted)
  | _ + 1, sh, [] => ([], sh)
  | fuel + 1, sh, w :: rest =>
    let (chunks, sh) := expandWord false fuel sh w
    let fields := (fieldsOf sh.separators chunks none).flatMap (matchPaths sh.disk)
    let (more, sh) := expandWords fuel sh rest
    (fields ++ more, sh)

def assign : Nat → Shell → List (Raw × Word) → Shell
  | 0, sh, _ => sh.exhausted
  | _ + 1, sh, [] => sh
  | fuel + 1, sh, (name, w) :: rest =>
    let (chunks, sh) := expandWord true fuel sh w
    assign fuel (sh.set name (joined chunks)) rest

/-- Directs descriptors; a message for one that cannot be. -/
def redirectAll : Nat → Shell → List Redirect → Option String × Shell
  | 0, sh, _ => (none, sh.exhausted)
  | _ + 1, sh, [] => (none, sh)
  | fuel + 1, sh, r :: rest =>
    let (chunks, sh) := expandWord true fuel sh r.target
    match sh.redirect r.descriptor r.direction (joined chunks) with
    | .ok sh => redirectAll fuel sh rest
    | .error message => (some message, sh)

/-- Runs a command with descriptors directed elsewhere meanwhile. -/
def under (fuel : Nat) (sh : Shell) (redirects : List Redirect) (body : Command) : Flow × Shell :=
  match fuel with
  | 0 => (.late, sh.exhausted)
  | fuel + 1 =>
    let restore (after : Shell) : Shell :=
      if redirects.isEmpty then after else { after with targets := sh.targets, input := sh.input }
    match redirectAll fuel sh redirects with
    | (some message, after) => (.next, (restore after).complain message 2)
    | (none, inner) =>
      let (flow, after) := exec fuel inner body
      (flow, restore after)

/-- Runs a command in a shell of its own. -/
def apart (fuel : Nat) (sh : Shell) (redirects : List Redirect) (body : Command) : Flow × Shell :=
  match fuel with
  | 0 => (.late, sh.exhausted)
  | fuel + 1 =>
    let (flow, after) := under fuel sh redirects body
    match flow with
    | .killed n => (.killed n, sh.resume after)
    | .late => (.late, sh.resume after)
    | _ => (.next, sh.resume after)

def exec : Nat → Shell → Command → Flow × Shell
  | 0, sh, _ => (.late, sh.exhausted)
  | fuel + 1, sh, c =>
    if sh.isLate then (.late, sh)
    else match c with
    | .nothing => (.next, sh)
    | .both first second =>
      match exec fuel sh first with
      | (.next, sh) => exec fuel sh second
      | ended => ended
    | .andThen first second =>
      match exec fuel sh first with
      | (.next, sh) => if sh.status = 0 then exec fuel sh second else (.next, sh)
      | ended => ended
    | .orElse first second =>
      match exec fuel sh first with
      | (.next, sh) => if sh.status = 0 then (.next, sh) else exec fuel sh second
      | ended => ended
    | .negate body =>
      match exec fuel sh body with
      | (.next, sh) => (.next, sh.ended (if sh.status = 0 then 1 else 0))
      | ended => ended
    | .pipe first second =>
      let (n, inner) := sh.capture 1
      match apart fuel inner [] first with
      | (.next, after) =>
        let sh := sh.resume after
        match apart fuel { sh with input := sh.captured n } [] second with
        | (flow, after) => (flow, { after with input := sh.input })
      | (flow, after) => (flow, sh.resume after)
    | .choose test yes no =>
      match exec fuel sh test with
      | (.next, sh) => if sh.status = 0 then exec fuel sh yes else exec fuel (sh.ended 0) no
      | ended => ended
    | .loop until_ test body =>
      match exec fuel sh test with
      | (.next, after) =>
        if (after.status == 0) == until_ then (.next, after.ended 0)
        else match exec fuel after body with
          | (.next, after) => exec fuel after (.loop until_ test body)
          | (.again 1, after) => exec fuel after (.loop until_ test body)
          | (.again n, after) => (.again (n - 1), after)
          | (.breakOut 1, after) => (.next, after)
          | (.breakOut n, after) => (.breakOut (n - 1), after)
          | ended => ended
      | ended => ended
    | .each name items body =>
      let (fields, sh) := match items with
        | some ws => expandWords fuel sh ws
        | none => (sh.args, sh)
      iterate fuel (sh.ended 0) name fields body
    | .select subject arms =>
      let (chunks, sh) := expandWord true fuel sh subject
      choose fuel (sh.ended 0) (joined chunks) arms
    | .group body redirects => under fuel sh redirects body
    | .subshell body redirects => apart fuel sh redirects body
    | .define name body =>
      (.next, { sh with functions := (name, body) :: sh.functions.filter fun f => f.1 != name, status := 0 })
    | .simple line assigns words redirects =>
      let (fields, sh) := expandWords fuel { sh with line } words
      match fields with
      | [] =>
        let ran := (words.any hasOutput) || assigns.any fun a => hasOutput a.2
        let sh := assign fuel sh assigns
        let status := if ran then sh.status else 0
        match redirectAll fuel sh redirects with
        | (some message, after) =>
          (.next, { after with targets := sh.targets, input := sh.input }.complain message 2)
        | (none, after) => (.next, { after with targets := sh.targets, input := sh.input }.ended status)
      | name :: args =>
        match redirectAll fuel sh redirects with
        | (some message, after) =>
          (.next, { after with targets := sh.targets, input := sh.input }.complain message 2)
        | (none, inner) =>
          let inner := assign fuel inner assigns
          let (flow, after) := call fuel inner (assigns.map (·.1)) name args
          let keeps := name = "exec".toList && args.isEmpty
          let after := if redirects.isEmpty || keeps then after
            else { after with targets := sh.targets, input := sh.input }
          let bindings := assigns.foldl (fun (vs : List (Raw × Raw)) a =>
            (vs.filter fun v => v.1 != a.1) ++ ((sh.get? a.1).map fun v => (a.1, v)).toList) after.bindings
          (flow, if assigns.isEmpty then after else { after with bindings })

def iterate : Nat → Shell → Raw → List Raw → Command → Flow × Shell
  | 0, sh, _, _, _ => (.late, sh.exhausted)
  | _ + 1, sh, _, [], _ => (.next, sh)
  | fuel + 1, sh, name, item :: rest, body =>
    match exec fuel (sh.set name item) body with
    | (.next, after) => iterate fuel after name rest body
    | (.again 1, after) => iterate fuel after name rest body
    | (.again n, after) => (.again (n - 1), after)
    | (.breakOut 1, after) => (.next, after)
    | (.breakOut n, after) => (.breakOut (n - 1), after)
    | ended => ended

def choose : Nat → Shell → Raw → List (List Word × Command) → Flow × Shell
  | 0, sh, _, _ => (.late, sh.exhausted)
  | _ + 1, sh, _, [] => (.next, sh)
  | fuel + 1, sh, subject, (patterns, body) :: rest =>
    let (hit, sh) := matchesAny fuel sh subject patterns
    if hit then exec fuel sh body else choose fuel sh subject rest

def matchesAny : Nat → Shell → Raw → List Word → Bool × Shell
  | 0, sh, _, _ => (false, sh.exhausted)
  | _ + 1, sh, _, [] => (false, sh)
  | fuel + 1, sh, subject, w :: rest =>
    let (chunks, sh) := expandWord true fuel sh w
    let pattern := marked chunks
    if Glyph.accepts (Glyph.parse (pattern.length + 1) pattern) subject then (true, sh)
    else matchesAny fuel sh subject rest

/-- Calls a function, a command of the shell or a program; `fresh` are the variables set for it. -/
def call : Nat → Shell → List Raw → Raw → List Raw → Flow × Shell
  | 0, sh, _, _, _ => (.late, sh.exhausted)
  | fuel + 1, sh, fresh, name, args =>
    let number (default : Nat) : Nat := match args with
      | a :: _ => (Printing.number a).toNat
      | [] => default
    match sh.functions.lookup name with
    | some body =>
      let (flow, after) := exec fuel { sh with args } body
      (if flow = .back then .next else flow, { after with args := sh.args })
    | none =>
      match String.ofList name with
      | ":" => (.next, sh.ended 0)
      | "exit" => (.leave, sh.ended (number sh.status % 256))
      | "return" => (.back, sh.ended (number sh.status % 256))
      | "break" => (.breakOut (max 1 (number 1)), sh.ended 0)
      | "continue" => (.again (max 1 (number 1)), sh.ended 0)
      | "shift" => (.next, { sh with args := sh.args.drop (number 1), status := 0 })
      | "test" =>
        match condition sh.disk (args.length + 1) args with
        | some b => (.next, sh.ended (if b then 0 else 1))
        | none => (.next, sh.complain "test: bad condition" 2)
      | "[" =>
        match args.getLast?, condition sh.disk (args.length + 1) args.dropLast with
        | some [']'], some b => (.next, sh.ended (if b then 0 else 1))
        | some [']'], none => (.next, sh.complain "[: bad condition" 2)
        | _, _ => (.next, sh.complain "[: missing ]" 2)
      | "echo" => (.next, (sh.write 1 (Printing.echo args)).ended 0)
      | "printf" =>
        (.next, (sh.write 1 (Printing.format (args.headD []) (args.length + 1) (args.drop 1))).ended 0)
      | "true" => (.next, sh.ended 0)
      | "false" => (.next, sh.ended 1)
      | "pwd" => (.next, (sh.write 1 (Raw.ofString (Disk.pathOf sh.disk.here).text ++ ['\n'])).ended 0)
      | "cd" =>
        let target := match args with
          | a :: _ => a
          | [] => (sh.get? "HOME".toList).getD []
        match sh.disk.stat true target.toPath with
        | .ok (loc, .dir) =>
          (.next, { sh with disk := { sh.disk with here := loc } }.set "PWD".toList
            (Raw.ofString (Disk.pathOf loc).text) |>.ended 0)
        | _ => (.next, sh.complain ("cd: can't cd to " ++ target.toText) 2)
      | "set" =>
        match args with
        | ['-', '-'] :: rest => (.next, { sh with args := rest, status := 0 })
        | ('-' :: _) :: _ => (.next, sh.ended 0)
        | [] => (.next, sh.ended 0)
        | rest => (.next, { sh with args := rest, status := 0 })
      | "export" =>
        let sh := args.foldl (fun sh a =>
          let key := a.takeWhile (· != '=')
          let sh := { sh with exported := key :: sh.exported }
          if a.contains '=' then sh.set key ((a.dropWhile (· != '=')).drop 1) else sh) sh
        (.next, sh.ended 0)
      | "unset" =>
        (.next, { sh with bindings := sh.bindings.filter fun v => !args.contains v.1, status := 0 })
      | "local" =>
        let sh := args.foldl (fun sh a =>
          if a.contains '=' then sh.set (a.takeWhile (· != '=')) ((a.dropWhile (· != '=')).drop 1) else sh) sh
        (.next, sh.ended 0)
      | "read" =>
        let names := args.filter fun a => a.head? != some '-'
        let line := sh.input.takeWhile (· != '\n')
        let found := sh.input.contains '\n'
        let sh := { sh with input := (sh.input.dropWhile (· != '\n')).drop 1 }
        let words := Text.words line
        let sh := names.zipIdx.foldl (fun (sh : Shell) (name, i) =>
          let value := if i + 1 = names.length then ((words.drop i).intersperse [' ']).flatten
            else (words[i]?).getD []
          sh.set name value) sh
        (.next, sh.ended (if found then 0 else 1))
      | "eval" =>
        match parse? (args.intersperse [' ']).flatten with
        | some c => exec fuel sh c
        | none => (.leave, sh.complain "Syntax error" 2)
      | "." =>
        match sh.disk.readBytes (args.headD []).toPath with
        | .ok bytes =>
          match parse? (Raw.ofBytes bytes) with
          | some c => exec fuel sh c
          | none => (.leave, sh.complain "Syntax error" 2)
        | .error _ => (.leave, sh.complain (".: cannot open " ++ (args.headD []).toText ++ ": No such file") 2)
      | "trap" => (.next, sh.ended 0)
      | "umask" => (.next, sh.ended 0)
      | "wait" => (.next, sh.ended 0)
      | "kill" =>
        let (signal, targets) := match args with
          | ['-', 's'] :: s :: rest => (signalOf (String.ofList s), rest)
          | ('-' :: s) :: rest => (signalOf (String.ofList s), rest)
          | rest => (15, rest)
        if targets.contains ownNumber then (if signal = 0 then (.next, sh.ended 0) else (.killed signal, sh))
        else (.next, sh.complain "kill: No such process" 1)
      | "command" =>
        match args with
        | ['-', 'v'] :: name :: _ =>
          match findProgram sh name with
          | .ok (p, _) => (.next, (sh.write 1 (Raw.ofString p.text ++ ['\n'])).ended 0)
          | .error _ => (.next, sh.ended 127)
        | name :: rest => call fuel { sh with functions := [] } fresh name rest
        | [] => (.next, sh.ended 0)
      | "exec" =>
        match args with
        | [] => (.next, sh.ended 0)
        | name :: rest =>
          let (flow, after) := external fuel sh fresh name rest
          (if flow = .next then .leave else flow, after)
      | _ =>
        match external fuel sh fresh name args with
        | (.killed n, after) => (.next, after.ended (128 + n))
        | ended => ended

def external : Nat → Shell → List Raw → Raw → List Raw → Flow × Shell
  | 0, sh, _, _, _ => (.late, sh.exhausted)
  | fuel + 1, sh, fresh, name, args =>
    match findProgram sh name with
    | .error .permission => (.next, sh.complain (name.toText ++ ": Permission denied") 126)
    | .error _ => (.next, sh.complain (name.toText ++ ": not found") 127)
    | .ok (p, node) =>
      let inner := { sh with exported := fresh ++ sh.exported }
      match launch fuel inner p node name args with
      | .error .badFormat =>
        let (flow, after) := script fuel inner (Raw.ofString p.text) args
          (match sh.disk.readBytes p with
            | .ok bytes => Raw.ofBytes bytes
            | .error _ => [])
        (if flow = .leave then .next else flow, sh.resume after)
      | .error .notFound => (.next, sh.complain (name.toText ++ ": not found") 127)
      | .error e => (.next, sh.complain (name.toText ++ ": " ++ e.reason) 126)
      | .ok (flow, after) => (if flow = .leave then .next else flow, sh.resume after)

/-- Runs a script in a new shell, which knows only the exported variables. -/
def script : Nat → Shell → Raw → List Raw → Raw → Flow × Shell
  | 0, sh, _, _, _ => (.late, sh.exhausted)
  | fuel + 1, sh, name, args, source =>
    let sh := { sh with
      name, args, functions := [], status := 0, line := 1
      bindings := sh.bindings.filter fun v => sh.exported.contains v.1 }
    match parse? source with
    | none => (.leave, sh.complain "Syntax error" 2)
    | some c =>
      match exec fuel sh c with
      | (.killed n, after) => (.killed n, after)
      | (.late, after) => (.late, after)
      | (_, after) => (.leave, after)

/-- Runs a program that was found: a shell, another program of the system, or a file that names its interpreter. -/
def launch : Nat → Shell → Path → Node → Raw → List Raw → Except OsError (Flow × Shell)
  | 0, sh, _, _, _, _ => .ok (.late, sh.exhausted)
  | fuel + 1, sh, p, node, name, args =>
    match node with
    | .dir => .error .permission
    | .link _ => .error .notFound
    | .program program =>
      if shells.contains program then
        match shellOptions args with
        | (true, source :: rest) => .ok (script fuel sh (rest.headD name) (rest.drop 1) source)
        | (true, []) => .ok (.leave, sh.complain "-c requires an argument" 2)
        | (false, file :: rest) =>
          match sh.disk.readBytes file.toPath with
          | .ok bytes => .ok (script fuel sh file rest (Raw.ofBytes bytes))
          | .error _ => .ok (.leave, { sh with name }.complain ("cannot open " ++ file.toText ++ ": No such file") 2)
        | (false, []) => .ok (script fuel { sh with input := [] } name [] sh.input)
      else if program = "env" then
        let sets := args.takeWhile fun a => a.contains '='
        let sh := sets.foldl (fun sh a =>
          let key := a.takeWhile (· != '=')
          { sh with exported := key :: sh.exported }.set key ((a.dropWhile (· != '=')).drop 1)) sh
        match args.drop sets.length with
        | [] =>
          let lines := (sh.bindings.filter fun v => sh.exported.contains v.1).map fun (n, v) => n ++ '=' :: v
          .ok (.leave, (sh.write 1 (Utility.unlines lines)).ended 0)
        | inner :: rest =>
          match findProgram sh inner with
          | .ok (q, n) => launch fuel sh q n inner rest
          | .error e =>
            .ok (.leave, (sh.write 2 (Raw.ofString ("env: \x27" ++ inner.toText ++ "\x27: " ++ e.reason ++ "\n"))).ended 127)
      else
        match Utility.run program sh.disk args sh.input with
        | some effect =>
          let after := { sh with input := [] }.after effect
          .ok (if after.isLate then .late else .leave, after)
        | none => .ok (.leave, sh.ended 0)
    | .file bytes executable =>
      if !executable then .error .permission
      else match interpreter? bytes with
        | none => .error .badFormat
        | some (program, arg) =>
          match sh.disk.stat true program.toPath with
          | .error e => .error e
          | .ok (_, n) => launch fuel sh program.toPath n program (arg.toList ++ Raw.ofString p.text :: args)

end

end Shell

/-! ## The host -/

/-- How many steps a run may take before it counts as one that never ends. -/
def fuel : Nat := 20000

def start (d : Disk) (environment : List (String × String)) (limit : Nat) : Shell where
  disk := d
  buffers := #[⟨#[]⟩, ⟨#[]⟩]
  targets := [(1, .buffer 0), (2, .buffer 1)]
  input := []
  bindings := environment.map fun (name, value) => (Raw.ofString name, Raw.ofString value)
  exported := environment.map fun (name, _) => Raw.ofString name
  args := []
  name := []
  status := 0
  now := 0
  limit
  functions := []
  line := 1

/-- The variables that keep tools from colouring their output. -/
def plainOutput : List (String × String) := [("NO_COLOR", "1"), ("PY_COLORS", "0")]

def run (environment : List (String × String)) (d : Disk) (i : Invocation) : Outcome × Disk :=
  match d.stat true i.cwd with
  | .error e => (.notStarted e, d)
  | .ok (here, .dir) =>
    let sh := start { d with here } (plainOutput ++ environment) i.limit
    let name := Raw.ofString i.program.text
    match sh.findProgram name with
    | .error e => (.notStarted e, d)
    | .ok (p, node) =>
      match sh.launch fuel p node name (i.args.map Raw.ofString) with
      | .error e => (.notStarted e, d)
      | .ok (flow, after) =>
        let d := { after.disk with here := d.here }
        let out := after.buffers[0]?.getD ⟨#[]⟩
        let err := after.buffers[1]?.getD ⟨#[]⟩
        if after.isLate then (.timedOut, d)
        else match flow with
          | .killed _ => (.ended none out err, d)
          | _ => (.ended (some after.status) out err, d)
  | .ok _ => (.notStarted .notDirectory, d)

def host (environment : List (String × String)) : Host := ⟨run environment⟩

/-- The disk of a system with its programs, before anything is put on it. -/
def systemDisk : Disk where
  nodes := [(["bin"], .dir), (["usr"], .dir), (["usr", "bin"], .dir), (["tmp"], .dir), (["dev"], .dir),
      (["dev", "null"], .file ⟨#[]⟩ false)] ++
    (Shell.shells ++ "env" :: Utility.names).flatMap fun name =>
      [(["bin", name], .program name), (["usr", "bin", name], .program name)]
  here := ["tmp"]

end LintHub.Script
