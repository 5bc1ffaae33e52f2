import LintHub.CommandLine.Options
import LintHub.Report.Dialect
import LintHub.Text.Numeral

/-!
# Requests

* `Request` is what a user asks for on the command line.
* `Request.ofArgs` reads it from the arguments.
-/

namespace LintHub.CommandLine

inductive Format where
  | text
  | json
  | sarif
deriving DecidableEq, Inhabited

def Format.ofName? (s : String) : Option Format :=
  if s = "text" then some text else if s = "json" then some json else if s = "sarif" then some sarif else none

inductive Job where
  /-- Runs tools on files; without names, on those that the settings include, and without tools, all that are
  enabled. -/
  | check (names : List String) (format : Format) (tools : List Tool) (timings : Bool)
  /-- Reads what a tool printed, unless its exit code says that it failed. -/
  | parse (tool : Tool) (dialect : Option Dialect) (exitCode : Option Int) (format : Format)
  | explain (rule : String) (tool : Tool) (json : Bool)
  | ignore (file rule : String)
  | init (force : Bool)
  | serve
deriving DecidableEq, Inhabited

structure Request where
  job : Job
  /-- The settings file, if it is not to be looked for. -/
  settings : Option String
  verbose : Bool
  noCache : Bool
  /-- The root of the project, if it is not the current directory. -/
  root : Option String
deriving DecidableEq, Inhabited

/-- Arguments that ask for nothing to be done. -/
inductive Detour where
  /-- The user wants to know the version. -/
  | version
  /-- The arguments make no sense. -/
  | misuse
deriving DecidableEq, Inhabited

namespace Request

/-! ## Options -/

/-- Options that may stand before the command and after it. -/
def globals : List OptionSpec :=
  [.path "config" (some 'c'), .flag "verbose" (some 'v'), .flag "no-cache" none, .path "root" none]

/-- The option for the version, which stands before the command only. -/
def versionFlag : OptionSpec := .flag "version" (some 'V')

def formatOption : OptionSpec := .value "format" (some 'f')

/-- The options of a command; nothing if there is no such command. -/
def optionsOf? (command : String) : Option (List OptionSpec) :=
  match command with
  | "check" => some [formatOption, .list "tool" none, .flag "timings" none]
  | "parse" => some [.value "tool" none, .value "dialect" none, .value "exit-code" none, formatOption]
  | "explain" => some [.value "tool" none, .flag "json" none]
  | "ignore" => some []
  | "init" => some [.flag "force" none]
  | "lsp" => some []
  | _ => none

/-! ## Values -/

/-- The value of an option, if it is given; nothing if the value means nothing. -/
def optional? {α : Type} (read : String → Option α) (value : Option String) : Option (Option α) :=
  match value with
  | none => some none
  | some s => (read s).map some

/-- A whole number of 32 bits with its sign. -/
def code? (s : String) : Option Int :=
  let number (sign : Int) (ds : List Char) : Option Int :=
    if ds.isEmpty || !ds.all Char.isDigit then none
    else
      let n := sign * Text.ofDigits ds
      if -0x80000000 ≤ n && n < 0x80000000 then some n else none
  match s.toList with
  | '-' :: ds => number (-1) ds
  | '+' :: ds => number 1 ds
  | ds => number 1 ds

def format? (a : Arguments) : Option Format := (optional? Format.ofName? (a.value? "format")).map fun f => f.getD .text

/-! ## Reading -/

def job? (command : String) (a : Arguments) : Option Job :=
  match command, a.names with
  | "check", names => do
    some (.check names (← format? a) (← (a.values "tool").mapM Tool.ofText?) (a.has "timings"))
  | "parse", [] => do
    let tool ← Tool.ofText? (← a.value? "tool")
    some (.parse tool (← optional? Dialect.ofText? (a.value? "dialect")) (← optional? code? (a.value? "exit-code"))
      (← format? a))
  | "explain", [rule] => do
    some (.explain rule (← Tool.ofText? ((a.value? "tool").getD "ansible-lint")) (a.has "json"))
  | "ignore", [file, rule] => if file = "" then none else some (.ignore file rule)
  | "init", [] => some (.init (a.has "force"))
  | "lsp", [] => some .serve
  | _, _ => none

/-- What a command asks for, after options that stood before it. The ones after it count more. -/
def ofCommand? (before : Arguments) (command : String) (args : List String) : Option Request := do
  let a ← Arguments.read? ((← optionsOf? command) ++ globals) args
  some { job := ← job? command a
         settings := (a.value? "config").or (before.value? "config")
         verbose := a.has "verbose" || before.has "verbose"
         noCache := a.has "no-cache" || before.has "no-cache"
         root := (a.value? "root").or (before.value? "root") }

/-- The options before the command, whether one of them asks for the version, and the arguments from the command on.
`seen` are the options read so far, `fuel` is at least the number of arguments. -/
def splitFrom? (seen : List Given) : Nat → List String → Option (List Given × Bool × List String)
  | 0, rest => some (seen, false, rest)
  | _, [] => some (seen, false, [])
  | fuel + 1, arg :: rest =>
    if arg = "--" || !Given.looksLikeOption arg then some (seen, false, arg :: rest)
    else do
      let (given, rest) ← Given.readAt? (versionFlag :: globals) arg rest
      let shown := given.takeWhile fun g => g.name != versionFlag.name
      let seen := seen ++ shown
      if !Given.noneRepeated globals seen then none
      else if shown.length < given.length then some (seen, true, rest)
      else splitFrom? seen fuel rest

def ofArgs (args : List String) : Except Detour Request :=
  match splitFrom? [] args.length args with
  | some (_, true, _) => .error .version
  | some (before, false, command :: rest) =>
    match ofCommand? ⟨before, []⟩ command rest with
    | some r => .ok r
    | none => .error .misuse
  | some (_, false, []) => .error .misuse
  | none => .error .misuse

end Request

end LintHub.CommandLine
