/-!
# Options

* `OptionSpec` describes an option of a command line, `Given` is an option as it was written.
* `Given.readAt?` reads the options at the head of an argument, `Arguments.read?` those of all arguments.

An option is written with two dashes and its name, or with a dash and its letter. Its value follows an equals sign, or
the letter at once, or is the next argument, which must not look like an option itself. Letters may share a dash. After
two dashes alone nothing is an option any more.
-/

namespace LintHub.CommandLine

structure OptionSpec where
  name : String
  letter : Option Char
  takesValue : Bool
  /-- Whether it may come more than once. -/
  repeats : Bool
  /-- Whether its value may be empty. -/
  mayBeEmpty : Bool
deriving DecidableEq, Inhabited

namespace OptionSpec

def flag (name : String) (letter : Option Char) : OptionSpec := ⟨name, letter, false, false, true⟩

def value (name : String) (letter : Option Char) : OptionSpec := ⟨name, letter, true, false, true⟩

def path (name : String) (letter : Option Char) : OptionSpec := ⟨name, letter, true, false, false⟩

/-- An option with a value that may come more than once. -/
def list (name : String) (letter : Option Char) : OptionSpec := ⟨name, letter, true, true, true⟩

end OptionSpec

/-- An option as it was written; a flag has no value. -/
structure Given where
  name : String
  value : String
deriving DecidableEq, Inhabited

namespace Given

/-- Whether an argument looks like an option. A dash alone does not. -/
def looksLikeOption (arg : String) : Bool :=
  match arg.toList with
  | '-' :: _ :: _ => true
  | _ => false

def with? (spec : OptionSpec) (value : List Char) : Option Given :=
  if value.isEmpty && !spec.mayBeEmpty then none else some ⟨spec.name, String.ofList value⟩

/-- The option whose value is the next argument, and the arguments after it. -/
def withNext? (spec : OptionSpec) (rest : List String) : Option (Given × List String) :=
  match rest with
  | [] => none
  | v :: rest => if looksLikeOption v then none else (with? spec v.toList).map fun g => (g, rest)

def long? (specs : List OptionSpec) (body : List Char) (rest : List String) : Option (List Given × List String) :=
  let name := String.ofList (body.takeWhile (· != '='))
  match specs.find? fun s => s.name == name with
  | none => none
  | some spec =>
    match body.dropWhile (· != '=') with
    | [] =>
      if spec.takesValue then (withNext? spec rest).map fun (g, rest) => ([g], rest) else some ([⟨spec.name, ""⟩], rest)
    | _ :: value => if spec.takesValue then (with? spec value).map fun g => ([g], rest) else none

/-- The options written as letters after one dash. -/
def short? (specs : List OptionSpec) (rest : List String) : List Char → Option (List Given × List String)
  | [] => some ([], rest)
  | c :: more =>
    match specs.find? fun s => s.letter == some c with
    | none => none
    | some spec =>
      if spec.takesValue then
        match more with
        | [] => (withNext? spec rest).map fun (g, rest) => ([g], rest)
        | '=' :: value => (with? spec value).map fun g => ([g], rest)
        | value => (with? spec value).map fun g => ([g], rest)
      else (short? specs rest more).map fun (gs, rest) => (⟨spec.name, ""⟩ :: gs, rest)

/-- The options in an argument that looks like one, and the arguments that are left. -/
def readAt? (specs : List OptionSpec) (arg : String) (rest : List String) : Option (List Given × List String) :=
  match arg.toList with
  | '-' :: '-' :: body => long? specs body rest
  | '-' :: letters => short? specs rest letters
  | _ => none

/-- Whether no option comes again that may not. -/
def noneRepeated (specs : List OptionSpec) : List Given → Bool
  | [] => true
  | g :: rest =>
    (!(rest.any fun h => h.name == g.name) || specs.any fun s => s.name == g.name && s.repeats) &&
      noneRepeated specs rest

end Given

/-- Arguments told apart. -/
structure Arguments where
  options : List Given
  /-- The arguments that are no options. -/
  names : List String
deriving DecidableEq, Inhabited

namespace Arguments

/-- Tells arguments apart; `fuel` is at least their number. -/
def readFrom? (specs : List OptionSpec) : Nat → List String → Option Arguments
  | _, [] => some ⟨[], []⟩
  | 0, _ => none
  | fuel + 1, arg :: rest =>
    if arg = "--" then some ⟨[], rest⟩
    else if Given.looksLikeOption arg then do
      let (given, rest) ← Given.readAt? specs arg rest
      let more ← readFrom? specs fuel rest
      some ⟨given ++ more.options, more.names⟩
    else (readFrom? specs fuel rest).map fun more => ⟨more.options, arg :: more.names⟩

/-- Tells arguments apart; nothing if an option is not known, lacks its value or comes again. -/
def read? (specs : List OptionSpec) (args : List String) : Option Arguments :=
  (readFrom? specs args.length args).filter fun a => Given.noneRepeated specs a.options

def has (a : Arguments) (name : String) : Bool := a.options.any fun g => g.name == name

def values (a : Arguments) (name : String) : List String := (a.options.filter fun g => g.name == name).map Given.value

def value? (a : Arguments) (name : String) : Option String := (a.values name).head?

end Arguments

end LintHub.CommandLine
