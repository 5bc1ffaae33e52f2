import LintHub.Script.Syntax

/-!
# Printing in scripts

* `Printing.echo` is what the command of that name writes, escapes expanded.
* `Printing.format` fills a format with arguments, again and again while there are some.
-/

namespace LintHub.Script.Printing

def isOctal (c : Char) : Bool := '0' ≤ c && c ≤ '7'

def octalByte (digits : Raw) : Char :=
  Char.ofNat (digits.foldl (fun n c => 8 * n + (c.toNat - 48)) 0 % 256)

def octalDigits (s : Raw) : Raw := (s.take 3).takeWhile isOctal

/-- The character that a letter after a backslash denotes. -/
def escaped? : Char → Option Char
  | '\\' => some '\\'
  | 'a' => some '\x07'
  | 'b' => some '\x08'
  | 'f' => some '\x0c'
  | 'n' => some '\n'
  | 'r' => some '\r'
  | 't' => some '\t'
  | 'v' => some '\x0b'
  | _ => none

/-- The text with escapes expanded, and whether it ended early at a stop. A byte in octal has a zero before its
digits if `zero`. -/
def unescape (zero : Bool) : Nat → Raw → Raw × Bool
  | 0, s => (s, false)
  | fuel + 1, s =>
    let put (c : Char) (rest : Raw) : Raw × Bool :=
      let (t, stopped) := unescape zero fuel rest
      (c :: t, stopped)
    match s with
    | [] => ([], false)
    | '\\' :: c :: rest =>
      if c = 'c' && zero then ([], true)
      else if c = '0' && zero then put (octalByte (octalDigits rest)) (rest.drop (octalDigits rest).length)
      else if isOctal c then
        put (octalByte (octalDigits (c :: rest))) ((c :: rest).drop (octalDigits (c :: rest)).length)
      else match escaped? c with
        | some d => put d rest
        | none => put '\\' (c :: rest)
    | c :: rest => put c rest

def echo (args : List Raw) : Raw :=
  let (bare, args) := match args with
    | ['-', 'n'] :: rest => (true, rest)
    | args => (false, args)
  let line := (args.intersperse [' ']).flatten
  let (text, stopped) := unescape true (line.length + 1) line
  if bare || stopped then text else text ++ ['\n']

/-- How a conversion shapes its value. -/
structure Shape where
  flags : Raw
  width : Nat
  precision : Option Nat
deriving Inhabited

def pad (shape : Shape) (t : Raw) : Raw :=
  let blanks := List.replicate (shape.width - t.length) ' '
  if shape.flags.contains '-' then t ++ blanks else blanks ++ t

/-- Digits of a number, at least as many as the precision, zeros up to the width if a flag asks. -/
def padNumber (shape : Shape) (negative : Bool) (digits : Raw) : Raw :=
  let sign := if negative then ['-'] else if shape.flags.contains '+' then ['+']
    else if shape.flags.contains ' ' then [' '] else []
  let digits := List.replicate ((shape.precision.getD 1) - digits.length) '0' ++ digits
  if shape.flags.contains '0' && !shape.flags.contains '-' && shape.precision.isNone then
    sign ++ List.replicate (shape.width - sign.length - digits.length) '0' ++ digits
  else pad shape (sign ++ digits)

def decimal (digits : Raw) : Nat := digits.foldl (fun n c => 10 * n + (c.toNat - 48)) 0

/-- The number that an argument denotes; what is no number counts as far as it is one. -/
def number (t : Raw) : Int :=
  let (negative, digits) := match t with
    | '-' :: rest => (true, rest)
    | '+' :: rest => (false, rest)
    | rest => (false, rest)
  let n : Int := decimal (digits.takeWhile Char.isDigit)
  if negative then -n else n

def digitsOf (base n : Nat) : Raw := Nat.toDigits base n

/-- What a conversion makes of an argument, and whether the output ends there. -/
def convert (shape : Shape) (letter : Char) (arg : Raw) : Raw × Bool :=
  let cut (t : Raw) : Raw := match shape.precision with
    | some n => t.take n
    | none => t
  match letter with
  | 's' => (pad shape (cut arg), false)
  | 'b' =>
    let (t, stopped) := unescape true (arg.length + 1) arg
    (pad shape (cut t), stopped)
  | 'c' => (pad shape (arg.take 1), false)
  | 'd' => (padNumber shape (decide (number arg < 0)) (digitsOf 10 (number arg).natAbs), false)
  | 'i' => (padNumber shape (decide (number arg < 0)) (digitsOf 10 (number arg).natAbs), false)
  | 'u' => (padNumber shape false (digitsOf 10 (number arg).natAbs), false)
  | 'x' => (padNumber shape false (digitsOf 16 (number arg).natAbs), false)
  | 'X' => (padNumber shape false ((digitsOf 16 (number arg).natAbs).map Char.toUpper), false)
  | 'o' => (padNumber shape false (digitsOf 8 (number arg).natAbs), false)
  | _ => (arg, false)

/-- One pass through a format: what it prints, the arguments left, and whether the output ends there. -/
def pass : Nat → Raw → List Raw → Raw × List Raw × Bool
  | 0, _, args => ([], args, true)
  | fuel + 1, format, args =>
    let more (t : Raw) (rest : Raw) (args : List Raw) : Raw × List Raw × Bool :=
      let (u, args, stopped) := pass fuel rest args
      (t ++ u, args, stopped)
    match format with
    | [] => ([], args, false)
    | '%' :: '%' :: rest => more ['%'] rest args
    | '%' :: rest =>
      let isFlag (c : Char) : Bool := "-+ 0#".toList.contains c
      let flags := rest.takeWhile isFlag
      let rest := rest.dropWhile isFlag
      let (width, rest, args) := match rest with
        | '*' :: rest => ((number (args.headD [])).natAbs, rest, args.drop 1)
        | _ => (decimal (rest.takeWhile Char.isDigit), rest.dropWhile Char.isDigit, args)
      let (precision, rest, args) := match rest with
        | '.' :: '*' :: rest => (some (number (args.headD [])).natAbs, rest, args.drop 1)
        | '.' :: rest => (some (decimal (rest.takeWhile Char.isDigit)), rest.dropWhile Char.isDigit, args)
        | _ => (none, rest, args)
      match rest with
      | [] => (['%'], args, false)
      | letter :: rest =>
        let (t, stopped) := convert ⟨flags, width, precision⟩ letter (args.headD [])
        if stopped then (t, args.drop 1, true) else more t rest (args.drop 1)
    | '\\' :: c :: rest =>
      let used := if isOctal c then (octalDigits (c :: rest)).length else 1
      more (unescape false 2 ('\\' :: (c :: rest).take used)).1 ((c :: rest).drop used) args
    | c :: rest => more [c] rest args

/-- The text that a format makes of arguments. It is used again while arguments are left and it takes some. -/
def format (f : Raw) : Nat → List Raw → Raw
  | 0, _ => []
  | again + 1, args =>
    let (t, left, stopped) := pass (f.length + 1) f args
    if stopped || left.isEmpty || left.length = args.length then t else t ++ format f again left

end LintHub.Script.Printing
