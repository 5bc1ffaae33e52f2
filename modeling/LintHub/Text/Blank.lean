/-!
# Blanks, lines and words

* `isBlank` is the Unicode property White_Space.
* `trim` drops the blanks at both ends of a text, `words` cuts a text at its blanks.
* `lines` cuts a text after every line feed; a carriage return right before a line feed belongs to the terminator.
-/

namespace LintHub.Text

/-- A character with the Unicode property White_Space. -/
def isBlank (c : Char) : Bool :=
  let n := c.toNat
  (9 ≤ n && n ≤ 13) || n == 0x20 || n == 0x85 || n == 0xA0 || n == 0x1680 || (0x2000 ≤ n && n ≤ 0x200A) ||
    n == 0x2028 || n == 0x2029 || n == 0x202F || n == 0x205F || n == 0x3000

def trimStart (s : List Char) : List Char := s.dropWhile isBlank

def trimEnd (s : List Char) : List Char := (s.reverse.dropWhile isBlank).reverse

def trim (s : List Char) : List Char := trimEnd (trimStart s)

def trimmed (s : String) : String := String.ofList (trim s.toList)

/-- The lower case of ASCII letters; every other character stays. -/
def lowerAscii (s : List Char) : List Char := s.map Char.toLower

/-- How an option's value is compared: without outer blanks and with ASCII letters in lower case. -/
def keyword (s : String) : String := String.ofList (lowerAscii (trim s.toList))

/-! ## Lines -/

/-- A line without the carriage return that its terminator brings. -/
def dropReturn (line : List Char) : List Char :=
  if line.getLast? = some '\r' then line.dropLast else line

/-- The lines of a text whose current line starts with the reversed `acc`. -/
def linesFrom (acc : List Char) : List Char → List (List Char)
  | [] => if acc.isEmpty then [] else [acc.reverse]
  | c :: rest => if c = '\n' then dropReturn acc.reverse :: linesFrom [] rest else linesFrom (c :: acc) rest

/-- The lines of a text, without their terminators. What follows the last line feed is a line if it is not
empty, and keeps a carriage return at its end. -/
def lines (s : List Char) : List (List Char) := linesFrom [] s

def stringLines (s : String) : List String := (lines s.toList).map String.ofList

/-! ## Words -/

/-- The words of a text whose current word starts with the reversed `acc`. -/
def wordsFrom (acc : List Char) : List Char → List (List Char)
  | [] => if acc.isEmpty then [] else [acc.reverse]
  | c :: rest =>
    if isBlank c then (if acc.isEmpty then wordsFrom [] rest else acc.reverse :: wordsFrom [] rest)
    else wordsFrom (c :: acc) rest

/-- The longest stretches of a text without a blank. -/
def words (s : List Char) : List (List Char) := wordsFrom [] s

end LintHub.Text
