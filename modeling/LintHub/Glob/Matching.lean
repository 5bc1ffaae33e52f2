import LintHub.Glob.Pattern

/-!
# Matching paths with patterns

* `Glob.rests` answers what may remain of a text after a token took its part; `Glob.restsAll` after all of them.
* `Glob.accepts` tells whether a pattern takes the whole of a path, byte by byte.
-/

namespace LintHub.Glob

abbrev Bytes := List UInt8

/-- One of each length, in order. All texts are ends of one text, so that their lengths tell them apart. -/
def distinct : List Bytes → List Bytes
  | [] => []
  | s :: rest => s :: (distinct rest).filter fun t => t.length != s.length

/-- All ends of a text, itself first. -/
def ends : Bytes → List Bytes
  | [] => [[]]
  | b :: rest => (b :: rest) :: ends rest

def endsAfterSlash (s : Bytes) : List Bytes :=
  (ends s).filterMap fun
    | b :: rest => if b = 47 then some rest else none
    | [] => none

def charBytes (c : Char) : Bytes := c.toString.toUTF8.toList

/-- Whether a byte lies between two characters. A range of characters with several bytes joins the last byte of the
lower to the first byte of the upper one; their other bytes count alone. -/
def rangeHolds (b : UInt8) (range : Char × Char) : Bool :=
  let low := charBytes range.1
  let high := charBytes range.2
  if range.1 = range.2 then low.contains b
  else low.dropLast.contains b || (high.drop 1).contains b ||
    (low.getLast?.any fun l => l ≤ b) && (high.head?.any fun h => b ≤ h)

mutual

/-- What may remain of a text after a token. -/
def rests : Token → Bytes → List Bytes
  | .literal c, s => ((charBytes c).isPrefixOf? s).toList
  | .any, s => match s with
    | [] => []
    | _ :: rest => [rest]
  | .star, s => ends s
  | .anywhere, s => s :: endsAfterSlash s
  | .under, s => match s with
    | [] => []
    | b :: rest => if b = 47 then ends rest else []
  | .between, s => match s with
    | [] => []
    | b :: rest => if b = 47 then rest :: endsAfterSlash rest else []
  | .set negated ranges, s => match s with
    | [] => []
    | b :: rest => if (ranges.any (rangeHolds b)) != negated then [rest] else []
  | .choice branches, s => if noBranch branches then [s] else restsAny branches s

def restsAll : List Token → Bytes → List Bytes
  | [], s => [s]
  | t :: ts, s => distinct ((distinct (rests t s)).flatMap (restsAll ts))

/-- What may remain of a text after one of the branches. An empty branch is none. -/
def restsAny : List (List Token) → Bytes → List Bytes
  | [], _ => []
  | branch :: more, s => (if blankBranch branch then [] else restsAll branch s) ++ restsAny more s

def noBranch : List (List Token) → Bool
  | [] => true
  | branch :: more => blankBranch branch && noBranch more

/-- Whether a branch takes nothing: it has no tokens, or only choices without branches. -/
def blankBranch : List Token → Bool
  | [] => true
  | .choice branches :: more => noBranch branches && blankBranch more
  | _ :: _ => false

end

/-- Whether the pattern takes the whole path. A pattern of any directories alone takes every path. -/
def accepts (pattern : List Token) (path : String) : Bool :=
  match pattern with
  | [.anywhere] => true
  | _ => (restsAll pattern path.toUTF8.toList).any List.isEmpty

def acceptsAny (patterns : List (List Token)) (path : String) : Bool := patterns.any fun p => accepts p path

end LintHub.Glob
