import LintHub.Text.Search

/-!
# Paths

A path keeps the text it was given; two spellings that differ in doubled, trailing or dot segments name the same
components.

* `Path.components` is the view: comparison and prefixes go component by component.
* `Path.join`, `Path.parent?`, `Path.ancestors` and `Path.stripPrefix?` keep the spelling of what they leave.
* `Path.compare` orders paths by their components.
-/

namespace LintHub

/-- A file path as written, with the slash as separator. -/
structure Path where
  text : String
deriving DecidableEq, Inhabited

namespace Path

inductive Component where
  | root
  | here
  | up
  | name (n : String)
deriving DecidableEq, Inhabited

namespace Component

/-- The order of components: the root, a leading dot, a step up, then names. -/
def rank : Component → Nat
  | root => 0
  | here => 1
  | up => 2
  | name _ => 3

def order : Component → Component → Ordering
  | name a, name b => compare a b
  | a, b => compare a.rank b.rank

def text : Component → String
  | root => "/"
  | here => "."
  | up => ".."
  | name n => n

end Component

/-! ## Components -/

/-- A segment that names no step: an empty one or a dot. -/
def isIdle (segment : List Char) : Bool := segment.isEmpty || segment == ['.']

/-- The step that a segment inside a path names. -/
def step? (segment : List Char) : Option Component :=
  if isIdle segment then none
  else if segment == ['.', '.'] then some .up
  else some (.name (String.ofList segment))

def isAbsolute (p : Path) : Bool := p.text.toList.head? == some '/'

def componentsOf : List Char → List Component
  | '/' :: rest => .root :: (Text.pieces '/' rest).filterMap step?
  | cs => match Text.pieces '/' cs with
    | ['.'] :: rest => .here :: rest.filterMap step?
    | all => all.filterMap step?

/-- The components of a path. A dot counts only at the start of a relative path. -/
def components (p : Path) : List Component := componentsOf p.text.toList

def same (p q : Path) : Bool := p.components == q.components

def orderComponents : List Component → List Component → Ordering
  | [], [] => .eq
  | [], _ :: _ => .lt
  | _ :: _, [] => .gt
  | a :: as, b :: bs => (a.order b).then (orderComponents as bs)

def compare (p q : Path) : Ordering := orderComponents p.components q.components

/-! ## Building -/

/-- Appends a step to a text, with a slash between unless there is one or the text is empty. -/
def appendStep (base step : List Char) : List Char :=
  if base.isEmpty || base.getLast? == some '/' then base ++ step else base ++ '/' :: step

/-- The path `p` seen from `base`: itself when it is absolute. -/
def join (base p : Path) : Path :=
  if p.isAbsolute then p else ⟨String.ofList (appendStep base.text.toList p.text.toList)⟩

def child (base : Path) (name : String) : Path := base.join ⟨name⟩

/-! ## Taking apart -/

def dropIdleEnd (segs : List (List Char)) : List (List Char) := (segs.reverse.dropWhile isIdle).reverse

def joinSegments (segs : List (List Char)) : List Char := (segs.intersperse ['/']).flatten

/-- A text split into its fixed head, which is the slash of the root or the leading dot, and its segments. -/
def splitHead : List Char → List Char × List (List Char)
  | '/' :: rest => (['/'], Text.pieces '/' rest)
  | cs => match Text.pieces '/' cs with
    | ['.'] :: rest => (['.'], rest)
    | all => ([], all)

def ofHead : List Char × List (List Char) → List Char
  | (['.'], []) => ['.']
  | (['.'], segs) => '.' :: '/' :: joinSegments segs
  | (head, segs) => head ++ joinSegments segs

/-- The path without idle segments at its end. -/
def trimEnd (p : Path) : Path :=
  let (head, segs) := splitHead p.text.toList
  ⟨String.ofList (ofHead (head, dropIdleEnd segs))⟩

/-- The path without its last component; none for the root and the empty path. -/
def parent? (p : Path) : Option Path :=
  let (head, segs) := splitHead p.text.toList
  match dropIdleEnd segs with
  | [] => if head == ['.'] then some ⟨""⟩ else none
  | kept => some ⟨String.ofList (ofHead (head, dropIdleEnd kept.dropLast))⟩

/-- The path, its parent, and so on; `fuel` bounds how many. -/
def ancestorsUpTo : Nat → Path → List Path
  | 0, _ => []
  | fuel + 1, p => p :: match p.parent? with
    | none => []
    | some q => ancestorsUpTo fuel q

def ancestors (p : Path) : List Path := ancestorsUpTo (p.components.length + 1) p

def dropSteps : Nat → List (List Char) → List (List Char)
  | 0, segs => segs
  | _ + 1, [] => []
  | n + 1, s :: rest => if isIdle s then dropSteps (n + 1) rest else dropSteps n rest

/-- What follows `base` in the path, if the components of `base` begin it. -/
def stripPrefix? (base p : Path) : Option Path :=
  if base.components.isPrefixOf p.components then
    match base.components.length with
    | 0 => some p.trimEnd
    | n + 1 =>
      let (head, segs) := splitHead p.text.toList
      let after := dropSteps (if head.isEmpty then n + 1 else n) segs
      some ⟨String.ofList (joinSegments (dropIdleEnd (after.dropWhile isIdle)))⟩
  else none

/-- The path seen from `base` when it lies under it, otherwise the path itself. -/
def relativeTo (base p : Path) : Path := (stripPrefix? base p).getD p

end Path

end LintHub
