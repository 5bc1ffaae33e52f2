/-!
# Finding and cutting inside a text

* `occurs` looks for a text inside another, `erase` drops its occurrences from left to right.
* `shortestHead` is the lazy split: the shortest head after which a given reader accepts the rest.
* `cutAt` cuts a text at the first place of a character, `pieces` at all of them, and `dropEnd?` cuts off a known end.
-/

namespace LintHub.Text

def occurs (part : List Char) : List Char → Bool
  | [] => part.isEmpty
  | c :: rest => part.isPrefixOf (c :: rest) || occurs part rest

def occursIn (part whole : String) : Bool := occurs part.toList whole.toList

/-- Drops the occurrences of `part`, looking after each one only in what follows it; `skip` characters of an
occurrence are still to drop. -/
def eraseFrom (part : List Char) : Nat → List Char → List Char
  | _, [] => []
  | skip + 1, _ :: rest => eraseFrom part skip rest
  | 0, c :: rest =>
    if part.isPrefixOf (c :: rest) then eraseFrom part (part.length - 1) rest else c :: eraseFrom part 0 rest

/-- The text without the occurrences of `part`, which is not empty, found from left to right. -/
def erase (part s : List Char) : List Char := eraseFrom part 0 s

def replaceChar (c d : Char) (s : String) : String := String.ofList (s.toList.map fun x => if x = c then d else x)

/-- The shortest nonempty head of characters with `ok` after which `next` accepts the rest, with its answer. -/
def shortestHead {α : Type} (ok : Char → Bool) (next : List Char → Option α) : List Char → Option (List Char × α)
  | [] => none
  | c :: rest =>
    if ok c then
      match next rest with
      | some a => some ([c], a)
      | none => (shortestHead ok next rest).map fun found => (c :: found.1, found.2)
    else none

/-- What stands before the first `sep`, and what follows it. -/
def cutAt (sep : Char) : List Char → Option (List Char × List Char)
  | [] => none
  | c :: rest => if c = sep then some ([], rest) else (cutAt sep rest).map fun cut => (c :: cut.1, cut.2)

/-- The pieces between the occurrences of `sep`: one more than there are occurrences. -/
def pieces (sep : Char) : List Char → List (List Char)
  | [] => [[]]
  | c :: rest =>
    if c = sep then [] :: pieces sep rest
    else match pieces sep rest with
      | [] => [[c]]
      | head :: tail => (c :: head) :: tail

def dropEnd? (part s : List Char) : Option (List Char) :=
  if part.isSuffixOf s then some (s.take (s.length - part.length)) else none

/-- The longest head of characters with `ok`, unless it is empty, and the rest. -/
def run? (ok : Char → Bool) (s : List Char) : Option (List Char × List Char) :=
  match s.takeWhile ok with
  | [] => none
  | head => some (head, s.dropWhile ok)

end LintHub.Text
