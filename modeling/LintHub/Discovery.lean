import LintHub.Checking.Error
import LintHub.Disk.Basic
import LintHub.Glob.Matching

/-!
# Finding files

* `FileFilter` holds the patterns of the files to check and of those to leave out, seen from a base directory.
* `FileFilter.discover` expands names and patterns into files, each once and in order. A file that is named need not
  match the patterns of the files to check.
-/

namespace LintHub

def skippedDirs : List String := [".git", ".venv", "venv", "node_modules", ".tox", "__pycache__"]

structure FileFilter where
  included : List (List Glob.Token)
  excluded : List (List Glob.Token)
deriving Inhabited

namespace FileFilter

/-- Reads a pattern; `kind` names it in the error. -/
def pattern (kind : String) (p : String) : Except CheckError (List Glob.Token) :=
  match Glob.parse p with
  | .ok tokens => .ok tokens
  | .error e =>
    .error (.config ("Invalid " ++ kind ++ " '" ++ p ++ "': error parsing glob '" ++ p ++ "': " ++ e.message))

def of (included excluded : List String) : Except CheckError FileFilter := do
  let included ← included.mapM (pattern "glob pattern")
  let excluded ← excluded.mapM (pattern "glob pattern")
  pure ⟨included, excluded⟩

/-- Whether a path, seen from the base, is left out by name. -/
def excludes (f : FileFilter) (relative : Path) : Bool := Glob.acceptsAny f.excluded relative.text

/-- Whether a path, seen from the base, is not checked. Without patterns of files to check, all are. -/
def ignores (f : FileFilter) (relative : Path) : Bool :=
  f.excludes relative || (!f.included.isEmpty && !Glob.acceptsAny f.included relative.text)

/-! ## Names and patterns -/

/-- The file that a name stands for, and no link. -/
def namedFile? (d : Disk) (base : Path) (name : String) : Option Path :=
  if d.isPlainFile (base.child name) then some (base.child name) else none

/-- The files that are named, unless they are left out. -/
def named (f : FileFilter) (d : Disk) (base : Path) (names : List String) : List Path :=
  ((names.filterMap (namedFile? d base)).filter fun p => !f.excludes (Path.relativeTo base p)).map fun p =>
    (d.canonical p).toOption.getD p

def patternsAmong (d : Disk) (base : Path) (names : List String) : Except CheckError (List (List Glob.Token)) :=
  (names.filter fun name => (namedFile? d base name).isNone).mapM (pattern "pattern")

/-- The files under a directory. Links are not followed, and some directories are not entered. -/
def filesUnder (d : Disk) (base : Path) : List Path :=
  ((d.tree (fun name => !skippedDirs.contains name) base).filter fun entry => entry.2.isFile).map (·.1)

/-- The files under the base that match one of the patterns and are checked. -/
def matching (f : FileFilter) (d : Disk) (base : Path) (patterns : List (List Glob.Token)) : List Path :=
  if patterns.isEmpty then []
  else (filesUnder d base).filter fun p =>
    let relative := Path.relativeTo base p
    Glob.acceptsAny patterns relative.text && !f.ignores relative

/-- Drops each path that is the same as the one kept before it. -/
def dropRepeats : List Path → List Path
  | [] => []
  | [p] => [p]
  | p :: q :: rest => if p.same q then dropRepeats (p :: rest) else p :: dropRepeats (q :: rest)
termination_by ps => ps.length

def precedes (p q : Path) : Bool := p.compare q != .gt

/-- Paths in order, each once. -/
def inOrder (ps : List Path) : List Path := dropRepeats (ps.mergeSort precedes)

def discover (f : FileFilter) (d : Disk) (base : Path) (names : List String) : Except CheckError (List Path) := do
  let patterns ← patternsAmong d base names
  pure (inOrder (f.named d base names ++ f.matching d base patterns))

end FileFilter

end LintHub
