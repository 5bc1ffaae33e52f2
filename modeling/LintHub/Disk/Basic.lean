import LintHub.Disk.Error
import LintHub.Path.Basic
import LintHub.Text.Utf8

/-!
# The disk

* `Disk` maps locations to files, directories and links; relative paths start at its `here`.
* `Disk.find` follows a path, links included, to a location.
* `Disk.readText`, `Disk.write`, `Disk.makeDirs`, `Disk.canonical` and the others are the operations that checks
  use.
-/

namespace LintHub

/-- The names from the root to a place. -/
abbrev Location := List String

inductive Node where
  | file (bytes : ByteArray) (executable : Bool)
  /-- A program of the system. -/
  | program (name : String)
  | dir
  | link (target : String)
deriving Inhabited

namespace Node

/-- Whether it can be read and run like a file. -/
def isFile : Node → Bool
  | file .. => true
  | program _ => true
  | _ => false

def isDir : Node → Bool
  | dir => true
  | _ => false

end Node

structure Disk where
  nodes : List (Location × Node)
  /-- Where relative paths start. -/
  here : Location
deriving Inhabited

namespace Disk

def pathOf (loc : Location) : Path := ⟨"/" ++ "/".intercalate loc⟩

/-- What stands at a location. The root is always a directory. -/
def node? (d : Disk) (loc : Location) : Option Node :=
  if loc.isEmpty then some .dir else (d.nodes.find? fun entry => entry.1 == loc).map (·.2)

def erase (d : Disk) (loc : Location) : Disk := { d with nodes := d.nodes.filter fun entry => entry.1 != loc }

def put (d : Disk) (loc : Location) (n : Node) : Disk := { d with nodes := (loc, n) :: (d.erase loc).nodes }

def namesIn (d : Disk) (loc : Location) : List String :=
  d.nodes.filterMap fun entry => if entry.1.dropLast == loc then entry.1.getLast? else none

/-! ## Following paths -/

def segmentsOf (text : String) : List String := (Text.pieces '/' text.toList).map String.ofList

/-- A segment that leads nowhere. -/
def isIdle (segment : String) : Bool := segment == "" || segment == "."

/-- Follows segments from a directory, with at most `links` links. The last segment's node may be absent, and is
not followed if it is a link unless `follow`. -/
def walk (d : Disk) (follow : Bool) (links : Nat) (here : Location) (todo : List String) :
    Except OsError (Location × Option Node) :=
  match todo with
  | [] => .ok (here, d.node? here)
  | segment :: rest =>
    if isIdle segment then walk d follow links here rest
    else if segment = ".." then walk d follow links here.dropLast rest
    else if 255 < segment.utf8ByteSize then .error .nameTooLong
    else
      let loc := here ++ [segment]
      match d.node? loc with
      | none => if rest.isEmpty then .ok (loc, none) else .error .notFound
      | some .dir => walk d follow links loc rest
      | some (.link target) =>
        if rest.isEmpty && !follow then .ok (loc, some (.link target))
        else match links with
          | 0 => .error .tooManyLinks
          | more + 1 =>
            if target = "" then .error .notFound
            else walk d follow more (if target.toList.head? = some '/' then [] else here) (segmentsOf target ++ rest)
      | some n => if rest.isEmpty then .ok (loc, some n) else .error .notDirectory
termination_by (links, todo.length)

/-- Where a path leads, and what stands there. -/
def find (d : Disk) (follow : Bool) (p : Path) : Except OsError (Location × Option Node) :=
  if p.text = "" then .error .notFound
  else if p.text.toList.contains '\x00' then .error .nullInName
  else if p.isAbsolute then d.walk follow 40 [] (segmentsOf p.text)
  else match d.node? d.here with
    | some .dir => d.walk follow 40 d.here (segmentsOf p.text)
    | _ => .error .notFound

def stat (d : Disk) (follow : Bool) (p : Path) : Except OsError (Location × Node) :=
  match d.find follow p with
  | .ok (loc, some n) => .ok (loc, n)
  | .ok (_, none) => .error .notFound
  | .error e => .error e

def isFile (d : Disk) (p : Path) : Bool :=
  match d.stat true p with
  | .ok (_, n) => n.isFile
  | .error _ => false

def isDir (d : Disk) (p : Path) : Bool :=
  match d.stat true p with
  | .ok (_, n) => n.isDir
  | .error _ => false

/-- Whether a path is a file and no link to one. -/
def isPlainFile (d : Disk) (p : Path) : Bool :=
  match d.stat false p with
  | .ok (_, n) => n.isFile
  | .error _ => false

def has (d : Disk) (p : Path) : Bool :=
  match d.stat true p with
  | .ok _ => true
  | .error _ => false

/-- The absolute path without links that a path leads to. -/
def canonical (d : Disk) (p : Path) : Except OsError Path := (d.stat true p).map fun found => pathOf found.1

/-! ## Reading and writing -/

/-- The bytes of a file. Those of the system's programs are no text. -/
def readBytes (d : Disk) (p : Path) : Except OsError ByteArray :=
  match d.stat true p with
  | .ok (_, .file bytes _) => .ok bytes
  | .ok (_, .dir) => .error .isDirectory
  | .ok _ => .ok ⟨#[0x7F, 0x45, 0x4C, 0x46, 0xFF]⟩
  | .error e => .error e

def readText (d : Disk) (p : Path) : Except OsError String :=
  match d.readBytes p with
  | .ok bytes =>
    match Text.decode? bytes with
    | some s => .ok s
    | none => .error .notUtf8
  | .error e => .error e

/-- Replaces the bytes of a file, or creates it in a directory that is there. -/
def writeBytes (d : Disk) (p : Path) (bytes : ByteArray) : Except OsError Disk :=
  match d.find true p with
  | .ok (loc, none) => .ok (d.put loc (.file bytes false))
  | .ok (loc, some (.file _ executable)) => .ok (d.put loc (.file bytes executable))
  | .ok (_, some .dir) => .error .isDirectory
  | .ok _ => .error .permission
  | .error e => .error e

def write (d : Disk) (p : Path) (text : String) : Except OsError Disk := d.writeBytes p text.toUTF8

/-- Creates a file where nothing stands, not even a link. -/
def writeNew (d : Disk) (p : Path) (text : String) : Except OsError Disk :=
  match d.find false p with
  | .ok (loc, none) => .ok (d.put loc (.file text.toUTF8 false))
  | .ok (_, some _) => .error .alreadyExists
  | .error e => .error e

def removeFile (d : Disk) (p : Path) : Except OsError Disk :=
  match d.stat false p with
  | .ok (_, .dir) => .error .isDirectory
  | .ok (loc, _) => .ok (d.erase loc)
  | .error e => .error e

/-- Creates a directory in one that is there. -/
def makeDir (d : Disk) (p : Path) : Except OsError Disk :=
  match d.find false p.trimEnd with
  | .ok (loc, none) => .ok (d.put loc .dir)
  | .ok (_, some _) => .error .alreadyExists
  | .error e => .error e

/-- Creates a directory and those above it; `paths` are the directory and its ancestors, nearest first. -/
def makeDirsFrom (d : Disk) : List Path → Except OsError Disk
  | [] => .error .notFound
  | p :: above =>
    if p.text = "" then .ok d
    else match d.makeDir p with
      | .ok d => .ok d
      | .error .notFound =>
        match makeDirsFrom d above with
        | .error e => .error e
        | .ok made =>
          match made.makeDir p with
          | .ok made => .ok made
          | .error e => if made.isDir p then .ok made else .error e
      | .error e => if d.isDir p then .ok d else .error e

/-- Creates a directory and those above it, unless it is there. -/
def makeDirs (d : Disk) (p : Path) : Except OsError Disk := d.makeDirsFrom p.ancestors

/-! ## Walking -/

/-- The entries under a directory, with their paths; links are not followed. `enter` tells which names of
directories count; `depth` bounds how deep they lie. -/
def entriesUnder (d : Disk) (enter : String → Bool) : Nat → Path → Location → List (Path × Node)
  | 0, _, _ => []
  | depth + 1, p, loc =>
    (d.namesIn loc).flatMap fun name =>
      match d.node? (loc ++ [name]) with
      | some .dir =>
        if enter name then (p.child name, .dir) :: entriesUnder d enter depth (p.child name) (loc ++ [name]) else []
      | some n => [(p.child name, n)]
      | none => []

def depth (d : Disk) : Nat := (d.nodes.map fun entry => entry.1.length).foldl max 0

/-- A path and all entries under it. A link counts as what it leads to only in first place. -/
def tree (d : Disk) (enter : String → Bool) (p : Path) : List (Path × Node) :=
  match d.stat true p with
  | .ok (loc, .dir) => (p, .dir) :: d.entriesUnder enter (d.depth + 1) p loc
  | .ok (_, n) =>
    match d.stat false p with
    | .ok (_, .link target) => [(p, .link target)]
    | _ => [(p, n)]
  | .error _ => []

end Disk

end LintHub
