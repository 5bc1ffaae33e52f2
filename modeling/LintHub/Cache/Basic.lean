import LintHub.Cache.Entry
import LintHub.Checking.Error
import LintHub.Disk.Basic

/-!
# The cache

* `Cache` holds entries by the texts of paths. While it is switched off, nothing is found and nothing is stored.
* `Cache.load` reads the cache's file, `Cache.save` writes it. A file of another format version is passed over.
-/

namespace LintHub

/-- Results of earlier checks. -/
structure Cache where
  dir : Path
  entries : Table CacheEntry
  enabled : Bool
deriving DecidableEq, Inhabited

namespace Cache

/-- An empty cache that is kept in a directory. -/
def new (dir : Path) : Cache := ⟨dir, [], true⟩

def defaultDir : Path := ⟨".yamlsentry-cache"⟩

def formatVersion : UInt32 := 1

def file (c : Cache) : Path := c.dir.child "cache.json"

/-! ## Entries -/

def get? (c : Cache) (path : Path) : Option CacheEntry := if c.enabled then c.entries.get? path.text else none

/-- The entry of a path, if it still holds. -/
def valid? (c : Cache) (path : Path) (key : CacheKey) : Option CacheEntry :=
  (c.get? path).filter fun e => e.holdsFor key

def isValid (c : Cache) (path : Path) (key : CacheKey) : Bool := (c.valid? path key).isSome

def insert (c : Cache) (path : Path) (e : CacheEntry) : Cache :=
  if c.enabled then { c with entries := c.entries.insert path.text e } else c

def erase (c : Cache) (path : Path) : Cache := { c with entries := c.entries.erase path.text }

def clear (c : Cache) : Cache := { c with entries := [] }

/-! ## In a file -/

def render (c : Cache) : String :=
  (Json.obj [("version", .nat formatVersion.toNat),
    ("entries", .obj (c.entries.map fun (path, e) => (path, e.toJson)))]).compact

/-- The parts of the file that count when it is read. -/
def shape : Json.Shape := .record [("version", .whole), ("entries", .entries CacheEntry.shape)]

def entriesOfJson? (j : Json) : Option (Table CacheEntry) := do
  let pairs ← (← j.asFields?).mapM fun (path, e) => (CacheEntry.ofJson? e).map fun e => (path, e)
  some (Table.ofList pairs)

/-- The format version and the entries that a text holds. -/
def parse? (text : String) : Option (UInt32 × Table CacheEntry) := do
  let j ← Json.parseAs? shape text
  if !j.isRecord 2 then none
  else do
    let version ← (← j.field? 0 "version").word?
    let entries ← entriesOfJson? (← j.field? 1 "entries")
    some (version, entries)

/-- The cache as its file has it. It stays as it is when it is switched off, when there is no file and when the
file is of another format version. -/
def load (c : Cache) (d : Disk) : Except CacheError Cache :=
  if !c.enabled || !d.has c.file then .ok c
  else match d.readText c.file with
    | .error e => .error (.os e)
    | .ok text =>
      match parse? text with
      | none => .error (.corrupted "")
      | some (version, entries) => .ok (if version = formatVersion then { c with entries } else c)

/-- The disk with the cache's file, unless it is switched off. -/
def save (c : Cache) (d : Disk) : Except CacheError Disk :=
  if !c.enabled then .ok d
  else match d.makeDirs c.dir with
    | .error e => .error (.os e)
    | .ok made =>
      match made.write c.file c.render with
      | .error e => .error (.os e)
      | .ok written => .ok written

end Cache

end LintHub
