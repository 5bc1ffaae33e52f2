import LintHub.Cache.Basic
import LintHub.Discovery
import LintHub.IgnoreFile
import LintHub.Report.Reading
import LintHub.Report.Result
import LintHub.Running.Host
import LintHub.Running.Locator

/-!
# Checking files

* `Checker` holds the settings, the root of the project, the cache, and the versions of the tools once it has asked
  for them.
* `Checker.checkFile` and `Checker.checkFiles` run every enabled tool on a file, unless the cache holds a result for
  the same content, settings and versions.
* `Checker.fixFile` lets a tool mend a file and checks it again.

Tools run on a host and may change the disk, so that each of these also answers the checker and the disk afterwards.
-/

namespace LintHub

structure Checker where
  settings : Settings
  root : Path
  locator : Locator
  cache : Cache
  /-- The versions of the tools, once they were asked for. -/
  versions : Option (Table String)
deriving DecidableEq, Inhabited

namespace Checker

/-- A checker with the cache that its directory holds. A cache that cannot be read is taken as empty. -/
def new (settings : Settings) (root : Path) (locator : Locator) (d : Disk) : Checker :=
  let empty := Cache.new (settings.resolve root settings.cacheDir)
  let cache := if settings.cache then (empty.load d).toOption.getD empty else { empty with enabled := false }
  ⟨settings, root, locator, cache, none⟩

def disableCache (c : Checker) : Checker := { c with cache := { c.cache with enabled := false } }

/-! ## Paths -/

def absolute (c : Checker) (path : Path) : Path := c.root.join path

/-- The path as tools get it: they run in the root. -/
def target (c : Checker) (path : Path) : Path := Path.relativeTo c.root path

def ignorePath (c : Checker) : Path := c.settings.resolve c.root c.settings.ignoreFile

def ignoreFile (c : Checker) (d : Disk) : Except CheckError IgnoreFile := IgnoreFile.load d c.ignorePath c.root

/-- The files that names and patterns stand for, or those that the settings include. -/
def discover (c : Checker) (d : Disk) (names : List String) : Except CheckError (List Path) := do
  let filter ← FileFilter.of c.settings.included c.settings.excluded
  filter.discover d c.root (if names.isEmpty then c.settings.included else names)

/-! ## Running tools -/

def program (c : Checker) (d : Disk) (t : Tool) : Except CheckError Path :=
  c.locator.locate d t (c.settings.tool t).path

/-- Milliseconds that a tool may take. -/
def limit (c : Checker) (t : Tool) : Nat := 1000 * (c.settings.tool t).seconds

/-- The dialect in which a tool's output is read, if it is fixed. -/
def dialect (c : Checker) (t : Tool) : Except CheckError (Option Dialect) :=
  match (c.settings.tool t).forcedDialect with
  | .ok forced => .ok (forced.or (Dialect.preferred? t))
  | .error s => .error (.option (.unknownDialect s))

/-- The command line that checks a file, and the dialect of its output. -/
def prepare (c : Checker) (d : Disk) (t : Tool) (path : Path) : Except CheckError (ToolCommand × Option Dialect) := do
  let dialect ← c.dialect t
  let program ← c.program d t
  pure (.check t program (c.target path) (c.settings.tool t).args, dialect)

def findingsOf (c : Checker) (t : Tool) (dialect : Option Dialect) (e : Execution) : List Finding :=
  Report.readGrouped (Report.combined e.stdout e.stderr) c.root t dialect (some (c.settings.group t))

def runTool (h : Host) (c : Checker) (d : Disk) (t : Tool) (path : Path) : Except CheckError (List Finding) × Disk :=
  match c.prepare d t path with
  | .error e => (.error e, d)
  | .ok (command, dialect) =>
    match h.execute d command c.root (c.limit t) with
    | (.error e, d) => (.error e, d)
    | (.ok e, d) => (.ok (c.findingsOf t dialect e), d)

/-- What the tools said of a file. -/
structure Round where
  lists : List (List Finding)
  ran : List Tool
  failures : List ToolFailure
deriving DecidableEq, Inhabited

def Round.cons (t : Tool) (r : Except CheckError (List Finding)) (rest : Round) : Round :=
  match r with
  | .ok fs => ⟨fs :: rest.lists, t :: rest.ran, rest.failures⟩
  | .error e => ⟨rest.lists, rest.ran, ⟨t, e.message⟩ :: rest.failures⟩

def runTools (h : Host) (c : Checker) (d : Disk) (path : Path) : List Tool → Round × Disk
  | [] => (⟨[], [], []⟩, d)
  | t :: ts =>
    let (r, d) := c.runTool h d t path
    let (rest, d) := runTools h c d path ts
    (rest.cons t r, d)

/-! ## Versions -/

def askVersions (h : Host) (c : Checker) (d : Disk) : List Tool → Table String × Disk
  | [] => ([], d)
  | t :: ts =>
    match c.program d t with
    | .error _ => askVersions h c d ts
    | .ok program =>
      let (version, d) := h.toolVersion d (.version t program) c.root
      let (rest, d) := askVersions h c d ts
      (match version with
        | some v => rest.insert t.id v
        | none => rest, d)

/-- The versions of the enabled tools, asked for only once. -/
def knowVersions (h : Host) (c : Checker) (d : Disk) : Table String × Checker × Disk :=
  match c.versions with
  | some known => (known, c, d)
  | none =>
    let (versions, d) := c.askVersions h d c.settings.enabledTools
    (versions, { c with versions := some versions }, d)

/-! ## Checks -/

/-- The name of all settings that tools depend on: those of the project and the ignore file. -/
def settingsHash (c : Checker) (d : Disk) : String :=
  match d.readText c.ignorePath with
  | .ok ignored => contentHash (c.settings.fingerprint ++ "\n" ++ ignored)
  | .error _ => c.settings.fingerprint

def checkFresh (h : Host) (c : Checker) (d : Disk) (path : Path) : FileResult × Disk :=
  let (round, d) := c.runTools h d path c.settings.enabledTools
  (⟨path, mergeFindings round.lists, false, round.ran, round.failures⟩, d)

/-- Checks a file whose content has that hash. Only a result without failures is stored, for others would hide
findings the next time. `now` is the time in seconds. -/
def checkHashed (h : Host) (now : UInt64) (c : Checker) (d : Disk) (path : Path) (hash : String) :
    FileResult × Checker × Disk :=
  let settings := c.settingsHash d
  let (versions, c, d) := if c.cache.enabled then c.knowVersions h d else ([], c, d)
  let key : CacheKey := ⟨hash, settings, versions⟩
  match c.cache.valid? path key with
  | some e => (.cached path e.findings, c, d)
  | none =>
    let (result, d) := c.checkFresh h d path
    if result.failures.isEmpty then
      (result, { c with cache := c.cache.insert path ⟨key, result.findings, now⟩ }, d)
    else (result, c, d)

def hashOf (d : Disk) (path : Path) : Except CheckError String :=
  match d.readText path with
  | .ok text => .ok (contentHash text)
  | .error e => .error (.file ("Failed to read " ++ path.text ++ ": " ++ e.message))

def checkFile (h : Host) (now : UInt64) (c : Checker) (d : Disk) (path : Path) :
    Except CheckError FileResult × Checker × Disk :=
  match hashOf d (c.absolute path) with
  | .error e => (.error e, c, d)
  | .ok hash =>
    let (result, c, d) := c.checkHashed h now d (c.absolute path) hash
    (.ok result, c, d)

/-- The results of checking files, and the files that could not be read. -/
structure Batch where
  results : List FileResult
  unread : List (Path × CheckError)
deriving DecidableEq, Inhabited

/-- Checks files whose contents were read before. -/
def checkRead (h : Host) (now : UInt64) (c : Checker) (d : Disk) :
    List (Path × Except CheckError String) → Batch × Checker × Disk
  | [] => (⟨[], []⟩, c, d)
  | (path, .error e) :: rest =>
    let (batch, c, d) := checkRead h now c d rest
    (⟨batch.results, (path, e) :: batch.unread⟩, c, d)
  | (path, .ok hash) :: rest =>
    let (result, c, d) := c.checkHashed h now d path hash
    let (batch, c, d) := checkRead h now c d rest
    (⟨result :: batch.results, batch.unread⟩, c, d)

/-- Checks files. All are read before the first tool runs. -/
def checkFiles (h : Host) (now : UInt64) (c : Checker) (d : Disk) (paths : List Path) : Batch × Checker × Disk :=
  c.checkRead h now d ((paths.map c.absolute).map fun path => (path, hashOf d path))

/-- The checker without a stored result for a file. -/
def invalidate (c : Checker) (path : Path) : Checker := { c with cache := c.cache.erase (c.absolute path) }

/-- The command line by which a tool mends a file. -/
def prepareFix (c : Checker) (d : Disk) (t : Tool) (path : Path) : Except CheckError ToolCommand := do
  let program ← c.program d t
  ToolCommand.fix t program (c.target path)

/-- Lets a tool mend a file, and checks the file again. -/
def fixFile (h : Host) (now : UInt64) (c : Checker) (d : Disk) (path : Path) (t : Tool) :
    Except CheckError FileResult × Checker × Disk :=
  let path := c.absolute path
  match c.prepareFix d t path with
  | .error e => (.error e, c, d)
  | .ok command =>
    match h.execute d command c.root (c.limit t) with
    | (.error e, d) => (.error e, c, d)
    | (.ok _, d) => (c.invalidate path).checkFile h now d path

def saveCache (c : Checker) (d : Disk) : Except CheckError Disk :=
  match c.cache.save d with
  | .ok d => .ok d
  | .error e => .error (.cache e)

end Checker

end LintHub
