import LintHub.Finding.Json

/-!
# Results of checks

* `FileResult` is what a check says of one file: its findings and the tools that failed.
* `Summary.of` counts over many results.
* `mergeFindings` orders findings and keeps one of each, `groupByFile` makes a result of each file's findings.
-/

namespace LintHub

/-- A tool that gave no findings for a file, and why. -/
structure ToolFailure where
  tool : Tool
  message : String
deriving DecidableEq, Inhabited

structure FileResult where
  path : Path
  findings : List Finding
  fromCache : Bool
  /-- The tools that ran, in order. -/
  ran : List Tool
  failures : List ToolFailure
deriving DecidableEq, Inhabited

namespace FileResult

def new (path : Path) (findings : List Finding) : FileResult := ⟨path, findings, false, [], []⟩

def cached (path : Path) (findings : List Finding) : FileResult := ⟨path, findings, true, [], []⟩

def hasErrors (r : FileResult) : Bool := r.findings.any Finding.isError

def count (r : FileResult) (s : Severity) : Nat := (r.findings.filter fun f => f.severity == s).length

/-- The result as an object; failures only if there are some. -/
def toJson (r : FileResult) : Json :=
  .obj ([("path", .str r.path.text), ("diagnostics", .arr (r.findings.map Finding.toJson)),
    ("from_cache", .bool r.fromCache)] ++
    if r.failures.isEmpty then []
    else [("failures", .arr (r.failures.map fun f => .obj [("tool", .str f.tool.id), ("message", .str f.message)]))])

end FileResult

def findingsIn (results : List FileResult) : List Finding := results.flatMap FileResult.findings

/-! ## Summary -/

structure Summary where
  files : Nat
  cachedFiles : Nat
  findings : Nat
  errors : Nat
  warnings : Nat
  infos : Nat
  filesWithErrors : Nat
  toolFailures : Nat
deriving DecidableEq, Inhabited

namespace Summary

def zero : Summary := ⟨0, 0, 0, 0, 0, 0, 0, 0⟩

def add (s : Summary) (r : FileResult) : Summary where
  files := s.files + 1
  cachedFiles := if r.fromCache then s.cachedFiles + 1 else s.cachedFiles
  findings := s.findings + r.findings.length
  errors := s.errors + r.count .error
  warnings := s.warnings + r.count .warning
  infos := s.infos + r.count .info
  filesWithErrors := if r.hasErrors then s.filesWithErrors + 1 else s.filesWithErrors
  toolFailures := s.toolFailures + r.failures.length

def of (results : List FileResult) : Summary := results.foldl add zero

end Summary

/-! ## Merging -/

def Finding.le (a b : Finding) : Bool := a.compare b != .gt

/-- Drops each element that is the same as the one kept before it. -/
def dedupAdjacent : List Finding → List Finding
  | [] => []
  | [f] => [f]
  | f :: g :: rest =>
    if f.same g then dedupAdjacent (f :: rest) else f :: dedupAdjacent (g :: rest)
termination_by fs => fs.length

/-- All findings in the order of reports, one of each. -/
def mergeFindings (lists : List (List Finding)) : List Finding := dedupAdjacent (lists.flatten.mergeSort Finding.le)

/-! ## Grouping -/

/-- Puts a finding into the group of its file, among groups ordered by path. -/
def insertGroup (f : Finding) : List (Path × List Finding) → List (Path × List Finding)
  | [] => [(f.file, [f])]
  | (path, fs) :: rest =>
    match f.file.compare path with
    | .lt => (f.file, [f]) :: (path, fs) :: rest
    | .eq => (path, fs ++ [f]) :: rest
    | .gt => (path, fs) :: insertGroup f rest

/-- A result for each file, in the order of their paths. -/
def groupByFile (findings : List Finding) : List FileResult :=
  (findings.foldl (fun groups f => insertGroup f groups) []).map fun group => FileResult.new group.1 group.2

end LintHub
