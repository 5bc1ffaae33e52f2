import LintHub.Digest.Blake3
import LintHub.Json.Printer
import LintHub.Path.Basic
import LintHub.Report.Dialect

/-!
# Settings

* `Settings` holds what a project may choose: the tools and how they run, the files to check, the cache and the
  ignore file.
* `Settings.default` is what holds without a file, `Settings.defaultText` a file that says so.
* `Settings.fingerprint` names settings, so that results found under others are not reused.
-/

namespace LintHub

structure PerTool (α : Type) where
  yamllint : α
  ansibleLint : α
  preCommit : α
deriving DecidableEq, Inhabited

namespace PerTool

def get {α : Type} (p : PerTool α) : Tool → α
  | .yamllint => p.yamllint
  | .ansibleLint => p.ansibleLint
  | .preCommit => p.preCommit

def ofFn {α : Type} (f : Tool → α) : PerTool α := ⟨f .yamllint, f .ansibleLint, f .preCommit⟩

@[simp] theorem get_ofFn {α : Type} (f : Tool → α) (t : Tool) : (ofFn f).get t = f t := by cases t <;> rfl

end PerTool

structure ToolSettings where
  enabled : Bool
  /-- The program, if it is not to be searched by the tool's name. -/
  path : Option String
  /-- More arguments, before the file. -/
  args : List String
  /-- Seconds until the tool is stopped. -/
  timeout : UInt64
  group : Option String
  dialect : Option String
deriving DecidableEq, Inhabited

/-- A tool that runs for at most half a minute. -/
def ToolSettings.default : ToolSettings := ⟨true, none, [], 30, none, none⟩

/-- The seconds until the tool is stopped, at least one. -/
def ToolSettings.seconds (t : ToolSettings) : Nat := max t.timeout.toNat 1

/-- The dialect that the settings force, or the text that names none. -/
def ToolSettings.forcedDialect (t : ToolSettings) : Except String (Option Dialect) :=
  match t.dialect with
  | none => .ok none
  | some s =>
    match Dialect.ofText? s with
    | some d => .ok (some d)
    | none => .error s

structure Settings where
  tools : PerTool ToolSettings
  /-- Patterns of the files to check. -/
  included : List String
  /-- Patterns of the files to leave out. -/
  excluded : List String
  cache : Bool
  cacheDir : String
  ignoreFile : String
  /-- The directory of the settings file. -/
  baseDir : Option Path
deriving DecidableEq, Inhabited

namespace Settings

/-- What holds without a settings file: every tool runs. -/
def default : Settings where
  tools := PerTool.ofFn fun _ => .default
  included := ["**/*.yml", "**/*.yaml"]
  excluded := []
  cache := true
  cacheDir := ".yamlsentry-cache"
  ignoreFile := ".ansible-lint-ignore"
  baseDir := none

/-- The names of settings files, in the order in which they are looked for. -/
def fileNames : List String := [".yamlsentry.jsonc", ".yamlsentry.json"]

def tool (s : Settings) (t : Tool) : ToolSettings := s.tools.get t

def enabledTools (s : Settings) : List Tool := Tool.all.filter fun t => (s.tool t).enabled

def group (s : Settings) (t : Tool) : String := (s.tool t).group.getD t.defaultGroup

/-- The settings with only the given tools enabled, unless none is given. -/
def restrictTo (s : Settings) (tools : List Tool) : Settings :=
  if tools.isEmpty then s
  else { s with tools := PerTool.ofFn fun t => { s.tool t with enabled := tools.contains t } }

/-- A path in the settings: seen from their file's directory, or from `root` without a file. -/
def resolve (s : Settings) (root : Path) (path : String) : Path := (s.baseDir.getD root).join ⟨path⟩

/-! ## In JSON -/

def toolJson (t : ToolSettings) : Json :=
  .obj ([("enabled", .bool t.enabled)] ++
    (match t.path with
    | some p => [("path", .str p)]
    | none => []) ++
    (if t.args.isEmpty then [] else [("args", .arr (t.args.map .str))]) ++
    [("timeout_secs", .nat t.timeout.toNat)] ++
    (match t.group with
    | some g => [("check_group", .str g)]
    | none => []) ++
    match t.dialect with
    | some d => [("dialect", .str d)]
    | none => [])

def toJson (s : Settings) : Json :=
  .obj [("tools", .obj (Tool.all.map fun t => (t.id, toolJson (s.tool t)))),
    ("include", .arr (s.included.map .str)), ("exclude", .arr (s.excluded.map .str)), ("cache", .bool s.cache),
    ("cache_dir", .str s.cacheDir), ("ignore_file", .str s.ignoreFile)]

/-- The name of the settings: the digest of their text. -/
def fingerprint (s : Settings) : String := contentHash s.toJson.compact

def schemaAddress : String := "https://raw.githubusercontent.com/simorgh3196/yamlsentry/main/schemas/v1/config.json"

/-- A settings file that says what holds without one. -/
def defaultText : String :=
  match default.toJson with
  | .obj fields => (Json.obj (("$schema", .str schemaAddress) :: fields)).canonical.pretty
  | j => j.pretty

end Settings

end LintHub
