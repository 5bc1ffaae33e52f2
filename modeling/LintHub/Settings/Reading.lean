import LintHub.Json.Commented
import LintHub.Json.Record
import LintHub.Json.Schema
import LintHub.Settings.Basic

/-!
# Reading settings

* `Settings.schema` says what a settings file may hold.
* `Settings.ofJson?` reads settings from a value, `Settings.parse` from the text of a file.
* `Settings.Fault` says why a text gives no settings.
-/

namespace LintHub.Settings

def dialectSpellings : List String := ["structured", "json", "codeclimate", "column", "column-based", "pep8",
  "parsable", "hook", "hook-transcript", "pre-commit"]

def toolSchema : Schema :=
  .object [("enabled", .boolean), ("path", .nullableString), ("args", .array .string), ("timeout_secs", .count),
    ("check_group", .nullableString), ("dialect", .nullableChoice dialectSpellings)]

def schema : Schema :=
  .object [("$schema", .string), ("tools", .object (Tool.all.map fun t => (t.id, toolSchema))),
    ("include", .array .string), ("exclude", .array .string), ("cache", .boolean), ("cache_dir", .string),
    ("ignore_file", .string)]

inductive Fault where
  /-- The text is no JSON. -/
  | notJson
  /-- The value breaks the schema. -/
  | violation (v : Violation)
  /-- A number that the schema allows is not written as a whole one. -/
  | notSettings
  /-- A text names no dialect. -/
  | unknownDialect (s : String)
deriving Inhabited

def toolOfJson? (j : Json) : Option ToolSettings := do
  let d := ToolSettings.default
  let enabled ← Json.optional? Json.asBool? d.enabled (j.get? "enabled")
  let path ← Json.nullable? Json.asString? (j.get? "path")
  let args ← Json.optional? (Json.listOf? Json.asString?) d.args (j.get? "args")
  let timeout ← Json.optional? Json.long? d.timeout (j.get? "timeout_secs")
  let group ← Json.nullable? Json.asString? (j.get? "check_group")
  let dialect ← Json.nullable? Json.asString? (j.get? "dialect")
  some ⟨enabled, path, args, timeout, group, dialect⟩

def toolIn? (tools : Json) (t : Tool) : Option ToolSettings :=
  Json.optional? toolOfJson? .default (tools.get? t.id)

def toolsOfJson? (j : Json) : Option (PerTool ToolSettings) := do
  let y ← toolIn? j .yamllint
  let a ← toolIn? j .ansibleLint
  let p ← toolIn? j .preCommit
  some ⟨y, a, p⟩

/-- The settings that an object holds. What is left out is as without a file. -/
def ofJson? (j : Json) : Option Settings := do
  let d := Settings.default
  let tools ← Json.optional? toolsOfJson? d.tools (j.get? "tools")
  let included ← Json.optional? (Json.listOf? Json.asString?) d.included (j.get? "include")
  let excluded ← Json.optional? (Json.listOf? Json.asString?) d.excluded (j.get? "exclude")
  let cache ← Json.optional? Json.asBool? d.cache (j.get? "cache")
  let cacheDir ← Json.optional? Json.asString? d.cacheDir (j.get? "cache_dir")
  let ignoreFile ← Json.optional? Json.asString? d.ignoreFile (j.get? "ignore_file")
  some { tools, included, excluded, cache, cacheDir, ignoreFile, baseDir := none }

/-- Refuses a dialect that is none, the first in the order of tools. -/
def checkDialects (s : Settings) : Except Fault Unit :=
  Tool.all.forM fun t =>
    match (s.tool t).forcedDialect with
    | .ok _ => .ok ()
    | .error text => .error (.unknownDialect text)

def ofValue (j : Json) : Except Fault Settings := do
  match schema.check j with
  | .ok () => pure ()
  | .error v => throw (.violation v)
  match ofJson? j with
  | none => throw .notSettings
  | some s =>
    checkDialects s
    pure s

def parse (text : String) : Except Fault Settings :=
  match Json.Commented.parse? text with
  | none => .error .notJson
  | some j => ofValue j

end LintHub.Settings
