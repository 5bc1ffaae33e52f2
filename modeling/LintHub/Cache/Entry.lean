import LintHub.Finding.Json
import LintHub.Table

/-!
# Entries of the cache

* `CacheEntry` is what a check of one file found, and what it depended on.
* `CacheEntry.holdsFor` says whether it still holds.
* `CacheEntry.toJson` writes it, `CacheEntry.ofJson?` reads it.
-/

namespace LintHub

/-- What a check depends on besides the file's place: the file's content, the settings, and the versions of the
tools. -/
structure CacheKey where
  contentHash : String
  settingsHash : String
  /-- The version that each tool names, by the tool's id. -/
  versions : Table String
deriving DecidableEq, Inhabited

/-- What a check of one file found. -/
structure CacheEntry where
  key : CacheKey
  findings : List Finding
  /-- Seconds since the epoch. -/
  createdAt : UInt64
deriving DecidableEq, Inhabited

namespace CacheEntry

def holdsFor (e : CacheEntry) (key : CacheKey) : Bool := e.key == key

def toJson (e : CacheEntry) : Json :=
  .obj [("content_hash", .str e.key.contentHash), ("config_hash", .str e.key.settingsHash),
    ("tool_versions", .obj (e.key.versions.map fun (name, v) => (name, .str v))),
    ("diagnostics", .arr (e.findings.map Finding.toJson)), ("created_at", .nat e.createdAt.toNat)]

/-- The parts of an entry that count when it is read. -/
def shape : Json.Shape := .record [("content_hash", .whole), ("config_hash", .whole),
  ("tool_versions", .entries .whole), ("diagnostics", .items Finding.shape), ("created_at", .whole)]

def versionsOfJson? (j : Json) : Option (Table String) := do
  let pairs ← (← j.asFields?).mapM fun (name, v) => v.asString?.map fun s => (name, s)
  some (Table.ofList pairs)

/-- The entry that an object or an array of fields holds. -/
def ofJson? (j : Json) : Option CacheEntry :=
  if !j.isRecord 5 then none
  else do
    let contentHash ← (← j.field? 0 "content_hash").asString?
    let settingsHash ← (← j.field? 1 "config_hash").asString?
    let versions ← Json.optional? versionsOfJson? [] (j.field? 2 "tool_versions")
    let findings ← Json.listOf? Finding.ofJson? (← j.field? 3 "diagnostics")
    let createdAt ← (← j.field? 4 "created_at").long?
    some ⟨⟨contentHash, settingsHash, versions⟩, findings, createdAt⟩

end CacheEntry

end LintHub
