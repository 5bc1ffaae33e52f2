import LintHub.Disk.Error
import LintHub.Report.Dialect
import LintHub.Settings.Reading

/-!
# Errors of checks

* `OptionError` is a text that names no tool or no dialect, `CacheError` why the cache cannot be read or written.
* `CheckError` is why a check, a fix or a search for files fails; `CheckError.message` says it in words.
-/

namespace LintHub

/-- A text that names no tool or no dialect. -/
inductive OptionError where
  | unknownDialect (text : String)
  | unknownTool (text : String)
deriving DecidableEq, Inhabited

def OptionError.message : OptionError → String
  | unknownDialect s => Dialect.unknownText s
  | unknownTool s => Tool.unknownText "Unknown" s

/-- Why the cache cannot be read or written. -/
inductive CacheError where
  | corrupted (reason : String)
  | os (e : OsError)
  | serialization (reason : String)
deriving DecidableEq, Inhabited

def CacheError.message : CacheError → String
  | corrupted reason => "Corrupted cache: " ++ reason
  | os e => "I/O error: " ++ e.message
  | serialization reason => "Serialization error: " ++ reason

/-- Why a check, a fix or a search for files fails. -/
inductive CheckError where
  | config (reason : String)
  | toolNotFound (tool : Tool)
  /-- The tool ended with a code that signals a crash, or was killed. -/
  | executionFailed (tool : Tool) (code : Option Int) (stderr : String)
  | timeout (tool : Tool) (milliseconds : Nat)
  | fixUnsupported (tool : Tool)
  | file (reason : String)
  | option (e : OptionError)
  | cache (e : CacheError)
  | os (e : OsError)
deriving DecidableEq, Inhabited

namespace CheckError

def tool? : CheckError → Option Tool
  | toolNotFound t => some t
  | executionFailed t _ _ => some t
  | timeout t _ => some t
  | fixUnsupported t => some t
  | _ => none

def message : CheckError → String
  | config reason => "Configuration error: " ++ reason
  | toolNotFound t => t.id ++ " not found; install it or set tools." ++ t.id ++ ".path in the config"
  | executionFailed t code stderr =>
    let how := match code with
      | some n => "exit code " ++ toString n
      | none => "a signal"
    t.id ++ " failed with " ++ how ++ ": " ++ stderr
  | timeout t milliseconds => t.id ++ " timed out after " ++ toString (milliseconds / 1000) ++ "s"
  | fixUnsupported t => t.id ++ " cannot fix files automatically"
  | file reason => "File error: " ++ reason
  | option e => "Parse error: " ++ e.message
  | cache e => "Cache error: " ++ e.message
  | os e => "I/O error: " ++ e.message

def ofSettings : Settings.Fault → CheckError
  | .notJson => config "Invalid JSON"
  | .violation v => config ("Config validation failed: " ++ v.message)
  | .notSettings => config "Invalid config"
  | .unknownDialect s => option (.unknownDialect s)

end CheckError

end LintHub
