import LintHub.Disk.Basic
import LintHub.Running.Command

/-!
# Running tools

* `Host` runs programs on a disk: what a run says and the disk after it.
* `Execution` is a run that ended as tools do, `Host.execute` runs a command and refuses other ends.
* `Host.toolVersion` asks a tool for its version.
-/

namespace LintHub

/-- A program to run in a directory, stopped after so many milliseconds. -/
structure Invocation where
  program : Path
  args : List String
  cwd : Path
  limit : Nat
deriving DecidableEq, Inhabited

inductive Outcome where
  /-- With an exit code, or none if a signal killed it, and what it wrote. -/
  | ended (code : Option Nat) (stdout stderr : ByteArray)
  | timedOut
  | notStarted (e : OsError)
deriving Inhabited

structure Host where
  run : Disk → Invocation → Outcome × Disk

/-- A run that ended as a tool does that did its work. -/
structure Execution where
  tool : Tool
  stdout : String
  stderr : String
  code : Nat
deriving DecidableEq, Inhabited

namespace Execution

def goodCodes : List Nat := [0, 1, 2]

def excerptLength : Nat := 512

def excerpt (stderr : String) : String :=
  let text := Text.trim stderr.toList
  if excerptLength < text.length then String.ofList (text.take excerptLength) ++ "..." else String.ofList text

/-- What an outcome means for a tool that had so many milliseconds. -/
def ofOutcome (tool : Tool) (limit : Nat) : Outcome → Except CheckError Execution
  | .notStarted .notFound => .error (.toolNotFound tool)
  | .notStarted e => .error (.os e)
  | .timedOut => .error (.timeout tool limit)
  | .ended code stdout stderr =>
    match code with
    | some n =>
      if goodCodes.contains n then .ok ⟨tool, Text.decodeLossy stdout, Text.decodeLossy stderr, n⟩
      else .error (.executionFailed tool (some n) (excerpt (Text.decodeLossy stderr)))
    | none => .error (.executionFailed tool none (excerpt (Text.decodeLossy stderr)))

end Execution

namespace Host

def execute (h : Host) (d : Disk) (c : ToolCommand) (cwd : Path) (limit : Nat) :
    Except CheckError Execution × Disk :=
  let (outcome, d) := h.run d ⟨c.program, c.args, cwd, limit⟩
  (Execution.ofOutcome c.tool limit outcome, d)

/-- The version that a tool names on its first line. -/
def toolVersion (h : Host) (d : Disk) (c : ToolCommand) (cwd : Path) : Option String × Disk :=
  match h.execute d c cwd 10000 with
  | (.ok e, d) =>
    let line := Text.trimmed ((Text.stringLines e.stdout).headD "")
    (if line = "" then none else some line, d)
  | (.error _, d) => (none, d)

end Host

end LintHub
