import LintHub.Checking.Error

/-!
# Command lines of tools

* `ToolCommand.check`, `ToolCommand.fix` and `ToolCommand.version` are what a tool is called with to check a file, to
  mend it, and to name its version.
-/

namespace LintHub

structure ToolCommand where
  tool : Tool
  program : Path
  args : List String
deriving DecidableEq, Inhabited

namespace ToolCommand

/-- Checks a file. The tool's own settings stand before the file. -/
def check (tool : Tool) (program : Path) (target : Path) (extra : List String) : ToolCommand :=
  { tool, program
    args := match tool with
      | .yamllint => ["-f", "parsable"] ++ extra ++ [target.text]
      | .ansibleLint => ["-f", "codeclimate", "-q", "--nocolor"] ++ extra ++ [target.text]
      | .preCommit => ["run"] ++ extra ++ ["--files", target.text] }

/-- Mends a file in place, if the tool can. -/
def fix (tool : Tool) (program : Path) (target : Path) : Except CheckError ToolCommand :=
  match tool with
  | .yamllint => .error (.fixUnsupported tool)
  | .ansibleLint => .ok ⟨tool, program, ["--fix", "-q", "--nocolor", target.text]⟩
  | .preCommit => .ok ⟨tool, program, ["run", "--files", target.text]⟩

def version (tool : Tool) (program : Path) : ToolCommand := ⟨tool, program, ["--version"]⟩

def display (c : ToolCommand) : String := " ".intercalate (c.program.text :: c.args)

end ToolCommand

end LintHub
