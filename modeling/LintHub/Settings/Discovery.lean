import LintHub.Checking.Error
import LintHub.Disk.Basic

/-!
# Finding settings

* `Settings.find?` looks for a settings file in a directory and those above it.
* `Settings.load` reads one, `Settings.loadFor` the one that is found, if any.
-/

namespace LintHub.Settings

/-- The settings file in the nearest directory that has one. -/
def find? (d : Disk) (start : Path) : Option Path :=
  (start.ancestors.flatMap fun dir => fileNames.map dir.child).find? d.isFile

def load (d : Disk) (file : Path) : Except CheckError Settings :=
  match d.readText file with
  | .error e => .error (.config ("Failed to read config: " ++ e.message))
  | .ok text =>
    match parse text with
    | .error fault => .error (.ofSettings fault)
    | .ok s => .ok { s with baseDir := file.parent?.or s.baseDir }

/-- The settings for a directory: those of the file that is found, or else the default. -/
def loadFor (d : Disk) (start : Path) : Except CheckError Settings :=
  match find? d start with
  | some file => load d file
  | none => .ok default

end LintHub.Settings
