import LintHub.Checking.Error
import LintHub.Disk.Basic

/-!
# Finding programs

* `Locator` holds the directories in which programs are looked for.
* `Locator.ofEnvironment` takes them from the environment, `Locator.ofDirs` names them.
* `Locator.locate` finds a tool's program.
-/

namespace LintHub

structure Locator where
  dirs : List Path
  home : Option Path
  virtualEnv : Option Path
  systemDirs : Bool
deriving DecidableEq, Inhabited

namespace Locator

def ofDirs (dirs : List Path) : Locator := ⟨dirs, none, none, false⟩

/-- The home directory where the environment names none. -/
def fallbackHome : Path := ⟨"/root"⟩

/-- The directories of the search path, then those where tools install themselves. -/
def ofEnvironment (path home virtualEnv : Option String) : Locator where
  dirs := match path with
    | some s => (Text.pieces ':' s.toList).map fun dir => ⟨String.ofList dir⟩
    | none => []
  home := match home with
    | some "" => some fallbackHome
    | some h => some ⟨h⟩
    | none => some fallbackHome
  virtualEnv := virtualEnv.map Path.mk
  systemDirs := true

def searchDirs (l : Locator) (tool : Tool) : List Path :=
  l.dirs ++ (l.virtualEnv.map fun v => v.child "bin").toList ++
    (match l.home with
    | some h => [h.child ".local/bin", ((h.child ".local/pipx/venvs").child tool.id).child "bin",
        ((h.child ".local/share/pipx/venvs").child tool.id).child "bin"]
    | none => []) ++
    if l.systemDirs then [⟨"/usr/local/bin"⟩, ⟨"/opt/homebrew/bin"⟩] else []

/-- Whether a configured program is a path rather than a name. -/
def isPathLike (s : String) : Bool := s.toList.any fun c => c == '/' || c == '\\'

/-- The program that a configured text means: the text without outer blanks, unless nothing is left. -/
def configuredName? (configured : Option String) : Option String :=
  (configured.map Text.trimmed).filter fun s => s != ""

/-- A tool's program. A configured path is taken as it is; a configured name is looked for instead of the tool's. -/
def locate (l : Locator) (d : Disk) (tool : Tool) (configured : Option String) : Except CheckError Path :=
  let search (name : String) : Except CheckError Path :=
    match ((l.searchDirs tool).map fun dir => dir.child name).find? d.isFile with
    | some p => .ok p
    | none => .error (.toolNotFound tool)
  match configuredName? configured with
  | some name =>
    if isPathLike name then (if d.isFile ⟨name⟩ then .ok ⟨name⟩ else .error (.toolNotFound tool)) else search name
  | none => search tool.id

end Locator

end LintHub
