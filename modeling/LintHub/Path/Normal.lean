import LintHub.Path.Basic
import LintHub.Text.Blank

/-!
# Normal paths

* `Path.normalize` removes dot segments and folds steps up, without looking at any file.
* `Path.resolve` reads a path that a tool run in `root` reports; `Path.resolveNormal` normalizes it too.
* `Path.Normal` says what a normal component list is, apart from `normalize`.
-/

namespace LintHub.Path

/-- Takes one component onto the normalized ones, kept in reverse. A step up removes a name, is lost at the root,
and stays where there is nothing to remove. -/
def pushComponent (done : List Component) : Component → List Component
  | .here => done
  | .up => match done with
    | .name _ :: rest => rest
    | .root :: _ => done
    | _ => .up :: done
  | .root => [.root]
  | .name n => .name n :: done

def normalizeComponents (cs : List Component) : List Component := (cs.foldl pushComponent []).reverse

def ofComponents (cs : List Component) : Path :=
  ⟨String.ofList (cs.foldl (fun text c => if c = .root then ['/'] else appendStep text c.text.toList) [])⟩

/-- The path without dots, and with steps up only at its start if it is relative. -/
def normalize (p : Path) : Path := ofComponents (normalizeComponents p.components)

/-- A component that is no dot, no step up and no root. -/
def Component.IsName : Component → Prop
  | .name _ => True
  | _ => False

/-- A normal list: names below the root, or steps up followed by names. -/
def Normal (cs : List Component) : Prop :=
  (∃ names, cs = .root :: names ∧ ∀ c ∈ names, c.IsName) ∨
    ∃ (k : Nat) (names : List Component), cs = List.replicate k .up ++ names ∧ ∀ c ∈ names, c.IsName

/-- The file that a tool run in `root` means by `reported`. -/
def resolve (root : Path) (reported : String) : Path := root.join ⟨Text.trimmed reported⟩

def resolveNormal (root : Path) (reported : String) : Path := (root.resolve reported).normalize

end LintHub.Path
