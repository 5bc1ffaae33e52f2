import LintHub.Disk.Basic

/-!
# Changes of a disk

* `Change` is one step on files and directories, `Disk.changes` lists those that lead from one disk to another.
-/

namespace LintHub

inductive Change where
  | remove (file : Path)
  | makeDir (dir : Path)
  | write (file : Path) (bytes : ByteArray)
deriving Inhabited

namespace Disk

/-- What makes a node of an older disk into one that stands at its location later. -/
def changeAt? (old : Disk) (loc : Location) (n : Node) : Option Change :=
  match n, old.node? loc with
  | .dir, some .dir => none
  | .dir, _ => some (.makeDir (pathOf loc))
  | .file bytes _, some (.file before _) => if bytes.data = before.data then none else some (.write (pathOf loc) bytes)
  | .file bytes _, _ => some (.write (pathOf loc) bytes)
  | _, _ => none

def gone (old new : Disk) : List Change :=
  old.nodes.filterMap fun (loc, n) => if n.isDir || (new.node? loc).isSome then none else some (.remove (pathOf loc))

/-- What makes an older disk into a later one: what is gone is removed, and then directories are made from the root
on, and files written into them. -/
def changes (old new : Disk) : List Change :=
  old.gone new ++ ((new.nodes.mergeSort fun a b => a.1.length ≤ b.1.length).filterMap fun (loc, n) =>
    old.changeAt? loc n)

end Disk

end LintHub
