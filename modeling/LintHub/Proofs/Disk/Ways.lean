import LintHub.Disk.Basic

/-!
# One step of a way

What `Disk.walk` does with a segment that is a name: it enters a directory (`walk_dir`), follows a link (`walk_link`), or
ends (`walk_end`).
-/

namespace LintHub.Disk

variable {d : Disk} {here : Location} {follow : Bool} {links : Nat} {todo : List String} {segment : String}
  (hidle : ¬ isIdle segment = true) (hup : segment ≠ "..") (hlong : ¬ 255 < segment.utf8ByteSize)
include hidle hup hlong

theorem walk_dir (hdir : d.node? (here ++ [segment]) = some .dir) :
    d.walk follow links here (segment :: todo) = d.walk follow links (here ++ [segment]) todo := by
  rw [walk, if_neg hidle, if_neg hup, if_neg hlong]
  simp only [hdir]

theorem walk_link {target : String} (hlink : d.node? (here ++ [segment]) = some (.link target)) (htarget : target ≠ "")
    (hgoes : ¬ (todo.isEmpty && !follow) = true) :
    d.walk follow (links + 1) here (segment :: todo) =
      d.walk follow links (if target.toList.head? = some '/' then [] else here) (segmentsOf target ++ todo) := by
  rw [walk, if_neg hidle, if_neg hup, if_neg hlong]
  simp only [hlink, if_neg hgoes, if_neg htarget]

theorem walk_end {found : Option Node} (hfound : d.node? (here ++ [segment]) = found) (hdir : found ≠ some .dir)
    (hlink : follow = true → ∀ target, found ≠ some (.link target)) :
    d.walk follow links here [segment] = .ok (here ++ [segment], found) := by
  rw [walk, if_neg hidle, if_neg hup, if_neg hlong]
  cases found with
  | none => simp only [hfound, List.isEmpty_nil, if_true]
  | some n =>
    cases n with
    | file bytes executable => simp only [hfound, List.isEmpty_nil, if_true]
    | program name => simp only [hfound, List.isEmpty_nil, if_true]
    | dir => exact absurd rfl hdir
    | link target =>
      cases follow with
      | true => exact absurd rfl (hlink rfl target)
      | false => simp only [hfound, List.isEmpty_nil, Bool.not_false, Bool.and_true, if_true]

end LintHub.Disk
