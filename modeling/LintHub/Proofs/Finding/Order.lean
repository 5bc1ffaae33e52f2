import LintHub.Finding
import LintHub.Proofs.Path.Order

/-!
# The order of findings

`Finding.compare` goes through all fields, so it is a total order up to `Finding.same`: `compare_eq_eq`.
-/

namespace LintHub

open Std (TransCmp LawfulEqOrd)

theorem Tool.rank_inj {t u : Tool} : t.rank = u.rank ↔ t = u := by
  cases t <;> cases u <;> decide

theorem Severity.rank_inj {s t : Severity} : s.rank = t.rank ↔ s = t := by
  cases s <;> cases t <;> decide

namespace Finding

theorem orderOption_eq (a b : Option String) : orderOption a b = Ord.compare a b := by
  cases a <;> cases b <;> rfl

/-- The fields in the order in which they count. -/
theorem compare_eq_compareLex : Finding.compare =
    compareLex (fun a b => a.file.compare b.file) (compareLex (compareOn line) (compareLex (compareOn column)
      (compareLex (compareOn fun f => f.tool.rank) (compareLex (compareOn rule) (compareLex (compareOn message)
        (compareLex (compareOn fun f => f.severity.rank) (compareLex (compareOn fixable)
          (compareLex (compareOn explanation) (compareLex (compareOn page) (compareOn group)))))))))) := by
  funext a b
  simp only [compare, compareLex, compareOn, orderOption_eq]

instance : TransCmp fun a b : Finding => a.file.compare b.file where
  eq_swap := by
    intro a b
    exact @Std.OrientedCmp.eq_swap _ Path.compare _ a.file b.file
  isLE_trans := by
    intro a b c hab hbc
    exact @TransCmp.isLE_trans _ Path.compare _ a.file b.file c.file hab hbc

instance : TransCmp Finding.compare := by
  rw [compare_eq_compareLex]
  infer_instance

/-- Findings that the order does not tell apart are the same but for the spelling of their files. -/
theorem compare_eq_eq {a b : Finding} : a.compare b = .eq ↔ a.same b = true := by
  simp only [compare, Ordering.then_eq_eq, orderOption_eq, Path.compare_eq_eq, LawfulEqOrd.compare_eq_iff_eq,
    Tool.rank_inj, Severity.rank_inj, same, Bool.and_eq_true, beq_iff_eq]
  cases a
  cases b
  simp

end Finding

end LintHub
