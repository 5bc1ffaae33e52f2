import LintHub.Path.Basic

/-!
# The order of paths

`Path.compare` is a total order up to the spelling of paths: `Component.order` is one on components, and
`orderComponents` is its lexicographic order. `compare_eq_eq` : what it does not tell apart are the same paths.
-/

namespace LintHub.Path

open Std (TransCmp LawfulEqCmp)

/-! ## Components -/

/-- The name of a component that has one. -/
def Component.label : Component → String
  | .name n => n
  | _ => ""

theorem Component.order_eq :
    Component.order = compareLex (compareOn Component.rank) (compareOn Component.label) := by
  funext c d
  cases c <;> cases d <;> rfl

instance : TransCmp Component.order := by
  rw [Component.order_eq]
  infer_instance

instance : LawfulEqCmp Component.order where
  eq_of_compare {c d} h := by
    rw [Component.order_eq, compareLex, Ordering.then_eq_eq, compareOn, compareOn,
      Std.LawfulEqOrd.compare_eq_iff_eq, Std.LawfulEqOrd.compare_eq_iff_eq] at h
    obtain ⟨hrank, hlabel⟩ := h
    cases c <;> cases d <;> simp_all [Component.rank, Component.label]

/-! ## Paths -/

theorem orderComponents_eq : orderComponents = List.compareLex Component.order := by
  funext cs ds
  induction cs generalizing ds with
  | nil => cases ds <;> rfl
  | cons c cs ih =>
    cases ds with
    | nil => rfl
    | cons d ds => rw [orderComponents, List.compareLex_cons_cons, ih]

theorem compare_eq (p q : Path) : p.compare q = List.compareLex Component.order p.components q.components := by
  rw [compare, orderComponents_eq]

instance : TransCmp Path.compare where
  eq_swap {p q} := by
    rw [compare_eq, compare_eq]
    exact Std.OrientedCmp.eq_swap
  isLE_trans {p q r} := by
    rw [compare_eq, compare_eq, compare_eq]
    exact TransCmp.isLE_trans

theorem compare_eq_eq {p q : Path} : p.compare q = .eq ↔ p.same q = true := by
  rw [compare_eq, LawfulEqCmp.compare_eq_iff_eq, same, beq_iff_eq]

end LintHub.Path
