/-!
# Columns in UTF-16 code units

* `unitWidth` is the number of UTF-16 code units of a character, `unitLength` that of a text.
-/

namespace LintHub.Text

/-- A character above the basic plane takes two code units. -/
def unitWidth (c : Char) : Nat := if c.toNat < 0x10000 then 1 else 2

def unitLength : List Char → Nat
  | [] => 0
  | c :: rest => unitWidth c + unitLength rest

theorem unitLength_append (a b : List Char) : unitLength (a ++ b) = unitLength a + unitLength b := by
  induction a with
  | nil => simp [unitLength]
  | cons c a ih => simp [unitLength, ih, Nat.add_assoc]

end LintHub.Text
