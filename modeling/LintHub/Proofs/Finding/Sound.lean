import LintHub.Finding
import LintHub.Proofs.Text.Trim
import LintHub.Text.Numeral

/-!
# Sound findings

* `Finding.Sound` : what holds of every finding that is read from a report of a tool.
* `sound_new` makes one at the start of a file, and `Sound.placed`, `Sound.ranked` and `Sound.withFixable` keep it so.
* `Finding.Documented` : the page is the one that follows from the rule.
-/

namespace LintHub.Finding

/-- A line or a column: a number of 32 bits that is not zero. -/
def IsPlace (n : UInt32) : Prop := 1 ≤ n ∧ n ≤ Text.maxWord

/-- A finding of a tool in an absolute file: places count from one and fit 32 bits, the rule and the message are not
empty and have no outer blanks, the explanation is the message with the rule's hint, and no group is named. -/
structure Sound (tool : Tool) (f : Finding) : Prop where
  absolute : f.file.isAbsolute = true
  line : IsPlace f.line
  column : IsPlace f.column
  rule_ne : f.rule ≠ ""
  rule_trimmed : Text.trimmed f.rule = f.rule
  message_ne : f.message ≠ ""
  message_trimmed : Text.trimmed f.message = f.message
  tool_eq : f.tool = tool
  group_eq : f.group = none
  explanation_eq : f.explanation = (Rule.hint? f.rule).map fun hint => f.message ++ "\n\n" ++ hint

/-- The page of the finding is that of its rule. -/
def Documented (f : Finding) : Prop := f.page = Rule.page? f.rule f.tool

/-! ## Texts and numbers -/

theorem nonempty_ne (s : String) : nonempty s ≠ "" := by
  simp only [nonempty]
  split
  · decide
  · next h => exact h

theorem trimmed_nonempty (s : String) : Text.trimmed (nonempty s) = nonempty s := by
  simp only [nonempty]
  split
  · decide
  · exact Text.trimmed_trimmed s

theorem toNat_fromOne (n : UInt32) : (fromOne n).toNat = max 1 n.toNat := by
  unfold fromOne
  split
  · next h =>
    rw [h]
    rfl
  · next h =>
    have hne : n.toNat ≠ 0 := fun hzero => h (UInt32.toNat_inj.1 hzero)
    omega

theorem isPlace_fromOne (n : UInt32) : IsPlace (fromOne n) := by
  have hword := toNat_fromOne n
  have hlt := n.toNat_lt
  constructor
  · rw [UInt32.le_iff_toNat_le, UInt32.toNat_one]
    omega
  · rw [UInt32.le_iff_toNat_le, show Text.maxWord.toNat = 2 ^ 32 - 1 from rfl]
    omega

theorem isPlace_one : IsPlace 1 := isPlace_fromOne 1

/-! ## Findings -/

@[simp] theorem file_new (file : Path) (rule message : String) (tool : Tool) :
    (new file rule message tool).file = file := by
  simp only [new]

@[simp] theorem file_placed (f : Finding) (line column : UInt32) : (f.placed line column).file = f.file := rfl

@[simp] theorem file_ranked (f : Finding) (severity : Severity) : (f.ranked severity).file = f.file := rfl

theorem rule_new (file : Path) (rule message : String) (tool : Tool) :
    (new file rule message tool).rule = nonempty rule := by
  simp only [new]

theorem message_new (file : Path) (rule message : String) (tool : Tool) :
    (new file rule message tool).message = nonempty message := by
  simp only [new]

theorem explanation_new (file : Path) (rule message : String) (tool : Tool) :
    (new file rule message tool).explanation =
      (Rule.hint? (nonempty rule)).map fun hint => nonempty message ++ "\n\n" ++ hint := by
  -- Only the two functions are compared: evaluation of the hint would walk the whole catalogue.
  simp only [new]
  exact congrArg (fun f => (Rule.hint? (nonempty rule)).map f) rfl

theorem sound_new {file : Path} (rule message : String) (tool : Tool) (h : file.isAbsolute = true) :
    (new file rule message tool).Sound tool := by
  constructor
  · exact h
  · exact isPlace_one
  · exact isPlace_one
  · rw [rule_new]
    exact nonempty_ne rule
  · rw [rule_new]
    exact trimmed_nonempty rule
  · rw [message_new]
    exact nonempty_ne message
  · rw [message_new]
    exact trimmed_nonempty message
  · simp only [new]
  · simp only [new]
  · rw [explanation_new, rule_new, message_new]

theorem Sound.placed {tool : Tool} {f : Finding} (h : f.Sound tool) (line column : UInt32) :
    (f.placed line column).Sound tool :=
  { h with line := isPlace_fromOne line, column := isPlace_fromOne column }

theorem Sound.ranked {tool : Tool} {f : Finding} (h : f.Sound tool) (severity : Severity) :
    (f.ranked severity).Sound tool :=
  { h with }

theorem Sound.withFixable {tool : Tool} {f : Finding} (h : f.Sound tool) (fixable : Bool) :
    { f with fixable }.Sound tool :=
  { h with }

theorem Sound.withPage {tool : Tool} {f : Finding} (h : f.Sound tool) (page : Option String) :
    { f with page }.Sound tool :=
  { h with }

/-! ## Pages -/

theorem documented_new (file : Path) (rule message : String) (tool : Tool) :
    (new file rule message tool).Documented := by
  simp only [Documented, new]

theorem Documented.placed {f : Finding} (h : f.Documented) (line column : UInt32) :
    (f.placed line column).Documented :=
  h

theorem Documented.ranked {f : Finding} (h : f.Documented) (severity : Severity) : (f.ranked severity).Documented :=
  h

theorem Documented.withFixable {f : Finding} (h : f.Documented) (fixable : Bool) : { f with fixable }.Documented :=
  h

end LintHub.Finding
