import LintHub.Text.Blank
import LintHub.Text.Search
import LintHub.Tool

/-!
# What is known about rules

* `Rule.fixable` tells whether a tool can mend a rule's findings, `Rule.hint?` what a person can do about them.
* `Rule.base` is a rule's name without its subtype, `Rule.page?` the address of its documentation.
* `RuleInfo.of` collects all of it.
-/

namespace LintHub

namespace Rule

/-- What stands for a rule or a message that a tool left out. -/
def unknown : String := "unknown"

def fixables : List String := [
  "trailing-spaces", "truthy", "new-line-at-end-of-file", "new-lines", "empty-lines", "indentation",
  "key-order", "comments", "comments-indentation", "document-start", "braces", "brackets", "colons",
  "commas", "hyphens", "yaml[trailing-spaces]", "yaml[truthy]", "name[missing]", "name[casing]", "fqcn",
  "no-free-form", "jinja[spacing]", "deprecated-local-action", "partial-become", "trailing-whitespace",
  "end-of-file-fixer", "mixed-line-ending", "fix-byte-order-marker", "pretty-format-json"]

/-- What a person can do, by a text that occurs in the rule; the first that occurs counts. -/
def hints : List (String × String) := [
  ("load-failure",
    "The file could not be parsed as YAML. Check indentation and quoting around the reported line."),
  ("syntax-check",
    "Ansible rejected the playbook structure. Run `ansible-playbook --syntax-check` for details."),
  ("trailing-spaces",
    "Remove the whitespace at the end of the line."),
  ("trailing-whitespace",
    "Remove the whitespace at the end of the line."),
  ("truthy",
    "Use `true` or `false`. Values like `yes`, `no`, `on` and `off` are ambiguous between YAML versions."),
  ("new-line-at-end-of-file",
    "Add a single newline character at the end of the file."),
  ("end-of-file-fixer",
    "Files should end with exactly one newline."),
  ("line-length",
    "Split long lines with YAML folded (`>`) or literal (`|`) block scalars."),
  ("indentation",
    "Use a consistent number of spaces per indentation level."),
  ("document-start",
    "Start the document with `---`."),
  ("key-duplicates",
    "A mapping defines the same key twice; only the last value is kept."),
  ("name[missing]",
    "Give every task a `name:` so its purpose shows up in the play output."),
  ("name[casing]",
    "Task and play names should start with an uppercase letter."),
  ("fqcn",
    "Use the fully-qualified collection name, e.g. `ansible.builtin.copy` instead of `copy`."),
  ("no-changed-when",
    "Commands should declare `changed_when` so reruns report changes accurately."),
  ("risky-file-permissions",
    "Set an explicit `mode:` on modules that create files."),
  ("var-naming",
    "Variable names should be lowercase snake_case and must not collide with reserved names."),
  ("no-free-form",
    "Pass module arguments as a mapping instead of a free-form string."),
  ("jinja",
    "Jinja expressions should have a single space inside the braces: `\x7b\x7b var \x7d\x7d`."),
  ("schema",
    "The file does not match the expected Ansible schema for its type."),
  ("check-yaml",
    "The hook could not load the file as YAML.")]

/-- Whether a tool can mend the findings: a known name occurs in the rule, or the rule in a known name. -/
def fixable (rule : String) : Bool :=
  rule != "" && rule != unknown &&
    fixables.any fun entry => Text.occursIn entry rule || Text.occursIn rule entry

def hint? (rule : String) : Option String := (hints.find? fun entry => Text.occursIn entry.1 rule).map (·.2)

def withHint (message hint : String) : String := message ++ "\n\n" ++ hint

/-- A message with the rule's hint below it, if it has one. -/
def elaborate (rule message : String) : String :=
  match hint? rule with
  | some hint => withHint message hint
  | none => message

/-- The rule's name without the subtype in brackets. -/
def base (rule : String) : String := String.ofList (Text.trim (rule.toList.takeWhile (· != '[')))

/-- The address of a rule's documentation; none for a rule without a name. -/
def page? (rule : String) (tool : Tool) : Option String :=
  let name := base rule
  if name = "" ∨ name = unknown then none
  else some <| match tool with
    | .yamllint => "https://yamllint.readthedocs.io/en/stable/rules.html#module-yamllint.rules." ++ name
    | .ansibleLint => "https://ansible.readthedocs.io/projects/lint/rules/" ++ name ++ "/"
    | .preCommit => "https://github.com/pre-commit/pre-commit-hooks#" ++ name

end Rule

structure RuleInfo where
  rule : String
  tool : Tool
  fixable : Bool
  hint : Option String
  page : Option String
deriving DecidableEq, Inhabited

/-- What is known about a rule, whatever blanks surround its name. -/
def RuleInfo.of (rule : String) (tool : Tool) : RuleInfo :=
  let rule := Text.trimmed rule
  ⟨rule, tool, Rule.fixable rule, Rule.hint? rule, Rule.page? rule tool⟩

end LintHub
