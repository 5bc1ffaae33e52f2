import LintHub.Text.Blank

/-!
# The linters

* `Tool` is one of the three linters, `Tool.all` lists them in the order in which they run.
* `Tool.id` names a tool and its program, `Tool.ofText?` reads the spellings a user may write.
-/

namespace LintHub

/-- A linter whose reports are collected. -/
inductive Tool where
  | yamllint
  | ansibleLint
  | preCommit
deriving DecidableEq, Inhabited

namespace Tool

def all : List Tool := [yamllint, ansibleLint, preCommit]

def rank : Tool → Nat
  | yamllint => 0
  | ansibleLint => 1
  | preCommit => 2

/-- The identifier, which is also the name of the program. -/
def id : Tool → String
  | yamllint => "yamllint"
  | ansibleLint => "ansible-lint"
  | preCommit => "pre-commit"

def displayName : Tool → String
  | yamllint => "yamllint"
  | ansibleLint => "Ansible Lint"
  | preCommit => "pre-commit"

def defaultGroup : Tool → String
  | yamllint => "YAML style"
  | ansibleLint => "Ansible"
  | preCommit => "Pre-commit hooks"

def ofId? (s : String) : Option Tool := all.find? fun t => t.id == s

/-- The tool that a user means, whatever the case of the letters; underscores may stand for hyphens, or nothing. -/
def ofText? (s : String) : Option Tool :=
  let word := Text.keyword s
  if word = "yamllint" then some yamllint
  else if ["ansible-lint", "ansible_lint", "ansiblelint"].contains word then some ansibleLint
  else if ["pre-commit", "pre_commit", "precommit"].contains word then some preCommit
  else none

def unknownText (opening s : String) : String :=
  opening ++ " tool '" ++ s ++ "' (expected yamllint, ansible-lint or pre-commit)"

end Tool

end LintHub
