/-!
# The program

* Its name and its version, as reports, editors and users see them.
-/

namespace LintHub.Program

def name : String := "yamlsentry"

def version : String := "0.1.0"

end LintHub.Program
