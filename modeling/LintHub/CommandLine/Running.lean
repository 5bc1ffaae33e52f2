import LintHub.CommandLine.Listing
import LintHub.Editor.Frame

/-!
# Running commands

* `CommandLine.run` does what the arguments ask for: what is written, the exit code, and the disk afterwards.
* The exit code is 1 if errors were found or a file could not be read, and 2 if the request could not be carried out.

`CommandLine.checkReport` and `CommandLine.parseReport` are the results behind the two commands that find errors.
-/

namespace LintHub.CommandLine

structure Exit where
  code : Nat
  stdout : String
deriving DecidableEq, Inhabited

namespace Exit

def done (stdout : String) : Exit := ⟨0, stdout⟩

def failed : Exit := ⟨2, ""⟩

/-- A run that wrote results, of which some may be bad. -/
def ofResults (bad : Bool) (stdout : String) : Exit := ⟨if bad then 1 else 0, stdout⟩

end Exit

/-! ## The project -/

def currentDir (d : Disk) : Path := Disk.pathOf d.here

/-- The root of the project, without links. -/
def projectRoot (r : Request) (d : Disk) : Except CheckError Path :=
  match d.canonical ((r.root.map Path.mk).getD (currentDir d)) with
  | .ok root => .ok root
  | .error e => .error (.os e)

def project (r : Request) (d : Disk) : Except CheckError (Settings × Path) := do
  let root ← projectRoot r d
  let settings ← match r.settings with
    | some file => Settings.load d ⟨file⟩
    | none => Settings.loadFor d root
  pure (if r.noCache then { settings with cache := false } else settings, root)

/-! ## Checking -/

def anyErrors (results : List FileResult) : Bool := results.any FileResult.hasErrors

/-- Runs the tools on the files that names stand for; the cache is saved if that can be done. -/
def checkReport (w : Surroundings) (settings : Settings) (root : Path) (names : List String) (d : Disk) :
    Except CheckError (Checker.Batch × Disk) := do
  let checker := Checker.new settings root w.locator d
  let files ← checker.discover d names
  let (batch, checker, d) := checker.checkFiles w.host w.now d files
  pure (batch, (checker.saveCache d).toOption.getD d)

/-- Whether a check finds something bad: an error, or a file that cannot be read. -/
def isBad (b : Checker.Batch) : Bool := anyErrors b.results || !b.unread.isEmpty

def check (w : Surroundings) (r : Request) (names : List String) (format : Format) (tools : List Tool) (d : Disk) :
    Exit × Disk :=
  match (do
    let (settings, root) ← project r d
    checkReport w (settings.restrictTo tools) root names d) with
  | .error _ => (.failed, d)
  | .ok (batch, d) => (.ofResults (isBad batch) (format.render batch.results), d)

/-! ## Reading what a tool printed -/

def parseReport (root : Path) (tool : Tool) (dialect : Option Dialect) (output : String) : List FileResult :=
  groupByFile (mergeFindings [Report.read output root tool dialect])

def didWork (code : Option Int) : Bool := code.all fun n => Execution.goodCodes.any fun (good : Nat) => n == (good : Int)

def parse (r : Request) (tool : Tool) (dialect : Option Dialect) (code : Option Int) (format : Format)
    (stdin : ByteArray) (d : Disk) : Exit :=
  if !didWork code then .failed
  else match projectRoot r d, Text.decode? stdin with
  | .ok root, some output =>
    let results := parseReport root tool dialect output
    .ofResults (anyErrors results) (format.render results)
  | _, _ => .failed

/-! ## Other commands -/

def ignore (r : Request) (file rule : String) (d : Disk) : Exit × Disk :=
  match (do
    let (settings, root) ← project r d
    let list := settings.resolve root settings.ignoreFile
    let ignored ← IgnoreFile.load d list root
    let path := root.join ⟨file⟩
    match ignored.add path rule with
    | (true, ignored) => pure ("Added " ++ rule ++ " to " ++ list.text, ← ignored.save d)
    | (false, _) => pure (rule ++ " is already ignored for " ++ path.text, d) : Except CheckError (String × Disk)) with
  | .error _ => (.failed, d)
  | .ok (said, d) => (.done (ofLines [said]), d)

def initName : String := ".yamlsentry.json"

/-- Writes a settings file; one that is there is only replaced by force. -/
def init (r : Request) (force : Bool) (d : Disk) : Exit × Disk :=
  match (do
    let root ← projectRoot r d
    let file := root.child initName
    let text := Settings.defaultText ++ "\n"
    match d.writeNew file text with
    | .ok d => pure d
    | .error .alreadyExists =>
      if force then ((d.removeFile file).bind fun d => d.writeNew file text).mapError CheckError.os
      else .error (.os .alreadyExists)
    | .error e => .error (.os e) : Except CheckError Disk) with
  | .error _ => (.failed, d)
  | .ok d => (.done "", d)

/-! ## Requests -/

def carryOut (w : Surroundings) (r : Request) (stdin : ByteArray) (d : Disk) : Exit × Disk :=
  match r.job with
  | .check names format tools _ => check w r names format tools d
  | .parse tool dialect code format => (parse r tool dialect code format stdin d, d)
  | .explain rule tool json => (.done (explanation (.of rule tool) json), d)
  | .ignore file rule => ignore r file rule d
  | .init force => init r force d
  | .serve =>
    let (sent, d) := Server.converse w d stdin
    (.done sent, d)

def run (w : Surroundings) (args : List String) (stdin : ByteArray) (d : Disk) : Exit × Disk :=
  match Request.ofArgs args with
  | .ok r => carryOut w r stdin d
  | .error .version => (.done (ofLines [Program.name ++ " " ++ Program.version]), d)
  | .error .misuse => (.failed, d)

end LintHub.CommandLine
