import LintHub.Checking.Checker
import LintHub.Proofs.Disk.Names

/-!
# What a check changes

Checks change the disk by runs of programs only. Of the checker they change the versions that it knows and the
entries of its cache.

* `Host.Keeps` : every run keeps a property of the disk. `Checker.checkRead_keeps` and `Checker.fixFile_keeps` say that
  checks keep it too.
* `Checker.Alike` : two checkers differ in their versions and entries only.
* `Checker.attempt` : what a tool says of a file.
* `Checker.checkHashed_cases` : all that a check of one file can do; `Checker.checkFile_of_disabled` : what it does while
  the cache is off.
-/

namespace LintHub

/-! ## Runs -/

/-- Every run keeps a property of the disk. -/
def Host.Keeps (h : Host) (P : Disk → Prop) : Prop := ∀ d i, P d → P (h.run d i).2

/-- A run that ends as tools do is read as the texts that it wrote. -/
theorem Host.execute_of_run {h : Host} {d ran : Disk} {command : ToolCommand} {cwd : Path} {limit code : Nat}
    {out err : String} (hcode : Execution.goodCodes.contains code = true)
    (hrun : h.run d ⟨command.program, command.args, cwd, limit⟩ =
      (.ended (some code) out.toUTF8 err.toUTF8, ran)) :
    h.execute d command cwd limit = (.ok ⟨command.tool, out, err, code⟩, ran) := by
  rw [execute, hrun]
  simp only [Execution.ofOutcome, hcode, if_true, Text.decodeLossy_toUTF8]

/-- What a tool says of a file, and the dialect in which it is read. -/
def Checker.attempt (h : Host) (c : Checker) (d : Disk) (t : Tool) (path : Path) :
    Except CheckError (Option Dialect × Execution) := do
  let (command, dialect) ← c.prepare d t path
  let execution ← (h.execute d command c.root (c.limit t)).1
  pure (dialect, execution)

theorem Checker.attempt_of_prepare {h : Host} {c : Checker} {d : Disk} {t : Tool} {path : Path} {command : ToolCommand}
    {dialect : Option Dialect} (hprepare : c.prepare d t path = .ok (command, dialect)) :
    c.attempt h d t path = (h.execute d command c.root (c.limit t)).1.map fun e => (dialect, e) := by
  rw [attempt, hprepare]
  dsimp only [bind, Except.bind]
  cases (h.execute d command c.root (c.limit t)).1 <;> rfl

theorem Checker.fst_runTool (h : Host) (c : Checker) (d : Disk) (t : Tool) (path : Path) :
    (c.runTool h d t path).1 = (c.attempt h d t path).map fun said => c.findingsOf t said.1 said.2 := by
  unfold runTool
  cases hprepare : c.prepare d t path with
  | error cause =>
    rw [attempt, hprepare]
    rfl
  | ok prepared =>
    obtain ⟨command, dialect⟩ := prepared
    rw [attempt_of_prepare hprepare]
    dsimp only
    rcases h.execute d command c.root (c.limit t) with ⟨cause | execution, ran⟩
    · rfl
    · rfl

section Keeps

variable {h : Host} {P : Disk → Prop} {d : Disk}

theorem Host.execute_keeps (hkeeps : h.Keeps P) (hd : P d) (command : ToolCommand) (cwd : Path) (limit : Nat) :
    P (h.execute d command cwd limit).2 :=
  hkeeps d _ hd

theorem Host.toolVersion_keeps (hkeeps : h.Keeps P) (hd : P d) (command : ToolCommand) (cwd : Path) :
    P (h.toolVersion d command cwd).2 := by
  have hrun := h.execute_keeps hkeeps hd command cwd 10000
  unfold Host.toolVersion
  split
  · next heq => rwa [heq] at hrun
  · next heq => rwa [heq] at hrun

namespace Checker

theorem runTool_keeps (hkeeps : h.Keeps P) (hd : P d) (c : Checker) (t : Tool) (path : Path) :
    P (c.runTool h d t path).2 := by
  unfold runTool
  split
  · exact hd
  · next command dialect _ =>
    have hrun := h.execute_keeps hkeeps hd command c.root (c.limit t)
    split
    · next heq => rwa [heq] at hrun
    · next heq => rwa [heq] at hrun

theorem runTools_keeps (hkeeps : h.Keeps P) (hd : P d) (c : Checker) (path : Path) (tools : List Tool) :
    P (c.runTools h d path tools).2 := by
  induction tools generalizing d with
  | nil => exact hd
  | cons t ts ih =>
    unfold runTools
    exact ih (runTool_keeps hkeeps hd c t path)

theorem askVersions_keeps (hkeeps : h.Keeps P) (hd : P d) (c : Checker) (tools : List Tool) :
    P (c.askVersions h d tools).2 := by
  induction tools generalizing d with
  | nil => exact hd
  | cons t ts ih =>
    unfold askVersions
    split
    · exact ih hd
    · next program _ => exact ih (h.toolVersion_keeps hkeeps hd (.version t program) c.root)

theorem knowVersions_keeps (hkeeps : h.Keeps P) (hd : P d) (c : Checker) : P (c.knowVersions h d).2.2 := by
  unfold knowVersions
  split
  · exact hd
  · exact askVersions_keeps hkeeps hd c c.settings.enabledTools

end Checker

end Keeps

/-! ## One file -/

namespace Checker

/-- Two checkers of one project with the same use of the cache. They differ in what they know only. -/
structure Alike (c c' : Checker) : Prop where
  settings : c'.settings = c.settings
  root : c'.root = c.root
  dir : c'.cache.dir = c.cache.dir
  enabled : c'.cache.enabled = c.cache.enabled

theorem Alike.refl (c : Checker) : Alike c c := ⟨rfl, rfl, rfl, rfl⟩

theorem Alike.trans {a b c : Checker} (hab : Alike a b) (hbc : Alike b c) : Alike a c :=
  ⟨hbc.settings.trans hab.settings, hbc.root.trans hab.root, hbc.dir.trans hab.dir, hbc.enabled.trans hab.enabled⟩

theorem Alike.settingsHash {c c' : Checker} (h : Alike c c') (d : Disk) : c'.settingsHash d = c.settingsHash d := by
  rw [Checker.settingsHash, Checker.settingsHash, ignorePath, ignorePath, h.settings, h.root]

/-- The versions that count in a check, with the checker and the disk after asking for them. -/
def versionsNow (h : Host) (c : Checker) (d : Disk) : Table String × Checker × Disk :=
  if c.cache.enabled then c.knowVersions h d else ([], c, d)

/-- What a check of a file with that content depends on. -/
def currentKey (h : Host) (c : Checker) (d : Disk) (hash : String) : CacheKey :=
  ⟨hash, c.settingsHash d, (c.versionsNow h d).1⟩

/-- The checker that stores a result. -/
def store (c : Checker) (path : Path) (e : CacheEntry) : Checker := { c with cache := c.cache.insert path e }

variable {h : Host} {now : UInt64} {c : Checker} {d : Disk} {path : Path} {hash : String}

theorem versionsNow_eq_of_known {known : Table String} (hon : c.cache.enabled = true) (h' : c.versions = some known) :
    c.versionsNow h d = (known, c, d) := by
  rw [versionsNow, if_pos hon, knowVersions, h']

theorem cache_versionsNow (h : Host) (c : Checker) (d : Disk) : (c.versionsNow h d).2.1.cache = c.cache := by
  unfold versionsNow knowVersions
  split
  · split <;> rfl
  · rfl

theorem alike_versionsNow (h : Host) (c : Checker) (d : Disk) : Alike c (c.versionsNow h d).2.1 := by
  unfold versionsNow knowVersions
  split
  · split
    · exact .refl c
    · exact ⟨rfl, rfl, rfl, rfl⟩
  · exact .refl c

theorem versionsNow_keeps {P : Disk → Prop} (hkeeps : h.Keeps P) (hd : P d) (c : Checker) :
    P (c.versionsNow h d).2.2 := by
  unfold versionsNow
  split
  · exact knowVersions_keeps hkeeps hd c
  · exact hd

theorem alike_store (c : Checker) (path : Path) (e : CacheEntry) : Alike c (c.store path e) := by
  refine ⟨rfl, rfl, ?_, ?_⟩ <;> rw [store, Cache.insert] <;> split <;> rfl

/-- A check finds the entry of the file, or it runs the tools. It stores the result then, if no tool failed. -/
theorem checkHashed_cases (h : Host) (now : UInt64) (c : Checker) (d : Disk) (path : Path) (hash : String) :
    let key := c.currentKey h d hash
    let known := (c.versionsNow h d).2
    let fresh := known.1.checkFresh h known.2 path
    (∃ e, c.cache.valid? path key = some e ∧
      c.checkHashed h now d path hash = (.cached path e.findings, known.1, known.2)) ∨
    (c.cache.valid? path key = none ∧ fresh.1.failures = [] ∧
      c.checkHashed h now d path hash = (fresh.1, known.1.store path ⟨key, fresh.1.findings, now⟩, fresh.2)) ∨
    (c.cache.valid? path key = none ∧ fresh.1.failures ≠ [] ∧
      c.checkHashed h now d path hash = (fresh.1, known.1, fresh.2)) := by
  intro key known fresh
  have hcache : known.1.cache = c.cache := c.cache_versionsNow h d
  rw [← hcache, checkHashed]
  dsimp only
  split
  next e hvalid => exact .inl ⟨e, hvalid, rfl⟩
  next hvalid =>
    by_cases hfail : fresh.1.failures = []
    · exact .inr (.inl ⟨hvalid, hfail, if_pos (List.isEmpty_iff.2 hfail)⟩)
    · exact .inr (.inr ⟨hvalid, hfail, if_neg fun hempty => hfail (List.isEmpty_iff.1 hempty)⟩)

/-- The cases at once, as one equation. -/
theorem checkHashed_eq (h : Host) (now : UInt64) (c : Checker) (d : Disk) (path : Path) (hash : String) :
    c.checkHashed h now d path hash =
      match c.cache.valid? path (c.currentKey h d hash) with
      | some e => (.cached path e.findings, (c.versionsNow h d).2)
      | none =>
        let fresh := (c.versionsNow h d).2.1.checkFresh h (c.versionsNow h d).2.2 path
        (fresh.1, if fresh.1.failures = [] then
            (c.versionsNow h d).2.1.store path ⟨c.currentKey h d hash, fresh.1.findings, now⟩
          else (c.versionsNow h d).2.1, fresh.2) := by
  obtain ⟨e, hvalid, heq⟩ | ⟨hvalid, hfail, heq⟩ | ⟨hvalid, hfail, heq⟩ := c.checkHashed_cases h now d path hash
  · rw [heq, hvalid]
  · rw [heq, hvalid]
    dsimp only
    rw [if_pos hfail]
  · rw [heq, hvalid]
    dsimp only
    rw [if_neg hfail]

/-- A check by a checker without entries runs the tools. -/
theorem checkHashed_of_entries_eq_nil (hnone : c.cache.entries = []) (h : Host) (now : UInt64) (d : Disk) (path : Path)
    (hash : String) : ∃ kept, c.checkHashed h now d path hash =
      (((c.versionsNow h d).2.1.checkFresh h (c.versionsNow h d).2.2 path).1, kept,
        ((c.versionsNow h d).2.1.checkFresh h (c.versionsNow h d).2.2 path).2) := by
  have hvalid : c.cache.valid? path (c.currentKey h d hash) = none := by
    rw [Cache.valid?, Cache.get?, hnone]
    split
    · rfl
    · rfl
  rw [checkHashed_eq, hvalid]
  exact ⟨_, rfl⟩

theorem path_checkHashed : (c.checkHashed h now d path hash).1.path = path := by
  rw [checkHashed_eq]
  split
  · rfl
  · rfl

theorem alike_checkHashed (h : Host) (now : UInt64) (c : Checker) (d : Disk) (path : Path) (hash : String) :
    Alike c (c.checkHashed h now d path hash).2.1 := by
  have hknown := c.alike_versionsNow h d
  obtain ⟨e, -, heq⟩ | ⟨-, -, heq⟩ | ⟨-, -, heq⟩ := c.checkHashed_cases h now d path hash
  · rw [heq]
    exact hknown
  · rw [heq]
    exact hknown.trans (alike_store _ _ _)
  · rw [heq]
    exact hknown

theorem checkHashed_keeps {P : Disk → Prop} (hkeeps : h.Keeps P) (hd : P d) (now : UInt64) (c : Checker)
    (path : Path) (hash : String) : P (c.checkHashed h now d path hash).2.2 := by
  have hknown := versionsNow_keeps hkeeps hd c
  have hfresh : P ((c.versionsNow h d).2.1.checkFresh h (c.versionsNow h d).2.2 path).2 :=
    runTools_keeps hkeeps hknown _ _ _
  obtain ⟨e, -, heq⟩ | ⟨-, -, heq⟩ | ⟨-, -, heq⟩ := c.checkHashed_cases h now d path hash
  · rw [heq]
    exact hknown
  · rw [heq]
    exact hfresh
  · rw [heq]
    exact hfresh

/-- While the cache is off a check runs the tools and leaves the checker as it is. -/
theorem checkHashed_of_disabled (hoff : c.cache.enabled = false) :
    c.checkHashed h now d path hash = ((c.checkFresh h d path).1, c, (c.checkFresh h d path).2) := by
  have hknown : c.versionsNow h d = ([], c, d) := by
    rw [versionsNow, if_neg (by simp [hoff])]
  obtain ⟨e, hvalid, -⟩ | ⟨-, -, heq⟩ | ⟨-, -, heq⟩ := c.checkHashed_cases h now d path hash
  · rw [Cache.valid?, Cache.get?, if_neg (by simp [hoff])] at hvalid
    cases hvalid
  · rw [heq, hknown, store, Cache.insert, if_neg (by simp [hoff])]
  · rw [heq, hknown]

theorem hashOf_of_readText {text : String} (htext : d.readText path = .ok text) :
    hashOf d path = .ok (contentHash text) := by
  rw [hashOf, htext]

theorem checkFile_of_ok (h : Host) (now : UInt64) (hhash : hashOf d (c.absolute path) = .ok hash) :
    c.checkFile h now d path =
      (.ok (c.checkHashed h now d (c.absolute path) hash).1, (c.checkHashed h now d (c.absolute path) hash).2) := by
  rw [checkFile, hhash]

theorem checkFile_of_error {e : CheckError} (h : Host) (now : UInt64) (hhash : hashOf d (c.absolute path) = .error e) :
    c.checkFile h now d path = (.error e, c, d) := by
  rw [checkFile, hhash]

theorem checkFile_of_disabled {text : String} (hoff : c.cache.enabled = false)
    (htext : d.readText (c.absolute path) = .ok text) :
    c.checkFile h now d path =
      (.ok (c.checkFresh h d (c.absolute path)).1, c, (c.checkFresh h d (c.absolute path)).2) := by
  rw [checkFile_of_ok h now (hashOf_of_readText htext), checkHashed_of_disabled hoff]

/-- A single tool that runs well gives all that is found. -/
theorem checkFresh_of_single {t : Tool} {command : ToolCommand} {dialect : Option Dialect} {e : Execution} {ran : Disk}
    (htools : c.settings.enabledTools = [t]) (hprepare : c.prepare d t path = .ok (command, dialect))
    (hrun : h.execute d command c.root (c.limit t) = (.ok e, ran)) :
    c.checkFresh h d path = (⟨path, mergeFindings [c.findingsOf t dialect e], false, [t], []⟩, ran) := by
  rw [checkFresh, htools, runTools, runTool, hprepare]
  dsimp only
  rw [hrun]
  rfl

/-- A configured path is the program, if there is a file. -/
theorem program_of_path {t : Tool} {name : String}
    (hconfigured : Locator.configuredName? (c.settings.tool t).path = some name)
    (hpath : Locator.isPathLike name = true) (hfile : d.isFile ⟨name⟩ = true) : c.program d t = .ok ⟨name⟩ := by
  rw [program, Locator.locate, hconfigured]
  dsimp only
  rw [if_pos hpath, if_pos hfile]

/-- A single tool is all that is asked for a version. -/
theorem askVersions_of_single {t : Tool} {program : Path} {version : Option String} {ran : Disk}
    (hprogram : c.program d t = .ok program)
    (hversion : h.toolVersion d (.version t program) c.root = (version, ran)) :
    c.askVersions h d [t] = ((version.map fun v => (t.id, v)).toList, ran) := by
  rw [askVersions, hprogram]
  dsimp only
  rw [hversion, askVersions]
  cases version with
  | none => rfl
  | some v => rfl

/-- A report with one line. -/
def truthyReport : String := "a.yml:1:9: [warning] truthy value (truthy)\n"

def truthyFinding : Finding :=
  { (Finding.new ⟨"/w/a.yml"⟩ "truthy" "truthy value" .yamllint).placed 1 9 with group := some "YAML style" }

theorem findings_truthyReport :
    mergeFindings [Report.readGrouped (Report.combined truthyReport "") ⟨"/w"⟩ .yamllint none (some "YAML style")] =
      [truthyFinding] := by
  decide +kernel

/-- A file to check, and a program. -/
def desk : Disk where
  nodes := [(["w"], .dir), (["w", "lint"], .file .empty true), (["w", "a.yml"], .file "answer: yes\n".toUTF8 false)]
  here := []

theorem isFile_desk : desk.isFile ⟨"/w/lint"⟩ = true := Disk.isFile_of_follow? ["w", "lint"] (by decide) rfl

theorem readText_desk : desk.readText ⟨"/w/a.yml"⟩ = .ok "answer: yes\n" :=
  Disk.readText_of_follow? ["w", "a.yml"] (by decide) rfl

/-! ## Many files -/

theorem checkRead_error (h : Host) (now : UInt64) (c : Checker) (d : Disk) (path : Path) (e : CheckError)
    (rest : List (Path × Except CheckError String)) :
    (c.checkRead h now d ((path, .error e) :: rest)).2 = (c.checkRead h now d rest).2 := rfl

theorem checkRead_ok (h : Host) (now : UInt64) (c : Checker) (d : Disk) (path : Path) (hash : String)
    (rest : List (Path × Except CheckError String)) :
    (c.checkRead h now d ((path, .ok hash) :: rest)).2 =
      ((c.checkHashed h now d path hash).2.1.checkRead h now (c.checkHashed h now d path hash).2.2 rest).2 := rfl

theorem alike_checkRead (h : Host) (now : UInt64) (c : Checker) (d : Disk)
    (files : List (Path × Except CheckError String)) : Alike c (c.checkRead h now d files).2.1 := by
  induction files generalizing c d with
  | nil => exact .refl c
  | cons file rest ih =>
    obtain ⟨path, e | hash⟩ := file
    · rw [checkRead_error]
      exact ih c d
    · rw [checkRead_ok]
      exact (c.alike_checkHashed h now d path hash).trans (ih _ _)

theorem checkRead_keeps {P : Disk → Prop} (hkeeps : h.Keeps P) (hd : P d) (now : UInt64) (c : Checker)
    (files : List (Path × Except CheckError String)) : P (c.checkRead h now d files).2.2 := by
  induction files generalizing c d with
  | nil => exact hd
  | cons file rest ih =>
    obtain ⟨path, e | hash⟩ := file
    · rw [checkRead_error]
      exact ih hd c
    · rw [checkRead_ok]
      exact ih (checkHashed_keeps hkeeps hd now c path hash) _

/-- A check of one file is a check of a list of one file, except for how it answers. -/
theorem checkFile_snd (h : Host) (now : UInt64) (c : Checker) (d : Disk) (path : Path) :
    (c.checkFile h now d path).2 = (c.checkRead h now d [(c.absolute path, hashOf d (c.absolute path))]).2 := by
  unfold checkFile
  cases hashOf d (c.absolute path) with
  | error e => rfl
  | ok hash => rfl

theorem alike_checkFile (h : Host) (now : UInt64) (c : Checker) (d : Disk) (path : Path) :
    Alike c (c.checkFile h now d path).2.1 := by
  rw [checkFile_snd]
  exact c.alike_checkRead h now d _

theorem checkFile_keeps {P : Disk → Prop} (hkeeps : h.Keeps P) (hd : P d) (now : UInt64) (c : Checker) (path : Path) :
    P (c.checkFile h now d path).2.2 := by
  rw [checkFile_snd]
  exact checkRead_keeps hkeeps hd now c _

/-- A tool that cannot mend the file or fails leaves the checker as it was. Else the file is dropped and checked. -/
theorem fixFile_cases (h : Host) (now : UInt64) (c : Checker) (d : Disk) (path : Path) (t : Tool) :
    (∃ e, c.prepareFix d t (c.absolute path) = .error e ∧ c.fixFile h now d path t = (.error e, c, d)) ∨
    (∃ command ran e, c.prepareFix d t (c.absolute path) = .ok command ∧
      h.execute d command c.root (c.limit t) = (.error e, ran) ∧ c.fixFile h now d path t = (.error e, c, ran)) ∨
    ∃ command ran execution, c.prepareFix d t (c.absolute path) = .ok command ∧
      h.execute d command c.root (c.limit t) = (.ok execution, ran) ∧
      c.fixFile h now d path t =
        (c.invalidate (c.absolute path)).checkFile h now ran (c.absolute path) := by
  unfold fixFile
  cases hprepare : c.prepareFix d t (c.absolute path) with
  | error e => exact .inl ⟨e, rfl, by simp only [hprepare]⟩
  | ok command =>
    cases hexecute : h.execute d command c.root (c.limit t) with
    | mk outcome ran =>
      cases outcome with
      | error e => exact .inr (.inl ⟨command, ran, e, rfl, hexecute, by simp only [hprepare, hexecute]⟩)
      | ok execution =>
        exact .inr (.inr ⟨command, ran, execution, rfl, hexecute, by simp only [hprepare, hexecute]⟩)

theorem alike_fixFile (h : Host) (now : UInt64) (c : Checker) (d : Disk) (path : Path) (t : Tool) :
    Alike c (c.fixFile h now d path t).2.1 := by
  obtain ⟨e, -, heq⟩ | ⟨command, ran, e, -, -, heq⟩ | ⟨command, ran, execution, -, -, heq⟩ :=
    c.fixFile_cases h now d path t
  · rw [heq]
    exact .refl c
  · rw [heq]
    exact .refl c
  · have hdropped : Alike c (c.invalidate (c.absolute path)) := ⟨rfl, rfl, rfl, rfl⟩
    rw [heq]
    exact hdropped.trans (alike_checkFile h now _ ran (c.absolute path))

theorem fixFile_keeps {P : Disk → Prop} (hkeeps : h.Keeps P) (hd : P d) (now : UInt64) (c : Checker) (path : Path)
    (t : Tool) : P (c.fixFile h now d path t).2.2 := by
  have hrun (command : ToolCommand) := h.execute_keeps hkeeps hd command c.root (c.limit t)
  obtain ⟨e, -, heq⟩ | ⟨command, ran, e, -, hexecute, heq⟩ | ⟨command, ran, execution, -, hexecute, heq⟩ :=
    c.fixFile_cases h now d path t
  · rw [heq]
    exact hd
  · have hran := hrun command
    rw [hexecute] at hran
    rw [heq]
    exact hran
  · have hran := hrun command
    rw [hexecute] at hran
    rw [heq]
    exact checkFile_keeps hkeeps hran now _ (c.absolute path)

end Checker

end LintHub
