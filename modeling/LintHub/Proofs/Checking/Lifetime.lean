import LintHub.Proofs.Cache.Stored
import LintHub.Proofs.Checking.Recall
import LintHub.Proofs.Checking.Steady

/-!
# The cache over the lifetime of checkers

* `Lifetime` is a checker with its disk and its history, `Lifetime.Event` is what can happen to it, `Lifetime.run` lets
  it happen.
* `Lifetime.Undisturbed` : only saves change the cache's file.
* `Lifetime.Invariant` : the checker recalls its history, and so does the cache's file.
* `Lifetime.faithful_run` : after any undisturbed events, checks answer from the cache just when the history has it.
-/

namespace LintHub

open History

/-! ## The file -/

namespace Checker

/-- The cache of a new checker. -/
def reopened (settings : Settings) (root : Path) (d : Disk) : Cache :=
  let empty := Cache.new (settings.resolve root settings.cacheDir)
  if settings.cache then (empty.load d).toOption.getD empty else { empty with enabled := false }

theorem new_eq (settings : Settings) (root : Path) (locator : Locator) (d : Disk) :
    Checker.new settings root locator d = ⟨settings, root, locator, reopened settings root d, none⟩ := rfl

variable {settings : Settings} {root : Path} {d d' : Disk}

theorem reopened_of_sameAt (h : Disk.SameAt (Cache.new (settings.resolve root settings.cacheDir)).file d d') :
    reopened settings root d' = reopened settings root d := by
  rw [reopened, reopened, Cache.load_of_sameAt h]

theorem enabled_reopened (settings : Settings) (root : Path) (d : Disk) :
    (reopened settings root d).enabled = settings.cache ∧
      (reopened settings root d).dir = settings.resolve root settings.cacheDir := by
  rw [reopened]
  cases settings.cache with
  | false => exact ⟨rfl, rfl⟩
  | true =>
    rw [if_pos rfl]
    cases hload : (Cache.new (settings.resolve root settings.cacheDir)).load d with
    | error e => exact ⟨rfl, rfl⟩
    | ok c =>
      obtain ⟨hdir, henabled⟩ := Cache.alike_of_load hload
      exact ⟨henabled, hdir⟩

theorem entries_reopened_of_has_eq_false
    (h : d.has (Cache.new (settings.resolve root settings.cacheDir)).file = false) :
    (reopened settings root d).entries = [] := by
  rw [reopened, Cache.load, h]
  simp only [Bool.not_false, Bool.or_true, if_true]
  split <;> rfl

/-- A new checker has the entries that were saved. -/
theorem reopened_of_save {c : Cache} (hsave : c.save d = .ok d') (hon : c.enabled = true)
    (hsettings : settings.cache = true) (hordered : Cache.Ordered c.entries)
    (hdir : c.dir = settings.resolve root settings.cacheDir) : (reopened settings root d').entries = c.entries := by
  have hload := Cache.load_save (Cache.new (settings.resolve root settings.cacheDir)) hsave hon hordered
    hdir.symm rfl
  rw [reopened, if_pos hsettings, hload]
  rfl

end Checker

/-! ## Events -/

/-- A checker with its disk, and its history, the newest first. -/
structure Lifetime where
  checker : Checker
  disk : Disk
  past : List Episode

namespace Lifetime

/-- What can happen to a checker. Each run of tools has a host and a time of its own. -/
inductive Event where
  | check (h : Host) (now : UInt64) (path : Path)
  | checkAll (h : Host) (now : UInt64) (paths : List Path)
  | invalidate (path : Path)
  | fix (h : Host) (now : UInt64) (path : Path) (t : Tool)
  | disable
  | save
  /-- A new checker with the same settings and root, wherever it looks for programs. -/
  | restart (locator : Locator)
  /-- Someone else changes the disk. -/
  | edit (change : Disk → Disk)

/-- A first checker. -/
def start (settings : Settings) (root : Path) (locator : Locator) (d : Disk) : Lifetime :=
  ⟨.new settings root locator d, d, []⟩

/-- What an event does. A save that fails, or that has nothing to write, is no episode. -/
def step (s : Lifetime) : Event → Lifetime
  | .check h now path =>
    let (_, c, d) := s.checker.checkFile h now s.disk path
    ⟨c, d, s.checker.episodesOfCheck h now s.disk path ++ s.past⟩
  | .checkAll h now paths =>
    let (_, c, d) := s.checker.checkFiles h now s.disk paths
    ⟨c, d, s.checker.episodesOfChecks h now s.disk paths ++ s.past⟩
  | .invalidate path => ⟨s.checker.invalidate path, s.disk, .dropped (s.checker.absolute path) :: s.past⟩
  | .fix h now path t =>
    let (_, c, d) := s.checker.fixFile h now s.disk path t
    ⟨c, d, s.checker.episodesOfFix h now s.disk path t ++ s.past⟩
  | .disable => ⟨s.checker.disableCache, s.disk, .switchedOff :: s.past⟩
  | .save =>
    match s.checker.saveCache s.disk with
    | .error _ => s
    | .ok d => ⟨s.checker, d, if s.checker.cache.enabled then .saved :: s.past else s.past⟩
  | .restart locator =>
    ⟨.new s.checker.settings s.checker.root locator s.disk, s.disk, .restarted :: s.past⟩
  | .edit change => { s with disk := change s.disk }

/-- What events do, one after another. -/
def run (s : Lifetime) (events : List Event) : Lifetime := events.foldl step s

/-- An event leaves the cache's file alone, unless it is a save. -/
def Leaves (s : Lifetime) : Event → Prop
  | .save => True
  | event => Disk.SameAt s.checker.cache.file s.disk (s.step event).disk

/-- Only saves change what the cache's file has. -/
def Undisturbed (s : Lifetime) : List Event → Prop
  | [] => True
  | event :: rest => s.Leaves event ∧ (s.step event).Undisturbed rest

/-! ## The invariant -/

/-- The project stays, the checks were right, and both the checker and the cache's file are as the history has it. -/
structure Invariant (settings : Settings) (root : Path) (s : Lifetime) : Prop where
  sameSettings : s.checker.settings = settings
  sameRoot : s.checker.root = root
  sameDir : s.checker.cache.dir = settings.resolve root settings.cacheDir
  truthful : Truthful settings.cache s.past
  recalls : s.checker.Recalls settings.cache s.past
  kept : ∀ path, (Checker.reopened settings root s.disk).stored path = kept settings.cache path s.past
  ordered : Cache.Ordered (Checker.reopened settings root s.disk).entries

variable {settings : Settings} {root : Path} {locator : Locator} {s : Lifetime}

theorem Invariant.file (hs : s.Invariant settings root) :
    s.checker.cache.file = (Cache.new (settings.resolve root settings.cacheDir)).file := by
  rw [Cache.file, Cache.file, hs.sameDir]
  rfl

/-- A first checker without entries starts the invariant. -/
theorem invariant_start {d : Disk} (hnone : (Checker.new settings root locator d).cache.entries = []) :
    (start settings root locator d).Invariant settings root := by
  have hentries : (Checker.reopened settings root d).entries = [] := hnone
  have hstored (path : Path) : (Checker.reopened settings root d).stored path = none := by
    rw [Cache.stored, hentries]
    rfl
  have hordered : Cache.Ordered (Checker.reopened settings root d).entries := by
    rw [hentries]
    exact .nil
  obtain ⟨henabled, hdir⟩ := Checker.enabled_reopened settings root d
  exact ⟨rfl, rfl, hdir, trivial, ⟨henabled, hstored, rfl, hordered, fun known h => by cases h⟩, hstored, hordered⟩

/-- What an operation without a save adds to the history is recalled. -/
theorem Invariant.add (hs : s.Invariant settings root) {c : Checker} {d : Disk} (episodes : List Episode)
    (halike : Checker.Alike s.checker c) (hsame : Disk.SameAt s.checker.cache.file s.disk d)
    (hsaved : Episode.saved ∉ episodes)
    (hrecalls : Truthful settings.cache (episodes ++ s.past) ∧ c.Recalls settings.cache (episodes ++ s.past)) :
    Invariant settings root ⟨c, d, episodes ++ s.past⟩ := by
  rw [hs.file] at hsame
  have hfile := Checker.reopened_of_sameAt hsame
  refine ⟨halike.settings.trans hs.sameSettings, halike.root.trans hs.sameRoot, halike.dir.trans hs.sameDir, hrecalls.1,
    hrecalls.2, fun path => ?_, ?_⟩
  · rw [hfile, kept_append s.past hsaved]
    exact hs.kept path
  · rw [hfile]
    exact hs.ordered

theorem Invariant.save (hs : s.Invariant settings root) : (s.step .save).Invariant settings root := by
  rw [step, Checker.saveCache]
  cases hsave : s.checker.cache.save s.disk with
  | error e => exact hs
  | ok d =>
    cases hon : s.checker.cache.enabled with
    | false =>
      rw [Cache.save_of_disabled s.disk hon] at hsave
      cases hsave
      exact hs
    | true =>
      -- A new checker has a cache in use again, since this one had.
      have hsettings : settings.cache = true := by
        cases hcache : settings.cache with
        | true => rfl
        | false =>
          have henabled := hs.recalls.enabled
          rw [hcache, enabled_false, hon] at henabled
          cases henabled
      have hentries : (Checker.reopened settings root d).entries = s.checker.cache.entries :=
        Checker.reopened_of_save hsave hon hsettings hs.recalls.ordered hs.sameDir
      have hrecalls : s.checker.Recalls settings.cache (.saved :: s.past) :=
        ⟨hs.recalls.enabled, hs.recalls.stored, hs.recalls.versions, hs.recalls.ordered, hs.recalls.sorted⟩
      refine ⟨hs.sameSettings, hs.sameRoot, hs.sameDir, hs.truthful, hrecalls, fun path => ?_, ?_⟩
      · rw [Cache.stored, hentries]
        exact hs.recalls.stored path
      · rw [hentries]
        exact hs.recalls.ordered

theorem Invariant.restart (hs : s.Invariant settings root) (locator : Locator) :
    (s.step (.restart locator)).Invariant settings root := by
  obtain ⟨henabled, hdir⟩ := Checker.enabled_reopened settings root s.disk
  rw [step, hs.sameSettings, hs.sameRoot, Checker.new_eq]
  exact ⟨rfl, rfl, hdir, hs.truthful, ⟨henabled, hs.kept, rfl, hs.ordered, fun known h => by cases h⟩, hs.kept,
    hs.ordered⟩

/-- Every event that leaves the cache's file alone keeps the invariant. -/
theorem Invariant.step (hs : s.Invariant settings root) {event : Event} (hleaves : s.Leaves event) :
    (s.step event).Invariant settings root := by
  cases event with
  | check h now path =>
    exact hs.add _ (s.checker.alike_checkFile h now s.disk path) hleaves
      (Checker.saved_notMem_episodesOfRead h now _ _ _) (hs.recalls.checkFile hs.truthful h now s.disk path)
  | checkAll h now paths =>
    exact hs.add _ (s.checker.alike_checkRead h now s.disk _) hleaves
      (Checker.saved_notMem_episodesOfRead h now _ _ _) (hs.recalls.checkFiles hs.truthful h now s.disk paths)
  | invalidate path =>
    exact hs.add [_] ⟨rfl, rfl, rfl, rfl⟩ hleaves (by simp) ⟨hs.truthful, hs.recalls.invalidate path⟩
  | fix h now path t =>
    exact hs.add _ (s.checker.alike_fixFile h now s.disk path t) hleaves
      (s.checker.saved_notMem_episodesOfFix h now s.disk path t) (hs.recalls.fixFile hs.truthful h now s.disk path t)
  | disable =>
    exact ⟨hs.sameSettings, hs.sameRoot, hs.sameDir, hs.truthful, hs.recalls.disableCache, hs.kept, hs.ordered⟩
  | save => exact hs.save
  | restart locator => exact hs.restart locator
  | edit change =>
    exact hs.add [] (.refl _) hleaves (by simp) ⟨hs.truthful, hs.recalls⟩

/-- The invariant holds after any undisturbed events. -/
theorem Invariant.run (hs : s.Invariant settings root) {events : List Event} (hcalm : s.Undisturbed events) :
    (s.run events).Invariant settings root := by
  induction events generalizing s with
  | nil => exact hs
  | cons event rest ih => exact ih (hs.step hcalm.1) hcalm.2

/-! ## Tools that leave the cache's file alone -/

/-- An event whose tools and edits leave a file alone, whatever the disk. -/
def Event.Spares (file : Path) : Event → Prop
  | .check h _ _ => ∀ d i, Disk.SameAt file d (h.run d i).2
  | .checkAll h _ _ => ∀ d i, Disk.SameAt file d (h.run d i).2
  | .fix h _ _ _ => ∀ d i, Disk.SameAt file d (h.run d i).2
  | .edit change => ∀ d, Disk.SameAt file d (change d)
  | _ => True

theorem leaves_of_spares {event : Event} (h : event.Spares s.checker.cache.file) : s.Leaves event := by
  have hkeeps {host : Host} (hhost : ∀ d i, Disk.SameAt s.checker.cache.file d (host.run d i).2) :
      host.Keeps (Disk.SameAt s.checker.cache.file s.disk) := fun d i hd => hd.trans (hhost d i)
  have hsame := Disk.SameAt.refl s.checker.cache.file s.disk
  cases event with
  | check host now path => exact Checker.checkFile_keeps (hkeeps h) hsame now s.checker path
  | checkAll host now paths => exact Checker.checkRead_keeps (hkeeps h) hsame now s.checker _
  | fix host now path t => exact Checker.fixFile_keeps (hkeeps h) hsame now s.checker path t
  | edit change => exact h s.disk
  | save => trivial
  | invalidate path => exact hsame
  | disable => exact hsame
  | restart locator => exact hsame

/-- Only saves change the cache's file if the tools and the edits leave it alone. -/
theorem Invariant.undisturbed (hs : s.Invariant settings root) {events : List Event}
    (hspares : ∀ event ∈ events, event.Spares (Cache.new (settings.resolve root settings.cacheDir)).file) :
    s.Undisturbed events := by
  induction events generalizing s with
  | nil => trivial
  | cons event rest ih =>
    have hevent := hspares event (List.mem_cons_self ..)
    rw [← hs.file] at hevent
    have hleaves := leaves_of_spares hevent
    exact ⟨hleaves, ih (hs.step hleaves) fun other hother => hspares other (List.mem_cons_of_mem _ hother)⟩

/-! ## Answers -/

/-- What a checker answers after its history. -/
structure Faithful (settings : Settings) (root : Path) (s : Lifetime) : Prop where
  /-- It is a checker of the same project all the time. -/
  sameProject : s.checker.settings = settings ∧ s.checker.root = root
  /-- Its cache is in use as the history has it. -/
  enabled : s.checker.cache.enabled = History.enabled settings.cache s.past
  /-- Its entries are what the history holds. -/
  stored : ∀ path, s.checker.cache.stored path = held settings.cache path s.past
  /-- Every check so far was answered as the history before it had it. -/
  truthful : Truthful settings.cache s.past
  /-- A file that can be read gets an answer as the history has it. A failure leaves the entries alone. -/
  check : ∀ h now path text, s.disk.readText (s.checker.absolute path) = .ok text →
    ∃ r, (s.checker.checkFile h now s.disk path).1 = .ok r ∧
      s.checker.episodesOfCheck h now s.disk path =
        [.checked (s.checker.absolute path) (s.checker.currentKey h s.disk (contentHash text)) r] ∧
      Answers settings.cache s.past (s.checker.absolute path) (s.checker.currentKey h s.disk (contentHash text)) r ∧
      (r.failures ≠ [] → (s.checker.checkFile h now s.disk path).2.1.cache.entries = s.checker.cache.entries)
  /-- An answer from the cache is what an earlier check of the file found under the same key, without failures and while
  the cache was in use. -/
  found : ∀ h now path text r, s.disk.readText (s.checker.absolute path) = .ok text →
    (s.checker.checkFile h now s.disk path).1 = .ok r → r.fromCache = true →
    ∃ newer first older, s.past = newer ++ .checked (s.checker.absolute path)
        (s.checker.currentKey h s.disk (contentHash text)) first :: older ∧
      first.findings = r.findings ∧ first.failures = [] ∧ History.enabled settings.cache older = true
  /-- So do many files, each as the history with those before it has it. -/
  checkAll : ∀ h now paths, (s.checker.checkFiles h now s.disk paths).1.results =
      (s.checker.episodesOfChecks h now s.disk paths).reverse.filterMap Episode.result? ∧
    Truthful settings.cache (s.checker.episodesOfChecks h now s.disk paths ++ s.past)
  /-- The answer after a tool mended a file never comes from the cache. -/
  fix : ∀ h now path t r, (s.checker.fixFile h now s.disk path t).1 = .ok r → r.fromCache = false ∧
    ∃ key, s.checker.episodesOfFix h now s.disk path t = [.checked r.path key r, .dropped r.path]

theorem Invariant.faithful (hs : s.Invariant settings root) : s.Faithful settings root where
  sameProject := ⟨hs.sameSettings, hs.sameRoot⟩
  enabled := hs.recalls.enabled
  stored := hs.recalls.stored
  truthful := hs.truthful
  check h now _ _ htext := hs.recalls.answers_checkFile h now htext
  found h now path text r htext hr hcached := by
    obtain ⟨r', hr', -, hanswer, -⟩ := hs.recalls.answers_checkFile h now htext
    obtain rfl : r' = r := Except.ok.inj (hr'.symm.trans hr)
    exact checked_of_held_or_kept (.inl (hanswer.unchanged hcached).1)
  checkAll h now paths :=
    ⟨Checker.results_checkRead h now _ _ _, (hs.recalls.checkFiles hs.truthful h now s.disk paths).1⟩
  fix _ _ _ _ _ hr := hs.recalls.answers_fixFile hr

/-- Whatever happens to a checker that started without entries, if only saves change the cache's file: a check comes
from the cache just when the cache is in use and the history holds a result for the same content, settings and
versions, and then it is that result. -/
theorem faithful_run (settings : Settings) (root : Path) (locator : Locator) (d : Disk) (events : List Event)
    (hnone : (Checker.new settings root locator d).cache.entries = [])
    (hcalm : (start settings root locator d).Undisturbed events) :
    ((start settings root locator d).run events).Faithful settings root :=
  ((invariant_start hnone).run hcalm).faithful

/-! ### A project of one file and one tool -/

open Checker (desk isFile_desk readText_desk)

/-- A program that tells its version, or finds the same each time. -/
def lintText (i : Invocation) : String := if i.args = ["--version"] then "yamllint 1.35.1\n" else Checker.truthyReport

def lintHost : Host := ⟨fun d i => (.ended (some 0) (lintText i).toUTF8 "".toUTF8, d)⟩

def lintSettings : Settings :=
  { Settings.default with
    tools := .ofFn fun t => { ToolSettings.default with enabled := t = .yamllint, path := some "/w/lint" } }

/-- The disk after a first save: the cache's directory is made, and its file holds a text. -/
def deskWith (text : String) : Disk :=
  (desk.put ["w", ".yamlsentry-cache"] .dir).put ["w", ".yamlsentry-cache", "cache.json"] (.file text.toUTF8 false)

section Lint

variable {c : Checker} {d : Disk} (hc : c.IsOf lintSettings ⟨"/w"⟩ (.ofDirs [])) (hfile : d.isFile ⟨"/w/lint"⟩ = true)

include hc

theorem enabledTools_lint : c.settings.enabledTools = [.yamllint] := by
  rw [hc.settings]
  decide +kernel

include hfile

theorem program_lint : c.program d .yamllint = .ok ⟨"/w/lint"⟩ := by
  refine Checker.program_of_path ?_ (by decide) hfile
  rw [hc.settings]
  decide

theorem versionsNow_lint (hon : c.cache.enabled = true) (hversions : c.versions = none) :
    (c.versionsNow lintHost d).1 = [("yamllint", "yamllint 1.35.1")] ∧ (c.versionsNow lintHost d).2.2 = d := by
  have hrun : lintHost.execute d (.version .yamllint ⟨"/w/lint"⟩) c.root 10000 =
      (.ok ⟨.yamllint, "yamllint 1.35.1\n", "", 0⟩, d) :=
    Host.execute_of_run (by decide) rfl
  have hversion : lintHost.toolVersion d (.version .yamllint ⟨"/w/lint"⟩) c.root = (some "yamllint 1.35.1", d) := by
    rw [Host.toolVersion, hrun]
    rfl
  have hasked := Checker.askVersions_of_single (program_lint hc hfile) hversion
  rw [Checker.versionsNow, if_pos hon, Checker.knowVersions, hversions, enabledTools_lint hc]
  dsimp only
  rw [hasked]
  exact ⟨rfl, rfl⟩

theorem checkFresh_lint (path : Path) :
    c.checkFresh lintHost d path = (⟨path, [Checker.truthyFinding], false, [.yamllint], []⟩, d) := by
  have hprepare : c.prepare d .yamllint path = .ok (.check .yamllint ⟨"/w/lint"⟩ (c.target path) [], none) := by
    rw [Checker.prepare, program_lint hc hfile, Checker.dialect, hc.settings]
    rfl
  have hargs : lintText ⟨⟨"/w/lint"⟩, ["-f", "parsable", (c.target path).text], c.root, c.limit .yamllint⟩ =
      Checker.truthyReport := if_neg (by simp)
  have hrun : lintHost.execute d (.check .yamllint ⟨"/w/lint"⟩ (c.target path) []) c.root (c.limit .yamllint) =
      (.ok ⟨.yamllint, Checker.truthyReport, "", 0⟩, d) := by
    refine Host.execute_of_run (by decide) ?_
    rw [← hargs]
    rfl
  have hgroup : c.settings.group .yamllint = "YAML style" := by
    rw [hc.settings]
    decide
  rw [Checker.checkFresh_of_single (enabledTools_lint hc) hprepare hrun, Checker.findingsOf, hc.root, hgroup,
    Checker.findings_truthyReport]

end Lint

def lintChecker : Checker := .new lintSettings ⟨"/w"⟩ (.ofDirs []) desk

theorem isOf_lintChecker : lintChecker.IsOf lintSettings ⟨"/w"⟩ (.ofDirs []) := ⟨rfl, rfl, rfl⟩

theorem entries_lintChecker : lintChecker.cache.entries = [] := by
  have hfile : (Cache.new (lintSettings.resolve ⟨"/w"⟩ lintSettings.cacheDir)).file =
      ⟨"/w/.yamlsentry-cache/cache.json"⟩ := by decide
  have hsegments : Disk.segmentsOf "/w/.yamlsentry-cache/cache.json" =
      ["", "w", ".yamlsentry-cache", "cache.json"] := by decide
  have hw : ¬ 255 < "w".utf8ByteSize := by decide
  have hcache : ¬ 255 < ".yamlsentry-cache".utf8ByteSize := by decide
  refine Checker.entries_reopened_of_has_eq_false ?_
  rw [hfile]
  simp [desk, Disk.has, Disk.stat, Disk.find, hsegments, Disk.walk, Disk.isIdle, Disk.node?, Path.isAbsolute, hw, hcache]

theorem enabled_lint (d : Disk) : (Checker.new lintSettings ⟨"/w"⟩ (.ofDirs []) d).cache.enabled = true :=
  (Checker.enabled_reopened lintSettings ⟨"/w"⟩ d).1

/-- What the tool says of the file. -/
def lintResult : FileResult := ⟨⟨"/w/a.yml"⟩, [Checker.truthyFinding], false, [.yamllint], []⟩

def deskHash : String := contentHash "answer: yes\n"

theorem checkHashed_lintChecker (now : UInt64) :
    ∃ c, lintChecker.checkHashed lintHost now desk ⟨"/w/a.yml"⟩ deskHash = (lintResult, c, desk) := by
  have hran := (versionsNow_lint isOf_lintChecker isFile_desk (enabled_lint desk) rfl).2
  have hfresh := checkFresh_lint (isOf_lintChecker.versionsNow lintHost desk) isFile_desk ⟨"/w/a.yml"⟩
  obtain ⟨c, hchecked⟩ := Checker.checkHashed_of_entries_eq_nil entries_lintChecker lintHost now desk ⟨"/w/a.yml"⟩ deskHash
  rw [hran, hfresh] at hchecked
  exact ⟨c, hchecked⟩

theorem absolute_lintChecker : lintChecker.absolute ⟨"a.yml"⟩ = ⟨"/w/a.yml"⟩ := by decide

theorem checkFile_lintChecker (now : UInt64) :
    (∃ c, lintChecker.checkFile lintHost now desk ⟨"a.yml"⟩ = (.ok lintResult, c, desk)) ∧
    lintChecker.episodesOfCheck lintHost now desk ⟨"a.yml"⟩ =
      [.checked ⟨"/w/a.yml"⟩ (lintChecker.currentKey lintHost desk deskHash) lintResult] := by
  have hread : desk.readText (lintChecker.absolute ⟨"a.yml"⟩) = .ok "answer: yes\n" := by
    rw [absolute_lintChecker, readText_desk]
  have hrecalls : lintChecker.Recalls lintSettings.cache [] := (invariant_start entries_lintChecker).recalls
  obtain ⟨r, hr, hepisodes, -⟩ := hrecalls.answers_checkFile lintHost now hread
  obtain ⟨c, hchecked⟩ := checkHashed_lintChecker now
  have hcheck : lintChecker.checkFile lintHost now desk ⟨"a.yml"⟩ = (.ok lintResult, c, desk) := by
    rw [Checker.checkFile_of_ok lintHost now (Checker.hashOf_of_readText hread), absolute_lintChecker]
    exact congrArg (fun checked => (Except.ok checked.1, checked.2)) hchecked
  rw [hcheck] at hr
  obtain rfl : lintResult = r := Except.ok.inj hr
  rw [absolute_lintChecker] at hepisodes
  exact ⟨⟨c, hcheck⟩, hepisodes⟩

/-- The cache's directory is made with the first save. -/
theorem save_desk {c : Cache} (hon : c.enabled = true) (hdir : c.dir = ⟨"/w/.yamlsentry-cache"⟩) :
    c.save desk = .ok (deskWith c.render) := by
  have hmade : desk.makeDirs c.dir = .ok (desk.put ["w", ".yamlsentry-cache"] .dir) := by
    rw [hdir]
    exact Disk.makeDirs_of_follow? ["w", ".yamlsentry-cache"] (by decide) (by decide) rfl
  have hfile : Disk.IsPlain c.file ["w", ".yamlsentry-cache", "cache.json"] := by
    rw [Cache.file, hdir]
    decide
  exact Cache.save_of_follow? _ hon hmade hfile rfl

def lintEvents : List Event := [.check lintHost 0 ⟨"a.yml"⟩, .save, .restart (.ofDirs [])]

theorem run_lintEvents : ∃ text, (start lintSettings ⟨"/w"⟩ (.ofDirs []) desk).run lintEvents =
    ⟨.new lintSettings ⟨"/w"⟩ (.ofDirs []) (deskWith text), deskWith text,
      [.restarted, .saved, .checked ⟨"/w/a.yml"⟩ (lintChecker.currentKey lintHost desk deskHash) lintResult]⟩ := by
  obtain ⟨⟨c, hcheck⟩, hepisodes⟩ := checkFile_lintChecker 0
  have halike := lintChecker.alike_checkFile lintHost 0 desk ⟨"a.yml"⟩
  rw [hcheck] at halike
  have hon : c.cache.enabled = true := halike.enabled.trans (enabled_lint desk)
  have hdir : c.cache.dir = ⟨"/w/.yamlsentry-cache"⟩ :=
    (halike.dir.trans (Checker.enabled_reopened lintSettings ⟨"/w"⟩ desk).2).trans (by decide)
  have hsave : c.saveCache desk = .ok (deskWith c.cache.render) := by rw [Checker.saveCache, save_desk hon hdir]
  have hfirst : (start lintSettings ⟨"/w"⟩ (.ofDirs []) desk).step (.check lintHost 0 ⟨"a.yml"⟩) =
      ⟨c, desk, [.checked ⟨"/w/a.yml"⟩ (lintChecker.currentKey lintHost desk deskHash) lintResult]⟩ := by
    show Lifetime.mk (lintChecker.checkFile lintHost 0 desk ⟨"a.yml"⟩).2.1
      (lintChecker.checkFile lintHost 0 desk ⟨"a.yml"⟩).2.2
      (lintChecker.episodesOfCheck lintHost 0 desk ⟨"a.yml"⟩ ++ []) = _
    rw [hcheck, hepisodes]
    rfl
  refine ⟨c.cache.render, ?_⟩
  rw [lintEvents, run, List.foldl_cons, hfirst, List.foldl_cons, step, hsave, hon, List.foldl_cons, step, halike.settings,
    halike.root]
  rfl

theorem isFile_deskWith (text : String) : (deskWith text).isFile ⟨"/w/lint"⟩ = true :=
  Disk.isFile_of_follow? ["w", "lint"] (by decide) rfl

/-- A save changes nothing that the result depends on. -/
theorem currentKey_deskWith (text hash : String) :
    (Checker.new lintSettings ⟨"/w"⟩ (.ofDirs []) (deskWith text)).currentKey lintHost (deskWith text) hash =
      lintChecker.currentKey lintHost desk hash := by
  have hignored (c : Checker) (d : Disk) (hc : c.IsOf lintSettings ⟨"/w"⟩ (.ofDirs []))
      (hnone : d.follow? [] ["w", ".ansible-lint-ignore"] = some (["w", ".ansible-lint-ignore"], none)) :
      c.settingsHash d = lintSettings.fingerprint := by
    have hpath : lintSettings.resolve ⟨"/w"⟩ lintSettings.ignoreFile = ⟨"/w/.ansible-lint-ignore"⟩ := by decide
    rw [Checker.settingsHash, Checker.ignorePath, hc.settings, hc.root, hpath,
      Disk.readText_of_follow?_none ["w", ".ansible-lint-ignore"] (by decide) hnone]
  rw [Checker.currentKey, Checker.currentKey, hignored _ (deskWith text) ⟨rfl, rfl, rfl⟩ rfl,
    hignored _ desk isOf_lintChecker rfl,
    (versionsNow_lint ⟨rfl, rfl, rfl⟩ (isFile_deskWith text) (enabled_lint _) rfl).1,
    (versionsNow_lint isOf_lintChecker isFile_desk (enabled_lint desk) rfl).1]

/-- A file is checked before and after a restart, by both of its spellings. The first answer is not from the cache, and
the second one is. -/
theorem faithful_run_restart :
    lintChecker.cache.entries = [] ∧
    (start lintSettings ⟨"/w"⟩ (.ofDirs []) desk).Undisturbed lintEvents ∧
    (lintChecker.checkFile lintHost 0 desk ⟨"a.yml"⟩).1 = .ok lintResult ∧
    ((start lintSettings ⟨"/w"⟩ (.ofDirs []) desk).run lintEvents).Faithful lintSettings ⟨"/w"⟩ ∧
    let s := (start lintSettings ⟨"/w"⟩ (.ofDirs []) desk).run lintEvents
    ∃ r, (s.checker.checkFile lintHost 1 s.disk ⟨"/w/a.yml"⟩).1 = .ok r ∧ r.fromCache = true ∧
      r.findings = [Checker.truthyFinding] := by
  have hcalm : (start lintSettings ⟨"/w"⟩ (.ofDirs []) desk).Undisturbed lintEvents := by
    refine (invariant_start entries_lintChecker).undisturbed fun event hevent => ?_
    simp only [lintEvents, List.mem_cons, List.not_mem_nil, or_false] at hevent
    rcases hevent with rfl | rfl | rfl
    · exact fun d i => .refl _ d
    · trivial
    · trivial
  have hfaithful := faithful_run _ _ _ _ _ entries_lintChecker hcalm
  obtain ⟨⟨c, hfirst⟩, -⟩ := checkFile_lintChecker 0
  refine ⟨entries_lintChecker, hcalm, congrArg Prod.fst hfirst, hfaithful, ?_⟩
  obtain ⟨text, hrun⟩ := run_lintEvents
  rw [hrun] at hfaithful ⊢
  have hread : (deskWith text).readText ⟨"/w/a.yml"⟩ = .ok "answer: yes\n" :=
    Disk.readText_of_follow? ["w", "a.yml"] (by decide) rfl
  have hpath : (Checker.new lintSettings ⟨"/w"⟩ (.ofDirs []) (deskWith text)).absolute ⟨"/w/a.yml"⟩ = ⟨"/w/a.yml"⟩ := by
    show (⟨"/w"⟩ : Path).join ⟨"/w/a.yml"⟩ = _
    decide
  rw [← hpath] at hread
  obtain ⟨r, hr, -, hanswer, -⟩ := hfaithful.check lintHost 1 ⟨"/w/a.yml"⟩ _ hread
  have hheld : held lintSettings.cache ⟨"/w/a.yml"⟩
      [.restarted, .saved, .checked ⟨"/w/a.yml"⟩ (lintChecker.currentKey lintHost desk deskHash) lintResult] =
        some (lintChecker.currentKey lintHost desk deskHash, [Checker.truthyFinding]) := by
    rw [held, kept, held, if_pos ⟨rfl, rfl, rfl⟩]
    rfl
  rw [hpath, currentKey_deskWith text] at hanswer
  have hcached : r.fromCache = true := hanswer.fromCache.2 ⟨rfl, _, hheld⟩
  have hfindings := (hanswer.unchanged hcached).1.symm.trans hheld
  exact ⟨r, hr, hcached, congrArg Prod.snd (Option.some.inj hfindings)⟩

end Lifetime

end LintHub
