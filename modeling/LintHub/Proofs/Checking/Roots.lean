import LintHub.Proofs.Checking.Lifetime
import LintHub.Proofs.Checking.Steady
import LintHub.Proofs.Disk.Parents

/-!
# Checkers of different roots

Tools run in the root of a checker and get the file as it is seen from there. The key of a result does not name the
root, and paths in the settings are seen from the directory of the settings file, so that checkers of different roots
share a cache.

* `Checker.stored_or_own` : a check answers what is stored for the file, or what the checker finds without its cache.
* `Checker.stores_other_root_iff` : when a second checker uses the result of a first one.
* `Checker.findings_other_root_iff` : exactly when the answer to a second checker is its own.
-/

namespace LintHub.Checker

/-! ## One check -/

section

variable {h : Host} {settings : Settings} {root : Path} {locator : Locator} {files : List Path}
  {alike : Disk → Disk → Prop} {c : Checker} {d : Disk} {path : Path} {text : String}

/-- A result is stored for the file under its present key. -/
def Stores (h : Host) (c : Checker) (d : Disk) (path : Path) (text : String) (findings : List Finding) : Prop :=
  c.cache.enabled = true ∧ c.cache.stored (c.absolute path) = some (c.currentKey h d (contentHash text), findings)

theorem checkFile_disableCache (h : Host) (now : UInt64) (htext : d.readText (c.absolute path) = .ok text) :
    (c.disableCache.checkFile h now d path).1 = .ok (c.disableCache.checkFresh h d (c.absolute path)).1 := by
  have hoff : c.disableCache.cache.enabled = false := rfl
  rw [checkFile_of_disabled hoff htext]
  rfl

/-- A check of a file answers what is stored for it, or what the checker finds without its cache. -/
theorem stored_or_own (hsteady : h.Steady settings locator files alike) (hc : c.IsOf settings root locator)
    (now : UInt64) (htext : d.readText (c.absolute path) = .ok text) :
    ∃ served, (c.checkFile h now d path).1 = .ok served ∧
      (c.Stores h d path text served.findings ∨
        (∀ findings, ¬ c.Stores h d path text findings) ∧
          served.findings = (c.disableCache.checkFresh h d (c.absolute path)).1.findings) := by
  have hanswer : (c.checkFile h now d path).1 =
      .ok (c.checkHashed h now d (c.absolute path) (contentHash text)).1 := by
    rw [checkFile_of_ok h now (hashOf_of_readText htext)]
  have hnone (hvalid : c.cache.valid? (c.absolute path) (c.currentKey h d (contentHash text)) = none)
      (findings : List Finding) : ¬ c.Stores h d path text findings := by
    intro hstored
    obtain ⟨e, he, -⟩ := Cache.valid?_eq_some_iff.2 hstored
    rw [hvalid] at he
    cases he
  -- The tools are asked for their versions first, which leaves the look of the disk.
  have hown : ((c.versionsNow h d).2.1.checkFresh h (c.versionsNow h d).2.2 (c.absolute path)).1 =
      (c.disableCache.checkFresh h d (c.absolute path)).1 :=
    hsteady.checkFresh hc.disableCache (hc.versionsNow h d)
      (versionsNow_keeps (hsteady.keeps d) (hsteady.equivalence.refl d) c) _
  refine ⟨_, hanswer, ?_⟩
  obtain ⟨e, hvalid, heq⟩ | ⟨hvalid, -, heq⟩ | ⟨hvalid, -, heq⟩ :=
    c.checkHashed_cases h now d (c.absolute path) (contentHash text)
  · rw [heq]
    exact .inl (Cache.valid?_eq_some_iff.1 ⟨e, hvalid, rfl⟩)
  · rw [heq]
    exact .inr ⟨hnone hvalid, congrArg FileResult.findings hown⟩
  · rw [heq]
    exact .inr ⟨hnone hvalid, congrArg FileResult.findings hown⟩

end

/-! ## Two checks -/

variable {h : Host} {settings : Settings} {locator : Locator} {alike : Disk → Disk → Prop}
  {base root₁ root₂ path₁ path₂ : Path} {now₁ : UInt64} {d ran saved : Disk} {c : Checker} {first : FileResult}

theorem isOf_new (settings : Settings) (root : Path) (locator : Locator) (d : Disk) :
    (new settings root locator d).IsOf settings root locator := ⟨rfl, rfl, rfl⟩

theorem resolve_of_baseDir (hbase : settings.baseDir = some base) (root : Path) (name : String) :
    settings.resolve root name = settings.resolve base name := by
  rw [Settings.resolve, Settings.resolve, hbase]
  rfl

/-- Where the ignore file reads the same, the keys of two checkers differ in the versions only. -/
theorem currentKey_eq_iff {hash : String} (hbase : settings.baseDir = some base)
    (hignored : saved.readText (settings.resolve base settings.ignoreFile) =
      d.readText (settings.resolve base settings.ignoreFile)) :
    (new settings root₁ locator d).currentKey h d hash = (new settings root₂ locator saved).currentKey h saved hash ↔
      ((new settings root₁ locator d).versionsNow h d).1 = ((new settings root₂ locator saved).versionsNow h saved).1 := by
  have hsettings : (new settings root₂ locator saved).settingsHash saved =
      (new settings root₁ locator d).settingsHash d := by
    have hpath (root : Path) (d : Disk) : (new settings root locator d).ignorePath =
        settings.resolve base settings.ignoreFile := resolve_of_baseDir hbase root _
    unfold settingsHash
    rw [hpath root₂ saved, hpath root₁ d, hignored]
    rfl
  rw [currentKey, currentKey, hsettings, CacheKey.mk.injEq]
  simp

section

variable {text : String} (hnone : (new settings root₁ locator d).cache.entries = [])
  (hfirst : (new settings root₁ locator d).checkFile h now₁ d path₁ = (.ok first, c, ran))
  (htext : d.readText (root₁.join path₁) = .ok text)

include hnone hfirst htext

/-- A first check by a checker without entries leaves its result in the cache, if no tool failed. -/
theorem stored_of_checkFile : Cache.Ordered c.cache.entries ∧ c.cache.enabled = settings.cache ∧
    (settings.cache = true → c.cache.stored (root₁.join path₁) =
      if first.failures = [] then
        some ((new settings root₁ locator d).currentKey h d (contentHash text), first.findings)
      else none) := by
  have hrecalls : (new settings root₁ locator d).Recalls settings.cache [] := (Lifetime.invariant_start hnone).recalls
  obtain ⟨r, hr, hepisodes, -⟩ := hrecalls.answers_checkFile h now₁ htext
  rw [hfirst] at hr
  obtain rfl : first = r := Except.ok.inj hr
  have hafter := (hrecalls.checkFile trivial h now₁ d path₁).2
  rw [hepisodes, hfirst] at hafter
  refine ⟨hafter.ordered, hafter.enabled, fun hon => ?_⟩
  have hheld := hafter.stored (root₁.join path₁)
  rw [List.singleton_append, History.held, History.enabled, hon] at hheld
  rw [hheld]
  by_cases hfail : first.failures = []
  · rw [if_pos ⟨rfl, hfail, rfl⟩, if_pos hfail]
  · rw [if_neg fun hall => hfail hall.2.1, if_neg hfail]
    rfl

/-- A new checker has what was stored, whatever its root is. -/
theorem stored_other_root (hbase : settings.baseDir = some base) (hsave : c.saveCache ran = .ok saved)
    (hon : settings.cache = true) :
    (new settings root₂ locator saved).cache.stored (root₁.join path₁) =
      if first.failures = [] then
        some ((new settings root₁ locator d).currentKey h d (contentHash text), first.findings)
      else none := by
  obtain ⟨hordered, henabled, hstored⟩ := stored_of_checkFile hnone hfirst htext
  have hwritten : c.cache.save ran = .ok saved := by
    rw [saveCache] at hsave
    split at hsave
    · next written heq => rw [heq, Except.ok.inj hsave]
    · cases hsave
  have hdir : c.cache.dir = settings.resolve root₂ settings.cacheDir := by
    have halike := (new settings root₁ locator d).alike_checkFile h now₁ d path₁
    rw [hfirst] at halike
    rw [halike.dir, new_eq, (enabled_reopened settings root₁ d).2, resolve_of_baseDir hbase,
      resolve_of_baseDir hbase root₂]
  have hentries : (reopened settings root₂ saved).entries = c.cache.entries :=
    reopened_of_save hwritten (henabled.trans hon) hon hordered hdir
  rw [← hstored hon, Cache.stored, Cache.stored, new_eq, hentries]

/-- What a second checker uses: the result of the first, if the cache is on, no tool failed and the tools named the
same versions. -/
theorem stores_other_root_iff {findings : List Finding} (hbase : settings.baseDir = some base)
    (hsame : root₂.join path₂ = root₁.join path₁) (hsave : c.saveCache ran = .ok saved)
    (hignored : saved.readText (settings.resolve base settings.ignoreFile) =
      d.readText (settings.resolve base settings.ignoreFile)) :
    (new settings root₂ locator saved).Stores h saved path₂ text findings ↔
      settings.cache = true ∧ first.failures = [] ∧
        ((new settings root₁ locator d).versionsNow h d).1 =
          ((new settings root₂ locator saved).versionsNow h saved).1 ∧ first.findings = findings := by
  have henabled : (new settings root₂ locator saved).cache.enabled = settings.cache :=
    (enabled_reopened settings root₂ saved).1
  have habsolute : (new settings root₂ locator saved).absolute path₂ = root₁.join path₁ := hsame
  rw [Stores, henabled, habsolute]
  refine and_congr_right fun hon => ?_
  rw [stored_other_root hnone hfirst htext hbase hsave hon, ← currentKey_eq_iff hbase hignored]
  by_cases hfail : first.failures = []
  · rw [if_pos hfail, Option.some.injEq, Prod.mk.injEq]
    exact (and_iff_right hfail).symm
  · rw [if_neg hfail]
    exact ⟨fun hstored => absurd hstored.symm (Option.some_ne_none _), fun hall => absurd hall.1 hfail⟩

theorem findings_of_entries_eq_nil {files : List Path} (hsteady : h.Steady settings locator files alike) :
    first.findings = ((new settings root₁ locator d).disableCache.checkFresh h d (root₁.join path₁)).1.findings := by
  have hread : d.readText ((new settings root₁ locator d).absolute path₁) = .ok text := htext
  obtain ⟨served, hserved, hcase⟩ := stored_or_own hsteady (isOf_new settings root₁ locator d) now₁ hread
  rw [hfirst] at hserved
  obtain rfl : first = served := Except.ok.inj hserved
  rcases hcase with ⟨-, hstored⟩ | ⟨-, hfresh⟩
  · rw [Cache.stored, hnone] at hstored
    cases hstored
  · exact hfresh

end

/-- A checker answers for its root what it would find itself, unless it uses the result of another root and that says
something else. It uses it just if the cache is on, no tool failed and the tools named the same versions. -/
theorem findings_other_root_iff (now₂ : UInt64)
    (hsteady : h.Steady settings locator [root₁.join path₁, settings.resolve base settings.ignoreFile] alike)
    (hbase : settings.baseDir = some base) (hsame : root₂.join path₂ = root₁.join path₁)
    (hnone : (new settings root₁ locator d).cache.entries = [])
    (hfirst : (new settings root₁ locator d).checkFile h now₁ d path₁ = (.ok first, c, ran))
    (hsave : c.saveCache ran = .ok saved) (hlook : alike ran saved) :
    ∃ served own, ((new settings root₂ locator saved).checkFile h now₂ saved path₂).1 = .ok served ∧
      ((new settings root₂ locator saved).disableCache.checkFile h now₂ saved path₂).1 = .ok own ∧
      (served.findings = own.findings ↔
        (settings.cache = true → first.failures = [] →
          ((new settings root₁ locator d).versionsNow h d).1 =
            ((new settings root₂ locator saved).versionsNow h saved).1 →
          first.findings = own.findings)) ∧
      (root₁ = root₂ → served.findings = own.findings) := by
  have hanswer : ((new settings root₁ locator d).checkFile h now₁ d path₁).1 = .ok first := by rw [hfirst]
  obtain ⟨text, hfile⟩ := readText_of_checkFile hanswer
  have htext : d.readText (root₁.join path₁) = .ok text := hfile
  have hsaved : alike d saved := by
    have hran := checkFile_keeps (hsteady.keeps d) (hsteady.equivalence.refl d) now₁ (new settings root₁ locator d) path₁
    rw [hfirst] at hran
    exact hsteady.equivalence.trans hran hlook
  have hread : saved.readText ((new settings root₂ locator saved).absolute path₂) = .ok text := by
    have hunchanged : saved.readText (root₁.join path₁) = .ok text :=
      (hsteady.text hsaved _ List.mem_cons_self).trans htext
    rwa [← hsame] at hunchanged
  have hignored : saved.readText (settings.resolve base settings.ignoreFile) =
      d.readText (settings.resolve base settings.ignoreFile) :=
    hsteady.text hsaved _ (List.mem_cons_of_mem _ List.mem_cons_self)
  obtain ⟨served, hserved, hcase⟩ := stored_or_own hsteady (isOf_new settings root₂ locator saved) now₂ hread
  refine ⟨served, _, hserved, checkFile_disableCache h now₂ hread, ?_⟩
  have hstores (findings : List Finding) : (new settings root₂ locator saved).Stores h saved path₂ text findings ↔ _ :=
    stores_other_root_iff hnone hfirst htext hbase hsame hsave hignored
  rcases hcase with hstored | ⟨hnot, hfresh⟩
  · obtain ⟨hon, hfail, hversions, hfindings⟩ := (hstores served.findings).1 hstored
    refine ⟨⟨fun heq _ _ _ => hfindings.trans heq, fun hagree => hfindings.symm.trans (hagree hon hfail hversions)⟩, ?_⟩
    -- The first check ran the tools, and from the same root the second would get the same from them.
    rintro rfl
    have hown := hsteady.checkFresh (isOf_new settings root₁ locator d).disableCache
      (isOf_new settings root₁ locator saved).disableCache hsaved (root₁.join path₁)
    rw [← hfindings, findings_of_entries_eq_nil hnone hfirst htext hsteady, ← hown, ← hsame]
    rfl
  · exact ⟨⟨fun _ hon hfail hversions => absurd ((hstores first.findings).2 ⟨hon, hfail, hversions, rfl⟩) (hnot _),
      fun _ => hfresh⟩, fun _ => hfresh⟩

/-! ### A program that looks where it runs -/

/-- The program finds something in one directory only, as it does where settings of its own lie. -/
def pickyText (i : Invocation) : String := if i.cwd = ⟨"/w"⟩ ∧ i.args ≠ ["--version"] then truthyReport else ""

def pickyHost : Host := ⟨fun d i => (.ended (some 0) (pickyText i).toUTF8 "".toUTF8, d)⟩

def pickySettings : Settings :=
  { Settings.default with
    tools := .ofFn fun t => { ToolSettings.default with enabled := t = .yamllint, path := some "/w/lint" }
    cacheDir := "cache"
    baseDir := some ⟨"/w"⟩ }

def folder : Disk where
  nodes := [(["w"], .dir), (["w", "cache"], .dir), (["w", "lint"], .file .empty true), (["w", "sub"], .dir),
    (["w", "sub", "a.yml"], .file "answer: yes\n".toUTF8 false)]
  here := []

def folderWith (text : String) : Disk := folder.put ["w", "cache", "cache.json"] (.file text.toUTF8 false)

/-- Disks that look alike to the program. -/
def AlikeFolders (d d' : Disk) : Prop :=
  d'.isFile ⟨"/w/lint"⟩ = d.isFile ⟨"/w/lint"⟩ ∧ d'.readText ⟨"/w/sub/a.yml"⟩ = d.readText ⟨"/w/sub/a.yml"⟩ ∧
    d'.readText ⟨"/w/.ansible-lint-ignore"⟩ = d.readText ⟨"/w/.ansible-lint-ignore"⟩

theorem steady_pickyHost :
    pickyHost.Steady pickySettings (.ofDirs []) [⟨"/w/sub/a.yml"⟩, ⟨"/w/.ansible-lint-ignore"⟩] AlikeFolders where
  equivalence := ⟨fun d => ⟨rfl, rfl, rfl⟩, fun h => ⟨h.1.symm, h.2.1.symm, h.2.2.symm⟩,
    fun h h' => ⟨h'.1.trans h.1, h'.2.1.trans h.2.1, h'.2.2.trans h.2.2⟩⟩
  answer _ _ := rfl
  unchanged d _ := ⟨rfl, rfl, rfl⟩
  program h t := by
    have hconfigured : Locator.configuredName? (pickySettings.tool t).path = some "/w/lint" := by cases t <;> decide
    have hpath : Locator.isPathLike "/w/lint" = true := by decide
    rw [Locator.locate, Locator.locate, hconfigured]
    simp only [hpath, h.1, if_true]
  text h file hfile := by
    simp only [List.mem_cons, List.not_mem_nil, or_false] at hfile
    rcases hfile with rfl | rfl
    · exact h.2.1
    · exact h.2.2

theorem alike_folderWith (text : String) : AlikeFolders folder (folderWith text) := by
  refine ⟨?_, ?_, ?_⟩
  · rw [Disk.isFile_of_follow? ["w", "lint"] (by decide) rfl,
      Disk.isFile_of_follow? (d := folder) ["w", "lint"] (by decide) rfl]
  · rw [Disk.readText_of_follow? ["w", "sub", "a.yml"] (by decide) rfl,
      Disk.readText_of_follow? (d := folder) ["w", "sub", "a.yml"] (by decide) rfl]
  · rw [Disk.readText_of_follow?_none ["w", ".ansible-lint-ignore"] (by decide) rfl,
      Disk.readText_of_follow?_none (d := folder) ["w", ".ansible-lint-ignore"] (by decide) rfl]

theorem program_picky {root : Path} {c : Checker} {d : Disk} (hc : c.IsOf pickySettings root (.ofDirs []))
    (hfile : d.isFile ⟨"/w/lint"⟩ = true) : c.program d .yamllint = .ok ⟨"/w/lint"⟩ := by
  refine program_of_path ?_ (by decide) hfile
  rw [hc.settings]
  decide

theorem enabledTools_picky {root : Path} {c : Checker} (hc : c.IsOf pickySettings root (.ofDirs [])) :
    c.settings.enabledTools = [.yamllint] := by
  rw [hc.settings]
  decide +kernel

def pickyResult (root path : Path) : FileResult :=
  ⟨path, mergeFindings [Report.readGrouped (Report.combined (if root = ⟨"/w"⟩ then truthyReport else "") "") root .yamllint
    none (some (pickySettings.group .yamllint))], false, [.yamllint], []⟩

theorem checkFresh_picky {root path : Path} {c : Checker} {d : Disk} (hc : c.IsOf pickySettings root (.ofDirs []))
    (hfile : d.isFile ⟨"/w/lint"⟩ = true) :
    c.checkFresh pickyHost d path = (pickyResult root path, d) := by
  have hprepare : c.prepare d .yamllint path =
      .ok (.check .yamllint ⟨"/w/lint"⟩ (c.target path) [], none) := by
    rw [prepare, program_picky hc hfile, dialect, hc.settings]
    rfl
  have hargs : (ToolCommand.check .yamllint ⟨"/w/lint"⟩ (c.target path) []).args ≠ ["--version"] := by
    simp [ToolCommand.check]
  rw [checkFresh_of_single (enabledTools_picky hc) hprepare (Host.execute_of_run (by decide) rfl), findingsOf, hc.root,
    hc.settings, pickyResult, pickyText]
  simp only [hargs, and_true, ne_eq, not_false_eq_true]

theorem versionsNow_picky {root : Path} {c : Checker} {d : Disk} (hc : c.IsOf pickySettings root (.ofDirs []))
    (hfile : d.isFile ⟨"/w/lint"⟩ = true) (hversions : c.versions = none) :
    (c.versionsNow pickyHost d).1 = [] ∧ (c.versionsNow pickyHost d).2.2 = d := by
  have hversion : pickyHost.toolVersion d (.version .yamllint ⟨"/w/lint"⟩) c.root = (none, d) := by
    have htext : pickyText ⟨⟨"/w/lint"⟩, ["--version"], c.root, 10000⟩ = "" := if_neg fun hall => hall.2 rfl
    have hrun : pickyHost.execute d (.version .yamllint ⟨"/w/lint"⟩) c.root 10000 =
        (.ok ⟨.yamllint, pickyText ⟨⟨"/w/lint"⟩, ["--version"], c.root, 10000⟩, "", 0⟩, d) :=
      Host.execute_of_run (by decide) rfl
    rw [Host.toolVersion, hrun, htext]
    rfl
  have hasked := askVersions_of_single (program_picky hc hfile) hversion
  unfold versionsNow knowVersions
  rw [hversions, enabledTools_picky hc]
  split
  · simp only [hasked, Option.map_none, Option.toList_none, and_self]
  · exact ⟨rfl, rfl⟩

theorem isFile_folder : folder.isFile ⟨"/w/lint"⟩ = true := Disk.isFile_of_follow? ["w", "lint"] (by decide) rfl

theorem find_cacheFile : folder.find true ⟨"/w/cache/cache.json"⟩ = .ok (["w", "cache", "cache.json"], none) :=
  Disk.find_of_follow? (by decide : Disk.IsPlain ⟨"/w/cache/cache.json"⟩ ["w", "cache", "cache.json"]) true rfl

theorem entries_folder : (new pickySettings ⟨"/w"⟩ (.ofDirs []) folder).cache.entries = [] := by
  refine entries_reopened_of_has_eq_false ?_
  rw [show (Cache.new (pickySettings.resolve ⟨"/w"⟩ pickySettings.cacheDir)).file = ⟨"/w/cache/cache.json"⟩ by decide,
    Disk.has, Disk.stat, find_cacheFile]

/-- The cache is saved in a directory that is there already. -/
theorem save_folder {c : Cache} (hdir : c.dir = ⟨"/w/cache"⟩) (hon : c.enabled = true) :
    c.save folder = .ok (folderWith c.render) := by
  have hthere : folder.isDir ⟨"/w/cache"⟩ = true := by
    have hplain : Disk.IsPlain ⟨"/w/cache"⟩ ["w", "cache"] := by decide
    rw [Disk.isDir, Disk.stat_of_follow? hplain rfl]
    rfl
  have hmade : folder.makeDirs c.dir = .ok folder := by
    rw [hdir, Disk.makeDirs_of_isDir (Disk.isOpen_nil folder) hthere]
  have hfile : Disk.IsPlain c.file ["w", "cache", "cache.json"] := by
    rw [Cache.file, hdir]
    decide
  exact Cache.save_of_follow? _ hon hmade hfile rfl

theorem checkFile_folder : ∃ c, (new pickySettings ⟨"/w"⟩ (.ofDirs []) folder).checkFile pickyHost 0 folder
    ⟨"sub/a.yml"⟩ = (.ok (pickyResult ⟨"/w"⟩ ⟨"/w/sub/a.yml"⟩), c, folder) := by
  have hof := isOf_new pickySettings ⟨"/w"⟩ (.ofDirs []) folder
  have hpath : (new pickySettings ⟨"/w"⟩ (.ofDirs []) folder).absolute ⟨"sub/a.yml"⟩ = ⟨"/w/sub/a.yml"⟩ := by decide
  have hread : folder.readText ⟨"/w/sub/a.yml"⟩ = .ok "answer: yes\n" :=
    Disk.readText_of_follow? ["w", "sub", "a.yml"] (by decide) rfl
  have hran := (versionsNow_picky hof isFile_folder rfl).2
  obtain ⟨c, hchecked⟩ := checkHashed_of_entries_eq_nil entries_folder pickyHost 0 folder ⟨"/w/sub/a.yml"⟩
    (contentHash "answer: yes\n")
  rw [hran, checkFresh_picky (hof.versionsNow pickyHost folder) isFile_folder] at hchecked
  rw [checkFile_of_ok pickyHost 0 (hashOf_of_readText (by rw [hpath, hread])), hpath, hchecked]
  exact ⟨c, rfl⟩

/-- A file is checked from the directory where the program finds something, and then from the other one. -/
theorem findings_other_root_differ :
    ∃ first c ran saved served own,
      (new pickySettings ⟨"/w"⟩ (.ofDirs []) folder).checkFile pickyHost 0 folder ⟨"sub/a.yml"⟩ = (.ok first, c, ran) ∧
      c.saveCache ran = .ok saved ∧
      ((new pickySettings ⟨"/w/sub"⟩ (.ofDirs []) saved).checkFile pickyHost 1 saved ⟨"a.yml"⟩).1 = .ok served ∧
      ((new pickySettings ⟨"/w/sub"⟩ (.ofDirs []) saved).disableCache.checkFile pickyHost 1 saved ⟨"a.yml"⟩).1 =
        .ok own ∧
      served.findings ≠ own.findings := by
  obtain ⟨c, hfirst⟩ := checkFile_folder
  have halike := (new pickySettings ⟨"/w"⟩ (.ofDirs []) folder).alike_checkFile pickyHost 0 folder ⟨"sub/a.yml"⟩
  rw [hfirst] at halike
  have hdir : c.cache.dir = ⟨"/w/cache"⟩ := halike.dir.trans ((enabled_reopened pickySettings ⟨"/w"⟩ folder).2)
  have hon : c.cache.enabled = true := halike.enabled.trans (enabled_reopened pickySettings ⟨"/w"⟩ folder).1
  have hsave : c.saveCache folder = .ok (folderWith c.cache.render) := by rw [saveCache, save_folder hdir hon]
  have hfile : (folderWith c.cache.render).isFile ⟨"/w/lint"⟩ = true :=
    Disk.isFile_of_follow? ["w", "lint"] (by decide) rfl
  have hread : (folderWith c.cache.render).readText ⟨"/w/sub/a.yml"⟩ = .ok "answer: yes\n" :=
    Disk.readText_of_follow? ["w", "sub", "a.yml"] (by decide) rfl
  have hpath : (new pickySettings ⟨"/w/sub"⟩ (.ofDirs []) (folderWith c.cache.render)).absolute ⟨"a.yml"⟩ =
      ⟨"/w/sub/a.yml"⟩ := by
    show (⟨"/w/sub"⟩ : Path).join ⟨"a.yml"⟩ = ⟨"/w/sub/a.yml"⟩
    decide
  rw [← hpath] at hread
  have hof := isOf_new pickySettings ⟨"/w/sub"⟩ (.ofDirs []) (folderWith c.cache.render)
  have hsame : (⟨"/w/sub"⟩ : Path).join ⟨"a.yml"⟩ = (⟨"/w"⟩ : Path).join ⟨"sub/a.yml"⟩ := by decide
  have hfiles : [⟨"/w/sub/a.yml"⟩, ⟨"/w/.ansible-lint-ignore"⟩] =
      [(⟨"/w"⟩ : Path).join ⟨"sub/a.yml"⟩, pickySettings.resolve ⟨"/w"⟩ pickySettings.ignoreFile] := by decide
  have hsteady := steady_pickyHost
  rw [hfiles] at hsteady
  obtain ⟨served, own, hserved, hown, hiff, -⟩ := findings_other_root_iff 1 hsteady rfl hsame entries_folder hfirst
    hsave (alike_folderWith _)
  refine ⟨_, c, folder, _, served, own, hfirst, hsave, hserved, hown, fun heq => ?_⟩
  have hversions : ((new pickySettings ⟨"/w"⟩ (.ofDirs []) folder).versionsNow pickyHost folder).1 =
      ((new pickySettings ⟨"/w/sub"⟩ (.ofDirs []) (folderWith c.cache.render)).versionsNow pickyHost
        (folderWith c.cache.render)).1 := by
    rw [(versionsNow_picky (isOf_new _ _ _ _) isFile_folder rfl).1, (versionsNow_picky hof hfile rfl).1]
  have hagree := hiff.1 heq rfl rfl hversions
  have hownResult : own = pickyResult ⟨"/w/sub"⟩ ⟨"/w/sub/a.yml"⟩ := by
    rw [checkFile_disableCache pickyHost 1 hread, hpath, checkFresh_picky hof.disableCache hfile] at hown
    exact (Except.ok.inj hown).symm
  rw [hownResult] at hagree
  exact absurd hagree (by decide +kernel)

end LintHub.Checker
