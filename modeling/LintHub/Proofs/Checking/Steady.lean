import LintHub.Proofs.Checking.Runs

/-!
# Steady tools

* `Host.Steady` : what a program answers depends on how it is called and on how the disk looks to it. No run changes the
  look.
* `Checker.IsOf` : a checker of a project, whatever it knows and whatever its cache holds.
* `Host.Steady.checkFresh` : the tools of two checkers of one project say the same on disks that look alike.
-/

namespace LintHub

/-- What a program answers depends on its invocation and on the look of the disk, which no run changes. The look shows
where the programs of the tools are, and the texts of some files. -/
structure Host.Steady (h : Host) (settings : Settings) (locator : Locator) (files : List Path)
    (alike : Disk → Disk → Prop) : Prop where
  equivalence : Equivalence alike
  answer : ∀ {d d'}, alike d d' → ∀ i, (h.run d' i).1 = (h.run d i).1
  unchanged : ∀ d i, alike d (h.run d i).2
  program : ∀ {d d'}, alike d d' → ∀ t,
    locator.locate d' t (settings.tool t).path = locator.locate d t (settings.tool t).path
  text : ∀ {d d'}, alike d d' → ∀ file ∈ files, d'.readText file = d.readText file

/-- A checker of a project: it has its settings and its root, and looks for programs in the same places. -/
structure Checker.IsOf (settings : Settings) (root : Path) (locator : Locator) (c : Checker) : Prop where
  settings : c.settings = settings
  root : c.root = root
  locator : c.locator = locator

theorem Checker.IsOf.versionsNow {settings : Settings} {root : Path} {locator : Locator} {c : Checker}
    (hc : c.IsOf settings root locator) (h : Host) (d : Disk) :
    (c.versionsNow h d).2.1.IsOf settings root locator := by
  unfold Checker.versionsNow knowVersions
  split
  · split
    · exact hc
    · exact ⟨hc.settings, hc.root, hc.locator⟩
  · exact hc

theorem Checker.IsOf.disableCache {settings : Settings} {root : Path} {locator : Locator} {c : Checker}
    (hc : c.IsOf settings root locator) : c.disableCache.IsOf settings root locator :=
  ⟨hc.settings, hc.root, hc.locator⟩

namespace Host.Steady

variable {h : Host} {settings : Settings} {root : Path} {locator : Locator} {files : List Path}
  {alike : Disk → Disk → Prop} {c c' : Checker} {d d' e e' : Disk} {path : Path}

theorem keeps (hs : h.Steady settings locator files alike) (d : Disk) : h.Keeps (alike d) :=
  fun _ i hd => hs.equivalence.trans hd (hs.unchanged _ i)

/-- Disks that come from disks that look alike look alike. -/
theorem alike_of_alike (hs : h.Steady settings locator files alike) (hd : alike d d') (hde : alike d e)
    (hde' : alike d' e') : alike e e' :=
  hs.equivalence.trans (hs.equivalence.symm hde) (hs.equivalence.trans hd hde')

theorem execute (hs : h.Steady settings locator files alike) (hd : alike d d') (command : ToolCommand) (cwd : Path)
    (limit : Nat) : (h.execute d' command cwd limit).1 = (h.execute d command cwd limit).1 := by
  simp only [Host.execute, hs.answer hd]

theorem prepare (hs : h.Steady settings locator files alike) (hc : c.IsOf settings root locator)
    (hc' : c'.IsOf settings root locator) (hd : alike d d') (t : Tool) :
    c'.prepare d' t path = c.prepare d t path := by
  have hprogram : c'.program d' t = c.program d t := by
    rw [Checker.program, Checker.program, hc.settings, hc.locator, hc'.settings, hc'.locator, hs.program hd]
  have hdialect : c'.dialect t = c.dialect t := by
    rw [Checker.dialect, Checker.dialect, hc.settings, hc'.settings]
  rw [Checker.prepare, Checker.prepare, hprogram, hdialect, Checker.target, Checker.target, hc.settings, hc'.settings,
    hc.root, hc'.root]

/-- What a tool says of a file depends on the project and on the look of the disk. -/
theorem attempt (hs : h.Steady settings locator files alike) (hc : c.IsOf settings root locator)
    (hc' : c'.IsOf settings root locator) (hd : alike d d') (t : Tool) :
    c'.attempt h d' t path = c.attempt h d t path := by
  have hlimit : c'.limit t = c.limit t := by rw [Checker.limit, Checker.limit, hc.settings, hc'.settings]
  unfold Checker.attempt
  simp only [hs.prepare hc hc' hd, hlimit, hc.root, hc'.root, hs.execute hd]

theorem runTool (hs : h.Steady settings locator files alike) (hc : c.IsOf settings root locator)
    (hc' : c'.IsOf settings root locator) (hd : alike d d') (t : Tool) :
    (c'.runTool h d' t path).1 = (c.runTool h d t path).1 := by
  have hread : (fun said : Option Dialect × Execution => c'.findingsOf t said.1 said.2) =
      fun said => c.findingsOf t said.1 said.2 := by
    funext said
    rw [Checker.findingsOf, Checker.findingsOf, hc.root, hc'.root, hc.settings, hc'.settings]
  rw [Checker.fst_runTool, Checker.fst_runTool, hs.attempt hc hc' hd, hread]

theorem runTools (hs : h.Steady settings locator files alike) (hc : c.IsOf settings root locator)
    (hc' : c'.IsOf settings root locator) (hd : alike d d') (tools : List Tool) :
    (c'.runTools h d' path tools).1 = (c.runTools h d path tools).1 := by
  induction tools generalizing d d' with
  | nil => rfl
  | cons t ts ih =>
    have hran : alike (c.runTool h d t path).2 (c'.runTool h d' t path).2 :=
      hs.alike_of_alike hd (Checker.runTool_keeps (hs.keeps d) (hs.equivalence.refl d) c t path)
        (Checker.runTool_keeps (hs.keeps d') (hs.equivalence.refl d') c' t path)
    unfold Checker.runTools
    dsimp only
    rw [hs.runTool hc hc' hd, ih hran]

/-- What the tools say of a file depends on the project and on the look of the disk. -/
theorem checkFresh (hs : h.Steady settings locator files alike) (hc : c.IsOf settings root locator)
    (hc' : c'.IsOf settings root locator) (hd : alike d d') (path : Path) :
    (c'.checkFresh h d' path).1 = (c.checkFresh h d path).1 := by
  rw [Checker.checkFresh, Checker.checkFresh, hc.settings, hc'.settings]
  dsimp only
  rw [hs.runTools hc hc' hd]

end Host.Steady

end LintHub
