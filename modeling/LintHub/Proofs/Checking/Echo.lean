import LintHub.Proofs.Checking.Isolation
import LintHub.Proofs.Disk.Respelled
import LintHub.Proofs.Editor.Messages
import LintHub.Proofs.Report.Named

/-!
# Tools that echo their target

A tool gets a path as it is seen from the root. If it reports findings against that text, they are in the file that is
checked.

* `Path.same_resolve_relativeTo`, `Path.same_resolveNormal_relativeTo` : an echoed path is resolved to the checked one.
* `Checker.readText_target` : the path that a tool gets leads to the same file.
* `Checker.Echoed` : a finding that is reported against the text a tool got. `Checker.echoed_of_target` : it is published
  for the file, in every dialect.
-/

namespace LintHub

namespace Path

variable {root path : Path}

/-- A text without outer blanks is resolved as it is. -/
theorem resolve_of_tight {p : Path} (h : Text.Tight p.text.toList) : root.resolve p.text = root.join p := by
  have htrim : Text.trimmed p.text = p.text := by
    rw [Text.trimmed, Text.trim_eq_self h, String.ofList_toList]
  rw [resolve, htrim]

/-- A path that is reported as it is seen from the root is resolved to itself. -/
theorem same_resolve_relativeTo (hroot : root.isAbsolute = true) (hpath : path.isAbsolute = true)
    (htight : Text.Tight (relativeTo root path).text.toList) :
    (root.resolve (relativeTo root path).text).same path = true := by
  rw [same, beq_iff_eq, resolve_of_tight htight, components_join_relativeTo hroot hpath]

theorem same_resolveNormal_relativeTo (hroot : root.isAbsolute = true) (hpath : path.isAbsolute = true)
    (hup : .up ∉ path.components) (htight : Text.Tight (relativeTo root path).text.toList) :
    (root.resolveNormal (relativeTo root path).text).same path = true := by
  have hsame := beq_iff_eq.1 (same_resolve_relativeTo hroot hpath htight)
  have habs := isAbsolute_resolve (relativeTo root path).text hroot
  rw [same, beq_iff_eq, resolveNormal, components_normalize_of_notMem habs (by rwa [hsame]), hsame]

end Path

namespace Checker

variable {c : Checker} {path : Path}

/-! ## The path that tools get -/

theorem same_absolute_target (hroot : c.root.isAbsolute = true) (hpath : path.isAbsolute = true) :
    (c.absolute (c.target path)).same path = true := by
  rw [Path.same, beq_iff_eq]
  exact Path.components_join_relativeTo hroot hpath

/-- The path that tools get leads to the same file. Only for the root itself it is an empty text. -/
theorem readText_target {d : Disk} {text : String} (hroot : c.root.isAbsolute = true) (hpath : path.isAbsolute = true)
    (hne : path.same c.root = false) (h : d.readText path = .ok text) :
    d.readText (c.absolute (c.target path)) = .ok text := by
  rw [Path.same, beq_eq_false_iff_ne] at hne
  by_cases hbelow : c.root.components <+: path.components
  · refine Disk.readText_of_same hpath (Path.components_join_relativeTo hroot hpath) ?_ h
    intro s hs
    exact Path.isIdle_of_mem_getLast?_join hroot hpath hbelow hne hs
  · rw [target, Path.relativeTo_of_not_below hbelow, absolute_of_isAbsolute hpath, h]

/-! ## Echoed findings -/

/-- A tool's output reports the finding against the text that the tool got for the path. -/
def Echoed (c : Checker) (path : Path) (f : Finding) : Prop :=
  ∃ (t : Tool) (dialect : Option Dialect) (e : Execution) (g : Finding),
    Report.ReadAgainst (Report.combined e.stdout e.stderr) c.root t dialect (c.target path).text g ∧
      f = { g with group := some (c.settings.group t) }

theorem same_of_readAgainst {output : String} {t : Tool} {dialect : Option Dialect} {f : Finding}
    (hroot : c.root.isAbsolute = true) (hpath : path.isAbsolute = true) (hup : .up ∉ path.components)
    (htight : Text.Tight (c.target path).text.toList)
    (h : Report.ReadAgainst output c.root t dialect (c.target path).text f) : f.file.same path = true := by
  obtain ⟨-, d, -, hagainst⟩ := h
  rcases hagainst.file_eq with hfile | hfile
  · rw [hfile]
    exact Path.same_resolve_relativeTo hroot hpath htight
  · rw [hfile]
    exact Path.same_resolveNormal_relativeTo hroot hpath hup htight

/-- The text is an argument of every command that checks the path. -/
theorem target_mem_args {d : Disk} {t : Tool} {command : ToolCommand} {dialect : Option Dialect}
    (h : c.prepare d t path = .ok (command, dialect)) : (c.target path).text ∈ command.args := by
  rw [prepare] at h
  cases hdialect : c.dialect t with
  | error e =>
    rw [hdialect] at h
    cases h
  | ok known =>
    cases hprogram : c.program d t with
    | error e =>
      rw [hdialect, hprogram] at h
      cases h
    | ok program =>
      rw [hdialect, hprogram] at h
      obtain ⟨rfl, -⟩ := Prod.mk.inj (Except.ok.inj h)
      cases t <;> simp [ToolCommand.check]

/-- A tool gets the path as it is seen from the root. Where it echoes that text, it names the checked path: the text is
resolved to it, with steps up removed or not, and what is reported against it is published for it, in every dialect. The
text itself is a path of the same file. -/
theorem echoed_of_target (hroot : c.root.isAbsolute = true) (hpath : path.isAbsolute = true)
    (hup : .up ∉ path.components) (htight : Text.Tight (c.target path).text.toList) :
    (∀ d t command dialect, c.prepare d t path = .ok (command, dialect) → (c.target path).text ∈ command.args) ∧
    (c.root.resolve (c.target path).text).same path = true ∧
    (c.root.resolveNormal (c.target path).text).same path = true ∧
    (∀ output t dialect f, Report.ReadAgainst output c.root t dialect (c.target path).text f →
      f.file.same path = true) ∧
    (∀ h now d r, (c.checkFile h now d path).1 = .ok r → ∀ f ∈ r.findings, c.Echoed path f →
      f ∈ Session.ownFindings r) ∧
    (c.absolute (c.target path)).same path = true ∧
    (∀ h now d r, (c.checkFile h now d (c.target path)).1 = .ok r → r.path.same path = true) ∧
    ∀ (d : Disk) (text : String), path.same c.root = false → d.readText path = .ok text →
      d.readText (c.absolute (c.target path)) = .ok text := by
  refine ⟨fun _ _ _ _ => target_mem_args, Path.same_resolve_relativeTo hroot hpath htight,
    Path.same_resolveNormal_relativeTo hroot hpath hup htight,
    fun _ _ _ _ => same_of_readAgainst hroot hpath hup htight, ?published, same_absolute_target hroot hpath, ?checked,
    fun _ _ => readText_target hroot hpath⟩
  case published =>
    rintro h now d r hr f hf ⟨t, dialect, e, g, hg, rfl⟩
    refine List.mem_filter.2 ⟨hf, ?_⟩
    rw [path_of_checkFile hr, absolute_of_isAbsolute hpath]
    show g.file.same path = true
    exact same_of_readAgainst hroot hpath hup htight hg
  case checked =>
    intro h now d r hr
    rw [path_of_checkFile hr]
    exact same_absolute_target hroot hpath

/-- A path with idle segments, a linter that names it and a hook that mended it. -/
theorem echoed_of_target_respelled :
    deskChecker.target ⟨"/w//./a.yml"⟩ = ⟨"a.yml"⟩ ∧ Text.Tight (deskChecker.target ⟨"/w//./a.yml"⟩).text.toList ∧
    (∃ f, Report.ReadAgainst truthyReport ⟨"/w"⟩ .yamllint none "a.yml" f ∧ f.file = ⟨"/w/a.yml"⟩ ∧
      f.file.same ⟨"/w//./a.yml"⟩ = true) ∧
    (∃ f, Report.ReadAgainst "Fixing a.yml" ⟨"/w"⟩ .preCommit (some .transcript) "a.yml" f ∧
      f.file.same ⟨"/w//./a.yml"⟩ = true) ∧
    desk.readText ⟨"/w//./a.yml"⟩ = .ok "answer: yes\n" ∧
    desk.readText (deskChecker.absolute (deskChecker.target ⟨"/w//./a.yml"⟩)) = .ok "answer: yes\n" := by
  have htarget : deskChecker.target ⟨"/w//./a.yml"⟩ = ⟨"a.yml"⟩ := by decide +kernel
  have htight : Text.Tight (deskChecker.target ⟨"/w//./a.yml"⟩).text.toList := by
    have htrim : Text.trim "a.yml".toList = "a.yml".toList := by decide +kernel
    rw [htarget, ← htrim]
    exact Text.tight_trim _
  have hread : desk.readText ⟨"/w//./a.yml"⟩ = .ok "answer: yes\n" :=
    Disk.readText_of_same (p := ⟨"/w/a.yml"⟩) (by decide) (by decide +kernel) (by decide +kernel) readText_desk
  obtain ⟨-, -, -, hagainst, -, -, -, htext⟩ :=
    @echoed_of_target deskChecker ⟨"/w//./a.yml"⟩ (by decide) (by decide) (by decide +kernel) htight
  rw [htarget] at hagainst
  refine ⟨htarget, htight, ?linter, ?hook, hread, htext desk _ (by decide +kernel) hread⟩
  case linter =>
    have hrecord := @Report.Against.columns ⟨"/w"⟩ .yamllint (Report.cleanChars truthyReport.toList) none
      (.entry "a.yml".toList "1".toList "9".toList "warning".toList "truthy value (truthy)".toList) "a.yml".toList _
      (by decide +kernel) rfl rfl
    rw [String.ofList_toList] at hrecord
    have hread : Report.ReadAgainst truthyReport ⟨"/w"⟩ .yamllint none "a.yml" _ :=
      ⟨by decide +kernel, .columns, by decide +kernel, hrecord⟩
    exact ⟨_, hread, by decide +kernel, hagainst _ _ _ _ hread⟩
  case hook =>
    have hrecord := @Report.Against.transcript ⟨"/w"⟩ .preCommit (Report.cleanChars "Fixing a.yml".toList) .start
      (.fixing "a.yml".toList) "a.yml".toList _ (by decide +kernel) rfl rfl
    rw [String.ofList_toList] at hrecord
    have hread : Report.ReadAgainst "Fixing a.yml" ⟨"/w"⟩ .preCommit (some .transcript) "a.yml" _ :=
      ⟨by decide +kernel, .transcript, by decide +kernel, hrecord⟩
    exact ⟨_, hread, hagainst _ _ _ _ hread⟩

end Checker

end LintHub
