import LintHub.Proofs.Disk.Names
import LintHub.Proofs.Editor.Conversation
import Mathlib.Data.List.Induction

/-!
# Closed documents

* `Conversation.isOpen` : whether a history left a document open. `Conversation.Orderly` : only open documents were
  changed and saved.
* `Conversation.recalled` : what commands published for a document since it was closed.
* `Conversation.cleared_iff` : nothing is left of closed documents just if no command published anything for them.
-/

namespace LintHub

namespace Session

variable {w : Surroundings} {s : Session} {d : Disk} {url other : Url} {before : List Mark}

theorem showing_validate_of_ne (version : Option Int) (hne : url ≠ other) :
    Notice.showing other before (s.validate w d url version).1 = before := by
  obtain ⟨-, ⟨hsilent, -⟩ | ⟨path, found, failures, -, -, htold, -⟩⟩ := s.validate_cases w d url version
  · rw [hsilent]
    rfl
  · rw [htold, Notice.showing_notices, if_neg hne]

theorem showing_validateAll_of_notMem {urls : List Url} (hother : other ∉ urls) :
    Notice.showing other before (s.validateAll w d urls).1 = before := by
  induction urls generalizing s d with
  | nil => rfl
  | cons url rest ih =>
    rw [List.mem_cons, not_or] at hother
    simp only [validateAll, Notice.showing_append]
    rw [showing_validate_of_ne none (Ne.symm hother.1), ih hother.2]

theorem documents_execute (w : Surroundings) (s : Session) (d : Disk) (c : EditorCommand) :
    (s.execute w d c).2.1.documents = s.documents := by
  obtain ⟨text, -, hafter⟩ | heq := s.execute_cases w d c
  · rw [hafter]
    exact (s.perform_frame w d c).1
  · rw [heq, documents_validate]
    exact (s.perform_frame w d c).1

theorem showing_execute_of_ne {c : EditorCommand} (hne : c.url ≠ other) :
    Notice.showing other before (s.execute w d c).1 = before := by
  obtain ⟨text, htold, -⟩ | heq := s.execute_cases w d c
  · rw [htold]
    rfl
  · rw [heq, showing_validate_of_ne none hne]

end Session

namespace Conversation

/-! ## Histories of documents -/

def isOpen (url : Url) : List Turn → Bool
  | [] => false
  | ⟨.didOpen other _ _, _⟩ :: past => if other = url then true else isOpen url past
  | ⟨.didClose other, _⟩ :: past => if other = url then false else isOpen url past
  | _ :: past => isOpen url past

/-- Documents were changed and saved only while they were open. -/
def Orderly : List Turn → Prop
  | [] => True
  | ⟨.didChange url _ _, _⟩ :: past => isOpen url past = true ∧ Orderly past
  | ⟨.didSave url, _⟩ :: past => isOpen url past = true ∧ Orderly past
  | _ :: past => Orderly past

/-- What commands last published for a document since it was closed. -/
def recalled (url : Url) : List Turn → List Mark
  | [] => []
  | ⟨.didClose other, _⟩ :: past => if other = url then [] else recalled url past
  | ⟨.execute _ (some c), told⟩ :: past =>
    if c.url = url then Notice.showing url (recalled url past) told else recalled url past
  | _ :: past => recalled url past

theorem ne_of_isOpen {url other : Url} {past : List Turn} (hopen : isOpen url past = true)
    (hclosed : isOpen other past = false) : url ≠ other := by
  rintro rfl
  rw [hopen] at hclosed
  cases hclosed

/-! ## What an orderly conversation keeps -/

/-- The session has the open documents, and commands alone publish for others. -/
structure Tracks (past : List Turn) (s : Session) : Prop where
  documents : ∀ url, url ∈ s.documents.map Prod.fst ↔ isOpen url past = true
  closed : ∀ url, isOpen url past = false → shown url past = recalled url past

namespace Tracks

variable {past : List Turn} {s : Session}

theorem didOpen (h : Tracks past s) (w : Surroundings) (d : Disk) (url : Url) (version : Int) (text : String) :
    Tracks (⟨.didOpen url version text, (s.handle w d (.didOpen url version text)).2.1⟩ :: past)
      (s.handle w d (.didOpen url version text)).2.2.1 := by
  have hopen (other : Url) : isOpen other (⟨.didOpen url version text,
      (s.handle w d (.didOpen url version text)).2.1⟩ :: past) = if url = other then true else isOpen other past := rfl
  refine ⟨fun other => ?_, fun other hclosed => ?_⟩
  · rw [hopen, Session.handle, Session.documents_validate, Session.withDocument, Session.mem_keys_replace,
      h.documents]
    by_cases hother : url = other
    · simp [hother]
    · simp [hother, Ne.symm hother]
  · rw [hopen] at hclosed
    split at hclosed
    · cases hclosed
    · next hne =>
      rw [shown, Session.handle, Session.showing_validate_of_ne _ hne]
      exact h.closed other hclosed

theorem didClose (h : Tracks past s) (w : Surroundings) (d : Disk) (url : Url) :
    Tracks (⟨.didClose url, (s.handle w d (.didClose url)).2.1⟩ :: past) (s.handle w d (.didClose url)).2.2.1 := by
  have hopen (other : Url) : isOpen other (⟨.didClose url, (s.handle w d (.didClose url)).2.1⟩ :: past) =
      if url = other then false else isOpen other past := rfl
  refine ⟨fun other => ?_, fun other hclosed => ?_⟩
  · rw [hopen, Session.handle, Session.mem_keys_without, h.documents]
    by_cases hother : url = other
    · simp [hother]
    · simp [hother, Ne.symm hother]
  · rw [hopen] at hclosed
    show (if url = other then [] else shown other past) = if url = other then [] else recalled other past
    split
    · rfl
    · next hne =>
      rw [if_neg hne] at hclosed
      exact h.closed other hclosed

theorem execute (h : Tracks past s) (w : Surroundings) (d : Disk) (name : String) (c : EditorCommand) :
    Tracks (⟨.execute name (some c), (s.execute w d c).1⟩ :: past) (s.execute w d c).2.1 := by
  refine ⟨fun other => ?_, fun other hclosed => ?_⟩
  · rw [Session.documents_execute]
    exact h.documents other
  · have hbefore : shown other past = recalled other past := h.closed other hclosed
    rw [shown, recalled]
    split
    · rw [hbefore]
    · next hne => rw [Session.showing_execute_of_ne hne, hbefore]

theorem handle (h : Tracks past s) (w : Surroundings) (d : Disk) (m : ClientMessage)
    (horderly : Orderly (⟨m, (s.handle w d m).2.1⟩ :: past)) :
    Tracks (⟨m, (s.handle w d m).2.1⟩ :: past) (s.handle w d m).2.2.1 := by
  cases m with
  | start root watches =>
    unfold Session.handle
    dsimp only
    split
    · exact ⟨h.documents, h.closed⟩
    · refine ⟨fun other => ?_, h.closed⟩
      rw [(Session.reload_frame w _ d).1]
      exact h.documents other
  | started =>
    unfold Session.handle
    dsimp only
    split
    · exact ⟨h.documents, h.closed⟩
    · exact ⟨h.documents, h.closed⟩
  | shutdown => exact ⟨h.documents, h.closed⟩
  | didOpen url version text => exact h.didOpen w d url version text
  | didChange url version text =>
    cases text with
    | none => exact ⟨h.documents, h.closed⟩
    | some text =>
      refine ⟨fun other => ?_, h.closed⟩
      show other ∈ (Session.replace url ⟨text, version⟩ s.documents).map Prod.fst ↔ isOpen other past = true
      -- The document that changed was open, so no key is added.
      rw [Session.mem_keys_replace, h.documents, or_iff_right_of_imp]
      rintro rfl
      exact horderly.1
  | didSave url =>
    refine ⟨fun other => ?_, fun other hclosed => ?_⟩
    · rw [Session.handle, Session.documents_validate]
      exact h.documents other
    · have hne : url ≠ other := ne_of_isOpen horderly.1 hclosed
      rw [shown, Session.handle, Session.showing_validate_of_ne _ hne]
      exact h.closed other hclosed
  | didClose url => exact h.didClose w d url
  | filesChanged urls =>
    rw [Session.handle]
    split
    · obtain ⟨hdocuments, -⟩ := Session.reload_frame w s d
      refine ⟨fun other => ?_, fun other hclosed => ?_⟩
      · dsimp only
        rw [Session.documents_validateAll, hdocuments]
        exact h.documents other
      · have hother : other ∉ (s.reload w d).documents.map Prod.fst := by
          rw [hdocuments, h.documents]
          exact fun hopen => ne_of_isOpen hopen hclosed rfl
        rw [shown]
        dsimp only
        rw [Session.showing_validateAll_of_notMem hother]
        exact h.closed other hclosed
    · exact ⟨h.documents, h.closed⟩
  | hover url line => exact ⟨h.documents, h.closed⟩
  | actions url range only =>
    rw [Session.handle]
    split
    · exact ⟨h.documents, h.closed⟩
    · exact ⟨h.documents, h.closed⟩
  | execute name command =>
    cases command with
    | none => exact ⟨h.documents, h.closed⟩
    | some c => exact h.execute w d name c

end Tracks

theorem tracks_step {c : Conversation} (h : Tracks c.past c.session) {event : Event}
    (horderly : Orderly (c.step event).past) : Tracks (c.step event).past (c.step event).session := by
  cases event with
  | message w m => exact h.handle w c.disk m horderly
  | edit change => exact h
  | reorder documents =>
    unfold step
    dsimp only
    split
    · next hperm =>
      refine ⟨fun other => ?_, h.closed⟩
      rw [((List.isPerm_iff.1 hperm).map Prod.fst).mem_iff]
      exact h.documents other
    · exact h

theorem orderly_of_cons {turn : Turn} {past : List Turn} (h : Orderly (turn :: past)) : Orderly past := by
  obtain ⟨m, told⟩ := turn
  cases m with
  | didChange url version text => exact h.2
  | didSave url => exact h.2
  | _ => exact h

theorem orderly_of_step {c : Conversation} {event : Event} (h : Orderly (c.step event).past) : Orderly c.past := by
  cases event with
  | message w m => exact orderly_of_cons h
  | edit change => exact h
  | reorder documents =>
    unfold step at h
    dsimp only at h
    split at h
    · exact h
    · exact h

theorem tracks_run (d : Disk) (events : List Event) (horderly : Orderly ((start d).run events).past) :
    Tracks ((start d).run events).past ((start d).run events).session := by
  -- From the end: the history of a beginning is the older part of the whole one, and so it is orderly too.
  induction events using List.reverseRecOn with
  | nil => exact ⟨fun url => by simp [start, run, Session.new, isOpen], fun _ _ => rfl⟩
  | append_singleton events event ih =>
    rw [run, List.foldl_append] at horderly ⊢
    exact tracks_step (ih (orderly_of_step horderly)) horderly

/-! ## What is left of closed documents -/

/-- Nothing is left of closed documents: nothing is stored or shown for them, and nothing is answered. -/
structure Cleared (c : Conversation) : Prop where
  stored : ∀ url, isOpen url c.past = false → c.session.findingsOf url = []
  unshown : ∀ url, isOpen url c.past = false → shown url c.past = []
  hover : ∀ w url line, isOpen url c.past = false → c.reply w (.hover url line) = .hover none
  actions : ∀ w url range only, isOpen url c.past = false →
    c.reply w (.actions url range only) = .actions none ∨ c.reply w (.actions url range only) = .actions (some [])

/-- Nothing is left of closed documents just if commands left nothing for them: every other message publishes for open
documents only, and closing one publishes the empty list. -/
theorem cleared_iff (d : Disk) (events : List Event) (horderly : Orderly ((start d).run events).past) :
    ((start d).run events).Cleared ↔ ∀ url, isOpen url ((start d).run events).past = false →
      recalled url ((start d).run events).past = [] := by
  have htracks := tracks_run d events horderly
  have hshows := shows_run (shows_start d) events
  constructor
  · intro h url hclosed
    rw [← htracks.closed url hclosed]
    exact h.unshown url hclosed
  · intro h
    have hshown (url : Url) (hclosed : isOpen url ((start d).run events).past = false) :
        shown url ((start d).run events).past = [] := (htracks.closed url hclosed).trans (h url hclosed)
    have hstored (url : Url) (hclosed : isOpen url ((start d).run events).past = false) :
        ((start d).run events).session.findingsOf url = [] := by
      have hentries := hshows.entries url
      rw [hshown url hclosed] at hentries
      exact List.map_eq_nil_iff.1 hentries.symm
    refine ⟨hstored, hshown, fun w url line hclosed => ?_, fun w url range only hclosed => ?_⟩
    · show Reply.hover (Finding.hover? (((start d).run events).session.findingsOf url) line) = .hover none
      rw [hstored url hclosed]
      rfl
    · unfold reply Session.handle
      dsimp only
      rw [hstored url hclosed]
      split
      · exact .inr rfl
      · exact .inl rfl

/-! ### A stale command -/

def report : String := "a.yml:2:9: [warning] truthy value (truthy)\n"

/-- Programs that print the report and leave the disk alone. -/
def desk : Surroundings := ⟨⟨fun d _ => (.ended (some 1) report.toUTF8 "".toUTF8, d)⟩, .ofDirs [⟨"/bin"⟩], 0⟩

def deskSettings : String :=
  "\x7b\"cache\":false,\"tools\":\x7b\"ansible-lint\":\x7b\"enabled\":false\x7d," ++
    "\"pre-commit\":\x7b\"enabled\":false\x7d\x7d\x7d"

/-- A project of one document, for which the rule is ignored already. -/
def project : Disk where
  nodes := [(["w"], .dir), (["w", ".yamlsentry.json"], .file deskSettings.toUTF8 false),
    (["w", ".ansible-lint-ignore"], .file "a.yml truthy\n".toUTF8 false),
    (["w", "a.yml"], .file "---\nanswer: yes\n".toUTF8 false), (["bin"], .dir),
    (["bin", "yamllint"], .file .empty true)]
  here := []

def projectChecker : Checker :=
  .new { Settings.default with
    tools := .ofFn fun t => { ToolSettings.default with enabled := t = .yamllint }
    cache := false
    baseDir := some ⟨"/w"⟩ } ⟨"/w"⟩ desk.locator project

def fileUrl (segments : List String) : Url := ⟨"file", none, some "", none, .segments segments, none, none⟩

/-- The document is opened and closed, and then the editor asks for an action that it had been offered. -/
def staleCommand : List Event :=
  [.message desk (.start (some (fileUrl ["w"])) false),
    .message desk (.didOpen (fileUrl ["w", "a.yml"]) 1 "---\nanswer: yes\n"),
    .message desk (.didClose (fileUrl ["w", "a.yml"])),
    .message desk (.execute EditorCommand.ignoreName (some (.ignoreRule (fileUrl ["w", "a.yml"]) "truthy")))]

theorem loadFor_project : Settings.loadFor project ⟨"/w"⟩ = .ok projectChecker.settings := by
  have hnames : ((⟨"/w"⟩ : Path).ancestors.flatMap fun dir => Settings.fileNames.map dir.child) =
      [⟨"/w/.yamlsentry.jsonc"⟩, ⟨"/w/.yamlsentry.json"⟩, ⟨"/.yamlsentry.jsonc"⟩, ⟨"/.yamlsentry.json"⟩] := by decide
  have hfirst : project.isFile ⟨"/w/.yamlsentry.jsonc"⟩ = false :=
    Disk.isFile_of_follow? ["w", ".yamlsentry.jsonc"] (by decide) rfl
  have hsecond : project.isFile ⟨"/w/.yamlsentry.json"⟩ = true :=
    Disk.isFile_of_follow? ["w", ".yamlsentry.json"] (by decide) rfl
  have hfind : Settings.find? project ⟨"/w"⟩ = some ⟨"/w/.yamlsentry.json"⟩ := by
    rw [Settings.find?, hnames, List.find?_cons, hfirst, List.find?_cons, hsecond]
  have hread : project.readText ⟨"/w/.yamlsentry.json"⟩ = .ok deskSettings :=
    Disk.readText_of_follow? ["w", ".yamlsentry.json"] (by decide) rfl
  have hparse : (Settings.parse deskSettings).toOption = some { projectChecker.settings with baseDir := none } := by
    decide +kernel
  have hparent : (⟨"/w/.yamlsentry.json"⟩ : Path).parent? = some ⟨"/w"⟩ := by decide
  rw [Settings.loadFor, hfind]
  cases hsettings : Settings.parse deskSettings with
  | error fault =>
    rw [hsettings] at hparse
    cases hparse
  | ok settings =>
    rw [hsettings] at hparse
    obtain rfl : settings = { projectChecker.settings with baseDir := none } := Option.some.inj hparse
    simp only [Settings.load, hread, hsettings, hparent]
    rfl

def projectResult : FileResult :=
  ⟨⟨"/w/a.yml"⟩, mergeFindings [projectChecker.findingsOf .yamllint none ⟨.yamllint, report, "", 1⟩], false,
    [.yamllint], []⟩

theorem checkFresh_project : projectChecker.checkFresh desk.host project ⟨"/w/a.yml"⟩ = (projectResult, project) := by
  have hfile : project.isFile ⟨"/bin/yamllint"⟩ = true :=
    Disk.isFile_of_follow? ["bin", "yamllint"] (by decide) rfl
  have hprogram : projectChecker.program project .yamllint = .ok ⟨"/bin/yamllint"⟩ := by
    have hpaths : (projectChecker.locator.searchDirs .yamllint).map (fun dir => dir.child Tool.yamllint.id) =
        [⟨"/bin/yamllint"⟩] := by decide
    have hconfigured : Locator.configuredName? (projectChecker.settings.tool .yamllint).path = none := rfl
    rw [Checker.program, Locator.locate, hconfigured]
    dsimp only
    rw [hpaths, List.find?_cons, hfile]
  have hprepare : projectChecker.prepare project .yamllint ⟨"/w/a.yml"⟩ =
      .ok (.check .yamllint ⟨"/bin/yamllint"⟩ (projectChecker.target ⟨"/w/a.yml"⟩) [], none) := by
    rw [Checker.prepare, hprogram]
    rfl
  exact Checker.checkFresh_of_single (by decide +kernel) hprepare (Host.execute_of_run (by decide) rfl)

theorem validate_project {s : Session} {version : Option Int} (hs : s.checker = some projectChecker) :
    s.validate desk project (fileUrl ["w", "a.yml"]) version =
      (Session.notices (fileUrl ["w", "a.yml"]) version []
        ((Session.ownFindings projectResult).map fun f => Mark.of f (s.textOf? (fileUrl ["w", "a.yml"]))),
      { s with
        checker := some projectChecker
        stored := Session.replace (fileUrl ["w", "a.yml"]) (Session.ownFindings projectResult) s.stored }, project) := by
  have hread : project.readText ⟨"/w/a.yml"⟩ = .ok "---\nanswer: yes\n" :=
    Disk.readText_of_follow? ["w", "a.yml"] (by decide) rfl
  rw [Session.validate_of_disabled (by decide +kernel) hs rfl hread, checkFresh_project]
  rfl

/-- The rule is ignored already, so that the command only checks the document again. -/
theorem perform_project {s : Session} (hs : s.checker = some projectChecker) :
    s.perform desk project (.ignoreRule (fileUrl ["w", "a.yml"]) "truthy") = (.ok (), s, project) := by
  have hread : project.readText projectChecker.ignorePath = .ok "a.yml truthy\n" :=
    Disk.readText_of_follow? ["w", ".ansible-lint-ignore"] (by decide) rfl
  have hload : projectChecker.ignoreFile project =
      .ok ⟨projectChecker.ignorePath, projectChecker.root, IgnoreFile.parse "a.yml truthy\n"⟩ := by
    rw [Checker.ignoreFile, IgnoreFile.load, hread]
  have hadd : IgnoreFile.add ⟨projectChecker.ignorePath, projectChecker.root, IgnoreFile.parse "a.yml truthy\n"⟩
      ⟨"/w/a.yml"⟩ "truthy" =
      (false, ⟨projectChecker.ignorePath, projectChecker.root, IgnoreFile.parse "a.yml truthy\n"⟩) := by
    rw [IgnoreFile.add, if_pos (by decide +kernel)]
  have hpath : (fileUrl ["w", "a.yml"]).filePath? = some ⟨"/w/a.yml"⟩ := by decide +kernel
  unfold Session.perform
  simp only [EditorCommand.url, hs, hpath, hload, hadd]

theorem findingsOf_staleCommand : ((start project).run staleCommand).session.findingsOf (fileUrl ["w", "a.yml"]) =
    Session.ownFindings projectResult := by
  have hroot : (fileUrl ["w"]).filePath? = some ⟨"/w"⟩ := by decide +kernel
  have hstart : (start project).step (.message desk (.start (some (fileUrl ["w"])) false)) =
      ⟨{ Session.new with root := some ⟨"/w"⟩, checker := some projectChecker }, project,
        [⟨.start (some (fileUrl ["w"])) false, []⟩]⟩ := by
    unfold step Session.handle
    simp only [Option.bind_some, hroot, Session.reload, start, loadFor_project]
    rfl
  rw [run, staleCommand, List.foldl_cons, hstart]
  simp only [List.foldl_cons, List.foldl_nil, step, Session.handle, Session.execute]
  rw [validate_project rfl]
  dsimp only
  rw [perform_project rfl]
  dsimp only
  rw [EditorCommand.url, validate_project rfl]
  dsimp only
  rw [Session.findingsOf, Session.lookup_replace, if_pos rfl]
  rfl

/-- A command for a document that was closed before brings its findings back. -/
theorem not_cleared_staleCommand :
    Orderly ((start project).run staleCommand).past ∧
    isOpen (fileUrl ["w", "a.yml"]) ((start project).run staleCommand).past = false ∧
    ¬ ((start project).run staleCommand).Cleared ∧
    ¬ ∀ url, isOpen url ((start project).run staleCommand).past = false →
      recalled url ((start project).run staleCommand).past = [] := by
  have horderly : Orderly ((start project).run staleCommand).past := trivial
  have hclosed : isOpen (fileUrl ["w", "a.yml"]) ((start project).run staleCommand).past = false := rfl
  have hnot : ¬ ((start project).run staleCommand).Cleared := by
    intro hcleared
    have hnone := hcleared.stored _ hclosed
    rw [findingsOf_staleCommand] at hnone
    exact absurd hnone (by decide +kernel)
  exact ⟨horderly, hclosed, hnot, mt (cleared_iff project staleCommand horderly).2 hnot⟩

end Conversation

end LintHub
