import LintHub.Proofs.Finding.Sound
import LintHub.Proofs.Path.Normal
import LintHub.Report.Reading

/-!
# What is read is sound

Every finding that `Report.read` gives is `Sound`, whatever the tool printed.

* `Columns.sound_of_mem_findings`, `Transcript.sound_of_mem_findings`, `Issues.sound_of_mem_findings` : the three
  dialects. The first two go from one line to a whole report with `forall_mem_of_step`.
* `Report.dialectOf` : the dialect in which an output is read.
* `Report.sound_of_mem_read` : all dialects, with the page of a finding and the shape of a transcript's files.
-/

namespace LintHub

open Finding (Sound Documented sound_new documented_new file_new file_placed file_ranked)

section Steps

variable {σ α : Type} {step : σ → α → σ × Option Finding} {scan : σ → List α → List Finding}
  (hnil : ∀ s, scan s [] = []) (hcons : ∀ s a rest, scan s (a :: rest) = (step s a).2.toList ++ scan (step s a).1 rest)
include hnil hcons

/-- A finding of a reader that goes from line to line is that of one step. -/
theorem exists_step_of_mem {f : Finding} (s : σ) {lines : List α} (hf : f ∈ scan s lines) :
    ∃ s, ∃ a ∈ lines, f ∈ (step s a).2 := by
  induction lines generalizing s with
  | nil =>
    rw [hnil] at hf
    cases hf
  | cons line lines ih =>
    rw [hcons, List.mem_append, Option.mem_toList] at hf
    rcases hf with hf | hf
    · exact ⟨s, line, List.mem_cons_self, hf⟩
    · obtain ⟨s', a, ha, hfound⟩ := ih _ hf
      exact ⟨s', a, List.mem_cons_of_mem _ ha, hfound⟩

omit hnil in
/-- The reader takes a step on each line, and loses no finding of it. -/
theorem exists_step_subset (s : σ) {lines : List α} {a : α} (ha : a ∈ lines) :
    ∃ s', ∀ f ∈ (step s' a).2, f ∈ scan s lines := by
  induction lines generalizing s with
  | nil => cases ha
  | cons line lines ih =>
    simp only [hcons, List.mem_append, Option.mem_toList]
    rcases List.mem_cons.1 ha with rfl | ha
    · exact ⟨s, fun f hf => .inl hf⟩
    · obtain ⟨s', hsubset⟩ := ih _ ha
      exact ⟨s', fun f hf => .inr (hsubset f hf)⟩

/-- What holds of the findings of one step, whatever was read before, holds of all findings of a reader that goes from
line to line. -/
theorem forall_mem_of_step {P : Finding → Prop} (hstep : ∀ s a, ∀ f ∈ (step s a).2, P f) (s : σ) (lines : List α) :
    ∀ f ∈ scan s lines, P f := by
  intro f hf
  obtain ⟨s', a, -, hfound⟩ := exists_step_of_mem hnil hcons s hf
  exact hstep s' a f hfound

end Steps

/-! ## Reports in columns -/

namespace Columns

theorem sound_entryFinding {root : Path} (tool : Tool) (path line column token message : List Char)
    (h : root.isAbsolute = true) :
    (entryFinding root tool path line column token message).Sound tool ∧
      (entryFinding root tool path line column token message).Documented := by
  have hfile := Path.isAbsolute_resolve (String.ofList path) h
  simp only [entryFinding]
  split
  · next text rule _ =>
    have hs := sound_new (String.ofList rule) (String.ofList text) tool hfile
    have hd := documented_new (root.resolve (String.ofList path)) (String.ofList rule) (String.ofList text) tool
    exact ⟨(hs.placed _ _).ranked _, (hd.placed _ _).ranked _⟩
  · have hs := sound_new (String.ofList (Text.trim token)) (String.ofList (Text.trim message)) tool hfile
    have hd := documented_new (root.resolve (String.ofList path)) (String.ofList (Text.trim token))
      (String.ofList (Text.trim message)) tool
    exact ⟨(hs.placed _ _).ranked _, (hd.placed _ _).ranked _⟩

theorem sound_locationFinding {root : Path} (tool : Tool) (rule message path line : List Char)
    (column : Option (List Char)) (rest : List Char) (h : root.isAbsolute = true) :
    (locationFinding root tool rule message path line column rest).Sound tool ∧
      (locationFinding root tool rule message path line column rest).Documented := by
  have hs := sound_new (String.ofList rule) (String.ofList (joinMessage message rest)) tool
    (Path.isAbsolute_resolve (String.ofList path) h)
  have hd := documented_new (root.resolve (String.ofList path)) (String.ofList rule)
    (String.ofList (joinMessage message rest)) tool
  exact ⟨(hs.placed _ _).ranked _, (hd.placed _ _).ranked _⟩

/-- One line brings a sound finding or none. -/
theorem sound_of_mem_step {root : Path} {tool : Tool} (h : root.isAbsolute = true) (pending : Pending)
    (line : ColumnLine) : ∀ f ∈ (step root tool pending line).2, f.Sound tool ∧ f.Documented := by
  intro f hf
  cases line with
  | entry path line column token message =>
    obtain rfl : entryFinding root tool path line column token message = f := by simpa [step] using hf
    exact sound_entryFinding tool path line column token message h
  | header rule message => simp [step] at hf
  | location path line column rest =>
    cases pending with
    | none => simp [step] at hf
    | some header =>
      obtain ⟨rule, message⟩ := header
      obtain rfl : locationFinding root tool rule message path line column rest = f := by simpa [step] using hf
      exact sound_locationFinding tool rule message path line column rest h
  | other => simp [step] at hf

theorem sound_of_mem_findings {root : Path} {tool : Tool} {f : Finding} {s : List Char}
    (h : root.isAbsolute = true) (hf : f ∈ findings root tool s) : f.Sound tool ∧ f.Documented :=
  forall_mem_of_step (fun _ => rfl) (fun _ _ _ => rfl) (sound_of_mem_step h) none _ f hf

end Columns

/-! ## Transcripts -/

namespace Transcript

/-- The file of the finding is that of a path which some line reports, without dots. -/
def Resolved (root : Path) (f : Finding) : Prop := ∃ reported : String, f.file = root.resolveNormal reported

/-- One line brings a sound finding in a resolved file or none. -/
theorem sound_of_mem_step {root : Path} {tool : Tool} (h : root.isAbsolute = true) (block : Block)
    (line : HookLine) :
    ∀ f ∈ (step root tool block line).2, f.Sound tool ∧ f.Documented ∧ Resolved root f := by
  have hnew (path : List Char) (message : String) :
      (Finding.new (root.resolveNormal (String.ofList path)) block.rule message tool).Sound tool :=
    sound_new _ message tool (Path.isAbsolute_resolveNormal _ h)
  have hdoc (path : List Char) (message : String) :
      (Finding.new (root.resolveNormal (String.ofList path)) block.rule message tool).Documented :=
    documented_new _ _ message tool
  intro f hf
  cases line with
  | separator => simp [step] at hf
  | hook id => simp [step] at hf
  | metadata => simp [step] at hf
  | status => simp [step] at hf
  | fixing path =>
    have hs := ((hnew path (fixingMessage block.hook)).ranked .info).withFixable block.hook.isSome
    have hd := ((hdoc path (fixingMessage block.hook)).ranked .info).withFixable block.hook.isSome
    rw [step, Option.mem_some] at hf
    subst hf
    exact ⟨hs, hd, String.ofList path, by rw [file_ranked, file_new]⟩
  | located path line column =>
    have hs := ((hnew path block.message).placed (Text.position line) (column.elim 1 Text.position)).ranked .error
    have hd := ((hdoc path block.message).placed (Text.position line) (column.elim 1 Text.position)).ranked .error
    rw [step, Option.mem_some] at hf
    subst hf
    exact ⟨hs, hd, String.ofList path, by rw [file_ranked, file_placed, file_new]⟩
  | placed path line column message =>
    have hs := ((hnew path (String.ofList message)).placed (Text.position line) (Text.position column)).ranked .warning
    have hd := ((hdoc path (String.ofList message)).placed (Text.position line) (Text.position column)).ranked .warning
    rw [step, Option.mem_some] at hf
    subst hf
    exact ⟨hs, hd, String.ofList path, by rw [file_ranked, file_placed, file_new]⟩
  | filed path message =>
    have hs := (hnew path (String.ofList message)).ranked .warning
    have hd := (hdoc path (String.ofList message)).ranked .warning
    rw [step, Option.mem_some] at hf
    subst hf
    exact ⟨hs, hd, String.ofList path, by rw [file_ranked, file_new]⟩
  | text words => simp [step] at hf

theorem sound_of_mem_findings {root : Path} {tool : Tool} {f : Finding} {s : List Char}
    (h : root.isAbsolute = true) (hf : f ∈ findings root tool s) :
    f.Sound tool ∧ f.Documented ∧ Resolved root f :=
  forall_mem_of_step (fun _ => rfl) (fun _ _ _ => rfl) (sound_of_mem_step h) .start _ f hf

theorem Resolved.dotFree {root : Path} {f : Finding} (hf : Resolved root f) (h : root.isAbsolute = true) :
    f.file.DotFree ∧ .here ∉ f.file.components ∧ .up ∉ f.file.components := by
  obtain ⟨reported, hfile⟩ := hf
  rw [hfile]
  have habs := Path.isAbsolute_resolve reported h
  obtain ⟨names, hnames, hn⟩ := Path.components_normalize habs
  have hkind {c : Path.Component} (hc : c ∈ (root.resolveNormal reported).components) : c = .root ∨ c.IsName := by
    rw [Path.resolveNormal, hnames] at hc
    exact (List.mem_cons.1 hc).imp_right (hn c)
  refine ⟨Path.dotFree_normalize habs, fun hmem => ?_, fun hmem => ?_⟩
  · exact (hkind hmem).elim nofun id
  · exact (hkind hmem).elim nofun id

end Transcript

/-! ## Reports of issues -/

namespace Issues

/-- The issues of a report that starts with an array, none for another text. -/
def elements (s : List Char) : List Json :=
  match Json.valueAs? Json.maxDepth .whole s with
  | some (.arr issues, _) => issues
  | _ => []

/-- The address that an issue itself names. -/
def url? (issue : Json) : Option String := (issue.stringField? "url").filter (· ≠ "")

/-- An issue is a sound finding or none, and its page is that of the rule unless it names one. -/
theorem sound_of_mem_finding? {root : Path} {tool : Tool} {issue : Json} {f : Finding}
    (h : root.isAbsolute = true) (hf : f ∈ finding? root tool issue) :
    f.Sound tool ∧ f.page = (url? issue).or (Rule.page? f.rule tool) := by
  simp only [finding?] at hf
  split at hf
  · simp at hf
  · rw [Option.mem_some] at hf
    generalize hplain : Finding.ranked _ _ = plain at hf
    have hs : plain.Sound tool := by
      rw [← hplain]
      exact ((sound_new _ _ tool (Path.isAbsolute_resolve _ h)).placed _ _).ranked _
    have hd : plain.page = Rule.page? plain.rule tool := by
      rw [← hs.tool_eq, ← hplain]
      exact ((documented_new _ _ _ tool).placed _ _).ranked _
    split at hf
    · next url hurl =>
      split at hf
      · next hempty =>
        subst hf
        rw [hd, url?, hurl, hempty, Option.filter_some_neg (by simp), Option.none_or]
        exact ⟨hs, rfl⟩
      · next hne =>
        subst hf
        rw [url?, hurl, Option.filter_some_pos (by simpa), Option.some_or]
        exact ⟨hs.withPage _, rfl⟩
    · next hurl =>
      subst hf
      rw [hd, url?, hurl, Option.filter_none, Option.none_or]
      exact ⟨hs, rfl⟩

/-- A report of issues gives the findings of its elements, or is read in columns. -/
theorem mem_findings {root : Path} {tool : Tool} {f : Finding} {s : List Char} (hf : f ∈ findings root tool s) :
    (∃ issue ∈ elements s, f ∈ finding? root tool issue) ∨ f ∈ Columns.findings root tool s := by
  unfold findings at hf
  split at hf
  · next issues rest hread =>
    obtain ⟨issue, hissue, hfound⟩ := List.mem_filterMap.1 hf
    exact .inl ⟨issue, by rw [elements, hread]; exact hissue, hfound⟩
  · exact .inr hf

end Issues

/-! ## All dialects -/

namespace Report

/-- The dialect in which an output is read, if any: the one that is asked for, or the one it looks like. -/
def dialectOf (output : String) (dialect : Option Dialect) : Option Dialect :=
  dialect.or (Dialect.guessChars? (cleanChars output.toList))

/-- A finding that is read is one of the clean output's in its dialect. -/
theorem mem_read {output : String} {root : Path} {tool : Tool} {dialect : Option Dialect} {f : Finding}
    (hf : f ∈ read output root tool dialect) :
    ∃ d, dialectOf output dialect = some d ∧ f ∈ findingsAs d root tool (cleanChars output.toList) := by
  simp only [read, readChars] at hf
  split at hf
  · simp at hf
  · split at hf
    · next d hd => exact ⟨d, hd, hf⟩
    · simp at hf

/-- Every finding that is read is sound. Its page is that of the rule, unless an issue of the report names another;
in a transcript its file has neither dots nor steps up. -/
theorem sound_of_mem_read {output : String} {root : Path} {tool : Tool} {dialect : Option Dialect} {f : Finding}
    (h : root.isAbsolute = true) (hf : f ∈ read output root tool dialect) :
    f.Sound tool ∧
    (f.page = Rule.page? f.rule tool ∨ dialectOf output dialect = some .issues ∧
      ∃ issue ∈ Issues.elements (cleanChars output.toList), Issues.finding? root tool issue = some f ∧
        ∃ url, issue.stringField? "url" = some url ∧ url ≠ "" ∧ f.page = some url) ∧
    (dialectOf output dialect = some .transcript →
      f.file.DotFree ∧ .here ∉ f.file.components ∧ .up ∉ f.file.components) := by
  obtain ⟨d, hd, hf⟩ := mem_read hf
  cases d with
  | columns =>
    obtain ⟨hsound, hdoc⟩ := Columns.sound_of_mem_findings h hf
    refine ⟨hsound, .inl ?_, fun ht => ?_⟩
    · rw [← hsound.tool_eq]
      exact hdoc
    · rw [hd] at ht
      cases ht
  | transcript =>
    obtain ⟨hsound, hdoc, hresolved⟩ := Transcript.sound_of_mem_findings h hf
    refine ⟨hsound, .inl ?_, fun _ => hresolved.dotFree h⟩
    rw [← hsound.tool_eq]
    exact hdoc
  | issues =>
    have htranscript : dialectOf output dialect ≠ some .transcript := by simp [hd]
    rw [findingsAs] at hf
    rcases Issues.mem_findings hf with ⟨issue, hissue, hfound⟩ | hcolumns
    · obtain ⟨hsound, hpage⟩ := Issues.sound_of_mem_finding? h hfound
      refine ⟨hsound, ?_, fun ht => absurd ht htranscript⟩
      cases hurl : Issues.url? issue with
      | none => exact .inl (by rw [hpage, hurl, Option.none_or])
      | some url =>
        obtain ⟨hfield, hne⟩ := Option.filter_eq_some_iff.1 hurl
        exact .inr ⟨hd, issue, hissue, hfound, url, hfield, by simpa using hne,
          by rw [hpage, hurl, Option.some_or]⟩
    · obtain ⟨hsound, hdoc⟩ := Columns.sound_of_mem_findings h hcolumns
      refine ⟨hsound, .inl ?_, fun ht => absurd ht htranscript⟩
      rw [← hsound.tool_eq]
      exact hdoc

/-- A hook names a file with dots, and line zero. -/
theorem sound_of_mem_read_dots :
    (Path.mk "/work").isAbsolute = true ∧
    dialectOf "in \"./a/../b.yml\", line 0" (some .transcript) = some .transcript ∧
    ∃ f ∈ read "in \"./a/../b.yml\", line 0" ⟨"/work"⟩ .preCommit (some .transcript),
      f.file = ⟨"/work/b.yml"⟩ ∧ f.line = 1 ∧ f.Sound .preCommit ∧ f.page = Rule.page? f.rule .preCommit ∧
        f.file.DotFree := by
  have hroot : (Path.mk "/work").isAbsolute = true := by decide +kernel
  have hdialect : dialectOf "in \"./a/../b.yml\", line 0" (some .transcript) = some .transcript := rfl
  obtain ⟨f, hf, hfile, hline⟩ : ∃ f ∈ read "in \"./a/../b.yml\", line 0" ⟨"/work"⟩ .preCommit (some .transcript),
      f.file = ⟨"/work/b.yml"⟩ ∧ f.line = 1 := by decide +kernel
  obtain ⟨hsound, hpage, hdots⟩ := sound_of_mem_read hroot hf
  refine ⟨hroot, hdialect, f, hf, hfile, hline, hsound, ?_, (hdots hdialect).1⟩
  rcases hpage with hpage | ⟨hissues, _⟩
  · exact hpage
  · rw [hdialect] at hissues
    cases hissues

end Report

end LintHub
