import LintHub.Proofs.Report.Soundness

/-!
# The name of a finding's file

Each finding is reported against the name of a file, as the tool spelled it.

* `ColumnLine.path?`, `HookLine.path?`, `Issues.pathOf` : the name in a record.
* `Report.Against` : a record of a clean text has a name, and brings a finding. `Report.Against.file_eq` says which file
  the finding is in.
* `Report.exists_readAgainst` : every finding that is read is reported against a name, in every dialect.
-/

namespace LintHub

open Finding (file_new file_placed file_ranked)

variable {root : Path} {tool : Tool} {f : Finding}

/-! ## Lines of columns -/

/-- The path in the line. -/
def ColumnLine.path? : ColumnLine → Option (List Char)
  | entry path .. => some path
  | location path .. => some path
  | _ => none

theorem Columns.file_of_mem_step {pending : Pending} {line : ColumnLine} (hf : f ∈ (step root tool pending line).2) :
    ∃ path, line.path? = some path ∧ f.file = root.resolve (String.ofList path) := by
  cases line with
  | entry path line column token message =>
    refine ⟨path, rfl, ?_⟩
    rw [step, Option.mem_some] at hf
    rw [← hf]
    simp only [entryFinding]
    split <;> rw [file_ranked, file_placed, file_new]
  | header rule message => cases hf
  | location path line column rest =>
    refine ⟨path, rfl, ?_⟩
    cases pending with
    | none => cases hf
    | some header =>
      rw [step, Option.mem_some] at hf
      rw [← hf, locationFinding, file_ranked, file_placed, file_new]
  | other => cases hf

/-! ## Lines of transcripts -/

/-- The path in the line. -/
def HookLine.path? : HookLine → Option (List Char)
  | fixing path => some path
  | located path .. => some path
  | placed path .. => some path
  | filed path _ => some path
  | _ => none

theorem Transcript.file_of_mem_step {block : Block} {line : HookLine} (hf : f ∈ (step root tool block line).2) :
    ∃ path, line.path? = some path ∧ f.file = root.resolveNormal (String.ofList path) := by
  cases line with
  | separator => cases hf
  | hook id => cases hf
  | metadata => cases hf
  | status => cases hf
  | fixing path =>
    rw [step, Option.mem_some] at hf
    exact ⟨path, rfl, by rw [← hf, file_ranked, file_new]⟩
  | located path line column =>
    rw [step, Option.mem_some] at hf
    exact ⟨path, rfl, by rw [← hf, file_ranked, file_placed, file_new]⟩
  | placed path line column message =>
    rw [step, Option.mem_some] at hf
    exact ⟨path, rfl, by rw [← hf, file_ranked, file_placed, file_new]⟩
  | filed path message =>
    rw [step, Option.mem_some] at hf
    exact ⟨path, rfl, by rw [← hf, file_ranked, file_new]⟩
  | text words => cases hf

/-! ## Issues -/

namespace Issues

/-- The path of an issue's location, or nothing. -/
def pathOf (issue : Json) : String := ((issue.get? "location").bind (Json.stringField? "path")).getD ""

theorem file_of_mem_finding? {issue : Json} (hf : f ∈ finding? root tool issue) :
    f.file = root.resolve (pathOf issue) := by
  simp only [finding?] at hf
  split at hf
  · cases hf
  · rw [Option.mem_some] at hf
    generalize hplain : Finding.ranked _ _ = plain at hf
    have hfile : plain.file = root.resolve (pathOf issue) := by
      rw [← hplain, file_ranked, file_placed, file_new]
      rfl
    split at hf
    · split at hf
      · rw [← hf, hfile]
      · rw [← hf, ← hfile]
    · rw [← hf, hfile]

end Issues

/-! ## Records -/

namespace Report

/-- A record of a clean text in a dialect has the name, and brings the finding. A report of issues is read in columns
if it is no array. -/
inductive Against (root : Path) (tool : Tool) (text : List Char) : Dialect → String → Finding → Prop
  | columns {pending : Columns.Pending} {line : ColumnLine} {path : List Char} {f : Finding}
      (hline : line ∈ (Columns.inkLines text).map ColumnLine.of) (hpath : line.path? = some path)
      (hf : f ∈ (Columns.step root tool pending line).2) : Against root tool text .columns (String.ofList path) f
  | transcript {block : Transcript.Block} {line : HookLine} {path : List Char} {f : Finding}
      (hline : line ∈ (Columns.inkLines text).map HookLine.of) (hpath : line.path? = some path)
      (hf : f ∈ (Transcript.step root tool block line).2) :
      Against root tool text .transcript (String.ofList path) f
  | issue {issue : Json} {f : Finding} (hissue : issue ∈ Issues.elements text)
      (hf : f ∈ Issues.finding? root tool issue) : Against root tool text .issues (Issues.pathOf issue) f
  | lines {name : String} {f : Finding} (hempty : Issues.elements text = [])
      (h : Against root tool text .columns name f) : Against root tool text .issues name f

variable {text : List Char} {name : String}

/-- The file is what the name means to a tool that runs in the root. In transcripts it is normalized. -/
theorem Against.file_eq {d : Dialect} (h : Against root tool text d name f) :
    f.file = root.resolve name ∨ f.file = root.resolveNormal name := by
  induction h with
  | columns hline hpath hf =>
    obtain ⟨path', hpath', hfile⟩ := Columns.file_of_mem_step hf
    obtain rfl := Option.some.inj (hpath.symm.trans hpath')
    exact .inl hfile
  | transcript hline hpath hf =>
    obtain ⟨path', hpath', hfile⟩ := Transcript.file_of_mem_step hf
    obtain rfl := Option.some.inj (hpath.symm.trans hpath')
    exact .inr hfile
  | issue hissue hf => exact .inl (Issues.file_of_mem_finding? hf)
  | lines hempty h ih => exact ih

/-- The output is read as the finding, and reports it against the name. -/
def ReadAgainst (output : String) (root : Path) (tool : Tool) (dialect : Option Dialect) (name : String)
    (f : Finding) : Prop :=
  f ∈ read output root tool dialect ∧
    ∃ d, dialectOf output dialect = some d ∧ Against root tool (cleanChars output.toList) d name f

theorem against_columns (hf : f ∈ Columns.findings root tool text) : ∃ name, Against root tool text .columns name f := by
  obtain ⟨pending, line, hline, hstep⟩ := exists_step_of_mem (fun _ => rfl) (fun _ _ _ => rfl) none hf
  obtain ⟨path, hpath, -⟩ := Columns.file_of_mem_step hstep
  exact ⟨_, .columns hline hpath hstep⟩

theorem against_transcript (hf : f ∈ Transcript.findings root tool text) :
    ∃ name, Against root tool text .transcript name f := by
  obtain ⟨block, line, hline, hstep⟩ := exists_step_of_mem (fun _ => rfl) (fun _ _ _ => rfl) Transcript.Block.start hf
  obtain ⟨path, hpath, -⟩ := Transcript.file_of_mem_step hstep
  exact ⟨_, .transcript hline hpath hstep⟩

theorem against_issues (hf : f ∈ Issues.findings root tool text) : ∃ name, Against root tool text .issues name f := by
  unfold Issues.findings at hf
  split at hf
  · next issues rest hread =>
    obtain ⟨issue, hissue, hfound⟩ := List.mem_filterMap.1 hf
    exact ⟨_, .issue (by rw [Issues.elements, hread]; exact hissue) hfound⟩
  · next hread =>
    have hempty : Issues.elements text = [] := by
      unfold Issues.elements
      split
      · next issues rest heq => exact absurd heq (hread issues rest)
      · rfl
    obtain ⟨name, h⟩ := against_columns hf
    exact ⟨name, .lines hempty h⟩

/-- Every finding that is read is reported against a name. -/
theorem exists_readAgainst {output : String} {dialect : Option Dialect} (hf : f ∈ read output root tool dialect) :
    ∃ name, ReadAgainst output root tool dialect name f := by
  obtain ⟨d, hd, hmem⟩ := mem_read hf
  obtain ⟨name, hname⟩ : ∃ name, Against root tool (cleanChars output.toList) d name f := by
    cases d with
    | columns => exact against_columns hmem
    | transcript => exact against_transcript hmem
    | issues => exact against_issues hmem
  exact ⟨name, hf, d, hd, hname⟩

end Report

end LintHub
