import LintHub.Proofs.Report.Attribution
import LintHub.Proofs.Report.Soundness

/-!
# What readers stamp on findings

A finding bears the tool whose output is read, and whether a tool can mend it. The catalogue of rules says so, except
that the note of a hook which mended a file always bears it.

* `Finding.Stamped` : both stamps of a finding. `Columns.stamped_of_mem_findings`, `Issues.stamped_of_mem_findings` and
  `Transcript.stamped_of_sayAt` are for the three dialects.
* `Report.IsMendNote` : the finding is such a note of a hook.
* `Report.tool_of_mem_read`, `Report.fixable_iff_of_mem_read` : the stamps of what is read.
* `Report.fixable_eq_iff` : when two findings of one rule agree on whether they can be mended.
-/

namespace LintHub

/-! ## Stamps -/

/-- The finding bears the tool, and it can be mended if it was or if the catalogue knows its rule. -/
structure Finding.Stamped (tool : Tool) (mended : Bool) (f : Finding) : Prop where
  tool : f.tool = tool
  fixable : f.fixable = (mended || Rule.fixable f.rule)

namespace Finding

variable {tool : Tool} {mended : Bool} {f : Finding}

theorem stamped_new (file : Path) (rule message : String) (tool : Tool) :
    (new file rule message tool).Stamped tool false := by
  constructor
  · simp only [new]
  · simp only [new, Bool.false_or]

theorem Stamped.placed (h : f.Stamped tool mended) (line column : UInt32) :
    (f.placed line column).Stamped tool mended :=
  ⟨h.tool, h.fixable⟩

theorem Stamped.ranked (h : f.Stamped tool mended) (severity : Severity) : (f.ranked severity).Stamped tool mended :=
  ⟨h.tool, h.fixable⟩

theorem Stamped.withPage (h : f.Stamped tool mended) (page : Option String) :
    { f with page }.Stamped tool mended :=
  ⟨h.tool, h.fixable⟩

theorem Stamped.withFixable (h : f.Stamped tool false) {fixable : Bool}
    (hrule : fixable = false → Rule.fixable f.rule = false) : { f with fixable }.Stamped tool fixable := by
  refine ⟨h.tool, ?_⟩
  cases fixable with
  | true => rfl
  | false => exact (hrule rfl).symm

end Finding

open Finding (stamped_new)

variable {root : Path} {tool : Tool} {f : Finding}

namespace Columns

theorem stamped_entryFinding (root : Path) (tool : Tool) (path line column token message : List Char) :
    (entryFinding root tool path line column token message).Stamped tool false := by
  unfold entryFinding
  dsimp only
  split
  · exact ((stamped_new _ _ _ tool).placed _ _).ranked _
  · exact ((stamped_new _ _ _ tool).placed _ _).ranked _

theorem stamped_of_mem_step (pending : Pending) (line : ColumnLine) :
    ∀ f ∈ (step root tool pending line).2, f.Stamped tool false := by
  intro f hf
  cases line with
  | entry path line column token message =>
    obtain rfl := Option.some.inj hf
    exact stamped_entryFinding root tool path line column token message
  | header rule message => cases hf
  | location path line column rest =>
    cases pending with
    | none => cases hf
    | some header =>
      obtain rfl := Option.some.inj hf
      exact ((stamped_new _ _ _ tool).placed _ _).ranked _
  | other => cases hf

theorem stamped_of_mem_findings {s : List Char} (hf : f ∈ findings root tool s) : f.Stamped tool false :=
  forall_mem_of_step (fun _ => rfl) (fun _ _ _ => rfl) stamped_of_mem_step none _ f hf

end Columns

namespace Issues

theorem stamped_of_mem_finding? {issue : Json} (hf : f ∈ finding? root tool issue) : f.Stamped tool false := by
  simp only [finding?] at hf
  split at hf
  · cases hf
  · rw [Option.mem_some] at hf
    generalize hplain : Finding.ranked _ _ = plain at hf
    have hplain : plain.Stamped tool false := by
      rw [← hplain]
      exact ((stamped_new _ _ _ tool).placed _ _).ranked _
    split at hf
    · split at hf
      · exact hf ▸ hplain
      · exact hf ▸ hplain.withPage _
    · exact hf ▸ hplain

theorem stamped_of_mem_findings {s : List Char} (hf : f ∈ findings root tool s) : f.Stamped tool false := by
  rcases mem_findings hf with ⟨issue, -, hissue⟩ | hcolumns
  · exact stamped_of_mem_finding? hissue
  · exact Columns.stamped_of_mem_findings hcolumns

end Issues

/-! ## Transcripts -/

/-- The catalogue does not know the rule of a line without a hook. -/
theorem Rule.fixable_unknown : Rule.fixable Rule.unknown = false := by
  rw [Rule.fixable, bne_self_eq_false, Bool.and_false, Bool.false_and]

/-- The line says that a file was mended. -/
def HookLine.mends : HookLine → Bool
  | fixing _ => true
  | _ => false

namespace Transcript

theorem rule_of_hook {block : Block} (h : block.hook.isSome = false) : block.rule = Rule.unknown := by
  rw [Block.rule, Option.isNone_iff_eq_none.1 (Option.isSome_eq_false_iff.1 h), Option.map_none, Option.getD_none]

theorem stamped_of_step {block : Block} {line : HookLine} (h : (step root tool block line).2 = some f) :
    f.Stamped tool (line.mends && block.hook.isSome) := by
  have hnew (path : List Char) (message : String) :
      (Finding.new (root.resolveNormal (String.ofList path)) block.rule message tool).Stamped tool false :=
    stamped_new _ _ message tool
  cases line with
  | fixing path =>
    have hstamped := (hnew path (fixingMessage block.hook)).ranked .info
    rw [step, Option.some.injEq] at h
    subst h
    refine hstamped.withFixable fun hhook => ?_
    dsimp only [Finding.ranked]
    rw [Finding.rule_new, rule_of_hook hhook, Finding.nonempty_eq_self (by decide), Rule.fixable_unknown]
  | located path line column =>
    have hstamped := ((hnew path block.message).placed (Text.position line) (column.elim 1 Text.position)).ranked .error
    rw [step, Option.some.injEq] at h
    subst h
    exact hstamped
  | placed path line column message =>
    have hstamped := ((hnew path (String.ofList message)).placed (Text.position line) (Text.position column)).ranked
      .warning
    rw [step, Option.some.injEq] at h
    subst h
    exact hstamped
  | filed path message =>
    have hstamped := (hnew path (String.ofList message)).ranked .warning
    rw [step, Option.some.injEq] at h
    subst h
    exact hstamped
  | _ => cases h

/-- Line number `i` says that a file was mended, and a hook is named before it. -/
def mendsAt (lines : List HookLine) (i : Nat) : Bool :=
  lines[i]?.any HookLine.mends && (hookOf (lines.take i)).isSome

theorem stamped_of_sayAt {lines : List HookLine} {i : Nat} (h : sayAt root tool lines i = some f) :
    f.Stamped tool (mendsAt lines i) := by
  obtain ⟨line, hline, hstep⟩ := Option.bind_eq_some_iff.1 h
  rw [mendsAt, hline]
  exact stamped_of_step hstep

theorem exists_sayAt_of_mem_findings {s : List Char} (hf : f ∈ findings root tool s) :
    ∃ i, sayAt root tool (linesOf s) i = some f := by
  have hread := findingsFrom_blockOf root tool [] (linesOf s)
  simp only [List.nil_append, List.length_nil, Nat.zero_add] at hread
  have hf : f ∈ findingsFrom root tool (blockOf []) (linesOf s) := hf
  rw [hread, List.mem_filterMap] at hf
  obtain ⟨i, -, hi⟩ := hf
  exact ⟨i, hi⟩

end Transcript

/-! ## All dialects -/

namespace Report

open Transcript (linesOf sayAt mendsAt)

/-- The finding is the note of a transcript that a hook mended a file. -/
def IsMendNote (output : String) (root : Path) (tool : Tool) (dialect : Option Dialect) (f : Finding) : Prop :=
  dialectOf output dialect = some .transcript ∧
    ∃ i, mendsAt (linesOf (cleanChars output.toList)) i = true ∧
      sayAt root tool (linesOf (cleanChars output.toList)) i = some f

variable {output output' : String} {root' : Path} {tool' : Tool} {dialect dialect' : Option Dialect} {g : Finding}

/-- The finding of a transcript's line, or one of a dialect without such notes. -/
theorem stamped_of_mem_read (hf : f ∈ read output root tool dialect) :
    (dialectOf output dialect ≠ some .transcript ∧ f.Stamped tool false) ∨
      dialectOf output dialect = some .transcript ∧
        ∃ i, sayAt root tool (linesOf (cleanChars output.toList)) i = some f := by
  obtain ⟨d, hd, hf⟩ := mem_read hf
  rw [hd]
  generalize cleanChars output.toList = text at hf ⊢
  cases d with
  | issues => exact .inl ⟨by decide, Issues.stamped_of_mem_findings hf⟩
  | columns => exact .inl ⟨by decide, Columns.stamped_of_mem_findings hf⟩
  | transcript => exact .inr ⟨rfl, Transcript.exists_sayAt_of_mem_findings hf⟩

theorem tool_of_mem_read (hf : f ∈ read output root tool dialect) : f.tool = tool := by
  rcases stamped_of_mem_read hf with ⟨-, h⟩ | ⟨-, i, hi⟩
  · exact h.tool
  · exact (Transcript.stamped_of_sayAt hi).tool

/-- What is read can be mended if the catalogue knows its rule or a hook mended the file. -/
theorem fixable_iff_of_mem_read (hf : f ∈ read output root tool dialect) :
    f.fixable = true ↔ Rule.fixable f.rule = true ∨ IsMendNote output root tool dialect f := by
  rcases stamped_of_mem_read hf with ⟨hother, h⟩ | ⟨hdialect, i, hi⟩
  · have hnote : ¬ IsMendNote output root tool dialect f := fun hnote => hother hnote.1
    rw [h.fixable, Bool.false_or, or_iff_left hnote]
  · have hstamped := Transcript.stamped_of_sayAt hi
    constructor
    · intro hfixable
      rw [hstamped.fixable, Bool.or_eq_true] at hfixable
      rcases hfixable with hmends | hrule
      · exact .inr ⟨hdialect, i, hmends, hi⟩
      · exact .inl hrule
    · rintro (hrule | ⟨-, j, hmends, hj⟩)
      · rw [hstamped.fixable, hrule, Bool.or_true]
      · rw [(Transcript.stamped_of_sayAt hj).fixable, hmends, Bool.true_or]

/-- Two findings of one rule agree on whether they can be mended just if the catalogue knows the rule, or both or none
of them are notes of a hook that mended a file. -/
theorem fixable_eq_iff (hf : f ∈ read output root tool dialect) (hg : g ∈ read output' root' tool' dialect')
    (hrule : f.rule = g.rule) :
    f.fixable = g.fixable ↔
      Rule.fixable f.rule = true ∨
        (IsMendNote output root tool dialect f ↔ IsMendNote output' root' tool' dialect' g) := by
  have hf := fixable_iff_of_mem_read hf
  have hg := fixable_iff_of_mem_read hg
  rw [← hrule] at hg
  rw [Bool.eq_iff_iff, hf, hg]
  by_cases hknown : Rule.fixable f.rule = true
  · simp [hknown]
  · simp [hknown]

/-- A hook mends a file and reports what it cannot mend. -/
def formatterTranscript : String :=
  "ruff....Failed\n- hook id: ruff\n- files were modified by this hook\n\nFixing a.py\na.py:3:1: E501 line too long"

/-- The note can be mended and the report cannot, though both are of the rule `ruff`. -/
theorem fixable_eq_iff_formatterTranscript :
    ∃ f ∈ read formatterTranscript ⟨"/w"⟩ .preCommit none, ∃ g ∈ read formatterTranscript ⟨"/w"⟩ .preCommit none,
      f.rule = "ruff" ∧ g.rule = "ruff" ∧ f.fixable = true ∧ g.fixable = false ∧ Rule.fixable "ruff" = false ∧
      ¬ (IsMendNote formatterTranscript ⟨"/w"⟩ .preCommit none f ↔
        IsMendNote formatterTranscript ⟨"/w"⟩ .preCommit none g) := by
  have hread : (read formatterTranscript ⟨"/w"⟩ .preCommit none).map (fun f => (f.rule, f.fixable)) =
      [("ruff", true), ("ruff", false)] := by decide +kernel
  obtain ⟨f, rest, hfirst, hf, hrest⟩ := List.map_eq_cons_iff.1 hread
  obtain ⟨g, tail, hsecond, hg, -⟩ := List.map_eq_cons_iff.1 hrest
  obtain ⟨hfrule, hffixable⟩ := Prod.mk.inj hf
  obtain ⟨hgrule, hgfixable⟩ := Prod.mk.inj hg
  have hfmem : f ∈ read formatterTranscript ⟨"/w"⟩ .preCommit none := by
    rw [hfirst]
    exact List.mem_cons_self
  have hgmem : g ∈ read formatterTranscript ⟨"/w"⟩ .preCommit none := by
    rw [hfirst, hsecond]
    exact List.mem_cons_of_mem _ List.mem_cons_self
  have hcatalogue : Rule.fixable "ruff" = false := by
    rw [← Bool.not_eq_true]
    intro hknown
    have hgknown := (fixable_iff_of_mem_read hgmem).2 (.inl (by rw [hgrule, hknown]))
    rw [hgfixable] at hgknown
    cases hgknown
  refine ⟨f, hfmem, g, hgmem, hfrule, hgrule, hffixable, hgfixable, hcatalogue, fun hnotes => ?_⟩
  have hsame := (fixable_eq_iff hfmem hgmem (hfrule.trans hgrule.symm)).2 (.inr hnotes)
  rw [hffixable, hgfixable] at hsame
  cases hsame

end Report

end LintHub
