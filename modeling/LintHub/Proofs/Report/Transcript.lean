import LintHub.Proofs.Report.HookRuns
import Mathlib.Tactic.FinCases

/-!
# Printed transcripts are read back

* `Transcript.scan` : the reader, on lines as they are printed. One lemma for each part of a run says what the reader
  makes of it. Inside of a run it waits behind the run's name and without free text; every record leaves it so, and a
  new name brings it there from anywhere.
* `Transcript.step_line` : the line of a record brings its finding, unless it ends like a status line.
* `Transcript.findings_printed_runs` : the findings of a transcript are those of its records, under the names of their
  hooks and in their order.
-/

namespace LintHub.Transcript

open Text (IsPhrase IsWord isBlank)

/-! ## The reader on printed lines -/

/-- The findings of lines as they are printed, with outer blanks and blank lines among them. -/
def scan (root : Path) (tool : Tool) (b : Block) (lines : List String) : List Finding :=
  findingsFrom root tool b ((((lines.map String.toList).map Text.trim).filter fun l => !l.isEmpty).map HookLine.of)

section Scan

variable {root : Path} {tool : Tool}

theorem scan_cons_of_blank {l : String} (h : Text.trim l.toList = []) (b : Block) (lines : List String) :
    scan root tool b (l :: lines) = scan root tool b lines := by
  simp [scan, h]

theorem scan_cons {l : String} {s : List Char} (h : Text.trim l.toList = s) (hne : s ≠ []) (b : Block)
    (lines : List String) :
    scan root tool b (l :: lines) =
      (step root tool b (.of s)).2.toList ++ scan root tool (step root tool b (.of s)).1 lines := by
  have hfull : (!s.isEmpty) = true := by simpa using hne
  simp only [scan, List.map_cons, h, List.filter_cons, if_pos hfull, findingsFrom]

theorem scan_note {n : Note} (h : n.Valid) (b : Block) (lines : List String) :
    scan root tool b (n.text :: lines) = scan root tool b lines := by
  cases n with
  | metadata mark rest =>
    have hmark : ∀ mark ∈ metadataMarks, IsPhrase ("- " ++ mark) := by decide
    have htight := hmark mark h.1
    have htrim : Text.trim (Note.metadata mark rest).text.toList =
        "- ".toList ++ (mark.toList ++ Text.trimEnd rest.toList) := by
      rw [Note.text, String.toList_append, Text.trim_append _ htight.toList_ne htight.tight, String.toList_append,
        List.append_assoc]
    rw [scan_cons htrim (by simp), HookLine.of_metadata h.1]
    rfl
  | blank spaces =>
    have htrim : Text.trim spaces.toList = [] := by
      rw [Text.trim, Text.trimStart_eq_nil.2 fun c hc => (h c hc).1]
      rfl
    exact scan_cons_of_blank htrim b lines
  | separator marks =>
    have hne : marks.toList ≠ [] := by simpa using h.1
    have hink : ∀ c ∈ marks.toList, isBlank c = false := by
      intro c hc
      have hrule := List.all_eq_true.1 h.2 c hc
      simp only [isRule, Bool.or_eq_true, beq_iff_eq] at hrule
      rcases hrule with ((rfl | rfl) | rfl) | rfl
      all_goals decide
    have htrim : Text.trim marks.toList = marks.toList := Text.trim_eq_self (Text.tight_of_ink hink)
    have hof := HookLine.of_separator hne h.2
    rw [Note.text, scan_cons htrim hne, hof]
    rfl

theorem scan_phrase {l : String} (h : IsPhrase l) (b : Block) (lines : List String) :
    scan root tool b (l :: lines) =
      (step root tool b (.of l.toList)).2.toList ++ scan root tool (step root tool b (.of l.toList)).1 lines :=
  scan_cons (Text.trim_eq_self h.tight) h.toList_ne b lines

/-- Free text waits in the block. -/
theorem scan_context {context : List String} (h : ∀ t ∈ context, IsFreeText t) (b : Block) (lines : List String) :
    scan root tool b (context ++ lines) =
      scan root tool { b with context := b.context ++ context.map String.toList } lines := by
  induction context generalizing b with
  | nil => simp
  | cons t context ih =>
    have ht : IsFreeText t := h t (by simp)
    rw [List.cons_append, scan_phrase ht.phrase, HookLine.of_freeText ht, step, Option.toList_none, List.nil_append,
      ih fun t' ht' => h t' (by simp [ht'])]
    simp

end Scan

/-! ## Records -/

theorem rule_block (id : String) (context : List (List Char)) : (Block.mk (some id.toList) context).rule = id := by
  rw [Block.rule, Option.map_some, Option.getD_some, String.ofList_toList]

theorem message_block (id : String) (context : List String) (path : String) (line : Nat) (column : Option Nat) :
    (Block.mk (some id.toList) (context.map String.toList)).message =
      (Record.located context path line column).message id := by
  have hjoin : String.ofList ((context.map String.toList).intersperse [' ']).flatten = " ".intercalate context := by
    rw [← String.toList_inj, String.toList_ofList, String.toList_intercalate]
    rfl
  rw [Block.message, Record.message, hjoin]
  simp

/-- The line that names the file brings the record's finding, unless it ends like a status line. No free text waits
behind it. -/
theorem step_line {r : Record} (h : r.Valid) (root : Path) (tool : Tool) (id : String) :
    step root tool ⟨some id.toList, r.context.map String.toList⟩ (.of r.line.toList) =
      (⟨some id.toList, []⟩, if isStatus r.line.toList then none else some (r.finding root tool id)) := by
  cases r with
  | fixing path =>
    have hline : (Record.fixing path).line.toList = "Fixing ".toList ++ path.toList := String.toList_append
    rw [hline, HookLine.of_fixing h.toList_ne h.tight.1]
    split
    · rfl
    · simp only [step, Record.context, List.map_nil, rule_block, String.ofList_toList, Option.isSome_some,
        Finding.ranked, Record.finding, Record.message]
  | located context path line column =>
    obtain ⟨-, hne, hquote, -⟩ := h
    have hpath : path.toList ≠ [] := by simpa using hne
    have hcolumn : Finding.fromOne ((column.map (Nat.toDigits 10)).elim 1 Text.position) =
        column.elim 1 Finding.placeOf := by
      cases column with
      | none => rfl
      | some column => exact Finding.fromOne_position_toDigits column
    rw [Record.toList_line_located, HookLine.of_located hpath hquote, isStatus_located]
    simp only [step, Record.context, rule_block, message_block id context path line column, String.ofList_toList,
      Finding.placed, Finding.ranked, Finding.fromOne_position_toDigits, hcolumn, Record.finding, Bool.false_eq_true,
      if_false]
  | placed path line column message =>
    obtain ⟨hpath, hmessage⟩ := h
    have hne : path.toList ≠ [] := by simpa using hpath.ne
    rw [Record.toList_line_placed, HookLine.of_placed line column hne hpath.isPathChar hpath.head_ne hmessage.tight.1]
    split
    · rfl
    · simp only [step, Record.context, List.map_nil, rule_block, String.ofList_toList, Finding.placed,
        Finding.ranked, Finding.fromOne_position_toDigits, Record.finding, Record.message]
  | filed stem extension message =>
    obtain ⟨hstem, hextension, hmessage⟩ := h
    have hne : stem.toList ≠ [] := by simpa using hstem.ne
    rw [Record.toList_line_filed, HookLine.of_filed hextension hne hstem.isPathChar hstem.head_ne hmessage.tight.1]
    split
    · rfl
    · simp only [step, Record.context, List.map_nil, rule_block, String.ofList_append, String.ofList_toList,
        Finding.ranked, Record.finding, Record.message]

section Scan

variable {root : Path} {tool : Tool}

theorem scan_record {r : Record} (h : r.Valid) (id : String) (lines : List String) :
    scan root tool ⟨some id.toList, []⟩ (r.lines ++ lines) =
      (if isStatus r.line.toList then [] else [r.finding root tool id]) ++
        scan root tool ⟨some id.toList, []⟩ lines := by
  rw [Record.lines, List.append_assoc, List.singleton_append, scan_context (Record.isFreeText_context h),
    List.nil_append, scan_phrase (Record.isPhrase_line h), step_line h]
  split <;> rfl

/-- The findings of records under the names of their hooks, without those whose line ends like a status line. -/
def shown (root : Path) (tool : Tool) (records : List (String × Record)) : List Finding :=
  (records.filter fun p => !isStatus p.2.line.toList).map fun p => p.2.finding root tool p.1

theorem scan_parts {parts : List Part} (h : ∀ p ∈ parts, p.Valid) (id : String) (lines : List String) :
    scan root tool ⟨some id.toList, []⟩ (parts.flatMap Part.lines ++ lines) =
      shown root tool ((parts.filterMap Part.record?).map fun r => (id, r)) ++
        scan root tool ⟨some id.toList, []⟩ lines := by
  induction parts with
  | nil => rfl
  | cons p parts ih =>
    have hp : p.Valid := h p (by simp)
    have hparts := ih fun p' hp' => h p' (by simp [hp'])
    rw [List.flatMap_cons, List.append_assoc]
    cases p with
    | note n =>
      rw [Part.lines, List.singleton_append, scan_note hp, hparts]
      rfl
    | record r =>
      rw [Part.lines, scan_record hp, hparts, ← List.append_assoc]
      congr 1
      cases hstatus : isStatus r.line.toList <;> simp [shown, Part.record?, hstatus]

theorem scan_status {l : StatusLine} (h : l.Valid) (b : Block) (lines : List String) :
    ∃ b', scan root tool b (l.text :: lines) = scan root tool b' lines := by
  obtain ⟨hstatus, hne⟩ := StatusLine.isStatus_trim_text h
  refine ⟨(step root tool b (.of (Text.trim l.text.toList))).1, ?_⟩
  rw [scan_cons rfl hne, HookLine.step_of_isStatus hstatus]
  rfl

theorem scan_hook {id : String} (h : IsWord id.toList) (b : Block) (lines : List String) :
    scan root tool b (("- hook id: " ++ id) :: lines) = scan root tool ⟨some id.toList, []⟩ lines := by
  have hid : IsPhrase id := Text.isPhrase_of_ink (by simpa using h.1) h.2
  have hline : IsPhrase ("- hook id: " ++ id) := Text.isPhrase_append (by decide) (by decide) (by decide) hid
  rw [scan_phrase hline, String.toList_append, HookLine.of_hook h]
  rfl

theorem scan_run {run : HookRun} (h : run.Valid) (b : Block) (lines : List String) :
    scan root tool b (run.lines ++ lines) =
      shown root tool run.records ++ scan root tool ⟨some run.id.toList, []⟩ lines := by
  have hbody (b : Block) : scan root tool b (("- hook id: " ++ run.id) :: (run.parts.flatMap Part.lines ++ lines)) =
      shown root tool run.records ++ scan root tool ⟨some run.id.toList, []⟩ lines := by
    rw [scan_hook h.id, scan_parts h.parts]
    rfl
  rw [HookRun.lines]
  cases hcase : run.status with
  | none => exact hbody b
  | some l =>
    obtain ⟨b', hb'⟩ := scan_status (h.status l hcase) b
      (("- hook id: " ++ run.id) :: (run.parts.flatMap Part.lines ++ lines))
    exact hb'.trans (hbody b')

theorem scan_runs {runs : List HookRun} (h : ∀ run ∈ runs, run.Valid) (b : Block) :
    scan root tool b (runs.flatMap HookRun.lines) = shown root tool (runs.flatMap HookRun.records) := by
  induction runs generalizing b with
  | nil => rfl
  | cons run runs ih =>
    rw [List.flatMap_cons, scan_run (h run (by simp)), ih fun run' hrun' => h run' (by simp [hrun'])]
    simp [shown]

end Scan

/-! ## Transcripts -/

/-- All records are shown exactly if no line of them ends like a status line. -/
theorem shown_eq_map_iff (root : Path) (tool : Tool) (records : List (String × Record)) :
    shown root tool records = records.map (fun p => p.2.finding root tool p.1) ↔
      ∀ p ∈ records, isStatus p.2.line.toList = false := by
  constructor
  · intro heq
    have hlength := congrArg List.length heq
    rw [shown, List.length_map, List.length_map, List.length_filter_eq_length_iff] at hlength
    exact fun p hp => by simpa using hlength p hp
  · intro hall
    rw [shown, List.filter_eq_self.2 fun p hp => by simpa using hall p hp]

theorem findings_text (root : Path) (tool : Tool) {runs : List HookRun} (h : ∀ run ∈ runs, run.Valid) :
    findings root tool ("\n".intercalate (runs.flatMap HookRun.lines)).toList =
      shown root tool (runs.flatMap HookRun.records) := by
  have hfeed : ∀ l ∈ (runs.flatMap HookRun.lines).map String.toList, '\n' ∉ l := by
    refine List.forall_mem_map.2 fun l hl => ?_
    obtain ⟨run, hrun, hl⟩ := List.mem_flatMap.1 hl
    exact feed_notMem_of_mem_lines (h run hrun) hl
  have hlines := Columns.inkLines_intercalate hfeed
  rw [← scan_runs h .start, findings, String.toList_intercalate, show "\n".toList = ['\n'] from rfl, hlines]
  rfl

/-- A transcript is read as the findings of its records under the names of their hooks, one for each and in their order,
exactly if no record's line ends like the status of a hook: such a record is taken for a status line, and all others are
still read. -/
theorem findings_printed_runs (root : Path) (tool : Tool) {runs : List HookRun} (h : ∀ run ∈ runs, run.Valid) :
    (findings root tool ("\n".intercalate (runs.flatMap HookRun.lines)).toList =
        (runs.flatMap HookRun.records).map (fun p => p.2.finding root tool p.1) ↔
      ∀ p ∈ runs.flatMap HookRun.records, isStatus p.2.line.toList = false) ∧
    findings root tool ("\n".intercalate (runs.flatMap HookRun.lines)).toList =
      shown root tool (runs.flatMap HookRun.records) ∧
    ∀ p ∈ runs.flatMap HookRun.records,
      (p.2.finding root tool p.1).rule = p.1 ∧ (p.2.finding root tool p.1).message = p.2.message p.1 := by
  have htext := findings_text root tool h
  refine ⟨?_, htext, fun p hp => ?_⟩
  · rw [htext]
    exact shown_eq_map_iff root tool _
  · obtain ⟨hid, hrecord⟩ := valid_of_mem_records h hp
    exact Record.rule_finding hrecord hid root tool

/-- Two runs: errors of a loader with and without free text in front of them, messages that look like other lines, and
a hook that mends files. -/
def sampleRuns : List HookRun :=
  [⟨some ⟨"check yaml", 9, some "no cache", "Failed"⟩, "check-yaml",
      [.note (.metadata "exit code:" " 1"), .note (.blank ""),
        .record (.located ["while parsing a block mapping", "did not find expected key"] "my tasks.yml" 3
          (some 99999999999)),
        .record (.placed "a.yml" 0 2 "b.yml:1:2: c"), .record (.filed "roles/x" ".yml" "in \"y\", line 2"),
        .record (.located [] "d.yml" 7 none)]⟩,
    ⟨none, "trailing-whitespace",
      [.note (.metadata "files were modified by this hook" ""), .note (.separator "-----"),
        .record (.fixing "e f.yml:1:2: g")]⟩]

theorem findings_printed_runs_sample :
    (∀ run ∈ sampleRuns, run.Valid) ∧
    ((findings ⟨"/w"⟩ .preCommit ("check yaml.........(no cache)Failed\n- hook id: check-yaml\n- exit code: 1\n\n" ++
        "while parsing a block mapping\ndid not find expected key\nin \"my tasks.yml\", line 3, column 99999999999\n" ++
        "a.yml:0:2: b.yml:1:2: c\nroles/x.yml: in \"y\", line 2\nin \"d.yml\", line 7\n" ++
        "- hook id: trailing-whitespace\n- files were modified by this hook\n-----\nFixing e f.yml:1:2: g").toList).map
          fun f => (f.file, f.line, f.column, f.rule, f.message, f.severity)) =
      [(⟨"/w/my tasks.yml"⟩, 3, 0xFFFFFFFF, "check-yaml", "while parsing a block mapping did not find expected key",
          .error),
        (⟨"/w/a.yml"⟩, 1, 2, "check-yaml", "b.yml:1:2: c", .warning),
        (⟨"/w/roles/x.yml"⟩, 1, 1, "check-yaml", "in \"y\", line 2", .warning),
        (⟨"/w/d.yml"⟩, 7, 1, "check-yaml", "YAML syntax error", .error),
        (⟨"/w/e f.yml:1:2: g"⟩, 1, 1, "trailing-whitespace", "Trailing whitespace removed", .info)] := by
  have hfree : ∀ t ∈ ["while parsing a block mapping", "did not find expected key"], IsFreeText t := by
    intro t ht
    fin_cases ht <;> exact ⟨by decide, rfl, rfl, rfl, rfl, rfl, rfl, rfl, rfl⟩
  have hvalid : ∀ run ∈ sampleRuns, run.Valid := by
    intro run hrun
    fin_cases hrun
    · refine ⟨?_, by decide, ?_⟩
      · rintro l ⟨⟩
        exact ⟨by decide, by decide, by decide, by decide⟩
      · intro p hp
        fin_cases hp
        · exact ⟨by decide, by decide⟩
        · simp [Part.Valid, Note.Valid]
        · exact ⟨hfree, by decide, by decide, by decide⟩
        · exact ⟨⟨by decide, by decide, by decide⟩, by decide⟩
        · exact ⟨⟨by decide, by decide, by decide⟩, by decide, by decide⟩
        · exact ⟨by simp, by decide, by decide, by decide⟩
    · refine ⟨by simp, by decide, ?_⟩
      intro p hp
      fin_cases hp
      · exact ⟨by decide, by decide⟩
      · exact ⟨by decide, by decide⟩
      · exact (by decide : IsPhrase "e f.yml:1:2: g")
  have htext : "\n".intercalate (sampleRuns.flatMap HookRun.lines) =
      "check yaml.........(no cache)Failed\n- hook id: check-yaml\n- exit code: 1\n\n" ++
        "while parsing a block mapping\ndid not find expected key\nin \"my tasks.yml\", line 3, column 99999999999\n" ++
        "a.yml:0:2: b.yml:1:2: c\nroles/x.yml: in \"y\", line 2\nin \"d.yml\", line 7\n" ++
        "- hook id: trailing-whitespace\n- files were modified by this hook\n-----\nFixing e f.yml:1:2: g" := by
    decide +kernel
  have hfindings := (findings_printed_runs ⟨"/w"⟩ .preCommit hvalid).2.1
  rw [htext] at hfindings
  rw [hfindings]
  exact ⟨hvalid, by decide +kernel⟩

end LintHub.Transcript
