import LintHub.Proofs.Json.Reading
import LintHub.Proofs.Report.Clean
import LintHub.Proofs.Report.Soundness
import LintHub.Proofs.Text.Lines

/-!
# Log lines before a report

The hook runner may print lines of its log before a report of issues.

* `Report.withLog` : a report with log lines in front.
* `Report.guessChars?_withLog` : the dialect is told from the report, whatever log lines stand in front.
* `Report.valueAs?_withLog` : the reader does not pass over them, so the text is read in columns.
* `Report.read_withLog_eq_read_iff` : when the findings are nevertheless those of the report.
-/

namespace LintHub

/-! ## The report's first value -/

namespace Json

/-- A text that is read as an array starts with a bracket. -/
theorem skipSpace_of_valueAs?_arr {depth : Nat} {shape : Shape} {s rest : List Char} {items : List Json}
    (h : valueAs? depth shape s = some (.arr items, rest)) : ∃ t, skipSpace s = '[' :: t := by
  have hscalar (s : List Char) : scalar? s ≠ some (.arr items, rest) := by
    intro hs
    unfold scalar? at hs
    split at hs <;> simp_all
  cases depth with
  | zero =>
    rw [valueAs?] at h
    split at h
    · cases h
    · cases h
    · exact absurd h (hscalar _)
  | succ depth =>
    rw [valueAs?] at h
    split at h
    · next t ht => exact ⟨t, ht⟩
    · split at h
      · simp at h
      · simp at h
    · exact absurd h (hscalar _)

theorem trimStart_of_skipSpace {s t : List Char} {c : Char} (h : skipSpace s = c :: t)
    (hc : Text.isBlank c = false) : Text.trimStart s = c :: t := by
  have hsplit : s = s.takeWhile isSpace ++ skipSpace s := (List.takeWhile_append_dropWhile).symm
  rw [hsplit, h, Text.trimStart_append_of_blanks, Text.trimStart_cons_of_ink t hc]
  intro d hd
  have hspace := List.mem_takeWhile_imp hd
  simp only [isSpace, Bool.or_eq_true, beq_iff_eq] at hspace
  rcases hspace with ((rfl | rfl) | rfl) | rfl <;> decide

/-- A bracket and a letter that starts no value are not read. -/
theorem valueAs?_bracket_letter {depth : Nat} {c : Char} (s : List Char) (hc : c ∈ ['I', 'W', 'E']) :
    valueAs? (depth + 1) .whole ('[' :: c :: s) = none := by
  simp only [List.mem_cons, List.not_mem_nil, or_false] at hc
  rcases hc with rfl | rfl | rfl <;> cases depth <;> rfl

end Json

/-! ## The dialect -/

namespace Dialect

theorem isLogLine_of_prefix {a b : List Char} (hab : a <+: b) (hb : isLogLine b = false) : isLogLine a = false := by
  by_contra ha
  rw [Bool.not_eq_false, isLogLine, List.any_eq_true] at ha
  obtain ⟨mark, hmark, ha⟩ := ha
  rw [List.isPrefixOf_iff_prefix] at ha
  have hlog : isLogLine b = true :=
    List.any_eq_true.2 ⟨mark, hmark, List.isPrefixOf_iff_prefix.2 (ha.trans hab)⟩
  rw [hb] at hlog
  cases hlog

/-- A log line is a bracket and a capital letter. -/
theorem exists_of_isLogLine {line : List Char} (h : isLogLine line = true) :
    ∃ c t, line = '[' :: c :: t ∧ c ∈ ['I', 'W', 'E'] := by
  rw [isLogLine, List.any_eq_true] at h
  obtain ⟨mark, hmark, h⟩ := h
  rw [List.isPrefixOf_iff_prefix] at h
  obtain ⟨t, rfl⟩ := h
  simp only [logMarks, List.mem_cons, List.not_mem_nil, or_false] at hmark
  rcases hmark with rfl | rfl | rfl
  · exact ⟨'I', _, rfl, by simp⟩
  · exact ⟨'W', _, rfl, by simp⟩
  · exact ⟨'E', _, rfl, by simp⟩

theorem trimStart_of_isLogLine {line : List Char} (h : isLogLine line = true) : Text.trimStart line = line := by
  obtain ⟨c, t, rfl, -⟩ := exists_of_isLogLine h
  exact Text.trimStart_cons_of_ink _ (by decide)

/-- The carriage return of a terminator is no part of a mark. -/
theorem isLogLine_dropReturn {line : List Char} (h : isLogLine line = true) :
    isLogLine (Text.dropReturn line) = true := by
  rw [isLogLine, List.any_eq_true] at h ⊢
  obtain ⟨mark, hmark, h⟩ := h
  rw [List.isPrefixOf_iff_prefix] at h
  obtain ⟨t, rfl⟩ := h
  refine ⟨mark, hmark, List.isPrefixOf_iff_prefix.2 ?_⟩
  rw [Text.dropReturn]
  split
  · next hreturn =>
    cases t with
    | nil =>
      rw [List.append_nil] at hreturn
      simp only [logMarks, List.mem_cons, List.not_mem_nil, or_false] at hmark
      rcases hmark with rfl | rfl | rfl <;> exact absurd hreturn (by decide)
    | cons c t =>
      rw [List.dropLast_append_of_ne_nil (by simp)]
      exact List.prefix_append _ _
  · exact List.prefix_append _ _

/-- A line of the log is passed over. -/
theorem firstLine_append_feed {line : List Char} (s : List Char) (hline : isLogLine line = true)
    (hfeed : '\n' ∉ line) : firstLine (line ++ '\n' :: s) = firstLine s := by
  have hdrop := isLogLine_dropReturn hline
  rw [firstLine, firstLine, Text.lines_append_feed s hfeed, List.map_cons, trimStart_of_isLogLine hdrop,
    List.find?_cons_of_neg (by simp [hdrop])]

/-- The first line of a text that starts otherwise than the log is where the text itself starts. -/
theorem exists_firstLine_eq {s t : List Char} {c : Char} (hs : Text.trimStart s = c :: t)
    (hlog : isLogLine (c :: t) = false) : ∃ t', firstLine s = c :: t' := by
  induction s using Text.lines_induction with
  | last l hl =>
    have hne : l ≠ [] := by
      rintro rfl
      cases hs
    refine ⟨t, ?_⟩
    simp [firstLine, Text.lines_of_notMem hne hl, hs, hlog]
  | feed l s hl ih =>
    cases hblank : Text.trimStart l with
    | nil =>
      rw [Text.trimStart_append_of_blanks _ (Text.trimStart_eq_nil.1 hblank),
        Text.trimStart_cons_of_blank _ (by decide)] at hs
      obtain ⟨t', ht⟩ := ih hs
      refine ⟨t', ?_⟩
      rw [← ht, firstLine, firstLine, Text.lines_append_feed s hl, List.map_cons,
        Text.trimStart_dropReturn_of_blank hblank, List.find?_cons_of_neg (by simp)]
    | cons d u =>
      rw [Text.trimStart_append_of_ink _ (by simp [hblank]), hblank, List.cons_append, List.cons.injEq] at hs
      obtain ⟨rfl, hut⟩ := hs
      obtain ⟨t', ht', hstem⟩ := Text.trimStart_dropReturn hblank
      have hline : isLogLine (d :: t') = false := by
        refine isLogLine_of_prefix ?_ hlog
        rw [← hut, List.cons_prefix_cons]
        exact ⟨rfl, hstem.trans (List.prefix_append u _)⟩
      refine ⟨t', ?_⟩
      rw [firstLine, Text.lines_append_feed s hl, List.map_cons, ht', List.find?_cons_of_pos (by simp [hline]),
        Option.getD_some]

theorem guessChars?_of_firstLine {s t : List Char} (h : firstLine (Text.trim s) = '[' :: t) :
    guessChars? s = some .issues := by
  have hne : (Text.trim s).isEmpty = false := by
    cases hs : Text.trim s with
    | nil =>
      rw [hs] at h
      cases h
    | cons c u => rfl
  simp only [guessChars?, hne, Bool.false_eq_true, if_false, h]

end Dialect

/-! ## Reports -/

namespace Report

/-- A report with lines of the log in front. -/
def withLog (log : List String) (report : String) : String :=
  log.foldr (fun line text => line ++ "\n" ++ text) report

theorem toList_withLog_cons (line : String) (log : List String) (report : String) :
    (withLog (line :: log) report).toList = line.toList ++ '\n' :: (withLog log report).toList := by
  simp [withLog]

theorem exists_toList_withLog_eq_append (log : List String) (report : String) :
    ∃ a, (withLog log report).toList = a ++ report.toList := by
  induction log with
  | nil => exact ⟨[], rfl⟩
  | cons line log ih =>
    obtain ⟨a, ha⟩ := ih
    exact ⟨line.toList ++ '\n' :: a, by rw [toList_withLog_cons, ha]; simp⟩

variable {log : List String} {report : String}

/-- The first line after the log is the first of the report. -/
theorem firstLine_trimEnd_withLog
    (hlog : ∀ line ∈ log, Dialect.isLogLine line.toList = true ∧ '\n' ∉ line.toList)
    (hreport : Text.trimEnd report.toList ≠ []) :
    Text.trimEnd (withLog log report).toList ≠ [] ∧
      Dialect.firstLine (Text.trimEnd (withLog log report).toList) =
        Dialect.firstLine (Text.trimEnd report.toList) := by
  induction log with
  | nil => exact ⟨hreport, rfl⟩
  | cons line log ih =>
    obtain ⟨hne, hfirst⟩ := ih fun l hl => hlog l (by simp [hl])
    obtain ⟨hline, hfeed⟩ := hlog line (by simp)
    have htail : Text.trimEnd (line.toList ++ '\n' :: (withLog log report).toList) =
        line.toList ++ '\n' :: Text.trimEnd (withLog log report).toList := by
      rw [show line.toList ++ '\n' :: (withLog log report).toList =
        line.toList ++ ['\n'] ++ (withLog log report).toList by simp, Text.trimEnd_append _ hne]
      simp
    rw [toList_withLog_cons, htail]
    refine ⟨by simp, ?_⟩
    rw [Dialect.firstLine_append_feed _ hline hfeed, hfirst]

/-- The dialect of a report of issues is told whatever log stands in front. -/
theorem guessChars?_withLog {t : List Char}
    (hlog : ∀ line ∈ log, Dialect.isLogLine line.toList = true ∧ '\n' ∉ line.toList)
    (hstart : Text.trimStart report.toList = '[' :: t) (hmark : Dialect.isLogLine ('[' :: t) = false) :
    Dialect.guessChars? (withLog log report).toList = some .issues := by
  obtain ⟨u, hu, hstem⟩ := Text.exists_trim_eq hstart
  have hmark' : Dialect.isLogLine ('[' :: u) = false :=
    Dialect.isLogLine_of_prefix (List.cons_prefix_cons.2 ⟨rfl, hstem⟩) hmark
  -- The report is trimmed at both ends without a log, but at its end only behind one.
  cases log with
  | nil =>
    obtain ⟨first, hfirst⟩ := Dialect.exists_firstLine_eq
      (show Text.trimStart (Text.trim report.toList) = '[' :: u by
        rw [Text.trimStart_eq_self (Text.tight_trim _).1, hu]) hmark'
    exact Dialect.guessChars?_of_firstLine hfirst
  | cons line log =>
    have hreport : Text.trimEnd report.toList ≠ [] := by
      intro hnil
      have := Text.trimStart_trimEnd report.toList
      rw [hnil, hu] at this
      cases this
    obtain ⟨first, hfirst⟩ := Dialect.exists_firstLine_eq
      (show Text.trimStart (Text.trimEnd report.toList) = '[' :: u by rw [Text.trimStart_trimEnd, hu]) hmark'
    refine Dialect.guessChars?_of_firstLine (t := first) ?_
    rw [← hfirst, ← (firstLine_trimEnd_withLog hlog hreport).2, Text.trim, toList_withLog_cons,
      Text.trimStart_append_of_ink _ (by
        rw [Dialect.trimStart_of_isLogLine (hlog line (by simp)).1]
        obtain ⟨c, t, hct, -⟩ := Dialect.exists_of_isLogLine (hlog line (by simp)).1
        simp [hct]), Dialect.trimStart_of_isLogLine (hlog line (by simp)).1]

/-- Behind a log no report of issues is found. -/
theorem valueAs?_withLog {line : String} (hline : Dialect.isLogLine line.toList = true) (log : List String)
    (report : String) : Json.valueAs? Json.maxDepth .whole (withLog (line :: log) report).toList = none := by
  obtain ⟨c, t, hct, hc⟩ := Dialect.exists_of_isLogLine hline
  rw [toList_withLog_cons, hct, List.cons_append, List.cons_append]
  exact Json.valueAs?_bracket_letter _ hc

theorem readChars_of_clean {s : List Char} {d : Dialect} (root : Path) (tool : Tool) (hs : cleanChars s = s)
    (hd : Dialect.guessChars? s = some d) : readChars s root tool none = findingsAs d root tool s := by
  have hne : (Text.trim s).isEmpty = false := by
    by_contra hempty
    rw [Bool.not_eq_false] at hempty
    simp [Dialect.guessChars?, hempty] at hd
  simp only [readChars, hs, hne, Bool.false_eq_true, if_false, Option.none_or, hd]

/-- A report of issues behind a log is still told to be one, but it is read in columns. So the findings are those of
the report exactly if there is no log or the text in columns happens to say the same. -/
theorem read_withLog_eq_read_iff {issues : List Json} {rest : List Char} (root : Path) (tool : Tool)
    (hlog : ∀ line ∈ log, Dialect.isLogLine line.toList = true ∧ '\n' ∉ line.toList)
    (hreport : Json.valueAs? Json.maxDepth .whole report.toList = some (.arr issues, rest))
    (hclean : cleanChars (withLog log report).toList = (withLog log report).toList) :
    dialectOf (withLog log report) none = some .issues ∧
    read report root tool none = issues.filterMap (Issues.finding? root tool) ∧
    (log ≠ [] →
      read (withLog log report) root tool none = Columns.findings root tool (withLog log report).toList) ∧
    (read (withLog log report) root tool none = read report root tool none ↔
      log = [] ∨
        Columns.findings root tool (withLog log report).toList = issues.filterMap (Issues.finding? root tool)) := by
  obtain ⟨t, ht⟩ := Json.skipSpace_of_valueAs?_arr hreport
  have hstart : Text.trimStart report.toList = '[' :: t := Json.trimStart_of_skipSpace ht (by decide)
  have hmark : Dialect.isLogLine ('[' :: t) = false := by
    by_contra hmark
    rw [Bool.not_eq_false] at hmark
    obtain ⟨c, u, hcu, hc⟩ := Dialect.exists_of_isLogLine hmark
    have hnone : Json.valueAs? Json.maxDepth .whole (Json.skipSpace report.toList) = none := by
      rw [ht, hcu]
      exact Json.valueAs?_bracket_letter u hc
    rw [Json.valueAs?_skipSpace, hreport] at hnone
    cases hnone
  have hguess := guessChars?_withLog hlog hstart hmark
  have hguess' : Dialect.guessChars? (withLog [] report).toList = some .issues :=
    guessChars?_withLog (by simp) hstart hmark
  have hclean' : cleanChars report.toList = report.toList := by
    obtain ⟨a, ha⟩ := exists_toList_withLog_eq_append log report
    rw [ha] at hclean
    exact cleanChars_append_right hclean
  have hread : read report root tool none = issues.filterMap (Issues.finding? root tool) := by
    rw [read, readChars_of_clean root tool hclean' hguess', findingsAs, Issues.findings, hreport]
  have hcolumns (hne : log ≠ []) :
      read (withLog log report) root tool none = Columns.findings root tool (withLog log report).toList := by
    rw [read, readChars_of_clean root tool hclean hguess, findingsAs]
    cases log with
    | nil => exact absurd rfl hne
    | cons line log => rw [Issues.findings, valueAs?_withLog (hlog line (by simp)).1]
  refine ⟨by rw [dialectOf, hclean, Option.none_or, hguess], hread, hcolumns, ?_⟩
  cases hcase : log with
  | nil => simp [withLog]
  | cons line tail =>
    rw [← hcase, hcolumns (by simp [hcase]), hread]
    simp [hcase]

/-- One line of a log hides the only issue of a report. -/
theorem read_withLog_hides_issue :
    (∀ line ∈ ["[INFO] x"], Dialect.isLogLine line.toList = true ∧ '\n' ∉ line.toList) ∧
    Json.valueAs? Json.maxDepth .whole "[\x7b\"check_name\":\"fqcn\"\x7d]".toList =
      some (.arr [.obj [("check_name", .str "fqcn")]], []) ∧
    cleanChars (withLog ["[INFO] x"] "[\x7b\"check_name\":\"fqcn\"\x7d]").toList =
      (withLog ["[INFO] x"] "[\x7b\"check_name\":\"fqcn\"\x7d]").toList ∧
    dialectOf (withLog ["[INFO] x"] "[\x7b\"check_name\":\"fqcn\"\x7d]") none = some .issues ∧
    read (withLog ["[INFO] x"] "[\x7b\"check_name\":\"fqcn\"\x7d]") ⟨"/work"⟩ .ansibleLint none = [] ∧
    read (withLog ["[INFO] x"] "[\x7b\"check_name\":\"fqcn\"\x7d]") ⟨"/work"⟩ .ansibleLint none ≠
      read "[\x7b\"check_name\":\"fqcn\"\x7d]" ⟨"/work"⟩ .ansibleLint none := by
  have hlog : ∀ line ∈ ["[INFO] x"], Dialect.isLogLine line.toList = true ∧ '\n' ∉ line.toList := by
    decide +kernel
  have hreport : Json.valueAs? Json.maxDepth .whole "[\x7b\"check_name\":\"fqcn\"\x7d]".toList =
      some (.arr [.obj [("check_name", .str "fqcn")]], []) := by rfl
  have hclean : cleanChars (withLog ["[INFO] x"] "[\x7b\"check_name\":\"fqcn\"\x7d]").toList =
      (withLog ["[INFO] x"] "[\x7b\"check_name\":\"fqcn\"\x7d]").toList := by decide +kernel
  have hnone : Columns.findings ⟨"/work"⟩ .ansibleLint (withLog ["[INFO] x"] "[\x7b\"check_name\":\"fqcn\"\x7d]").toList =
      [] := by decide +kernel
  have hissue : [Json.obj [("check_name", .str "fqcn")]].filterMap (Issues.finding? ⟨"/work"⟩ .ansibleLint) ≠ [] := by
    simp [Issues.finding?, Json.get?, Json.lookup]
  obtain ⟨hdialect, -, hcolumns, hiff⟩ := read_withLog_eq_read_iff ⟨"/work"⟩ .ansibleLint hlog hreport hclean
  refine ⟨hlog, hreport, hclean, hdialect, by rw [hcolumns (by simp), hnone], ?_⟩
  rw [ne_eq, hiff, hnone]
  rintro (hlogs | hsame)
  · cases hlogs
  · exact hissue hsame.symm

end Report

end LintHub
