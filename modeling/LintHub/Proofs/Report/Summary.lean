import LintHub.Report.Result
import Mathlib.Data.List.Induction

/-!
# Summaries

A summary is counted up from result to result. What it counts can be said of all results at once.

* `Summary.tally` : the counts, each by itself. `Summary.of_eq_tally` : counting up gives the same.
* `Summary.of_append` : the counts over two lists are the sums of those over each.
* `Summary.Consistent` : how the counts hang together, and `Summary.consistent_of` : they do.
* `Summary.errors_of_pos_iff` : errors are counted exactly if there is a file with some.
-/

namespace LintHub

theorem FileResult.count_eq (r : FileResult) (s : Severity) :
    r.count s = r.findings.countP fun f => f.severity == s :=
  List.countP_eq_length_filter.symm

theorem findingsIn_append (a b : List FileResult) : findingsIn (a ++ b) = findingsIn a ++ findingsIn b :=
  List.flatMap_append

namespace Summary

/-! ## Counting at once -/

/-- The counts of results, each by itself. -/
def tally (results : List FileResult) : Summary where
  files := results.length
  cachedFiles := results.countP FileResult.fromCache
  findings := (findingsIn results).length
  errors := (findingsIn results).countP fun f => f.severity == .error
  warnings := (findingsIn results).countP fun f => f.severity == .warning
  infos := (findingsIn results).countP fun f => f.severity == .info
  filesWithErrors := results.countP FileResult.hasErrors
  toolFailures := (results.flatMap FileResult.failures).length

/-- The sum of each two counts. -/
def plus (s t : Summary) : Summary where
  files := s.files + t.files
  cachedFiles := s.cachedFiles + t.cachedFiles
  findings := s.findings + t.findings
  errors := s.errors + t.errors
  warnings := s.warnings + t.warnings
  infos := s.infos + t.infos
  filesWithErrors := s.filesWithErrors + t.filesWithErrors
  toolFailures := s.toolFailures + t.toolFailures

theorem tally_append (a b : List FileResult) : tally (a ++ b) = (tally a).plus (tally b) := by
  unfold tally plus
  simp only [findingsIn_append, List.flatMap_append, List.length_append, List.countP_append]

/-- One more result adds what it counts by itself. -/
theorem add_eq_plus (s : Summary) (r : FileResult) : s.add r = s.plus (tally [r]) := by
  have hfindings : findingsIn [r] = r.findings := List.flatMap_singleton FileResult.findings r
  have hfailures : [r].flatMap FileResult.failures = r.failures := List.flatMap_singleton FileResult.failures r
  unfold add plus tally
  simp only [hfindings, hfailures, FileResult.count_eq, List.countP_singleton, List.length_singleton]
  split <;> split <;> rfl

theorem of_eq_tally (results : List FileResult) : of results = tally results := by
  induction results using List.reverseRecOn with
  | nil => rfl
  | append_singleton results r ih =>
    rw [of] at ih ⊢
    rw [List.foldl_append, ih, List.foldl_cons, List.foldl_nil, add_eq_plus, tally_append]

theorem of_append (a b : List FileResult) : of (a ++ b) = (of a).plus (of b) := by
  rw [of_eq_tally, of_eq_tally, of_eq_tally, tally_append]

/-! ## Laws -/

/-- How counts hang together: each finding has one severity, files are counted once, and a file with errors has at least
one of them. -/
structure Consistent (s : Summary) : Prop where
  severities : s.errors + s.warnings + s.infos = s.findings
  cached : s.cachedFiles ≤ s.files
  withErrors : s.filesWithErrors ≤ s.files
  fewer : s.filesWithErrors ≤ s.errors
  clean : s.filesWithErrors = 0 ↔ s.errors = 0

theorem countP_severities (fs : List Finding) :
    (fs.countP fun f => f.severity == .error) + (fs.countP fun f => f.severity == .warning) +
      (fs.countP fun f => f.severity == .info) = fs.length := by
  induction fs with
  | nil => rfl
  | cons f fs ih =>
    simp only [List.countP_cons, List.length_cons]
    cases f.severity with
    | error => simp; omega
    | warning => simp; omega
    | info => simp; omega

theorem hasErrors_iff (r : FileResult) :
    r.hasErrors = true ↔ 0 < r.findings.countP fun f => f.severity == .error := by
  rw [FileResult.hasErrors, List.any_eq_true, List.countP_pos_iff]
  rfl

/-- A file with errors brings one at least. -/
theorem countP_hasErrors_le (results : List FileResult) :
    results.countP FileResult.hasErrors ≤ (findingsIn results).countP fun f => f.severity == .error := by
  induction results with
  | nil => exact Nat.zero_le _
  | cons r results ih =>
    have hcons : findingsIn (r :: results) = r.findings ++ findingsIn results := List.flatMap_cons
    rw [List.countP_cons, hcons, List.countP_append]
    split
    · next herrors =>
      have hpos := (hasErrors_iff r).1 herrors
      omega
    · omega

/-- Errors are counted exactly if there is a file with some. -/
theorem errors_of_pos_iff (results : List FileResult) :
    0 < (of results).errors ↔ ∃ r ∈ results, r.hasErrors = true := by
  rw [of_eq_tally, tally, List.countP_pos_iff]
  constructor
  · rintro ⟨f, hf, herror⟩
    obtain ⟨r, hr, hmem⟩ := List.mem_flatMap.1 hf
    exact ⟨r, hr, List.any_eq_true.2 ⟨f, hmem, herror⟩⟩
  · rintro ⟨r, hr, herrors⟩
    obtain ⟨f, hmem, herror⟩ := List.any_eq_true.1 herrors
    exact ⟨f, List.mem_flatMap.2 ⟨r, hr, hmem⟩, herror⟩

theorem consistent_of (results : List FileResult) : (of results).Consistent := by
  have hclean := errors_of_pos_iff results
  rw [← List.countP_pos_iff] at hclean
  rw [of_eq_tally] at hclean ⊢
  refine ⟨countP_severities _, List.countP_le_length, List.countP_le_length, countP_hasErrors_le results, ?_⟩
  show results.countP FileResult.hasErrors = 0 ↔ _
  omega

end Summary

end LintHub
