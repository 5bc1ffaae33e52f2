import LintHub.CommandLine.Listing
import LintHub.Proofs.Finding.Json

/-!
# Reports of one list of results

The listing, the JSON report and the interchange document all list the findings of `findingsIn`, in that order.

* `CommandLine.listing_eq`, `CommandLine.findings?_render` : the lines of the listing, and what the JSON report is
  read as.
* `Sarif.parse?_render` : the interchange document is read as the value that was written.
* `Sarif.Entry` : what an entry of the document says of a finding; `Sarif.entries?` reads all of them.
* `Sarif.entries?_log` : the entries are the findings' own, but each names the file that was checked.
* `Sarif.entries?_render_eq_iff` : so the document places every finding where the other reports do exactly if no
  check has findings in another file.
-/

namespace LintHub

/-! ## The JSON report and the listing -/

namespace CommandLine

/-- The findings of a JSON report. -/
def findings? (report : String) : Option (List Finding) := (Json.parse? report).bind (Json.listOf? Finding.ofJson?)

theorem fits_findings (findings : List Finding) :
    Json.Fits Json.maxDepth .whole (.arr (findings.map Finding.toJson)) := by
  refine Json.fits_arr_whole fun j hj => ?_
  obtain ⟨f, -, rfl⟩ := List.mem_map.1 hj
  exact f.fits_toJson_whole 125

/-- The JSON report is read as the findings. -/
theorem findings?_render (results : List FileResult) :
    findings? (Format.json.render results) = some (findingsIn results) := by
  rw [findings?, Format.render, Json.parse?_pretty_line (fits_findings _), Option.bind_some]
  exact Json.mapM_map_eq_some fun f _ => f.ofJson?_toJson

/-- The listing starts with the findings' lines. -/
theorem listing_eq (results : List FileResult) :
    listing results = ofLines ((findingsIn results).map Finding.listed) ++
      ofLines ("" :: (Summary.of results).lines) := by
  rw [← String.toList_inj]
  simp [listing, ofLines, String.toList_join]

end CommandLine

/-! ## The interchange document -/

namespace Sarif

theorem fits_message (s : String) (depth : Nat) : Json.Fits (depth + 1) .whole (message s) :=
  Json.fits_obj_whole fun field hfield => by
    obtain rfl : field = ("text", .str s) := by simpa using hfield
    exact Json.fits_str _ _ _

theorem fits_descriptor (f : Finding) (depth : Nat) : Json.Fits (depth + 2) .whole (descriptor f) := by
  refine Json.fits_obj_whole fun field hfield => ?_
  simp only [List.mem_append, Json.mem_fieldOf, List.mem_cons, List.not_mem_nil, or_false] at hfield
  rcases hfield with (rfl | rfl | rfl) | ⟨page, -, rfl⟩
  · exact Json.fits_str _ _ _
  · exact Json.fits_str _ _ _
  · exact fits_message _ depth
  · exact Json.fits_str _ _ _

theorem exists_of_mem_insertRule {f : Finding} {table : List (String × Json)} {row : String × Json}
    (h : row ∈ insertRule f table) : row ∈ table ∨ row = (ruleId f, descriptor f) := by
  induction table with
  | nil => exact .inr (by simpa [insertRule] using h)
  | cons head rest ih =>
    rw [insertRule] at h
    split at h
    · rcases List.mem_cons.1 h with h | h
      · exact .inr h
      · exact .inl h
    · exact .inl h
    · rcases List.mem_cons.1 h with rfl | h
      · exact .inl (by simp)
      · exact (ih h).imp_left fun h => by simp [h]

/-- Every row of the table describes the rule of a finding. -/
theorem exists_of_mem_rules {results : List FileResult} {row : String × Json} (h : row ∈ rules results) :
    ∃ f ∈ findingsIn results, row = (ruleId f, descriptor f) := by
  have hfold (fs : List Finding) (table : List (String × Json))
      (h : row ∈ fs.foldl (fun table f => insertRule f table) table) :
      row ∈ table ∨ ∃ f ∈ fs, row = (ruleId f, descriptor f) := by
    induction fs generalizing table with
    | nil => exact .inl h
    | cons f fs ih =>
      rcases ih _ h with h | ⟨g, hg, h⟩
      · exact (exists_of_mem_insertRule h).imp_right fun h => ⟨f, by simp, h⟩
      · exact .inr ⟨g, by simp [hg], h⟩
  rcases hfold _ _ h with h | h
  · cases h
  · exact h

theorem fits_result (path : Path) (f : Finding) (depth : Nat) : Json.Fits (depth + 5) .whole (result path f) := by
  have hline := f.line.toNat_lt
  have hcolumn := f.column.toNat_lt
  have hartifact : Json.Fits (depth + 1) .whole (.obj [("uri", .str (Text.replaceChar '\\' '/' path.text))]) :=
    Json.fits_obj_whole (by simp only [List.forall_mem_singleton, Json.fits_str])
  have hregion : Json.Fits (depth + 1) .whole
      (.obj [("startLine", .nat f.line.toNat), ("startColumn", .nat f.column.toNat)]) := by
    refine Json.fits_obj_whole ?_
    rw [List.forall_mem_cons, List.forall_mem_singleton]
    exact ⟨Json.fits_nat _ _ (by omega), Json.fits_nat _ _ (by omega)⟩
  refine Json.fits_obj_whole ?_
  rw [List.forall_mem_cons, List.forall_mem_cons, List.forall_mem_cons, List.forall_mem_singleton]
  refine ⟨Json.fits_str _ _ _, Json.fits_str _ _ _, fits_message _ _, ?_⟩
  refine Json.fits_arr_whole (List.forall_mem_singleton.2 (Json.fits_obj_whole (List.forall_mem_singleton.2 ?_)))
  refine Json.fits_obj_whole ?_
  rw [List.forall_mem_cons, List.forall_mem_singleton]
  exact ⟨hartifact, hregion⟩

theorem fits_log (results : List FileResult) : Json.Fits Json.maxDepth .whole (log results) := by
  have hresults : Json.Fits 124 .whole (.arr (results.flatMap fun r => r.findings.map (result r.path))) := by
    refine Json.fits_arr_whole fun j hj => ?_
    obtain ⟨r, -, hj⟩ := List.mem_flatMap.1 hj
    obtain ⟨f, -, rfl⟩ := List.mem_map.1 hj
    exact fits_result r.path f 118
  have hrules : Json.Fits 122 .whole (.arr ((rules results).map (·.2))) := by
    refine Json.fits_arr_whole fun j hj => ?_
    obtain ⟨row, hrow, rfl⟩ := List.mem_map.1 hj
    obtain ⟨f, -, rfl⟩ := exists_of_mem_rules hrow
    exact fits_descriptor f 119
  have hdriver : Json.Fits 123 .whole (.obj ([("name", .str Program.name), ("version", .str Program.version)] ++
      if (rules results).isEmpty then [] else [("rules", .arr ((rules results).map (·.2)))])) := by
    refine Json.fits_obj_whole fun field hfield => ?_
    rcases List.mem_append.1 hfield with hfield | hfield
    · simp only [List.mem_cons, List.not_mem_nil, or_false] at hfield
      rcases hfield with rfl | rfl
      · exact Json.fits_str _ _ _
      · exact Json.fits_str _ _ _
    · split at hfield
      · cases hfield
      · rw [List.eq_of_mem_singleton hfield]
        exact hrules
  refine Json.fits_obj_whole ?_
  rw [List.forall_mem_cons, List.forall_mem_cons, List.forall_mem_singleton]
  refine ⟨Json.fits_str _ _ _, Json.fits_str _ _ _, Json.fits_arr_whole (List.forall_mem_singleton.2 ?_)⟩
  refine Json.fits_obj_whole ?_
  rw [List.forall_mem_cons, List.forall_mem_singleton]
  exact ⟨Json.fits_obj_whole (List.forall_mem_singleton.2 hdriver), hresults⟩

/-- The document is read as the value that was written. -/
theorem parse?_render (results : List FileResult) : Json.parse? (render results) = some (log results) :=
  Json.parse?_pretty (fits_log results)

/-! ## Entries -/

/-- What an entry of the document says of a finding. -/
structure Entry where
  uri : String
  line : Nat
  column : Nat
  message : String
  level : String
deriving DecidableEq

/-- The first item of an array under a name. -/
def first? (name : String) (j : Json) : Option Json := ((j.get? name).bind Json.asArray?).bind List.head?

/-- The entry that a value of the document is. -/
def Entry.ofJson? (j : Json) : Option Entry := do
  let place ← (← first? "locations" j).get? "physicalLocation"
  let region ← place.get? "region"
  let uri ← (← place.get? "artifactLocation").stringField? "uri"
  let line ← (← region.get? "startLine").asNat?
  let column ← (← region.get? "startColumn").asNat?
  let message ← (← j.get? "message").stringField? "text"
  let level ← j.stringField? "level"
  some { uri, line, column, message, level }

/-- The entries of a document's run. -/
def entries? (document : Json) : Option (List Entry) := do
  let items ← (← (← first? "runs" document).get? "results").asArray?
  items.mapM Entry.ofJson?

/-- The entry of a finding that names the file at `path`. -/
def Entry.of (path : Path) (f : Finding) : Entry :=
  ⟨Text.replaceChar '\\' '/' path.text, f.line.toNat, f.column.toNat, f.message, Sarif.level f.severity⟩

theorem ofJson?_result (path : Path) (f : Finding) : Entry.ofJson? (result path f) = some (Entry.of path f) := by
  simp [Entry.ofJson?, first?, result, message, Json.get?, Json.lookup, Json.stringField?, Json.asString?,
    Json.asArray?, Json.asNat?, Json.nat, Entry.of]

/-- The findings of all results, each with the file that was checked. -/
def checked (results : List FileResult) : List (Path × Finding) :=
  results.flatMap fun r => r.findings.map fun f => (r.path, f)

theorem map_snd_checked (results : List FileResult) : (checked results).map (·.2) = findingsIn results := by
  simp [checked, findingsIn, List.map_flatMap, Function.comp_def]

/-- The entries are the findings', check by check, and name the file of the check. -/
theorem flatMap_result (results : List FileResult) :
    (results.flatMap fun r => r.findings.map (result r.path)) =
      (checked results).map fun row => result row.1 row.2 := by
  simp [checked, List.map_flatMap, Function.comp_def]

theorem entries?_log (results : List FileResult) :
    entries? (log results) = some ((checked results).map fun row => Entry.of row.1 row.2) := by
  have hread := Json.mapM_map_eq_map fun row (_ : row ∈ checked results) => ofJson?_result row.1 row.2
  rw [← flatMap_result] at hread
  rw [← hread]
  simp [entries?, first?, log, Json.get?, Json.lookup, Json.asArray?]

/-- The document has the findings of the other reports in their order, with their places, messages and levels. It
also names their files exactly if every check has findings in the checked file only, up to the slashes. -/
theorem entries?_render_eq_iff (results : List FileResult) :
    ∃ entries, (Json.parse? (render results)).bind entries? = some entries ∧
      entries.map (fun e => (e.line, e.column, e.message, e.level)) =
        (findingsIn results).map (fun f => (f.line.toNat, f.column.toNat, f.message, level f.severity)) ∧
      (entries.map (·.uri) = (findingsIn results).map (fun f => Text.replaceChar '\\' '/' f.file.text) ↔
        ∀ r ∈ results, ∀ f ∈ r.findings,
          Text.replaceChar '\\' '/' r.path.text = Text.replaceChar '\\' '/' f.file.text) ∧
      CommandLine.findings? (CommandLine.Format.json.render results) = some (findingsIn results) ∧
      ∃ counts, CommandLine.listing results =
        CommandLine.ofLines ((findingsIn results).map Finding.listed) ++ counts := by
  refine ⟨(checked results).map fun row => Entry.of row.1 row.2, ?_, ?_, ?_, CommandLine.findings?_render results,
    _, CommandLine.listing_eq results⟩
  · rw [parse?_render, Option.bind_some, entries?_log]
  · rw [← map_snd_checked, List.map_map, List.map_map]
    rfl
  · rw [← map_snd_checked, List.map_map, List.map_map, List.map_inj_left]
    constructor
    · intro h r hr f hf
      exact h (r.path, f) (List.mem_flatMap.2 ⟨r, hr, List.mem_map.2 ⟨f, hf, rfl⟩⟩)
    · intro h row hrow
      obtain ⟨r, hr, hrow⟩ := List.mem_flatMap.1 hrow
      obtain ⟨f, hf, rfl⟩ := List.mem_map.1 hrow
      exact h r hr f hf

/-- A finding in a role that the checked playbook includes is placed in the playbook. -/
theorem entries?_render_included_role :
    ((Json.parse? (render [FileResult.new ⟨"/w/site.yml"⟩
      [(Finding.new ⟨"/w/roles/a.yml"⟩ "fqcn" "Use FQCN" .ansibleLint).placed 3 5]])).bind entries?).map
        (fun entries => entries.map fun e => (e.uri, e.line, e.column)) = some [("/w/site.yml", 3, 5)] ∧
    (findingsIn [FileResult.new ⟨"/w/site.yml"⟩
      [(Finding.new ⟨"/w/roles/a.yml"⟩ "fqcn" "Use FQCN" .ansibleLint).placed 3 5]]).map (·.file.text) =
        ["/w/roles/a.yml"] := by
  have huri : Text.replaceChar '\\' '/' "/w/site.yml" = "/w/site.yml" := by decide +kernel
  refine ⟨?_, rfl⟩
  rw [parse?_render, Option.bind_some, entries?_log]
  simp [checked, FileResult.new, Entry.of, huri, Finding.placed, Finding.fromOne]

end Sarif

end LintHub
