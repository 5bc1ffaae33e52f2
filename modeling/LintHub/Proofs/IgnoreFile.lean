import LintHub.IgnoreFile
import LintHub.Proofs.Disk.Writing
import LintHub.Proofs.Text.Words

/-!
# What an ignore file keeps

* `IgnoreFile.entriesIn` : the entries that a text holds, line by line. `entriesIn_render` reads them off the lines of
  which a text was written, and lines that were read hold the same entries when they are written again.
* `IgnoreFile.Storable` : what one line can hold. `pairOf?_lineOf` : such an entry is read as it was written, and
  `storable_of_mem_entriesIn` : only such entries are ever read.
* `IgnoreFile.load_save_add_iff` : when an entry that is added and saved is there after the file is loaded again.
-/

namespace LintHub

/-! ## Lines -/

namespace IgnoreLine

/-- The entry that the words of a line are. -/
def pairOf? : List (List Char) → Option (String × String)
  | ('#' :: _) :: _ => none
  | path :: rule :: _ => some (String.ofList path, String.ofList rule)
  | _ => none

theorem pair?_parse (line : String) : (parse line).pair? = pairOf? (Text.words line.toList) := by
  unfold parse pairOf?
  split <;> simp_all [pair?]

theorem text_parse (line : String) : (parse line).text = line := by
  unfold parse
  split <;> rfl

end IgnoreLine

namespace IgnoreFile

open IgnoreLine (pairOf? pair?_parse text_parse)

/-- What a line can hold: the path and the rule are words, and the path does not start like a comment. -/
structure Storable (key rule : String) : Prop where
  path : Text.IsWord key.toList
  rule : Text.IsWord rule.toList
  comment : key.toList.head? ≠ some '#'

theorem storable_of_pairOf? {line : List Char} {key rule : String}
    (h : pairOf? (Text.words line) = some (key, rule)) : Storable key rule := by
  have hwords : ∀ w ∈ Text.words line, Text.IsWord w := fun w hw => Text.isWord_of_mem_words hw
  unfold pairOf? at h
  split at h
  · cases h
  · next path word rest hcomment heq =>
    obtain ⟨rfl, rfl⟩ := Prod.mk.inj (Option.some.inj h)
    rw [heq] at hwords
    refine ⟨?_, ?_, ?_⟩
    · rw [String.toList_ofList]
      exact hwords path (by simp)
    · rw [String.toList_ofList]
      exact hwords word (by simp)
    · rw [String.toList_ofList]
      intro hhead
      obtain ⟨tail, rfl⟩ := List.head?_eq_some_iff.1 hhead
      exact hcomment _ rfl
  · cases h

theorem pairOf?_lineOf {key rule : String} (h : Storable key rule) :
    pairOf? (Text.words (lineOf key rule).text.toList) = some (key, rule) := by
  have htext : (lineOf key rule).text.toList = key.toList ++ ' ' :: rule.toList := by
    simp [lineOf, IgnoreLine.text]
  rw [htext, Text.words_append_blank (by decide), Text.words_of_isWord h.path, Text.words_of_isWord h.rule]
  have hcomment := h.comment
  cases hkey : key.toList with
  | nil => exact absurd hkey h.path.1
  | cons c tail =>
    have hc : c ≠ '#' := by
      rintro rfl
      simp [hkey] at hcomment
    have hofList : String.ofList (c :: tail) = key := by rw [← hkey, String.ofList_toList]
    simp [pairOf?, hc, hofList]

/-! ## Texts -/

/-- The entries that a text holds. -/
def entriesIn (s : List Char) : List (String × String) :=
  (Text.lines s).filterMap fun line => pairOf? (Text.words line)

theorem entries_parse (file root : Path) (text : String) :
    (IgnoreFile.mk file root (parse text)).entries = entriesIn text.toList := by
  simp only [entries, parse, entriesIn, Text.stringLines, List.map_map, List.filterMap_map, Function.comp_def,
    pair?_parse, String.toList_ofList]

theorem storable_of_mem_entriesIn {s : List Char} {key rule : String} (h : (key, rule) ∈ entriesIn s) :
    Storable key rule := by
  obtain ⟨line, -, hline⟩ := List.mem_filterMap.1 h
  exact storable_of_pairOf? hline

theorem entriesIn_append_feed (a b : List Char) : entriesIn (a ++ '\n' :: b) = entriesIn (a ++ ['\n']) ++ entriesIn b := by
  rw [entriesIn, Text.lines_append_feed_append, List.filterMap_append]
  rfl

theorem entriesIn_line {line : List Char} (h : '\n' ∉ line) :
    entriesIn (line ++ ['\n']) = (pairOf? (Text.words line)).toList := by
  have hlines : Text.lines (line ++ ['\n']) = [Text.dropReturn line] := Text.lines_append_feed [] h
  rw [entriesIn, hlines, List.filterMap_cons, Text.words_dropReturn]
  cases pairOf? (Text.words line) <;> rfl

/-- What a line holds once it is written. -/
def written (l : IgnoreLine) : List (String × String) := entriesIn (l.text.toList ++ ['\n'])

/-- The text of a file holds what its lines hold, one after another. -/
theorem entriesIn_render (i : IgnoreFile) : entriesIn i.render.toList = i.lines.flatMap written := by
  have hlines (lines : List IgnoreLine) :
      entriesIn (lines.flatMap fun l => l.text.toList ++ ['\n']) = lines.flatMap written := by
    induction lines with
    | nil => rfl
    | cons l lines ih =>
      rw [List.flatMap_cons, List.append_assoc, List.singleton_append, entriesIn_append_feed, ih, List.flatMap_cons]
      rfl
  rw [render, String.toList_join, List.flatMap_map]
  simp only [String.toList_append]
  exact hlines i.lines

/-- A line that was read holds the same when it is written, without the carriage return that may have ended it. -/
theorem flatMap_written_parse (text : String) : (parse text).flatMap written = entriesIn text.toList := by
  rw [parse, Text.stringLines, List.map_map, List.flatMap_map, entriesIn, List.filterMap_eq_flatMap_toList]
  refine List.flatMap_congr fun line hline => ?_
  rw [Function.comp_apply, written, text_parse, String.toList_ofList,
    entriesIn_line (Text.feed_notMem_of_mem_lines hline)]

theorem written_lineOf {key rule : String} (h : Storable key rule) : written (lineOf key rule) = [(key, rule)] := by
  have hkey := Text.feed_notMem_of_ink h.path.2
  have hrule := Text.feed_notMem_of_ink h.rule.2
  have hfeed : '\n' ∉ (lineOf key rule).text.toList := by simp [lineOf, IgnoreLine.text, hkey, hrule]
  rw [written, entriesIn_line hfeed, pairOf?_lineOf h]
  rfl

/-! ## Files -/

/-- The lines of a file that was loaded hold its entries when they are written again. -/
theorem flatMap_written_of_load {d : Disk} {file root : Path} {i : IgnoreFile} (h : load d file root = .ok i) :
    i.file = file ∧ i.root = root ∧ i.lines.flatMap written = i.entries := by
  have hparse (text : String) : (parse text).flatMap written = (IgnoreFile.mk file root (parse text)).entries := by
    rw [flatMap_written_parse, entries_parse]
  rw [load] at h
  split at h
  · next text _ =>
    obtain rfl := Except.ok.inj h
    exact ⟨rfl, rfl, hparse text⟩
  · obtain rfl := Except.ok.inj h
    exact ⟨rfl, rfl, rfl⟩
  · cases h

theorem readText_save {i : IgnoreFile} {d saved : Disk} (h : i.save d = .ok saved) :
    saved.readText i.file = .ok i.render := by
  rw [save] at h
  split at h
  · cases h
  · next made _ =>
    split at h
    · cases h
    · next written hwrite =>
      cases h
      exact (Disk.readText_write hwrite).1

/-- What was saved is loaded with the entries that its lines hold. -/
theorem load_save {i : IgnoreFile} {d saved : Disk} (h : i.save d = .ok saved) :
    ∃ j, load saved i.file i.root = .ok j ∧ j.root = i.root ∧ j.entries = i.lines.flatMap written := by
  refine ⟨⟨i.file, i.root, parse i.render⟩, ?_, rfl, ?_⟩
  · rw [load, readText_save h]
  · rw [entries_parse, entriesIn_render]

theorem contains_iff {i : IgnoreFile} {path : Path} {rule : String} :
    i.contains path rule = true ↔ (i.keyOf path, rule) ∈ i.entries := List.contains_iff_mem

theorem add_of_contains {i : IgnoreFile} {path : Path} {rule : String} (h : i.contains path rule = true) :
    i.add path rule = (false, i) := by
  rw [add, if_pos h]

theorem add_of_not_contains {i : IgnoreFile} {path : Path} {rule : String} (h : ¬ i.contains path rule = true) :
    i.add path rule = (true, { i with lines := i.lines ++ [lineOf (i.keyOf path) rule] }) := by
  rw [add, if_neg h]

theorem add_fst {i : IgnoreFile} {path : Path} {rule : String} :
    (i.add path rule).1 = false ↔ i.contains path rule = true := by
  by_cases h : i.contains path rule = true
  · simp [add_of_contains h, h]
  · simp [add_of_not_contains h, h]

theorem file_add (i : IgnoreFile) (path : Path) (rule : String) :
    (i.add path rule).2.file = i.file ∧ (i.add path rule).2.root = i.root := by
  by_cases h : i.contains path rule = true
  · rw [add_of_contains h]
    exact ⟨rfl, rfl⟩
  · rw [add_of_not_contains h]
    exact ⟨rfl, rfl⟩

/-- A line is all that is added to what a file holds, and it holds the new entry or another one. -/
theorem flatMap_written_add {i : IgnoreFile} {path : Path} {rule : String} (hi : i.lines.flatMap written = i.entries)
    (h : ¬ i.contains path rule = true) :
    (i.add path rule).2.entries = i.entries ++ [(i.keyOf path, rule)] ∧
      (i.add path rule).2.lines.flatMap written = i.entries ++ written (lineOf (i.keyOf path) rule) := by
  rw [add_of_not_contains h]
  constructor
  · rw [entries, List.filterMap_append]
    rfl
  · rw [List.flatMap_append, List.flatMap_singleton, hi]

/-- After an entry was added to a loaded file and the file was saved, it is loaded again. Then the rule is ignored for
the path, the entries are those in memory, and adding once more changes nothing, each of them exactly if the entry was
there before or a line can hold it. -/
theorem load_save_add_iff {d d' saved : Disk} {file root : Path} {i : IgnoreFile} (path : Path) (rule : String)
    (hload : load d file root = .ok i) (hsave : (i.add path rule).2.save d' = .ok saved) :
    ∃ j, load saved file root = .ok j ∧
      (j.contains path rule = true ↔ i.contains path rule = true ∨ Storable (i.keyOf path) rule) ∧
      (j.entries = (i.add path rule).2.entries ↔ i.contains path rule = true ∨ Storable (i.keyOf path) rule) ∧
      ((j.add path rule).1 = false ↔ i.contains path rule = true ∨ Storable (i.keyOf path) rule) := by
  obtain ⟨hfile, hroot, hi⟩ := flatMap_written_of_load hload
  obtain ⟨hfile', hroot'⟩ := file_add i path rule
  obtain ⟨j, hj, hjroot, hentries⟩ := load_save hsave
  rw [hfile', hroot', hfile, hroot] at hj
  have hkey : j.keyOf path = i.keyOf path := by rw [keyOf, keyOf, hjroot, hroot']
  refine ⟨j, hj, ?_⟩
  rw [add_fst, contains_iff, hkey]
  by_cases hthere : i.contains path rule = true
  · rw [add_of_contains hthere] at hentries ⊢
    rw [hi] at hentries
    have hmem : (i.keyOf path, rule) ∈ i.entries := contains_iff.1 hthere
    simp [hentries, hmem, hthere]
  · obtain ⟨hmemory, hdisk⟩ := flatMap_written_add hi hthere
    rw [hdisk] at hentries
    have hmem : (i.keyOf path, rule) ∈ j.entries ↔ Storable (i.keyOf path) rule := by
      rw [hentries, List.mem_append, or_iff_right (mt contains_iff.2 hthere)]
      exact ⟨storable_of_mem_entriesIn, fun h => by simp [written_lineOf h]⟩
    have heq : j.entries = (i.add path rule).2.entries ↔ Storable (i.keyOf path) rule := by
      rw [hmemory]
      constructor
      · intro h
        exact hmem.1 (by simp [h])
      · intro h
        rw [hentries, written_lineOf h]
    rw [or_iff_right hthere]
    exact ⟨hmem, heq, hmem⟩

/-- The first entry of a file is for a name with a space. It is not there after the file is loaded again. -/
theorem load_save_add_spaced_name :
    load ⟨[], []⟩ ⟨"ignore"⟩ ⟨"/w"⟩ = .ok ⟨⟨"ignore"⟩, ⟨"/w"⟩, []⟩ ∧
    ∃ saved j, (add ⟨⟨"ignore"⟩, ⟨"/w"⟩, []⟩ ⟨"/w/my tasks.yml"⟩ "fqcn").2.save ⟨[], []⟩ = .ok saved ∧
      load saved ⟨"ignore"⟩ ⟨"/w"⟩ = .ok j ∧ j.contains ⟨"/w/my tasks.yml"⟩ "fqcn" = false ∧
      j.entries ≠ (add ⟨⟨"ignore"⟩, ⟨"/w"⟩, []⟩ ⟨"/w/my tasks.yml"⟩ "fqcn").2.entries ∧
      (j.add ⟨"/w/my tasks.yml"⟩ "fqcn").1 = true := by
  have hsegments : Disk.segmentsOf "ignore" = ["ignore"] := by decide
  have hshort : ¬ 255 < "ignore".utf8ByteSize := by decide
  have hparent : (Path.mk "ignore").parent? = some ⟨""⟩ := by decide
  have hfind : Disk.find ⟨[], []⟩ true ⟨"ignore"⟩ = .ok (["ignore"], none) := by
    simp [Disk.find, hsegments, Disk.walk, Disk.isIdle, Disk.node?, Path.isAbsolute, hshort]
  have hload : load ⟨[], []⟩ ⟨"ignore"⟩ ⟨"/w"⟩ = .ok ⟨⟨"ignore"⟩, ⟨"/w"⟩, []⟩ := by
    simp [load, Disk.readText, Disk.readBytes, Disk.stat, hfind]
  obtain ⟨saved, hsave⟩ : ∃ saved,
      (add ⟨⟨"ignore"⟩, ⟨"/w"⟩, []⟩ ⟨"/w/my tasks.yml"⟩ "fqcn").2.save ⟨[], []⟩ = .ok saved := by
    simp [save, (file_add _ _ _).1, hparent, Disk.makeDirs, Path.ancestors, Path.ancestorsUpTo, Disk.makeDirsFrom,
      Disk.write, Disk.writeBytes, hfind]
  have hkey : keyOf ⟨⟨"ignore"⟩, ⟨"/w"⟩, []⟩ ⟨"/w/my tasks.yml"⟩ = "my tasks.yml" := by decide +kernel
  have hno : ¬ (contains ⟨⟨"ignore"⟩, ⟨"/w"⟩, []⟩ ⟨"/w/my tasks.yml"⟩ "fqcn" = true ∨
      Storable (keyOf ⟨⟨"ignore"⟩, ⟨"/w"⟩, []⟩ ⟨"/w/my tasks.yml"⟩) "fqcn") := by
    rw [hkey]
    rintro (hthere | hline)
    · exact absurd hthere (by decide)
    · exact absurd (hline.path.2 ' ' (by decide)) (by decide)
  obtain ⟨j, hj, hcontains, hentries, hadd⟩ := load_save_add_iff ⟨"/w/my tasks.yml"⟩ "fqcn" hload hsave
  refine ⟨hload, saved, j, hsave, hj, ?_, mt hentries.1 hno, ?_⟩
  · simpa using mt hcontains.1 hno
  · simpa using mt hadd.1 hno

end IgnoreFile

end LintHub
