import LintHub.Proofs.Disk.Parents
import LintHub.Proofs.IgnoreFile
import LintHub.Proofs.Text.Terminators

/-!
# What saving an ignore file leaves of its text

* `exists_save_of_readText` : a file that can be read can be saved.
* `save_add_verbatim_iff` : the text that is saved after an entry was added, and when it is the old one and a line.
-/

namespace LintHub

namespace IgnoreFile

variable {i : IgnoreFile} {d : Disk}

/-- An ignore file whose file can be read can be saved. -/
theorem exists_save_of_readText {text : String} (hhere : d.IsOpen d.here) (h : d.readText i.file = .ok text) :
    ∃ saved, i.save d = .ok saved := by
  obtain ⟨loc, bytes, executable, hfind⟩ := Disk.find_of_readText h
  obtain ⟨dir, hdir, hthere⟩ := Disk.isDir_parent? hhere (by simp) hfind
  have hmade : d.makeDirs dir = .ok d := by
    rcases hthere with hempty | hthere
    · rw [Disk.makeDirs, Path.ancestors, Path.ancestorsUpTo, Disk.makeDirsFrom, if_pos hempty]
    · exact Disk.makeDirs_of_isDir hhere hthere
  refine ⟨d.put loc (.file i.render.toUTF8 executable), ?_⟩
  rw [save, hdir]
  dsimp only
  rw [hmade]
  dsimp only
  rw [Disk.write, Disk.writeBytes, hfind]

/-- The lines of a text are written as they are, each ended by a line feed. -/
theorem toList_render_append (file root : Path) (text key rule : String) :
    (IgnoreFile.mk file root (parse text ++ [lineOf key rule])).render.toList =
      Text.closeLine (Text.dropReturns text.toList) ++ (key ++ " " ++ rule ++ "\n").toList := by
  rw [← Text.flatMap_lines, render, String.toList_join, List.flatMap_map, List.flatMap_append, parse,
    Text.stringLines, List.map_map, List.flatMap_map]
  congr 1
  · refine List.flatMap_congr fun line _ => ?_
    rw [Function.comp_apply, IgnoreLine.text_parse, String.toList_append, String.toList_ofList]
    rfl
  · rw [List.flatMap_singleton]
    rfl

/-- After an entry was added to a file that could be read, the file can be saved. The carriage return right before each
line feed is lost then, and nothing else. So the text is what it was, with a line feed at its end unless it was empty, and
the line of the entry, exactly if no line ended with a carriage return and a line feed. -/
theorem save_add_verbatim_iff {file : Path} {text : String} (root path : Path) (rule : String)
    (hhere : d.IsOpen d.here) (hread : d.readText file = .ok text) :
    ∃ i, load d file root = .ok i ∧ (i.contains path rule = false →
      ∃ saved written, (i.add path rule).2.save d = .ok saved ∧ saved.readText file = .ok written ∧
        written.toList = Text.closeLine (Text.dropReturns text.toList) ++
          (i.keyOf path ++ " " ++ rule ++ "\n").toList ∧
        (written.toList = Text.closeLine text.toList ++ (i.keyOf path ++ " " ++ rule ++ "\n").toList ↔
          ¬ Text.HasReturn text.toList)) := by
  refine ⟨⟨file, root, parse text⟩, by rw [load, hread], ?_⟩
  intro hnew
  have hadd := add_of_not_contains (ne_true_of_eq_false hnew)
  have hfile := (file_add ⟨file, root, parse text⟩ path rule).1
  obtain ⟨saved, hsave⟩ : ∃ saved, (add ⟨file, root, parse text⟩ path rule).2.save d = .ok saved := by
    apply exists_save_of_readText hhere
    rw [hfile, hread]
  have hread := readText_save hsave
  have hwritten := toList_render_append file root text ((IgnoreFile.mk file root (parse text)).keyOf path) rule
  rw [hfile, hadd] at hread
  refine ⟨saved, _, hsave, hread, hwritten, ?_⟩
  rw [hwritten, List.append_left_inj, Text.closeLine_dropReturns_iff]

/-- A disk with an ignore file whose lines end with a carriage return and a line feed. -/
def returnsDisk : Disk :=
  ⟨[(["w"], .dir), (["w", "ignore"], .file "# managed by hand\r\nsite.yml fqcn\r\n".toUTF8 false)], []⟩

/-- An entry is added to the file. The lines before it are ended by line feeds alone when it is saved. -/
theorem save_add_verbatim_iff_returns :
    ∃ i saved, load returnsDisk ⟨"/w/ignore"⟩ ⟨"/w"⟩ = .ok i ∧ i.contains ⟨"/w/b.yml"⟩ "fqcn" = false ∧
      (i.add ⟨"/w/b.yml"⟩ "fqcn").2.save returnsDisk = .ok saved ∧
      saved.readText ⟨"/w/ignore"⟩ = .ok "# managed by hand\nsite.yml fqcn\nb.yml fqcn\n" ∧
      Text.HasReturn "# managed by hand\r\nsite.yml fqcn\r\n".toList := by
  have hread : returnsDisk.readText ⟨"/w/ignore"⟩ = .ok "# managed by hand\r\nsite.yml fqcn\r\n" :=
    Disk.readText_of_follow? ["w", "ignore"] (by decide) rfl
  obtain ⟨i, hload, hsave⟩ :=
    save_add_verbatim_iff ⟨"/w"⟩ ⟨"/w/b.yml"⟩ "fqcn" (Disk.isOpen_nil returnsDisk) hread
  have hi : i = ⟨⟨"/w/ignore"⟩, ⟨"/w"⟩, parse "# managed by hand\r\nsite.yml fqcn\r\n"⟩ := by
    rw [load, hread] at hload
    exact (Except.ok.inj hload).symm
  have hnew : i.contains ⟨"/w/b.yml"⟩ "fqcn" = false := by
    rw [hi]
    decide +kernel
  obtain ⟨saved, written, hsaved, hwritten, htext, -⟩ := hsave hnew
  have hsame : written = "# managed by hand\nsite.yml fqcn\nb.yml fqcn\n" := by
    rw [← String.toList_inj, htext, hi]
    decide +kernel
  refine ⟨i, saved, hload, hnew, hsaved, by rw [hwritten, hsame], ?_⟩
  exact ⟨"# managed by hand".toList, "site.yml fqcn\r\n".toList, by decide⟩

end IgnoreFile

end LintHub
