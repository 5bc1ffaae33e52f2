import LintHub.Proofs.Text.Trim

/-!
# Lines

* `lines_append_feed` : a line feed ends the first line, `lines_of_notMem` : a text without one is a line.
* `lines_append_feed_append` : a text is cut at any of its line feeds.
* `lines_induction` : what holds of such a text, and of a line in front of a text of which it holds, holds of every text.
* `trimStart_dropReturn` : the carriage return of a terminator is at the end of a line, so its start stays.
-/

namespace LintHub.Text

theorem linesFrom_append {l : List Char} (h : '\n' ∉ l) (acc s : List Char) :
    linesFrom acc (l ++ s) = linesFrom (l.reverse ++ acc) s := by
  induction l generalizing acc with
  | nil => rfl
  | cons c l ih =>
    have hc : c ≠ '\n' := by rintro rfl; simp at h
    have hl : '\n' ∉ l := fun hm => h (by simp [hm])
    rw [List.cons_append, linesFrom, if_neg hc, ih hl]
    simp

theorem lines_append_feed {l : List Char} (s : List Char) (h : '\n' ∉ l) :
    lines (l ++ '\n' :: s) = dropReturn l :: lines s := by
  rw [lines, linesFrom_append h, linesFrom, if_pos rfl]
  simp [lines]

theorem lines_of_notMem {l : List Char} (hne : l ≠ []) (h : '\n' ∉ l) : lines l = [l] := by
  have hrun := linesFrom_append h [] []
  rw [List.append_nil] at hrun
  rw [lines, hrun, linesFrom]
  simp [hne]

theorem lines_induction {P : List Char → Prop} (last : ∀ l, '\n' ∉ l → P l)
    (feed : ∀ l s, '\n' ∉ l → P s → P (l ++ '\n' :: s)) (s : List Char) : P s := by
  by_cases h : '\n' ∈ s
  · obtain ⟨l, t, hs, hl⟩ := List.eq_append_cons_of_mem h
    have hlt : t.length < s.length := by rw [hs]; simp; omega
    rw [hs]
    exact feed l t hl (lines_induction last feed t)
  · exact last s h
termination_by s.length

theorem lines_append_feed_append (a b : List Char) : lines (a ++ '\n' :: b) = lines (a ++ ['\n']) ++ lines b := by
  induction a using lines_induction with
  | last l hl => rw [lines_append_feed b hl, lines_append_feed [] hl]; rfl
  | feed l s hl ih => simp only [List.append_assoc, List.cons_append, lines_append_feed _ hl, ih]

theorem feed_notMem_of_mem_lines {s l : List Char} (h : l ∈ lines s) : '\n' ∉ l := by
  induction s using lines_induction with
  | last s hs =>
    by_cases hnil : s = []
    · simp [hnil, lines, linesFrom] at h
    · rw [lines_of_notMem hnil hs, List.mem_singleton] at h
      rwa [h]
  | feed a s ha ih =>
    rw [lines_append_feed s ha, List.mem_cons] at h
    rcases h with rfl | h
    · intro hfeed
      rw [dropReturn] at hfeed
      split at hfeed
      · exact ha (List.dropLast_subset a hfeed)
      · exact ha hfeed
    · exact ih h

/-- The start of a line with some text. -/
theorem trimStart_dropReturn {l t : List Char} {c : Char} (h : trimStart l = c :: t) :
    ∃ t', trimStart (dropReturn l) = c :: t' ∧ t' <+: t := by
  have hc : isBlank c = false := isBlank_head_trimStart (s := l) (by rw [h]; rfl)
  obtain ⟨a, hl, ha⟩ := exists_blanks_append_trimStart l
  rw [h] at hl
  have hstart (u : List Char) : trimStart (a ++ c :: u) = c :: u := by
    rw [trimStart_append_of_blanks _ ha, trimStart_cons_of_ink u hc]
  rw [dropReturn]
  split
  · next hreturn =>
    have hne : t ≠ [] := by
      rintro rfl
      rw [hl, List.getLast?_append, List.getLast?_singleton, Option.some_or, Option.some.injEq] at hreturn
      rw [hreturn] at hc
      exact absurd hc (by decide)
    refine ⟨t.dropLast, ?_, List.dropLast_prefix t⟩
    rw [hl, List.dropLast_append_of_ne_nil (by simp), List.dropLast_cons_of_ne_nil hne, hstart]
  · exact ⟨t, h, List.prefix_rfl⟩

theorem trimStart_dropReturn_of_blank {l : List Char} (h : trimStart l = []) : trimStart (dropReturn l) = [] := by
  rw [trimStart_eq_nil] at h ⊢
  intro c hc
  refine h c ?_
  rw [dropReturn] at hc
  split at hc
  · exact List.dropLast_subset l hc
  · exact hc

end LintHub.Text
