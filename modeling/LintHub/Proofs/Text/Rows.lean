import LintHub.Proofs.Text.Lines

/-!
# Rows

Line number `row` of a text is cut out of it.

* `IsRow` : the characters of the line, its terminator, and what stands before and after both.
* `exists_isRow` : a text has a row for each of its line feeds, and one behind them.
* `getElem?_lines_of_isRow` : `lines` gives the characters of each row, except those of an empty last one.
-/

namespace LintHub.Text

/-- How a line ends that stands before `after`: with a line feed, with a carriage return and a line feed, or with the
text. -/
inductive IsEnding (line after : List Char) : List Char → Prop where
  | feed : line.getLast? ≠ some '\r' → IsEnding line after ['\n']
  | returnFeed : IsEnding line after ['\r', '\n']
  | last : after = [] → IsEnding line after []

/-- The line of that number, counted from zero. -/
structure IsRow (s : List Char) (row : Nat) (before line ending after : List Char) : Prop where
  text : s = before ++ (line ++ (ending ++ after))
  row : before.count '\n' = row
  start : ∀ c ∈ before.getLast?, c = '\n'
  inner : '\n' ∉ line
  ending : IsEnding line after ending

variable {s l before line ending after : List Char} {row : Nat}

/-! ## Cutting a text -/

theorem IsRow.cons_line (h : IsRow s row before line ending after) (hl : '\n' ∉ l) :
    IsRow (l ++ '\n' :: s) (row + 1) (l ++ '\n' :: before) line ending after where
  text := by rw [h.text, List.append_assoc, List.cons_append]
  row := by rw [List.count_append, List.count_cons_self, List.count_eq_zero_of_not_mem hl, h.row, Nat.zero_add]
  start := by
    intro c hc
    rw [List.getLast?_append, List.getLast?_cons, Option.some_or] at hc
    cases hbefore : before.getLast? with
    | none => simpa [hbefore, eq_comm] using hc
    | some d =>
      have hd : d = '\n' := h.start d hbefore
      simpa [hbefore, hd, eq_comm] using hc
  inner := h.inner
  ending := h.ending

/-- A line without its return, and its terminator. -/
theorem exists_isRow_zero (s : List Char) (hl : '\n' ∉ l) :
    ∃ ending, IsRow (l ++ '\n' :: s) 0 [] (dropReturn l) ending s := by
  by_cases hreturn : l.getLast? = some '\r'
  · have hline : l = dropReturn l ++ ['\r'] := by
      rw [dropReturn, if_pos hreturn]
      exact (List.dropLast_append_getLast? _ hreturn).symm
    refine ⟨['\r', '\n'], ?_, rfl, by simp, ?_, .returnFeed⟩
    · conv_lhs => rw [hline]
      simp
    · intro hfeed
      exact hl (hline ▸ List.mem_append_left _ hfeed)
  · have hline : dropReturn l = l := if_neg hreturn
    rw [hline]
    exact ⟨['\n'], rfl, rfl, by simp, hl, .feed hreturn⟩

theorem exists_isRow (s : List Char) (h : row ≤ s.count '\n') :
    ∃ before line ending after, IsRow s row before line ending after := by
  induction s using lines_induction generalizing row with
  | last l hl =>
    obtain rfl : row = 0 := by
      rw [List.count_eq_zero_of_not_mem hl] at h
      omega
    exact ⟨[], l, [], [], by simp, rfl, by simp, hl, .last rfl⟩
  | feed l s hl ih =>
    cases row with
    | zero =>
      obtain ⟨ending, hrow⟩ := exists_isRow_zero s hl
      exact ⟨[], dropReturn l, ending, s, hrow⟩
    | succ row =>
      rw [List.count_append, List.count_cons_self, List.count_eq_zero_of_not_mem hl] at h
      have hle : row ≤ s.count '\n' := by omega
      obtain ⟨before, line, ending, after, hrow⟩ := ih hle
      exact ⟨l ++ '\n' :: before, line, ending, after, hrow.cons_line hl⟩

/-! ## The lines of a text -/

theorem length_lines_append_feed (s : List Char) : (lines (s ++ ['\n'])).length = s.count '\n' + 1 := by
  induction s using lines_induction with
  | last l hl =>
    rw [lines_append_feed [] hl, List.count_eq_zero_of_not_mem hl]
    rfl
  | feed l s hl ih =>
    rw [List.append_assoc, List.cons_append, lines_append_feed _ hl, List.length_cons, ih, List.count_append,
      List.count_cons_self, List.count_eq_zero_of_not_mem hl]
    omega

theorem length_lines_le (s : List Char) : (lines s).length ≤ s.count '\n' + 1 := by
  induction s using lines_induction with
  | last l hl =>
    by_cases hnil : l = []
    · rw [hnil]
      exact Nat.zero_le _
    · rw [lines_of_notMem hnil hl]
      exact Nat.le_add_left _ _
  | feed l s hl ih =>
    rw [lines_append_feed s hl, List.length_cons, List.count_append, List.count_cons_self]
    omega

/-- A text goes on after the terminators of some lines. -/
theorem getElem?_lines_append (rest : List Char) (hstart : ∀ c ∈ before.getLast?, c = '\n') :
    (lines (before ++ rest))[before.count '\n']? = (lines rest)[0]? := by
  cases before using List.reverseRecOn with
  | nil => rfl
  | append_singleton lead c =>
    obtain rfl : c = '\n' := hstart c (by simp)
    have hlength := length_lines_append_feed lead
    rw [List.append_assoc, List.singleton_append, lines_append_feed_append, List.count_append, List.count_singleton_self,
      List.getElem?_append_right (by omega), hlength, Nat.sub_self]

theorem getElem?_lines_of_isRow (h : IsRow s row before line ending after) :
    (lines s)[row]? = if line ++ ending = [] then none else some line := by
  rw [h.text, ← h.row, getElem?_lines_append _ h.start]
  cases h.ending with
  | feed hreturn =>
    have hline : dropReturn line = line := if_neg hreturn
    rw [List.singleton_append, lines_append_feed _ h.inner, List.getElem?_cons_zero, hline, if_neg (by simp)]
  | returnFeed =>
    have hline : dropReturn (line ++ ['\r']) = line := by
      rw [dropReturn, if_pos (by simp), List.dropLast_concat]
    have hinner : '\n' ∉ line ++ ['\r'] := by simpa using h.inner
    have htext : line ++ (['\r', '\n'] ++ after) = (line ++ ['\r']) ++ '\n' :: after := by simp
    rw [htext, lines_append_feed _ hinner, List.getElem?_cons_zero, hline, if_neg (by simp)]
  | last hafter =>
    rw [hafter, List.append_nil, List.append_nil]
    split
    · next hnil =>
      rw [hnil]
      rfl
    · next hne =>
      rw [lines_of_notMem hne h.inner]
      rfl

/-- The lines of a text are its rows, except an empty one behind its last terminator. -/
theorem getElem?_lines_eq_some_iff :
    (lines s)[row]? = some line ↔
      ∃ before ending after, IsRow s row before line ending after ∧ line ++ ending ≠ [] := by
  constructor
  · intro hline
    have hlt := (List.getElem?_eq_some_iff.1 hline).1
    have hlength := length_lines_le s
    have hle : row ≤ s.count '\n' := by omega
    obtain ⟨before, line', ending, after, h⟩ := exists_isRow s hle
    have hrow := getElem?_lines_of_isRow h
    rw [hline] at hrow
    split at hrow
    · cases hrow
    · next hne =>
      obtain rfl := Option.some.inj hrow
      exact ⟨before, ending, after, h, hne⟩
  · rintro ⟨before, ending, after, h, hne⟩
    rw [getElem?_lines_of_isRow h, if_neg hne]

end LintHub.Text
