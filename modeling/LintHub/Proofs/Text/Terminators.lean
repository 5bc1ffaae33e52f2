import LintHub.Proofs.Text.Lines

/-!
# Terminators of lines

* `dropReturns` : a text without the carriage returns of its terminators. `dropReturns_eq_self_iff` : when there are none.
* `flatMap_lines` : the lines of a text, each ended by a line feed, are this text with a line feed at its end.
-/

namespace LintHub.Text

variable {s l : List Char}

/-- The text without the carriage return right before each of its line feeds. -/
def dropReturns : List Char → List Char
  | '\r' :: '\n' :: rest => '\n' :: dropReturns rest
  | c :: rest => c :: dropReturns rest
  | [] => []

/-- The text with a line feed at its end, unless it is empty. -/
def closeLine (s : List Char) : List Char :=
  match s.getLast? with
  | some '\n' => s
  | some _ => s ++ ['\n']
  | none => s

/-- A text of which some line ends with a carriage return and a line feed. -/
def HasReturn (s : List Char) : Prop := ['\r', '\n'] <:+: s

theorem dropReturns_of_notMem (h : '\n' ∉ l) : dropReturns l = l := by
  fun_induction dropReturns l with
  | case1 rest ih => simp at h
  | case2 c rest hne ih => rw [ih (fun hmem => h (List.mem_cons_of_mem _ hmem))]
  | case3 => rfl

theorem dropReturns_append_feed (s : List Char) (h : '\n' ∉ l) :
    dropReturns (l ++ '\n' :: s) = dropReturn l ++ '\n' :: dropReturns s := by
  induction l with
  | nil =>
    rw [List.nil_append, dropReturns]
    · rfl
    · simp
  | cons c l ih =>
    rw [List.mem_cons, not_or] at h
    cases l with
    | nil =>
      by_cases hc : c = '\r'
      · rw [hc, List.singleton_append, dropReturns]
        rfl
      · have hline : dropReturn [c] = [c] := if_neg (by simp [hc])
        rw [List.singleton_append, dropReturns, ← List.nil_append ('\n' :: s), ih h.2, hline]
        · rfl
        · simp [hc]
    | cons e l =>
      rw [List.cons_append, dropReturns, ih h.2, dropReturn, dropReturn, List.getLast?_cons_cons,
        List.dropLast_cons_cons]
      · split <;> rfl
      · intro rest hc hrest
        obtain ⟨rfl, -⟩ := List.cons.inj hrest
        exact h.2 List.mem_cons_self

theorem dropReturns_eq_self_iff (s : List Char) : dropReturns s = s ↔ ¬ HasReturn s := by
  fun_induction dropReturns s with
  | case1 rest ih =>
    refine iff_of_false (by simp) (not_not.2 ?_)
    exact (List.prefix_append ['\r', '\n'] rest).isInfix
  | case2 c rest hne ih =>
    have hstart : ¬ ['\r', '\n'] <+: c :: rest := by
      rintro ⟨more, hmore⟩
      obtain ⟨hc, hrest⟩ := List.cons.inj hmore
      exact hne more hc.symm hrest.symm
    rw [List.cons.injEq, ih, HasReturn, HasReturn, List.infix_cons_iff]
    simp [hstart]
  | case3 => simp [HasReturn]

theorem getLast?_dropReturns (s : List Char) : (dropReturns s).getLast? = s.getLast? := by
  fun_induction dropReturns s with
  | case1 rest ih => simp [List.getLast?_cons, ih]
  | case2 c rest hne ih => rw [List.getLast?_cons, List.getLast?_cons, ih]
  | case3 => rfl

theorem closeLine_dropReturns_iff (s : List Char) : closeLine (dropReturns s) = closeLine s ↔ ¬ HasReturn s := by
  rw [← dropReturns_eq_self_iff, closeLine, closeLine, getLast?_dropReturns]
  split
  · rfl
  · exact List.append_left_inj _
  · rfl

theorem closeLine_append_feed (a b : List Char) : closeLine (a ++ '\n' :: b) = a ++ '\n' :: closeLine b := by
  cases b using List.reverseRecOn with
  | nil => simp [closeLine]
  | append_singleton b c =>
    have hlast : (a ++ '\n' :: (b ++ [c])).getLast? = some c := by
      rw [← List.cons_append, ← List.append_assoc, List.getLast?_concat]
    rw [closeLine, closeLine, hlast, List.getLast?_concat]
    split
    · rfl
    · rw [List.append_assoc, List.cons_append]
    · rfl

theorem closeLine_of_notMem (hne : l ≠ []) (h : '\n' ∉ l) : closeLine l = l ++ ['\n'] := by
  rw [closeLine]
  split
  · next hlast => exact absurd (List.mem_of_getLast? hlast) h
  · rfl
  · next hnil => exact absurd (List.getLast?_eq_none_iff.1 hnil) hne

/-- The lines of a text, each of them ended by a line feed. -/
theorem flatMap_lines (s : List Char) : ((lines s).flatMap fun l => l ++ ['\n']) = closeLine (dropReturns s) := by
  induction s using lines_induction with
  | last l hl =>
    by_cases hnil : l = []
    · rw [hnil]
      rfl
    · rw [lines_of_notMem hnil hl, List.flatMap_singleton, dropReturns_of_notMem hl, closeLine_of_notMem hnil hl]
  | feed l s hl ih =>
    rw [lines_append_feed s hl, List.flatMap_cons, ih, dropReturns_append_feed s hl, closeLine_append_feed,
      List.append_assoc, List.singleton_append]

end LintHub.Text
