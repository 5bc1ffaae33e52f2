import LintHub.Proofs.Json.Head
import LintHub.Proofs.Report.Decoration
import LintHub.Proofs.Report.LogLines
import LintHub.Proofs.Report.Pairing

/-!
# A line feed at the end

A tool's two outputs are joined with a line feed. If nothing was written to the second one, the text is the first one
with a line feed at its end, and that changes nothing of what is read.

* `cleanChars_append_feed` : it belongs to no escape and to no colour, so it stays.
* `Dialect.guessChars?_append_feed` : the dialect is told from the text without outer blanks.
* `findingsAs_append_feed` : lines are the same, and so is the first value.
* `read_combined` : all of this for what a tool wrote.
-/

namespace LintHub

/-! ## Searching -/

namespace Text

/-- A run that stops at a line feed stops there or earlier. -/
theorem span_append_feed {ok : Char → Bool} (hfeed : ok '\n' = false) (s : List Char) :
    (s ++ ['\n']).takeWhile ok = s.takeWhile ok ∧ (s ++ ['\n']).dropWhile ok = s.dropWhile ok ++ ['\n'] := by
  induction s with
  | nil => simp [hfeed]
  | cons c s ih =>
    by_cases hc : ok c = true
    · simp [hc, ih]
    · simp [hc]

theorem length_span (ok : Char → Bool) (s : List Char) :
    (s.takeWhile ok).length + (s.dropWhile ok).length = s.length := by
  rw [← List.length_append, List.takeWhile_append_dropWhile]

theorem erase_append_feed {part : List Char} (hne : part ≠ []) (hpart : '\n' ∉ part) (s : List Char) :
    erase part (s ++ ['\n']) = erase part s ++ ['\n'] := by
  by_cases hstart : part <+: s
  · obtain ⟨rest, rfl⟩ := hstart
    have hlt : rest.length < (part ++ rest).length := by
      have := List.length_pos_iff.2 hne
      rw [List.length_append]
      omega
    rw [List.append_assoc, erase_part hne, erase_part hne, erase_append_feed hne hpart rest]
  · have hnot : ¬ part <+: s ++ ['\n'] := by
      intro hprefix
      rcases List.prefix_concat_iff.1 hprefix with rfl | hprefix
      · exact hpart (by simp)
      · exact hstart hprefix
    cases s with
    | nil =>
      rw [List.nil_append] at hnot ⊢
      rw [erase_cons hnot]
      rfl
    | cons c s =>
      rw [List.cons_append] at hnot ⊢
      rw [erase_cons hnot, erase_cons hstart, erase_append_feed hne hpart s, List.cons_append]
termination_by s.length

theorem trim_append_feed (s : List Char) : trim (s ++ ['\n']) = trim s :=
  trim_append_of_blanks s (List.forall_mem_singleton.2 (by decide))

end Text

namespace Report

/-! ## Cleaning -/

theorem controlLength?_append_feed (s : List Char) : controlLength? (s ++ ['\n']) = controlLength? s := by
  cases s with
  | nil => rfl
  | cons c s =>
    by_cases hc : c = '['
    · subst hc
      obtain ⟨htake, hdrop⟩ := @Text.span_append_feed (within 0x30 0x3F) (by decide) s
      obtain ⟨htake', hdrop'⟩ :=
        @Text.span_append_feed (within 0x20 0x2F) (by decide) (s.dropWhile (within 0x30 0x3F))
      rw [List.cons_append, controlLength?, controlLength?, htake, hdrop, htake', hdrop']
      cases (s.dropWhile (within 0x30 0x3F)).dropWhile (within 0x20 0x2F) with
      | nil => rfl
      | cons d rest => rfl
    · rw [List.cons_append, controlLength?.eq_2 _ (by simpa using hc), controlLength?.eq_2 _ (by simpa using hc)]

theorem commandLength?_append_feed (s : List Char) : commandLength? (s ++ ['\n']) = commandLength? s := by
  cases s with
  | nil => rfl
  | cons c s =>
    by_cases hc : c = ']'
    · subst hc
      rw [List.cons_append, commandLength?, commandLength?, List.dropWhile_append, List.takeWhile_append]
      -- The line feed would go on with the command's text, which nothing ends then.
      cases hrest : s.dropWhile isCommandText with
      | nil => rfl
      | cons d rest =>
        have hshort : (s.takeWhile isCommandText).length ≠ s.length := by
          have hlength := Text.length_span isCommandText s
          rw [hrest, List.length_cons] at hlength
          omega
        rw [if_neg hshort, List.isEmpty_cons, if_neg Bool.false_ne_true]
        cases rest with
        | nil => grind
        | cons e rest => grind
    · rw [List.cons_append, commandLength?.eq_2 _ (by simpa using hc), commandLength?.eq_2 _ (by simpa using hc)]

theorem escapeLength?_append_feed (s : List Char) : escapeLength? (s ++ ['\n']) = escapeLength? s := by
  have hpair : pairLength? (s ++ ['\n']) = pairLength? s := by
    cases s with
    | nil => rfl
    | cons c s => rfl
  rw [escapeLength?, controlLength?_append_feed, commandLength?_append_feed, hpair]
  rfl

theorem length_of_controlLength? {s : List Char} {n : Nat} (h : controlLength? s = some n) : n ≤ s.length := by
  unfold controlLength? at h
  split at h
  · next inside =>
    have hparameters := Text.length_span (within 0x30 0x3F) inside
    have hintermediates := Text.length_span (within 0x20 0x2F) (inside.dropWhile (within 0x30 0x3F))
    dsimp only at h
    split at h
    · next final after hafter =>
      rw [hafter, List.length_cons] at hintermediates
      split at h
      · rw [Option.some.injEq] at h
        rw [List.length_cons]
        omega
      · cases h
    · cases h
  · cases h

theorem length_of_commandLength? {s : List Char} {n : Nat} (h : commandLength? s = some n) : n ≤ s.length := by
  unfold commandLength? at h
  split at h
  · next inside =>
    have htext := Text.length_span isCommandText inside
    dsimp only at h
    split at h
    · next after hafter =>
      rw [hafter, List.length_cons] at htext
      rw [Option.some.injEq] at h
      rw [List.length_cons]
      omega
    · next after hafter =>
      rw [hafter, List.length_cons, List.length_cons] at htext
      rw [Option.some.injEq] at h
      rw [List.length_cons]
      omega
    · cases h
  · cases h

/-- An escape is no longer than what follows its escape character. -/
theorem length_of_escapeLength? {s : List Char} {n : Nat} (h : escapeLength? s = some n) : n ≤ s.length := by
  rw [escapeLength?, Option.or_eq_some_iff, Option.or_eq_some_iff] at h
  rcases h with hcontrol | ⟨-, hcommand | ⟨-, hpair⟩⟩
  · exact length_of_controlLength? hcontrol
  · exact length_of_commandLength? hcommand
  · cases s with
    | nil => cases hpair
    | cons c s =>
      rw [pairLength?, Option.ite_none_right_eq_some, Option.some.injEq] at hpair
      rw [List.length_cons]
      omega

theorem dropEscapesFrom_append_feed {s : List Char} {skip : Nat} (h : skip ≤ s.length) :
    dropEscapesFrom skip (s ++ ['\n']) = dropEscapesFrom skip s ++ ['\n'] := by
  induction s generalizing skip with
  | nil =>
    obtain rfl : skip = 0 := Nat.le_zero.1 h
    rfl
  | cons c s ih =>
    cases skip with
    | succ skip => exact ih (Nat.le_of_succ_le_succ h)
    | zero =>
      rw [List.cons_append, dropEscapesFrom, dropEscapesFrom, escapeLength?_append_feed]
      split
      · split
        · next n hn => exact ih (length_of_escapeLength? hn)
        · rw [ih (Nat.zero_le _), List.cons_append]
      · rw [ih (Nat.zero_le _), List.cons_append]

/-- A line feed at the end is not cleaned away, and nothing else is because of it. -/
theorem cleanChars_append_feed (s : List Char) : cleanChars (s ++ ['\n']) = cleanChars s ++ ['\n'] := by
  have hcolours (left : List String) (hleft : ∀ colour ∈ left, colour ∈ colours) (s : List Char) :
      left.foldl (fun text colour => Text.erase colour.toList text) (s ++ ['\n']) =
        left.foldl (fun text colour => Text.erase colour.toList text) s ++ ['\n'] := by
    induction left generalizing s with
    | nil => rfl
    | cons colour left ih =>
      obtain ⟨hcolour, hleft⟩ := List.forall_mem_cons.1 hleft
      obtain ⟨hne, hfeed⟩ : colour.toList ≠ [] ∧ '\n' ∉ colour.toList :=
        (by decide : ∀ colour ∈ colours, colour.toList ≠ [] ∧ '\n' ∉ colour.toList) colour hcolour
      rw [List.foldl_cons, List.foldl_cons, Text.erase_append_feed hne hfeed, ih hleft]
  rw [cleanChars, dropEscapes, dropEscapesFrom_append_feed (Nat.zero_le _)]
  exact hcolours colours (fun _ hmem => hmem) _

end Report

/-! ## Reading -/

theorem Dialect.guessChars?_append_feed (s : List Char) : guessChars? (s ++ ['\n']) = guessChars? s := by
  rw [guessChars?, Text.trim_append_feed, guessChars?]

theorem Columns.inkLines_append_last_feed (s : List Char) : inkLines (s ++ ['\n']) = inkLines s := by
  rw [inkLines_append_feed_append]
  exact List.append_nil (inkLines s)

theorem Columns.findings_append_feed (root : Path) (tool : Tool) (s : List Char) :
    findings root tool (s ++ ['\n']) = findings root tool s := by
  rw [findings, inkLines_append_last_feed, findings]

theorem Transcript.findings_append_feed (root : Path) (tool : Tool) (s : List Char) :
    findings root tool (s ++ ['\n']) = findings root tool s := by
  rw [findings, Columns.inkLines_append_last_feed, findings]

/-- The line feed is behind the bracket that ends an array, so it neither makes nor spoils one. -/
theorem Json.valueAs?_arr_append_feed_iff {depth : Nat} {s : List Char} {items : List Json} :
    (∃ rest, valueAs? (depth + 1) .whole (s ++ ['\n']) = some (.arr items, rest)) ↔
      ∃ rest, valueAs? (depth + 1) .whole s = some (.arr items, rest) := by
  constructor
  · rintro ⟨rest, h⟩
    obtain ⟨t, ht⟩ := skipSpace_of_valueAs?_arr h
    obtain ⟨inside, hinside⟩ := exists_append_of_bracket ht h
    obtain ⟨head, hhead, -, hread⟩ := exists_valueAs?_of_bracket exists_valueAs? ht h
    cases rest using List.reverseRecOn with
    | nil =>
      have hlast := (List.append_inj' hinside rfl).2
      cases hlast
    | append_singleton rest c =>
      rw [← List.append_assoc] at hhead
      obtain ⟨rfl, -⟩ := List.append_inj' hhead rfl
      exact ⟨rest, hread rest⟩
  · rintro ⟨rest, h⟩
    obtain ⟨t, ht⟩ := skipSpace_of_valueAs?_arr h
    obtain ⟨head, rfl, -, hread⟩ := exists_valueAs?_of_bracket exists_valueAs? ht h
    refine ⟨rest ++ ['\n'], ?_⟩
    rw [List.append_assoc]
    exact hread (rest ++ ['\n'])

theorem Issues.findings_append_feed (root : Path) (tool : Tool) (s : List Char) :
    findings root tool (s ++ ['\n']) = findings root tool s := by
  by_cases h : ∃ items rest, Json.valueAs? Json.maxDepth .whole s = some (.arr items, rest)
  · obtain ⟨items, rest, hread⟩ := h
    obtain ⟨rest', hread'⟩ := Json.valueAs?_arr_append_feed_iff.2 ⟨rest, hread⟩
    rw [findings, findings, hread, Json.maxDepth, hread']
  · have hcolumns (u : List Char) (hu : ∀ items rest, Json.valueAs? Json.maxDepth .whole u ≠ some (.arr items, rest)) :
        findings root tool u = Columns.findings root tool u := by
      unfold findings
      split
      · next items rest hread => exact absurd hread (hu items rest)
      · rfl
    have hnone (items : List Json) (rest : List Char) :
        Json.valueAs? Json.maxDepth .whole (s ++ ['\n']) ≠ some (.arr items, rest) := by
      intro hread
      exact h ⟨items, Json.valueAs?_arr_append_feed_iff.1 ⟨rest, hread⟩⟩
    rw [hcolumns s fun items rest hread => h ⟨items, rest, hread⟩, hcolumns _ hnone, Columns.findings_append_feed]

namespace Report

theorem findingsAs_append_feed (dialect : Dialect) (root : Path) (tool : Tool) (s : List Char) :
    findingsAs dialect root tool (s ++ ['\n']) = findingsAs dialect root tool s := by
  cases dialect with
  | issues => exact Issues.findings_append_feed root tool s
  | columns => exact Columns.findings_append_feed root tool s
  | transcript => exact Transcript.findings_append_feed root tool s

theorem read_append_feed (s : String) (root : Path) (tool : Tool) (dialect : Option Dialect) :
    read (s ++ "\n") root tool dialect = read s root tool dialect := by
  have hs : (s ++ "\n").toList = s.toList ++ ['\n'] := String.toList_append
  simp only [read, readChars, hs, cleanChars_append_feed, Text.trim_append_feed, Dialect.guessChars?_append_feed,
    findingsAs_append_feed]

/-- What is read of a tool that wrote to one output only is what is read of that output. -/
theorem read_combined (s : String) (root : Path) (tool : Tool) (dialect : Option Dialect) :
    read (combined s "") root tool dialect = read s root tool dialect := by
  rw [combined, String.append_empty, read_append_feed]

end Report

end LintHub
