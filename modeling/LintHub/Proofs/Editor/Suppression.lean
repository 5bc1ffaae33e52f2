import LintHub.Proofs.Editor.Offers
import LintHub.Proofs.Text.Rows
import LintHub.Proofs.Text.Units

/-!
# Comments that suppress findings

An editor keeps a document in UTF-16, and ends its lines at line feeds and carriage returns.

* `Position.offset?` : the code units before a place, as an editor counts them. `Position.insert?` : the document with a
  text inserted there.
* `Text.TwoEndings` : each carriage return belongs to a line feed, so that both ways to cut a text into lines agree.
* `Position.offset?_endOfLine` : the end of a line is right before its terminator.
* `Action.suppress_inserts_in_row` : the comment that suppresses a finding goes to the end of its line, and nothing
  else changes.
-/

namespace LintHub

open Text (IsRow IsEnding codeUnits unitsOf unitLength)

/-! ## Documents of an editor -/

namespace Position

def lineFeed : UInt16 := UInt16.ofNat '\n'.toNat

def carriageReturn : UInt16 := UInt16.ofNat '\r'.toNat

/-- A code unit that ends a line, or belongs to what ends it. -/
def isTerminator (u : UInt16) : Bool := u == lineFeed || u == carriageReturn

/-- The code units before the line of that number. A carriage return with a line feed behind it ends no line alone. -/
def lineOffset? : Nat → List UInt16 → Option Nat
  | 0, _ => some 0
  | _ + 1, [] => none
  | n + 1, u :: rest =>
    if u = lineFeed ∨ (u = carriageReturn ∧ rest.head? ≠ some lineFeed) then (lineOffset? n rest).map (· + 1)
    else (lineOffset? (n + 1) rest).map (· + 1)

/-- The code units of the first line. -/
def lineLength (units : List UInt16) : Nat := (units.takeWhile fun u => !isTerminator u).length

/-- The code units before a place; one behind the end of a line is at its end. -/
def offset? (p : Position) (units : List UInt16) : Option Nat :=
  (lineOffset? p.line units).map fun start => start + min p.character (lineLength (units.drop start))

/-- The document with more code units at a place. -/
def insert? (p : Position) (more units : List UInt16) : Option (List UInt16) :=
  (p.offset? units).map fun n => units.take n ++ more ++ units.drop n

end Position

/-! ## Two kinds of terminators -/

/-- Lines end with a line feed, or with a carriage return and a line feed. -/
def Text.TwoEndings (s : List Char) : Prop := ∀ a b, s = a ++ '\r' :: b → b.head? = some '\n'

variable {s l before line ending after : List Char} {row : Nat}

theorem Text.twoEndings_cons {c : Char} : TwoEndings (c :: s) ↔ (c = '\r' → s.head? = some '\n') ∧ TwoEndings s := by
  constructor
  · intro h
    exact ⟨fun hc => h [] s (by rw [hc]; rfl), fun a b hs => h (c :: a) b (by rw [hs]; rfl)⟩
  · rintro ⟨hc, hs⟩ a b heq
    cases a with
    | nil =>
      obtain ⟨hreturn, rfl⟩ := List.cons.inj heq
      exact hc hreturn
    | cons d a => exact hs a b (List.cons.inj heq).2

instance Text.decidableTwoEndings : (s : List Char) → Decidable (TwoEndings s)
  | [] => isTrue fun a b h => by simp at h
  | _ :: s =>
    have := Text.decidableTwoEndings s
    decidable_of_iff _ Text.twoEndings_cons.symm

theorem Text.TwoEndings.append_right {a : List Char} (h : TwoEndings (a ++ s)) : TwoEndings s := by
  intro b c hs
  exact h (a ++ b) c (by rw [hs, List.append_assoc])

/-- A carriage return stands at the end of a line only. -/
theorem Text.TwoEndings.return_notMem {c : Char} (h : TwoEndings (c :: l ++ '\n' :: s)) (hl : '\n' ∉ l) (hne : l ≠ []) :
    c ≠ '\r' := by
  rintro rfl
  have hnext := h [] (l ++ '\n' :: s) rfl
  rw [List.head?_append_of_ne_nil _ hne] at hnext
  exact hl (List.mem_of_head? hnext)

namespace Position

theorem not_isTerminator_of_mem {c : Char} {u : UInt16} (hfeed : c ≠ '\n') (hreturn : c ≠ '\r') (hu : u ∈ unitsOf c) :
    isTerminator u = false := by
  have h1 : u ≠ lineFeed := Text.ne_of_mem_unitsOf (by decide) hfeed hu
  have h2 : u ≠ carriageReturn := Text.ne_of_mem_unitsOf (by decide) hreturn hu
  simp [isTerminator, h1, h2]

theorem lineOffset?_append {units : List UInt16} (h : ∀ u ∈ units, isTerminator u = false) (n : Nat)
    (rest : List UInt16) : lineOffset? (n + 1) (units ++ rest) = (lineOffset? (n + 1) rest).map (· + units.length) := by
  induction units with
  | nil => simp
  | cons u units ih =>
    have hu := h u List.mem_cons_self
    rw [isTerminator, Bool.or_eq_false_iff, beq_eq_false_iff_ne, beq_eq_false_iff_ne] at hu
    rw [List.cons_append, lineOffset?, if_neg (by simp [hu.1, hu.2]), ih fun v hv => h v (List.mem_cons_of_mem _ hv),
      Option.map_map]
    rfl

/-- The line after the first one starts behind its line feed. -/
theorem lineOffset?_feed (h : Text.TwoEndings (l ++ '\n' :: s)) (hl : '\n' ∉ l) (n : Nat) :
    lineOffset? (n + 1) (codeUnits (l ++ '\n' :: s)) =
      (lineOffset? n (codeUnits s)).map (· + (codeUnits (l ++ ['\n'])).length) := by
  induction l with
  | nil => rfl
  | cons c l ih =>
    rw [List.mem_cons, not_or] at hl
    by_cases hreturn : c = '\r'
    · -- The carriage return belongs to the line feed behind it.
      obtain rfl : l = [] := by
        by_contra hne
        exact h.return_notMem hl.2 hne hreturn
      rw [hreturn]
      show lineOffset? (n + 1) (carriageReturn :: lineFeed :: codeUnits s) = _
      rw [lineOffset?, if_neg (by simp; decide), lineOffset?, if_pos (.inl rfl), Option.map_map]
      rfl
    · have htail : Text.TwoEndings (l ++ '\n' :: s) := Text.TwoEndings.append_right (a := [c]) h
      have hunits (u : UInt16) (hu : u ∈ unitsOf c) : isTerminator u = false :=
        not_isTerminator_of_mem (Ne.symm hl.1) hreturn hu
      rw [List.cons_append, Text.codeUnits_cons, lineOffset?_append hunits, ih htail hl.2, Option.map_map,
        List.cons_append, Text.codeUnits_cons, List.length_append]
      congr 1
      funext k
      dsimp only [Function.comp_apply]
      omega

/-- An editor finds the row that a text is cut at. -/
theorem lineOffset?_of_isRow (h : IsRow s row before line ending after) (htwo : Text.TwoEndings s) :
    lineOffset? row (codeUnits s) = some (codeUnits before).length := by
  obtain ⟨rfl, rfl, hstart, -, -⟩ := h
  generalize line ++ (ending ++ after) = rest at htwo
  induction before using Text.lines_induction with
  | last l hl =>
    obtain rfl : l = [] := by
      rw [← List.getLast?_eq_none_iff, Option.eq_none_iff_forall_ne_some]
      intro c hc
      obtain rfl := hstart c hc
      exact hl (List.mem_of_getLast? hc)
    rw [List.count_nil, lineOffset?]
    rfl
  | feed l b hl ih =>
    rw [List.append_assoc, List.cons_append] at htwo ⊢
    have hb : ∀ c ∈ b.getLast?, c = '\n' := by
      intro c hc
      have hlast : (l ++ '\n' :: b).getLast? = some c := by
        rw [List.getLast?_append, List.getLast?_cons, hc]
        rfl
      exact hstart c hlast
    have hrest : Text.TwoEndings (b ++ rest) := Text.TwoEndings.append_right (a := l ++ ['\n']) (by simpa using htwo)
    have hlength : (codeUnits (l ++ '\n' :: b)).length = (codeUnits b).length + (codeUnits (l ++ ['\n'])).length := by
      rw [← List.singleton_append, ← List.append_assoc, Text.codeUnits_append, List.length_append, Nat.add_comm]
    rw [List.count_append, List.count_cons_self, List.count_eq_zero_of_not_mem hl, Nat.zero_add,
      lineOffset?_feed htwo hl, ih hb hrest, hlength]
    rfl

theorem return_notMem_of_isRow (h : IsRow s row before line ending after) (htwo : Text.TwoEndings s) : '\r' ∉ line := by
  intro hreturn
  obtain ⟨a, b, rfl⟩ := List.append_of_mem hreturn
  have hnext : (b ++ (ending ++ after)).head? = some '\n' :=
    htwo (before ++ a) (b ++ (ending ++ after)) (by rw [h.text]; simp)
  cases b with
  | cons c b =>
    obtain rfl : c = '\n' := Option.some.inj hnext
    exact h.inner (by simp)
  | nil =>
    cases h.ending with
    | feed hline => exact hline (by simp)
    | returnFeed => cases hnext
    | last hafter => rw [hafter] at hnext; cases hnext

/-- An editor and `lines` agree on the length of a row. -/
theorem lineLength_of_isRow (h : IsRow s row before line ending after) (htwo : Text.TwoEndings s) :
    lineLength (codeUnits (line ++ (ending ++ after))) = (codeUnits line).length := by
  have hline : ∀ u ∈ codeUnits line, (!isTerminator u) = true := by
    intro u hu
    obtain ⟨c, hc, hu⟩ := List.mem_flatMap.1 hu
    have hfeed : c ≠ '\n' := fun heq => h.inner (heq ▸ hc)
    have hreturn : c ≠ '\r' := fun heq => return_notMem_of_isRow h htwo (heq ▸ hc)
    rw [not_isTerminator_of_mem hfeed hreturn hu]
    rfl
  have hrest : (codeUnits (ending ++ after)).takeWhile (fun u => !isTerminator u) = [] := by
    cases h.ending with
    | feed _ => rfl
    | returnFeed => rfl
    | last hafter => rw [hafter]; rfl
  rw [lineLength, Text.codeUnits_append, List.takeWhile_append_of_pos hline, hrest, List.append_nil]

/-! ## Insertions -/

theorem endOfLine_of_isRow {t : String} (h : IsRow t.toList row before line ending after) :
    endOfLine t row = ⟨row, unitLength line⟩ := by
  rw [endOfLine, Text.getElem?_lines_of_isRow h]
  split
  · next hnil =>
    rw [(List.append_eq_nil_iff.1 hnil).1]
    rfl
  · rfl

/-- The end of a line is right before its terminator. -/
theorem offset?_endOfLine {t : String} (h : IsRow t.toList row before line ending after)
    (htwo : Text.TwoEndings t.toList) :
    (endOfLine t row).offset? (codeUnits t.toList) = some (codeUnits (before ++ line)).length := by
  have hfrom : (codeUnits t.toList).drop (codeUnits before).length = codeUnits (line ++ (ending ++ after)) := by
    rw [Text.length_codeUnits, h.text, Text.drop_codeUnits]
  rw [endOfLine_of_isRow h, offset?, lineOffset?_of_isRow h htwo, Option.map_some, hfrom, lineLength_of_isRow h htwo,
    Text.length_codeUnits line, Nat.min_self, Text.codeUnits_append, List.length_append, Text.length_codeUnits line]

theorem insert?_endOfLine {t : String} (h : IsRow t.toList row before line ending after)
    (htwo : Text.TwoEndings t.toList) (more : List Char) :
    (endOfLine t row).insert? (codeUnits more) (codeUnits t.toList) =
      some (codeUnits (before ++ (line ++ more ++ (ending ++ after)))) := by
  have htext : t.toList = (before ++ line) ++ (ending ++ after) := by rw [h.text, List.append_assoc]
  rw [insert?, offset?_endOfLine h htwo, Option.map_some, htext, Text.length_codeUnits, Text.take_codeUnits,
    Text.drop_codeUnits]
  simp only [Text.codeUnits_append, List.append_assoc]

end Position

/-! ## Suppressing -/

namespace Action

variable {url : Url} {t : String} {fs : List Finding} {range : Range} {f : Finding}

/-- A finding of a tool that reads comments, on a line of the document, can be suppressed: two blanks and the comment
are inserted between the characters of its line and the terminator, and all else stays as it is. -/
theorem suppress_inserts_in_row (url : Url) (hf : f ∈ fs) (hrange : range.hasLine f.row = true)
    (htool : f.tool ≠ .preCommit) (htwo : Text.TwoEndings t.toList) (hrow : f.row ≤ t.toList.count '\n') :
    ∃ a comment place before line ending after,
      suppress? url (some t) f = some a ∧ a ∈ offered url (some t) fs range ∧ a.mark = .of f (some t) ∧
      f.tool.suppression? f.rule = some comment ∧ a.deed = .insert url place ("  " ++ comment) ∧
      IsRow t.toList f.row before line ending after ∧
      place.insert? (codeUnits ("  " ++ comment).toList) (codeUnits t.toList) =
        some (codeUnits (before ++ (line ++ ("  " ++ comment).toList ++ (ending ++ after)))) := by
  have hsome : (suppress? url (some t) f).isSome = true := by
    rw [isSome_suppress?]
    simp [htool]
  obtain ⟨a, ha⟩ := Option.isSome_iff_exists.1 hsome
  obtain ⟨t', comment, ht', hcomment, hdeed⟩ := suppress?_eq_some_iff.1 ha
  obtain rfl := Option.some.inj ht'
  obtain ⟨before, line, ending, after, hcut⟩ := Text.exists_isRow _ hrow
  have hoffered : a ∈ offered url (some t) fs range := by
    have hmem : a ∈ (offered url (some t) fs range).filter fun b => b.kind = .suppress := by
      rw [offered, filter_suppress_offeredFrom]
      exact List.mem_filterMap.2 ⟨f, List.mem_filter.2 ⟨hf, hrange⟩, ha⟩
    exact List.mem_of_mem_filter hmem
  exact ⟨a, comment, .endOfLine t f.row, before, line, ending, after, ha, hoffered, mark_of_offer (.inl ha), hcomment,
    by rw [hdeed], hcut, Position.insert?_endOfLine hcut htwo _⟩

def mixedEndings : String := "- copy: \"🎉\"\r\n  when: yes\n\r\n"

def firstFinding : Finding := (Finding.new ⟨"/w/site.yml"⟩ "no-changed-when" "m" .ansibleLint).onLine 1

/-- The comment goes behind a character of two code units, and before a terminator of two. -/
theorem suppress_inserts_in_row_mixed :
    firstFinding ∈ siteFindings ∧ Range.hasLine ⟨⟨0, 0⟩, ⟨1, 0⟩⟩ firstFinding.row = true ∧
    firstFinding.tool ≠ .preCommit ∧ Text.TwoEndings mixedEndings.toList ∧
    firstFinding.row ≤ mixedEndings.toList.count '\n' ∧
    ∃ a ∈ offered siteUrl (some mixedEndings) siteFindings ⟨⟨0, 0⟩, ⟨1, 0⟩⟩, ∃ place,
      a.deed = .insert siteUrl place "  # noqa: no-changed-when" ∧
      place.insert? (codeUnits "  # noqa: no-changed-when".toList) (codeUnits mixedEndings.toList) =
        some (codeUnits "- copy: \"🎉\"  # noqa: no-changed-when\r\n  when: yes\n\r\n".toList) := by
  have hf : firstFinding ∈ siteFindings := by decide +kernel
  have hrange : Range.hasLine ⟨⟨0, 0⟩, ⟨1, 0⟩⟩ firstFinding.row = true := by decide +kernel
  have htool : firstFinding.tool ≠ .preCommit := by decide +kernel
  have htwo : Text.TwoEndings mixedEndings.toList := by decide +kernel
  have hrow : firstFinding.row ≤ mixedEndings.toList.count '\n' := by decide +kernel
  obtain ⟨a, comment, place, before, line, ending, after, ha, hoffered, -, -, hdeed, -, -⟩ :=
    suppress_inserts_in_row siteUrl hf hrange htool htwo hrow
  have hmade : (suppress? siteUrl (some mixedEndings) firstFinding).map deed =
      some (.insert siteUrl ⟨0, 12⟩ "  # noqa: no-changed-when") := by decide +kernel
  rw [ha, Option.map_some, Option.some.injEq] at hmade
  exact ⟨hf, hrange, htool, htwo, hrow, a, hoffered, ⟨0, 12⟩, hmade, by decide +kernel⟩

end Action

end LintHub
