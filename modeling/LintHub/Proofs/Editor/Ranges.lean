import LintHub.Editor.Range
import LintHub.Proofs.Text.Rows
import LintHub.Proofs.Text.Units
import Mathlib.Algebra.Group.Nat.Defs

/-!
# Ranges of findings

A finding counts lines and characters from one, an editor counts rows and UTF-16 code units from zero.

* `Range.lineOf?_eq_some_iff` : the line of a finding is a row of the text, with its characters up to the terminator.
* `Range.RestOfRow` : a range covers a row from a column on, and starts between two characters.
* `Range.WellPlaced` : what is wanted of the range of a finding, whether its line is there or not.
* `Range.wellPlaced_ofLine` : the ranges are well placed, and those of later columns start later.
-/

namespace LintHub

namespace Text

theorem unitLength_take_le (s : List Char) {m n : Nat} (h : m ≤ n) : unitLength (s.take m) ≤ unitLength (s.take n) := by
  have hsplit : s.take n = s.take m ++ (s.take n).drop m := by
    conv_lhs => rw [← List.take_append_drop m (s.take n), List.take_take, Nat.min_eq_left h]
  rw [hsplit, unitLength_append]
  omega

theorem unitLength_take_le_self (s : List Char) (n : Nat) : unitLength (s.take n) ≤ unitLength s := by
  conv_rhs => rw [← List.take_append_drop n s, unitLength_append]
  omega

end Text

open Text (IsRow IsTrailing codeUnits unitLength)

namespace Range

variable {line column : Nat} {text : Option String} {t : String} {chars before ending after : List Char}

/-! ## Lines of findings -/

/-- A text has the line of a finding: there are characters or a terminator in its row. -/
def LineIn (text : Option String) (line : Nat) : Prop :=
  ∃ t before chars ending after, text = some t ∧ IsRow t.toList (line - 1) before chars ending after ∧
    chars ++ ending ≠ []

theorem lineOf?_eq_some_iff :
    lineOf? line text = some chars ↔
      ∃ t before ending after, text = some t ∧ IsRow t.toList (line - 1) before chars ending after ∧
        chars ++ ending ≠ [] := by
  unfold lineOf?
  rw [Option.bind_eq_some_iff]
  constructor
  · rintro ⟨t, rfl, hline⟩
    obtain ⟨before, ending, after, hrow⟩ := Text.getElem?_lines_eq_some_iff.1 hline
    exact ⟨t, before, ending, after, rfl, hrow⟩
  · rintro ⟨t, before, ending, after, rfl, hrow⟩
    exact ⟨t, rfl, Text.getElem?_lines_eq_some_iff.2 ⟨before, ending, after, hrow⟩⟩

theorem ofLine_of_line (column : Nat) (h : lineOf? line text = some chars) :
    ofLine line column text =
      ⟨⟨line - 1, unitLength (chars.take (column - 1))⟩, ⟨line - 1, unitLength chars⟩⟩ := by
  rw [ofLine, h]

theorem ofLine_of_not_lineIn (column : Nat) (h : ¬ LineIn text line) :
    ofLine line column text = empty ⟨line - 1, column - 1⟩ := by
  have hnone : lineOf? line text = none := by
    rw [Option.eq_none_iff_forall_ne_some]
    intro chars hline
    obtain ⟨t, before, ending, after, hrow⟩ := lineOf?_eq_some_iff.1 hline
    exact h ⟨t, before, chars, ending, after, hrow⟩
  rw [ofLine, hnone]

/-! ## Rows from a column on -/

/-- The range runs from the column, counted from zero, to the end of the characters in the row. -/
structure RestOfRow (t : String) (row column : Nat) (chars : List Char) (r : Range) : Prop where
  finish : r.finish = .endOfLine t row
  length : r.finish.character = (codeUnits chars).length
  /-- The columns before the start are whole characters. -/
  whole : (codeUnits chars).take r.start.character = codeUnits (chars.take (min column chars.length))
  start : r.start.character = (codeUnits (chars.take (min column chars.length))).length
  /-- The start is not inside a pair of surrogates. -/
  apart : ∀ u, (codeUnits chars)[r.start.character]? = some u → ¬ IsTrailing u

theorem restOfRow_ofLine (column : Nat) (hrow : IsRow t.toList (line - 1) before chars ending after)
    (hne : chars ++ ending ≠ []) : RestOfRow t (line - 1) (column - 1) chars (ofLine line column (some t)) := by
  have hline : lineOf? line (some t) = some chars := lineOf?_eq_some_iff.2 ⟨t, before, ending, after, rfl, hrow, hne⟩
  have hlines : (Text.lines t.toList)[line - 1]? = some chars := hline
  have hsplit : chars.take (column - 1) ++ chars.drop (column - 1) = chars := List.take_append_drop _ _
  have htake : chars.take (min (column - 1) chars.length) = chars.take (column - 1) := by
    rw [← List.take_take, List.take_length]
  have hbefore := Text.take_codeUnits (chars.take (column - 1)) (chars.drop (column - 1))
  have hfrom := Text.drop_codeUnits (chars.take (column - 1)) (chars.drop (column - 1))
  rw [hsplit] at hbefore hfrom
  rw [ofLine_of_line column hline]
  refine ⟨?_, ?_, ?_, ?_, fun u hu => ?_⟩
  · rw [Position.endOfLine, hlines]
    rfl
  · rw [Text.length_codeUnits]
  · rw [htake]
    exact hbefore
  · rw [htake, Text.length_codeUnits]
  · dsimp only at hu
    rw [← List.head?_drop, hfrom] at hu
    exact Text.not_isTrailing_head hu

/-! ## Well placed ranges -/

/-- What is wanted of the range of a finding. -/
structure WellPlaced (line column : Nat) (text : Option String) (r : Range) : Prop where
  rows : r.start.line = line - 1 ∧ r.finish.line = line - 1
  ordered : r.start.le r.finish = true
  onLine : ∀ t before chars ending after, text = some t → IsRow t.toList (line - 1) before chars ending after →
    chars ++ ending ≠ [] → RestOfRow t (line - 1) (column - 1) chars r
  offText : ¬ LineIn text line → r = empty ⟨line - 1, column - 1⟩
  /-- The numbers have 32 bits. -/
  words : r.start.line < 2 ^ 32 ∧ r.start.character < 2 ^ 32 ∧ r.finish.line < 2 ^ 32 ∧ r.finish.character < 2 ^ 32

theorem le_of_row {p q : Position} (hline : p.line = q.line) (hcharacter : p.character ≤ q.character) :
    p.le q = true := by
  simp [Position.le, hline, hcharacter]

/-- Each finding in a document gets a well placed range, and one on the same line with a later column starts no
earlier. -/
theorem wellPlaced_ofLine (line column : UInt32) (text : Option String)
    (hshort : ∀ t, text = some t → ∀ chars ∈ Text.lines t.toList, unitLength chars < 2 ^ 32) :
    WellPlaced line.toNat column.toNat text (ofLine line.toNat column.toNat text) ∧
    ∀ later : UInt32, column ≤ later →
      (ofLine line.toNat column.toNat text).start.character ≤ (ofLine line.toNat later.toNat text).start.character := by
  have hrow := line.toNat_lt
  have hcolumn := column.toNat_lt
  by_cases hhas : LineIn text line.toNat
  · obtain ⟨t, before, chars, ending, after, rfl, hcut, hne⟩ := hhas
    have hline : lineOf? line.toNat (some t) = some chars :=
      lineOf?_eq_some_iff.2 ⟨t, before, ending, after, rfl, hcut, hne⟩
    have hlength : unitLength chars < 2 ^ 32 := hshort t rfl chars (List.mem_of_getElem? hline)
    have hstart := Text.unitLength_take_le_self chars (column.toNat - 1)
    refine ⟨⟨?_, ?_, ?_, fun hnot => ?_, ?_⟩, fun later hlater => ?_⟩
    · rw [ofLine_of_line _ hline]
      exact ⟨rfl, rfl⟩
    · rw [ofLine_of_line _ hline]
      exact le_of_row rfl hstart
    · rintro t' before' chars' ending' after' ht' hcut' hne'
      obtain rfl := Option.some.inj ht'
      exact restOfRow_ofLine column.toNat hcut' hne'
    · exact absurd ⟨t, before, chars, ending, after, rfl, hcut, hne⟩ hnot
    · rw [ofLine_of_line _ hline]
      dsimp only
      omega
    · rw [ofLine_of_line _ hline, ofLine_of_line _ hline]
      have hle : column.toNat ≤ later.toNat := hlater
      exact Text.unitLength_take_le chars (by omega)
  · refine ⟨⟨?_, ?_, ?_, fun _ => ofLine_of_not_lineIn _ hhas, ?_⟩, fun later hlater => ?_⟩
    · rw [ofLine_of_not_lineIn _ hhas]
      exact ⟨rfl, rfl⟩
    · rw [ofLine_of_not_lineIn _ hhas]
      exact le_of_row rfl (Nat.le_refl _)
    · intro t before chars ending after ht hcut hne
      exact absurd ⟨t, before, chars, ending, after, ht, hcut, hne⟩ hhas
    · rw [ofLine_of_not_lineIn _ hhas]
      dsimp only [empty]
      omega
    · rw [ofLine_of_not_lineIn _ hhas, ofLine_of_not_lineIn _ hhas]
      have hle : column.toNat ≤ later.toNat := hlater
      dsimp only [empty]
      omega

/-- A finding behind a character of two code units, on a line that ends with a carriage return and a line feed. -/
theorem wellPlaced_ofLine_pair :
    (∀ t, some "a🎉b: c\r\nlast" = some t → ∀ chars ∈ Text.lines t.toList, unitLength chars < 2 ^ 32) ∧
    ofLine 1 3 (some "a🎉b: c\r\nlast") = ⟨⟨0, 3⟩, ⟨0, 7⟩⟩ ∧
    WellPlaced 1 3 (some "a🎉b: c\r\nlast") ⟨⟨0, 3⟩, ⟨0, 7⟩⟩ := by
  have hshort : ∀ t, some "a🎉b: c\r\nlast" = some t → ∀ chars ∈ Text.lines t.toList, unitLength chars < 2 ^ 32 := by
    rintro t ht
    obtain rfl := Option.some.inj ht
    decide
  have hrange : ofLine 1 3 (some "a🎉b: c\r\nlast") = ⟨⟨0, 3⟩, ⟨0, 7⟩⟩ := by decide
  refine ⟨hshort, hrange, ?_⟩
  have hplaced := (wellPlaced_ofLine 1 3 (some "a🎉b: c\r\nlast") hshort).1
  rwa [show (1 : UInt32).toNat = 1 from rfl, show (3 : UInt32).toNat = 3 from rfl, hrange] at hplaced

end Range

end LintHub
