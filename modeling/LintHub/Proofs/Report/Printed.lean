import LintHub.Proofs.Finding.Sound
import LintHub.Proofs.Text.Numeral
import LintHub.Proofs.Text.Phrase
import LintHub.Proofs.Text.Search
import LintHub.Report.Columns

/-!
# What tools print

* `Columns.inkLines_intercalate` : a report of lines is read as these lines, and `inkLines_of_isPhrase` : unchanged, if
  they are phrases.
* `Columns.place?_numerals` : a printed place is read as its two numerals.
* `Finding.placeOf` : the line or column that a printed number names. `fromOne_position` says that ASCII digits are read
  so, and `fromOne_position_toDigits` that the numeral of a number is.
* `Finding.nonempty_eq_self` : a phrase is left alone.
-/

namespace LintHub

/-! ## Lines -/

namespace Text

theorem trim_dropReturn (l : List Char) : trim (dropReturn l) = trim l := by
  rw [dropReturn]
  split
  · next h =>
    obtain ⟨t, rfl⟩ := List.getLast?_eq_some_iff.1 h
    rw [List.dropLast_concat, trim_append_of_blanks t (List.forall_mem_singleton.2 (by decide))]
  · rfl

theorem isPhrase_toString (n : Nat) : IsPhrase (toString n) := by
  have hdigits : (toString n).toList = Nat.toDigits 10 n := Nat.toList_repr
  have hblank : ∀ c ∈ (toString n).toList, isBlank c = false := by
    rw [hdigits]
    exact fun c hc => isBlank_of_isAsciiDigit (isAsciiDigit_of_mem_toDigits hc)
  exact isPhrase_of_ink (by simp) hblank

end Text

namespace Columns

theorem inkLines_of_notMem {l : List Char} (h : '\n' ∉ l) :
    inkLines l = [Text.trim l].filter fun line => !line.isEmpty := by
  by_cases hl : l = []
  · subst hl
    rfl
  · rw [inkLines, Text.lines_of_notMem hl h]
    rfl

theorem inkLines_append_feed {l : List Char} (s : List Char) (h : '\n' ∉ l) :
    inkLines (l ++ '\n' :: s) = inkLines l ++ inkLines s := by
  rw [inkLines_of_notMem h, inkLines, Text.lines_append_feed s h, List.map_cons, Text.trim_dropReturn,
    ← List.singleton_append, List.filter_append]
  rfl

/-- A report that is put together of lines. -/
theorem inkLines_intercalate {ls : List (List Char)} (h : ∀ l ∈ ls, '\n' ∉ l) :
    inkLines (['\n'].intercalate ls) = (ls.map Text.trim).filter fun line => !line.isEmpty := by
  induction ls with
  | nil => rfl
  | cons l ls ih =>
    have hl : '\n' ∉ l := h l (by simp)
    have hls : ∀ l ∈ ls, '\n' ∉ l := fun l hl => h l (by simp [hl])
    cases ls with
    | nil => rw [List.intercalate_singleton, inkLines_of_notMem hl]; rfl
    | cons l' ls =>
      rw [List.intercalate_cons_cons, List.append_assoc, List.singleton_append, inkLines_append_feed _ hl, ih hls,
        inkLines_of_notMem hl, ← List.filter_append]
      rfl

theorem inkLines_of_isPhrase {ls : List String} (h : ∀ l ∈ ls, Text.IsPhrase l) :
    inkLines ("\n".intercalate ls).toList = ls.map String.toList := by
  have hfeed : ∀ l ∈ ls.map String.toList, '\n' ∉ l := List.forall_mem_map.2 fun l hl => (h l hl).feed
  have htrim : (ls.map String.toList).map Text.trim = ls.map String.toList := by
    rw [List.map_map]
    exact List.map_congr_left fun l hl => Text.trim_eq_self (h l hl).tight
  have hfull : ∀ l ∈ ls.map String.toList, (!l.isEmpty) = true :=
    List.forall_mem_map.2 fun l hl => by simpa using (h l hl).ne
  rw [String.toList_intercalate, show "\n".toList = ['\n'] from rfl, inkLines_intercalate hfeed, htrim,
    List.filter_eq_self.2 hfull]

/-! ## Places -/

theorem colonNumber?_numeral {digits rest : List Char} (hdigits : Text.IsNumeral digits)
    (h : ∀ c ∈ rest.head?, Text.isDigit c = false) : colonNumber? (':' :: (digits ++ rest)) = some (digits, rest) :=
  Text.run?_append hdigits.ne hdigits.digits h

theorem colonNumber?_eq_none {s : List Char} (h : ∀ c ∈ s.head?, c ≠ ':') : colonNumber? s = none := by
  unfold colonNumber?
  split
  · exact absurd rfl (h _ rfl)
  · rfl

/-- A later part of a path without colons starts with none. -/
theorem head?_ne_of_notMem {path p q rest : List Char} (hcolon : ':' ∉ path) (hpq : path = p ++ q) (hq : q ≠ []) :
    ∀ c ∈ (q ++ rest).head?, c ≠ ':' := by
  intro c hc
  rintro rfl
  rw [List.head?_append_of_ne_nil q hq] at hc
  rw [hpq] at hcolon
  exact hcolon (List.mem_append_right p (List.mem_of_mem_head? hc))

theorem place?_numerals {line column rest : List Char} (hline : Text.IsNumeral line)
    (hcolumn : Text.IsNumeral column) (h : ∀ c ∈ rest.head?, Text.isDigit c = false) :
    place? (':' :: (line ++ ':' :: (column ++ rest))) = some ((line, column), rest) := by
  have hcolon : ∀ c ∈ (':' :: (column ++ rest)).head?, Text.isDigit c = false := by
    rintro c ⟨⟩
    decide
  simp only [place?, colonNumber?_numeral hline hcolon, colonNumber?_numeral hcolumn h, Option.bind_eq_bind,
    Option.bind_some]

theorem place?_eq_none {s : List Char} (h : ∀ c ∈ s.head?, c ≠ ':') : place? s = none := by
  rw [place?, colonNumber?_eq_none h]
  rfl

end Columns

/-! ## Fields -/

namespace Finding

/-- The line or column that a printed number names: the number, within 1 and the largest of 32 bits. -/
def placeOf (n : Nat) : UInt32 := UInt32.ofNat (max 1 (min n 0xFFFFFFFF))

theorem toNat_placeOf (n : Nat) : (placeOf n).toNat = max 1 (min n 0xFFFFFFFF) := by
  rw [placeOf, UInt32.toNat_ofNat_of_lt']
  simp only [UInt32.size]
  omega

theorem fromOne_position {digits : List Char} (h : ∀ c ∈ digits, Text.isAsciiDigit c = true) :
    fromOne (Text.position digits) = placeOf (Text.ofDigits digits) := by
  rw [Text.position_of_ascii h, ← UInt32.toNat_inj, toNat_fromOne, Text.toNat_clampWord, toNat_placeOf]

theorem fromOne_position_toDigits (n : Nat) : fromOne (Text.position (Nat.toDigits 10 n)) = placeOf n := by
  rw [fromOne_position fun _ => Text.isAsciiDigit_of_mem_toDigits, Text.ofDigits_toDigits]

theorem nonempty_eq_self {s : String} (h : Text.IsPhrase s) : nonempty s = s := by
  simp [nonempty, h.trimmed, h.ne]

end Finding

end LintHub
