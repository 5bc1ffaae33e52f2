import LintHub.Proofs.Report.Attribution
import LintHub.Proofs.Report.Soundness

/-!
# The numbers that a report shows

Lines show the line and the column of a finding as runs of digits, which may be those of any script.

* `Text.decimal` : the number that digits of any scripts name.
* `ShowsPlace` : numerals in a line, after its mark and as long as the digits go on.
* `ColumnLine.shows_of_numerals?`, `HookLine.shows_of_numerals?` : what a reader cuts out of a line are the numerals
  that it shows.
* `Finding.PlacedBy` : how a finding's place is told by numerals. `Columns.placedBy_of_mem_step` and
  `Transcript.placedBy_of_mem_step` : the findings of a line are placed by its numerals.
* `Report.places_decimal` : all of this for reports in columns and transcripts.
-/

namespace LintHub

namespace Text

/-! ## Numbers -/

/-- The number that a digit names: its place among the ten digits of its script. -/
def digitValue (c : Char) : Nat :=
  if isAsciiDigit c then c.toNat - 48
  else match digitBlocks.find? fun first => first ≤ c.toNat && c.toNat < first + 10 with
    | some first => c.toNat - first
    | none => 0

/-- The number that digits of any scripts name, most significant first. -/
def decimal (digits : List Char) : Nat := digits.foldl (fun n c => 10 * n + digitValue c) 0

example : decimal "٣2९".toList = 329 := by decide

theorem foldl_digitValue {digits : List Char} (h : ∀ c ∈ digits, isAsciiDigit c = true) (n : Nat) :
    digits.foldl (fun n c => 10 * n + digitValue c) n = digits.foldl (fun n c => 10 * n + (c.toNat - 48)) n := by
  induction digits generalizing n with
  | nil => rfl
  | cons c digits ih =>
    have hvalue : digitValue c = c.toNat - 48 := if_pos (h c List.mem_cons_self)
    rw [List.foldl_cons, List.foldl_cons, hvalue]
    exact ih (fun d hd => h d (List.mem_cons_of_mem c hd)) _

theorem decimal_of_ascii {digits : List Char} (h : ∀ c ∈ digits, isAsciiDigit c = true) :
    decimal digits = ofDigits digits :=
  foldl_digitValue h 0

/-- A run takes all digits there are. -/
theorem isNumeral_of_run? {s digits rest : List Char} (h : run? isDigit s = some (digits, rest)) :
    s = digits ++ rest ∧ IsNumeral digits ∧ ∀ c ∈ rest.head?, isDigit c = false := by
  obtain ⟨hs, hne, hdigits⟩ := run?_eq_some h
  refine ⟨hs, ⟨hne, hdigits⟩, ?_⟩
  intro c hc
  have hstop := List.head?_dropWhile_not isDigit s
  have hrest : s.dropWhile isDigit = rest := by
    rw [run?] at h
    split at h
    · cases h
    · exact (Prod.mk.inj (Option.some.inj h)).2
  rw [hrest, hc] at hstop
  exact hstop

theorem not_isDigit_of_run? {s : List Char} (h : run? isDigit s = none) : ∀ c ∈ s.head?, isDigit c = false := by
  intro c hc
  obtain ⟨rest, rfl⟩ := List.head?_eq_some_iff.1 hc
  rw [Bool.eq_false_iff]
  intro hdigit
  rw [run?, List.takeWhile_cons_of_pos hdigit] at h
  cases h

end Text

open Text (IsNumeral isDigit isAsciiDigit decimal)

/-! ## Numerals in a line -/

/-- The texts that stand in a line before the numeral of a line number, and before that of a column. -/
structure PlaceMarks where
  line : List Char
  column : List Char

/-- A colon before each of both. -/
def PlaceMarks.colons : PlaceMarks := ⟨[':'], [':']⟩

/-- Words before both. -/
def PlaceMarks.words : PlaceMarks := ⟨"\", line ".toList, ", column ".toList⟩

/-- After its mark, the text shows the numeral of a line number, and after the other mark that of a column, if it shows
one. No digit goes on where a numeral ends. -/
inductive ShowsPlace (marks : PlaceMarks) : List Char → List Char → Option (List Char) → Prop
  | both {line column : List Char} (front : List Char) {rest : List Char} (hline : IsNumeral line)
      (hcolumn : IsNumeral column) (hrest : ∀ c ∈ rest.head?, isDigit c = false) :
      ShowsPlace marks (front ++ (marks.line ++ (line ++ (marks.column ++ (column ++ rest))))) line (some column)
  | one {line : List Char} (front : List Char) {rest : List Char} (hline : IsNumeral line)
      (hrest : ∀ c ∈ rest.head?, isDigit c = false)
      (hnone : ∀ more, rest = marks.column ++ more → ∀ c ∈ more.head?, isDigit c = false) :
      ShowsPlace marks (front ++ (marks.line ++ (line ++ rest))) line none

theorem Columns.eq_of_colonNumber? {s digits rest : List Char} (h : colonNumber? s = some (digits, rest)) :
    s = ':' :: (digits ++ rest) ∧ IsNumeral digits ∧ ∀ c ∈ rest.head?, isDigit c = false := by
  unfold colonNumber? at h
  split at h
  · obtain ⟨rfl, hnumeral, hrest⟩ := Text.isNumeral_of_run? h
    exact ⟨rfl, hnumeral, hrest⟩
  · cases h

theorem Columns.not_isDigit_of_colonNumber? {s more : List Char} (h : colonNumber? s = none) (hs : s = ':' :: more) :
    ∀ c ∈ more.head?, isDigit c = false := by
  rw [hs, colonNumber?] at h
  exact Text.not_isDigit_of_run? h

/-- A place behind a path. -/
theorem Columns.shows_of_place? {path s line column rest : List Char} (h : place? s = some ((line, column), rest)) :
    ShowsPlace .colons (path ++ s) line (some column) := by
  simp only [place?, Option.bind_eq_bind, Option.bind_eq_some_iff, Option.some.injEq, Prod.mk.injEq] at h
  obtain ⟨⟨line', after⟩, hline, ⟨column', rest'⟩, hcolumn, ⟨rfl, rfl⟩, rfl⟩ := h
  obtain ⟨rfl, hfirst, -⟩ := eq_of_colonNumber? hline
  obtain ⟨rfl, hsecond, hrest⟩ := eq_of_colonNumber? hcolumn
  exact .both path hfirst hsecond hrest

/-! ## Lines of reports in columns -/

namespace ColumnLine

/-- The numerals of the line number and of the column. -/
def numerals? : ColumnLine → Option (List Char × Option (List Char))
  | entry _ line column _ _ => some (line, some column)
  | location _ line column _ => some (line, column)
  | _ => none

open Columns

theorem shows_of_entry? {s : List Char} {found : ColumnLine} (h : entry? s = some found) :
    ∃ line column, found.numerals? = some (line, some column) ∧ ShowsPlace .colons s line (some column) := by
  obtain ⟨⟨path, ⟨line, column⟩, token, message⟩, hhead, rfl⟩ := Option.map_eq_some_iff.1 h
  obtain ⟨after, rfl, hafter⟩ := Text.next_of_shortestHead hhead
  simp only [afterPath?, Option.bind_eq_bind, Option.bind_eq_some_iff, Option.some.injEq, Prod.mk.injEq] at hafter
  obtain ⟨⟨place, rest⟩, hplace, _, -, rfl, -⟩ := hafter
  exact ⟨line, column, rfl, shows_of_place? hplace⟩

theorem shows_of_location? {s : List Char} {found : ColumnLine} (h : location? s = some found) :
    ∃ line column, found.numerals? = some (line, column) ∧ ShowsPlace .colons s line column := by
  obtain ⟨⟨path, line, column, text⟩, hhead, rfl⟩ := Option.map_eq_some_iff.1 h
  obtain ⟨after, rfl, hafter⟩ := Text.next_of_shortestHead hhead
  refine ⟨line, column, rfl, ?_⟩
  rw [afterLocation?, Option.bind_eq_bind, Option.bind_eq_some_iff] at hafter
  obtain ⟨⟨line', rest⟩, hline, hafter⟩ := hafter
  obtain ⟨rfl, hfirst, hstop⟩ := eq_of_colonNumber? hline
  dsimp only at hafter
  split at hafter
  · next column' more hcolumn =>
    obtain ⟨_, -, heq⟩ := Option.map_eq_some_iff.1 hafter
    obtain ⟨rfl, hrest⟩ := Prod.mk.inj heq
    obtain ⟨rfl, -⟩ := Prod.mk.inj hrest
    obtain ⟨rfl, hsecond, hmore⟩ := eq_of_colonNumber? hcolumn
    exact .both path hfirst hsecond hmore
  · next hnone =>
    obtain ⟨_, -, heq⟩ := Option.map_eq_some_iff.1 hafter
    obtain ⟨rfl, hrest⟩ := Prod.mk.inj heq
    obtain ⟨rfl, -⟩ := Prod.mk.inj hrest
    exact .one path hfirst hstop fun more hmore => not_isDigit_of_colonNumber? hnone hmore

theorem shows_of_numerals? {s line : List Char} {column : Option (List Char)}
    (h : (of s).numerals? = some (line, column)) : ShowsPlace .colons s line column := by
  have hread : ∃ line' column', (of s).numerals? = some (line', column') ∧ ShowsPlace .colons s line' column' := by
    rcases of_cases s with (hentry | hheader | hlocation) | hother
    · obtain ⟨line', column', hnumerals, hshows⟩ := shows_of_entry? hentry
      exact ⟨line', some column', hnumerals, hshows⟩
    · obtain ⟨_, _, hfound, -⟩ := eq_of_header? hheader
      rw [hfound] at h
      cases h
    · exact shows_of_location? hlocation
    · rw [hother] at h
      cases h
  obtain ⟨line', column', hnumerals, hshows⟩ := hread
  obtain ⟨rfl, rfl⟩ := Prod.mk.inj (Option.some.inj (h.symm.trans hnumerals))
  exact hshows

/-- Numerals are never refused. -/
theorem exists_of_numerals {line column : List Char} (hline : IsNumeral line) (hcolumn : IsNumeral column) :
    ∃ s path token message, of s = .entry path line column token message := by
  have hentry : entry? (['a'] ++ ':' :: (line ++ ':' :: (column ++
      ':' :: ' ' :: '[' :: (['b'] ++ ']' :: ' ' :: ['c'])))) = some (.entry ['a'] line column ['b'] ['c']) := by
    apply entry?_printed hline hcolumn (by decide) (by decide) (by decide) (List.isChain_singleton 'b')
    rintro c ⟨⟩
    decide
  have hof {s : List Char} {found : ColumnLine} (h : entry? s = some found) : of s = found := by
    rw [of, h]
    rfl
  exact ⟨_, _, _, _, hof hentry⟩

end ColumnLine

/-! ## Lines of transcripts -/

namespace HookLine

/-- The numerals of the line number and of the column. -/
def numerals? : HookLine → Option (List Char × Option (List Char))
  | located _ line column => some (line, column)
  | placed _ line column _ => some (line, some column)
  | _ => none

open Transcript

theorem shows_of_located? {s : List Char} {found : HookLine} (h : located? s = some found) :
    ∃ line column, found.numerals? = some (line, column) ∧ ShowsPlace .words s line column := by
  simp only [located?, Option.bind_eq_bind, Option.bind_eq_some_iff, Option.some.injEq,
    List.isPrefixOf?_eq_some_iff_append_eq] at h
  obtain ⟨_, rfl, ⟨path, _⟩, hpath, _, rfl, ⟨line, rest⟩, hline, rfl⟩ := h
  obtain ⟨rfl, -⟩ := Text.run?_eq_some hpath
  obtain ⟨rfl, hfirst, hstop⟩ := Text.isNumeral_of_run? hline
  refine ⟨line, _, rfl, ?_⟩
  rw [← List.append_assoc]
  cases hcut : ", column ".toList.isPrefixOf? rest with
  | none =>
    refine .one _ hfirst hstop ?_
    intro more hmore
    have hfound : ", column ".toList.isPrefixOf? rest = some more :=
      List.isPrefixOf?_eq_some_iff_append_eq.2 hmore.symm
    rw [hcut] at hfound
    cases hfound
  | some after =>
    obtain rfl := List.isPrefixOf?_eq_some_iff_append_eq.1 hcut
    cases hcolumn : Text.run? isDigit after with
    | none =>
      rw [Option.bind_some, hcolumn, Option.bind_none]
      refine .one _ hfirst hstop ?_
      intro more hmore
      obtain rfl := List.append_cancel_left hmore
      exact Text.not_isDigit_of_run? hcolumn
    | some found =>
      obtain ⟨column, more⟩ := found
      rw [Option.bind_some, hcolumn, Option.bind_some]
      obtain ⟨rfl, hsecond, hrest⟩ := Text.isNumeral_of_run? hcolumn
      exact .both _ hfirst hsecond hrest

theorem shows_of_placed? {s : List Char} {found : HookLine} (h : placed? s = some found) :
    ∃ line column, found.numerals? = some (line, some column) ∧ ShowsPlace .colons s line (some column) := by
  obtain ⟨⟨path, ⟨line, column⟩, message⟩, hhead, rfl⟩ := Option.map_eq_some_iff.1 h
  obtain ⟨after, rfl, hafter⟩ := Text.next_of_shortestHead hhead
  simp only [placeMessage?, Option.bind_eq_bind, Option.bind_eq_some_iff, Option.some.injEq, Prod.mk.injEq] at hafter
  obtain ⟨⟨place, rest⟩, hplace, _, -, rfl, -⟩ := hafter
  exact ⟨line, column, rfl, Columns.shows_of_place? hplace⟩

/-- A line with numerals is in one of the forms that report a file. -/
theorem file_of_numerals? {s : List Char} {numerals : List Char × Option (List Char)}
    (h : (of s).numerals? = some numerals) :
    located? s = some (of s) ∨ placed? s = some (of s) ∨ filed? s = some (of s) := by
  revert h
  unfold of
  split
  · exact fun h => nomatch h
  · split
    · exact fun h => nomatch h
    · split
      · exact fun h => nomatch h
      · split
        · exact fun h => nomatch h
        · split
          · exact fun h => nomatch h
          · cases located? s with
            | some found => exact fun _ => .inl rfl
            | none =>
              cases placed? s with
              | some found => exact fun _ => .inr (.inl rfl)
              | none =>
                cases filed? s with
                | some found => exact fun _ => .inr (.inr rfl)
                | none => exact fun h => nomatch h

theorem shows_of_numerals? {s line : List Char} {column : Option (List Char)}
    (h : (of s).numerals? = some (line, column)) :
    ShowsPlace .words s line column ∨ ShowsPlace .colons s line column := by
  rcases file_of_numerals? h with hlocated | hplaced | hfiled
  · obtain ⟨line', column', hnumerals, hshows⟩ := shows_of_located? hlocated
    obtain ⟨rfl, rfl⟩ := Prod.mk.inj (Option.some.inj (h.symm.trans hnumerals))
    exact .inl hshows
  · obtain ⟨line', column', hnumerals, hshows⟩ := shows_of_placed? hplaced
    obtain ⟨rfl, rfl⟩ := Prod.mk.inj (Option.some.inj (h.symm.trans hnumerals))
    exact .inr hshows
  · obtain ⟨_, -, hfound⟩ := Option.map_eq_some_iff.1 hfiled
    rw [← hfound] at h
    cases h

/-- Numerals are never refused. -/
theorem exists_of_numerals {line column : List Char} (hline : IsNumeral line) (hcolumn : IsNumeral column) :
    ∃ s, (of s).numerals? = some (line, some column) := by
  have hpath : ∀ x ∈ ['a'], isPathChar x = true := List.all_eq_true.1 rfl
  have hhyphen : ∀ c ∈ ['a'].head?, c ≠ '-' := by
    rintro c ⟨⟩
    decide
  have hmessage : ∀ c ∈ ['x'].head?, Text.isBlank c = false := by
    rintro c ⟨⟩
    decide
  have hplaced := placed?_printed hline hcolumn (List.cons_ne_nil 'a' []) hpath hmessage
  -- The last character is not that of a status.
  have hstatus : ¬ isStatus (['a'] ++ ':' :: (line ++ ':' :: (column ++ ':' :: ' ' :: ['x']))) = true := by
    intro hstatus
    have hlast := getLast?_of_isStatus hstatus
    simp [List.getLast?_append, List.getLast?_cons] at hlast
  have hof : of (['a'] ++ ':' :: (line ++ ':' :: (column ++ ':' :: ' ' :: ['x']))) =
      .placed ['a'] line column ['x'] := by
    rw [of_path (List.cons_ne_nil 'a' []) hpath hhyphen, if_neg hstatus, hplaced]
    rfl
  exact ⟨_, congrArg numerals? hof⟩

end HookLine

/-! ## What a numeral tells -/

/-- The line or column that is read off a numeral. It is the number that the numeral names, within 1 and the largest of
32 bits, exactly if all digits are ASCII or the number is so large anyway: digits of other scripts are taken for the
largest number. -/
structure Tells (digits : List Char) (n : UInt32) : Prop where
  exact : n.toNat = max 1 (min (decimal digits) 0xFFFFFFFF) ↔
    (∀ c ∈ digits, isAsciiDigit c = true) ∨ 0xFFFFFFFF ≤ decimal digits
  largest : (n = Text.maxWord → 0xFFFFFFFF ≤ decimal digits) ↔
    (∀ c ∈ digits, isAsciiDigit c = true) ∨ 0xFFFFFFFF ≤ decimal digits
  foreign : (∃ c ∈ digits, isAsciiDigit c = false) → n = Text.maxWord

theorem tells_fromOne_position (digits : List Char) : Tells digits (Finding.fromOne (Text.position digits)) := by
  by_cases hascii : ∀ c ∈ digits, isAsciiDigit c = true
  · have hvalue : (Finding.fromOne (Text.position digits)).toNat = max 1 (min (decimal digits) 0xFFFFFFFF) := by
      rw [Finding.fromOne_position hascii, Finding.toNat_placeOf, Text.decimal_of_ascii hascii]
    refine ⟨⟨fun _ => .inl hascii, fun _ => hvalue⟩, ⟨fun _ => .inl hascii, fun _ hmax => ?_⟩, ?_⟩
    · rw [hmax, show Text.maxWord.toNat = 0xFFFFFFFF from rfl] at hvalue
      omega
    · rintro ⟨c, hc, hforeign⟩
      rw [hascii c hc] at hforeign
      cases hforeign
  · have hvalue : Finding.fromOne (Text.position digits) = Text.maxWord := by
      rw [Text.position, if_neg (mt List.all_eq_true.1 hascii)]
      rfl
    rw [hvalue]
    refine ⟨⟨fun hexact => .inr ?_, fun hlarge => ?_⟩, ⟨fun hlarge => .inr (hlarge rfl), fun hlarge _ => ?_⟩,
      fun _ => rfl⟩
    · rw [show Text.maxWord.toNat = 0xFFFFFFFF from rfl] at hexact
      omega
    · have := hlarge.resolve_left hascii
      rw [show Text.maxWord.toNat = 0xFFFFFFFF from rfl]
      omega
    · exact hlarge.resolve_left hascii

/-- The numerals tell where the finding is. Without one for the column it is the first. -/
structure Finding.PlacedBy (f : Finding) (l : List Char) (c : Option (List Char)) : Prop where
  line : Tells l f.line
  column : ∀ digits ∈ c, Tells digits f.column
  first : c = none → f.column = 1

theorem Finding.placedBy_placed (f : Finding) (line : List Char) (column : Option (List Char)) (severity : Severity) :
    ((f.placed (Text.position line) (column.elim 1 Text.position)).ranked severity).PlacedBy line column where
  line := tells_fromOne_position line
  column := by
    rintro digits rfl
    exact tells_fromOne_position digits
  first := by
    rintro rfl
    rfl

variable {root : Path} {tool : Tool} {f : Finding}

namespace Columns

theorem placedBy_entryFinding (root : Path) (tool : Tool) (path line column token message : List Char) :
    (entryFinding root tool path line column token message).PlacedBy line (some column) := by
  simp only [entryFinding]
  split
  · exact Finding.placedBy_placed _ line (some column) _
  · exact Finding.placedBy_placed _ line (some column) _

/-- The finding that a line brings is placed by the numerals of the line. -/
theorem placedBy_of_mem_step {pending : Pending} {line : ColumnLine} (hf : f ∈ (step root tool pending line).2) :
    ∃ l c, line.numerals? = some (l, c) ∧ f.PlacedBy l c := by
  cases line with
  | entry path line column token message =>
    rw [step, Option.mem_some] at hf
    subst hf
    exact ⟨line, some column, rfl, placedBy_entryFinding root tool path line column token message⟩
  | header rule message => cases hf
  | location path line column rest =>
    cases pending with
    | none => cases hf
    | some header =>
      rw [step, Option.mem_some] at hf
      subst hf
      exact ⟨line, column, rfl, Finding.placedBy_placed _ line column _⟩
  | other => cases hf

theorem findingsFrom_cons (root : Path) (tool : Tool) (pending : Pending) (line : ColumnLine)
    (lines : List ColumnLine) :
    findingsFrom root tool pending (line :: lines) =
      (step root tool pending line).2.toList ++ findingsFrom root tool (step root tool pending line).1 lines :=
  rfl

end Columns

namespace Transcript

/-- The finding that a line brings is placed by the numerals of the line, or at the start of the file if it has none. -/
theorem placedBy_of_mem_step {block : Block} {line : HookLine} (hf : f ∈ (step root tool block line).2) :
    (∃ l c, line.numerals? = some (l, c) ∧ f.PlacedBy l c) ∨ line.numerals? = none ∧ f.line = 1 ∧ f.column = 1 := by
  cases line with
  | separator => cases hf
  | hook id => cases hf
  | metadata => cases hf
  | status => cases hf
  | fixing path =>
    rw [step, Option.mem_some] at hf
    subst hf
    exact .inr ⟨rfl, rfl, rfl⟩
  | located path line column =>
    rw [step, Option.mem_some] at hf
    subst hf
    exact .inl ⟨line, column, rfl, Finding.placedBy_placed _ line column _⟩
  | placed path line column message =>
    rw [step, Option.mem_some] at hf
    subst hf
    exact .inl ⟨line, some column, rfl, Finding.placedBy_placed _ line (some column) _⟩
  | filed path message =>
    rw [step, Option.mem_some] at hf
    subst hf
    exact .inr ⟨rfl, rfl, rfl⟩
  | text words => cases hf

/-- A line with numerals brings a finding, in every block. -/
theorem exists_mem_step_of_numerals? {line : HookLine} {numerals : List Char × Option (List Char)}
    (h : line.numerals? = some numerals) (root : Path) (tool : Tool) (block : Block) :
    ∃ f, f ∈ (step root tool block line).2 := by
  cases line with
  | located path line column => exact ⟨_, rfl⟩
  | placed path line column message => exact ⟨_, rfl⟩
  | _ => cases h

end Transcript

/-! ## Reports -/

namespace Report

open Columns (inkLines)

/-- Each finding of a report in columns, and each of a transcript, is placed by numerals that a line of it shows, if
that line has any. All entries, and all lines of a transcript with numerals, bring such a finding, and there are such
lines for all numerals. -/
theorem places_decimal (root : Path) (tool : Tool) (s : List Char) :
    (∀ f ∈ Columns.findings root tool s, ∃ line ∈ inkLines s, ∃ l c,
      (ColumnLine.of line).numerals? = some (l, c) ∧ ShowsPlace .colons line l c ∧ f.PlacedBy l c) ∧
    (∀ line ∈ inkLines s, ∀ path l c token message, ColumnLine.of line = .entry path l c token message →
      ∃ f ∈ Columns.findings root tool s, f.PlacedBy l (some c)) ∧
    (∀ f ∈ Transcript.findings root tool s, ∃ line ∈ inkLines s,
      (∃ l c, (HookLine.of line).numerals? = some (l, c) ∧ (ShowsPlace .words line l c ∨ ShowsPlace .colons line l c) ∧
        f.PlacedBy l c) ∨ (HookLine.of line).numerals? = none ∧ f.line = 1 ∧ f.column = 1) ∧
    (∀ line ∈ inkLines s, ∀ l c, (HookLine.of line).numerals? = some (l, c) →
      ∃ f ∈ Transcript.findings root tool s, f.PlacedBy l c) ∧
    ∀ l c, IsNumeral l → IsNumeral c →
      (∃ line path token message, ColumnLine.of line = .entry path l c token message) ∧
      ∃ line, (HookLine.of line).numerals? = some (l, some c) := by
  refine ⟨?_, ?_, ?_, ?_, fun l c hl hc => ⟨ColumnLine.exists_of_numerals hl hc, HookLine.exists_of_numerals hl hc⟩⟩
  · intro f hf
    obtain ⟨pending, found, hfound, hstep⟩ := exists_step_of_mem (fun _ => rfl) (fun _ _ _ => rfl) none hf
    obtain ⟨line, hline, rfl⟩ := List.mem_map.1 hfound
    obtain ⟨l, c, hnumerals, hplaced⟩ := Columns.placedBy_of_mem_step hstep
    exact ⟨line, hline, l, c, hnumerals, ColumnLine.shows_of_numerals? hnumerals, hplaced⟩
  · intro line hline path l c token message hentry
    have hmem : ColumnLine.of line ∈ (inkLines s).map ColumnLine.of := List.mem_map_of_mem hline
    obtain ⟨pending, hsubset⟩ := exists_step_subset (Columns.findingsFrom_cons root tool) none hmem
    rw [hentry] at hsubset
    exact ⟨_, hsubset _ rfl, Columns.placedBy_entryFinding root tool path l c token message⟩
  · intro f hf
    obtain ⟨block, found, hfound, hstep⟩ :=
      exists_step_of_mem (fun _ => rfl) (fun _ _ _ => rfl) Transcript.Block.start hf
    obtain ⟨line, hline, rfl⟩ := List.mem_map.1 hfound
    refine ⟨line, hline, ?_⟩
    rcases Transcript.placedBy_of_mem_step hstep with ⟨l, c, hnumerals, hplaced⟩ | hfirst
    · exact .inl ⟨l, c, hnumerals, HookLine.shows_of_numerals? hnumerals, hplaced⟩
    · exact .inr hfirst
  · intro line hline l c hnumerals
    have hmem : HookLine.of line ∈ (inkLines s).map HookLine.of := List.mem_map_of_mem hline
    obtain ⟨block, hsubset⟩ := exists_step_subset (Transcript.findingsFrom_cons root tool) .start hmem
    obtain ⟨f, hf⟩ := Transcript.exists_mem_step_of_numerals? hnumerals root tool block
    refine ⟨f, hsubset f hf, ?_⟩
    rcases Transcript.placedBy_of_mem_step hf with ⟨l', c', hsame, hplaced⟩ | ⟨hnone, -⟩
    · obtain ⟨rfl, rfl⟩ := Prod.mk.inj (Option.some.inj (hnumerals.symm.trans hsame))
      exact hplaced
    · rw [hnumerals] at hnone
      cases hnone

/-- An entry on the line three of another script, and in column seven with zeros in front. -/
theorem places_decimal_foreign :
    ∃ f ∈ Columns.findings ⟨"/w"⟩ .yamllint "a.yml:٣:007: [truthy] Truthy value".toList,
      decimal ['٣'] = 3 ∧ f.line = Text.maxWord ∧ f.column = 7 := by
  have hlines : inkLines "a.yml:٣:007: [truthy] Truthy value".toList =
      ["a.yml:٣:007: [truthy] Truthy value".toList] := by
    decide +kernel
  have hentry : ColumnLine.of "a.yml:٣:007: [truthy] Truthy value".toList =
      .entry "a.yml".toList ['٣'] ['0', '0', '7'] "truthy".toList "Truthy value".toList := by
    decide +kernel
  obtain ⟨-, hentries, -⟩ := places_decimal ⟨"/w"⟩ .yamllint "a.yml:٣:007: [truthy] Truthy value".toList
  rw [hlines, List.forall_mem_singleton] at hentries
  obtain ⟨f, hf, hplaced⟩ := hentries _ _ _ _ _ hentry
  have hascii : ∀ c ∈ ['0', '0', '7'], isAsciiDigit c = true := List.all_eq_true.1 rfl
  have hcolumn := (hplaced.column _ rfl).exact.2 (.inl hascii)
  refine ⟨f, hf, by decide, hplaced.line.foreign ⟨'٣', List.mem_singleton_self _, by decide⟩, ?_⟩
  exact UInt32.toNat_inj.1 hcolumn

end Report

end LintHub
