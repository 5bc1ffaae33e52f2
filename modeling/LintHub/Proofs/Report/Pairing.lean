import LintHub.Proofs.Finding.Sound
import LintHub.Proofs.Report.Columns
import Mathlib.Data.List.Induction

/-!
# Headers and their locations

A header waits for a location. Which header a location has can be told from the lines before it alone.

* `Columns.openHeader?` : the header that stands nearest before a line, unless a location stands nearer.
* `Columns.entryOf`, `Columns.pairAt` : what a line says by itself, and what it says together with that header.
* `Columns.findingsFrom_eq_told` : the reader, which carries a header from line to line, says the same.
* `Columns.told_pairAt_filter` : entries and unknown lines do not matter for headers and locations.
* `Columns.findings_paired` : all of this for a report, with the fields of a finding of two lines. Its place is the
  printed one, as far as that is in ASCII digits.
-/

namespace LintHub

/-- A header or a location. -/
def ColumnLine.isMark : ColumnLine → Bool
  | .header .. => true
  | .location .. => true
  | _ => false

namespace Columns

/-! ## Lines told from the lines before them -/

/-- The header that stands nearest before a line, unless a location stands nearer; `before` are the lines before it. -/
def openHeader? (before : List ColumnLine) : Pending :=
  match before.reverse.find? ColumnLine.isMark with
  | some (.header rule message) => some (rule, message)
  | _ => none

/-- The finding of an entry. -/
def entryOf (root : Path) (tool : Tool) : ColumnLine → Option Finding
  | .entry path line column token message => some (entryFinding root tool path line column token message)
  | _ => none

/-- The finding of a location and its header. -/
def pairAt (root : Path) (tool : Tool) (before : List ColumnLine) : ColumnLine → Option Finding
  | .location path line column rest =>
    (openHeader? before).map fun (rule, message) => locationFinding root tool rule message path line column rest
  | _ => none

/-- What each line says after the lines before it, in the order of lines. -/
def told (say : List ColumnLine → ColumnLine → Option Finding) (before : List ColumnLine) :
    List ColumnLine → List Finding
  | [] => []
  | line :: rest => (say before line).toList ++ told say (before ++ [line]) rest

/-- Line number `h` is a header, and neither a header nor a location stands after it. -/
structure Heads (before : List ColumnLine) (h : Nat) (rule message : List Char) : Prop where
  header : before[h]? = some (.header rule message)
  nearest : ∀ k line, h < k → before[k]? = some line → line.isMark = false

variable {root : Path} {tool : Tool} {before before' lines : List ColumnLine} {rule message : List Char}

theorem openHeader?_append_singleton (before : List ColumnLine) (line : ColumnLine) :
    openHeader? (before ++ [line]) =
      match line with
      | .header rule message => some (rule, message)
      | .location .. => none
      | _ => openHeader? before := by
  cases line <;> simp [openHeader?, List.find?_cons, ColumnLine.isMark]

theorem heads_append_singleton {h : Nat} {line : ColumnLine} :
    Heads (before ++ [line]) h rule message ↔
      h = before.length ∧ line = .header rule message ∨ line.isMark = false ∧ Heads before h rule message := by
  have hlast : (before ++ [line])[before.length]? = some line := by simp
  have hearlier {k : Nat} (hk : k < before.length) : (before ++ [line])[k]? = before[k]? :=
    List.getElem?_append_left hk
  constructor
  · rintro ⟨hheader, hnearest⟩
    have hbound : h < (before ++ [line]).length := (List.getElem?_eq_some_iff.1 hheader).1
    rw [List.length_append, List.length_singleton] at hbound
    rcases Nat.lt_or_eq_of_le (Nat.lt_succ_iff.1 hbound) with hlt | rfl
    · refine .inr ⟨hnearest _ line hlt hlast, by rwa [hearlier hlt] at hheader, fun k found hk hfound => ?_⟩
      exact hnearest k found hk (by rwa [hearlier (List.getElem?_eq_some_iff.1 hfound).1])
    · rw [hlast, Option.some.injEq] at hheader
      exact .inl ⟨rfl, hheader⟩
  · rintro (⟨rfl, rfl⟩ | ⟨hline, hheader, hnearest⟩)
    · refine ⟨hlast, fun k found hk hfound => ?_⟩
      have hbound := (List.getElem?_eq_some_iff.1 hfound).1
      rw [List.length_append, List.length_singleton] at hbound
      omega
    · refine ⟨by rwa [hearlier (List.getElem?_eq_some_iff.1 hheader).1], fun k found hk hfound => ?_⟩
      have hbound := (List.getElem?_eq_some_iff.1 hfound).1
      rw [List.length_append, List.length_singleton] at hbound
      rcases Nat.lt_or_eq_of_le (Nat.lt_succ_iff.1 hbound) with hlt | rfl
      · exact hnearest k found hk (by rwa [hearlier hlt] at hfound)
      · rw [hlast, Option.some.injEq] at hfound
        rwa [← hfound]

theorem openHeader?_eq_some_iff : openHeader? before = some (rule, message) ↔ ∃ h, Heads before h rule message := by
  induction before using List.reverseRecOn with
  | nil =>
    simp only [openHeader?, List.reverse_nil, List.find?_nil, reduceCtorEq, false_iff, not_exists]
    intro h hheads
    simpa using hheads.header
  | append_singleton before line ih =>
    simp only [openHeader?_append_singleton, heads_append_singleton]
    cases line with
    | header => simp [ColumnLine.isMark]
    | location => simp [ColumnLine.isMark]
    | entry => simp [ColumnLine.isMark, ih]
    | other => simp [ColumnLine.isMark, ih]

/-- Between a header and a line that it heads stands no location. -/
theorem heads_unique {h i j : Nat} {rule' message' : List Char} (hi : Heads (lines.take i) h rule message)
    (hj : Heads (lines.take j) h rule' message') (hli : lines[i]?.any ColumnLine.isMark = true)
    (hlj : lines[j]?.any ColumnLine.isMark = true) : i = j := by
  -- The earlier one of two different lines would be a mark between the header and the later one.
  have hle {a b : Nat} {r m r' m' : List Char} (ha : Heads (lines.take a) h r m) (hb : Heads (lines.take b) h r' m')
      (hla : lines[a]?.any ColumnLine.isMark = true) : ¬ a < b := by
    intro hab
    have hha : h < a := by
      have := (List.getElem?_eq_some_iff.1 ha.header).1
      rw [List.length_take] at this
      omega
    cases hline : lines[a]? with
    | none => simp [hline] at hla
    | some line =>
      have := hb.nearest a line hha (by rw [List.getElem?_take_of_lt hab, hline])
      simp [hline, this] at hla
  have := hle hi hj hli
  have := hle hj hi hlj
  omega

/-! ## The reader -/

theorem told_append (say : List ColumnLine → ColumnLine → Option Finding) (before a b : List ColumnLine) :
    told say before (a ++ b) = told say before a ++ told say (before ++ a) b := by
  induction a generalizing before with
  | nil => simp [told]
  | cons line a ih => simp [told, ih]

/-- What a line says by itself or with its header. -/
def sayAt (root : Path) (tool : Tool) (before : List ColumnLine) (line : ColumnLine) : Option Finding :=
  (entryOf root tool line).or (pairAt root tool before line)

/-- One line: the header that waits is the open one, and the line's finding is told from it. -/
theorem step_openHeader? (root : Path) (tool : Tool) (before : List ColumnLine) (line : ColumnLine) :
    step root tool (openHeader? before) line = (openHeader? (before ++ [line]), sayAt root tool before line) := by
  rw [openHeader?_append_singleton]
  cases line with
  | location =>
    cases h : openHeader? before with
    | none => simp [step, sayAt, entryOf, pairAt, h]
    | some header => simp [step, sayAt, entryOf, pairAt, h]
  | _ => rfl

theorem findingsFrom_eq_told (root : Path) (tool : Tool) (before lines : List ColumnLine) :
    findingsFrom root tool (openHeader? before) lines = told (sayAt root tool) before lines := by
  induction lines generalizing before with
  | nil => rfl
  | cons line lines ih => simp only [findingsFrom, told, step_openHeader?, ih]

/-- Lines that are no marks may be left out before a line, and among those that tell nothing. -/
theorem told_pairAt_filter (h : openHeader? before = openHeader? before') (lines : List ColumnLine) :
    told (pairAt root tool) before lines = told (pairAt root tool) before' (lines.filter ColumnLine.isMark) := by
  induction lines generalizing before before' with
  | nil => rfl
  | cons line lines ih =>
    have hnext : openHeader? (before ++ [line]) = openHeader? (before' ++ [line]) := by
      rw [openHeader?_append_singleton, openHeader?_append_singleton, h]
    cases hmark : line.isMark with
    | true =>
      have hsay : pairAt root tool before line = pairAt root tool before' line := by
        cases line <;> simp [pairAt, h]
      rw [List.filter_cons_of_pos hmark, told, told, hsay, ih hnext]
    | false =>
      have hsay : pairAt root tool before line = none := by
        cases line <;> simp_all [pairAt, ColumnLine.isMark]
      have hskip : openHeader? (before ++ [line]) = openHeader? before' := by
        rw [openHeader?_append_singleton, ← h]
        cases line <;> simp_all [ColumnLine.isMark]
      rw [List.filter_cons_of_neg (by simp [hmark]), told, hsay, ih hskip, Option.toList_none, List.nil_append]

/-! ## What headers and locations hold -/

theorem mem_typedRule? {s rest : List Char} (h : typedRule? s = some (rule, rest)) :
    rule ≠ [] ∧ ∀ c ∈ rule, isTypedRuleChar c = true := by
  have hplain {head more : List Char} {text : List Char} (hrun : Text.run? isRuleChar text = some (head, more)) :
      head ≠ [] ∧ ∀ c ∈ head, isTypedRuleChar c = true := by
    obtain ⟨-, hne, hok⟩ := Text.run?_eq_some hrun
    exact ⟨hne, fun c hc => by simp [isTypedRuleChar, hok c hc]⟩
  rw [typedRule?] at h
  split at h
  · cases h
  · next name more hname =>
    obtain ⟨hne, hok⟩ := hplain hname
    split at h
    · next type _ htype =>
      obtain ⟨rfl, -⟩ := Prod.mk.inj (Option.some.inj h)
      refine ⟨by simp, fun c hc => ?_⟩
      simp only [List.mem_append, List.mem_cons, List.not_mem_nil, or_false] at hc
      rcases hc with (hc | rfl | hc) | rfl
      · exact hok c hc
      · decide +kernel
      · exact (hplain htype).2 c hc
      · decide +kernel
    · cases h
  · next hname => exact hplain (h ▸ hname)

theorem eq_of_header? {l : List Char} {found : ColumnLine} (h : header? l = some found) :
    ∃ rule message, found = .header rule message ∧ rule ≠ [] ∧ (∀ c ∈ rule, isTypedRuleChar c = true) ∧
      Text.Tight message := by
  rw [header?] at h
  split at h
  · next rule rest hrule =>
    obtain ⟨hne, hok⟩ := mem_typedRule? hrule
    split at h
    · obtain ⟨message, hmessage, rfl⟩ := Option.map_eq_some_iff.1 h
      refine ⟨rule, message, rfl, hne, hok, ?_⟩
      rw [headerMessage?] at hmessage
      split at hmessage
      · split at hmessage
        · cases hmessage
          exact Text.tight_trim _
        · cases hmessage
      · cases hmessage
    · cases h
  · cases h

theorem suffix_of_colonNumber? {s digits rest : List Char} (h : colonNumber? s = some (digits, rest)) : rest <:+ s := by
  unfold colonNumber? at h
  split at h
  · obtain ⟨rfl, -⟩ := Text.run?_eq_some h
    exact (List.suffix_append digits rest).trans (List.suffix_cons _ _)
  · cases h

/-- What stands after a location is at its end and starts with no blank. -/
theorem suffix_of_locationEnd? {s rest : List Char} (h : locationEnd? s = some rest) :
    rest <:+ s ∧ ∀ c ∈ rest.head?, Text.isBlank c = false := by
  have htrimmed {c : Char} {more : List Char}
      (h : (if Text.isBlank c then some (Text.trimStart more) else none) = some rest) :
      rest <:+ c :: more ∧ ∀ c ∈ rest.head?, Text.isBlank c = false := by
    split at h
    · cases h
      exact ⟨(List.dropWhile_suffix _).trans (List.suffix_cons _ _), fun c hc => Text.isBlank_head_trimStart hc⟩
    · cases h
  rw [locationEnd?.eq_def] at h
  split at h <;> dsimp only at h
  · split at h
    · cases h
      exact ⟨List.nil_suffix, by simp⟩
    · obtain ⟨hsuffix, hhead⟩ := htrimmed h
      exact ⟨hsuffix.trans (List.suffix_cons _ _), hhead⟩
  · split at h
    · cases h
      exact ⟨List.suffix_rfl, by simp⟩
    · exact htrimmed h

theorem eq_of_location? {l : List Char} {found : ColumnLine} (h : location? l = some found) :
    ∃ path line column rest, found = .location path line column rest ∧ rest <:+ l ∧
      ∀ c ∈ rest.head?, Text.isBlank c = false := by
  obtain ⟨⟨path, line, column, rest⟩, hhead, rfl⟩ := Option.map_eq_some_iff.1 h
  obtain ⟨after, rfl, hafter⟩ := Text.next_of_shortestHead hhead
  refine ⟨path, line, column, rest, rfl, ?_⟩
  have hend {t : List Char} (ht : t <:+ after) {column' : Option (List Char)} {line' : List Char}
      (hmap : (locationEnd? t).map (fun text => (line', column', text)) = some (line, column, rest)) :
      rest <:+ path ++ after ∧ ∀ c ∈ rest.head?, Text.isBlank c = false := by
    obtain ⟨text, htext, heq⟩ := Option.map_eq_some_iff.1 hmap
    obtain ⟨-, hrest⟩ := Prod.mk.inj heq
    obtain ⟨-, rfl⟩ := Prod.mk.inj hrest
    obtain ⟨hsuffix, hblank⟩ := suffix_of_locationEnd? htext
    exact ⟨(hsuffix.trans ht).trans (List.suffix_append _ _), hblank⟩
  rw [afterLocation?, Option.bind_eq_bind, Option.bind_eq_some_iff] at hafter
  obtain ⟨⟨digits, more⟩, hdigits, hafter⟩ := hafter
  have hmore := suffix_of_colonNumber? hdigits
  dsimp only at hafter
  split at hafter
  · next hcolumn => exact hend ((suffix_of_colonNumber? hcolumn).trans hmore) hafter
  · exact hend hmore hafter

/-- What a line is was read as such. -/
theorem of_cases (l : List Char) :
    ( entry? l = some (.of l) ∨ header? l = some (.of l) ∨ location? l = some (.of l)) ∨ ColumnLine.of l = .other := by
  rw [ColumnLine.of]
  cases entry? l with
  | some found => simp
  | none =>
    cases header? l with
    | some found => simp
    | none => cases location? l <;> simp

theorem not_isMark_of_entry {l : List Char} {found : ColumnLine} (h : entry? l = some found) :
    found.isMark = false := by
  obtain ⟨cut, -, rfl⟩ := Option.map_eq_some_iff.1 h
  rfl

/-- The rule of a header has the characters of rules, and its message has no outer blanks. -/
theorem header_parts {l : List Char} (h : ColumnLine.of l = .header rule message) :
    rule ≠ [] ∧ (∀ c ∈ rule, isTypedRuleChar c = true) ∧ Text.Tight message := by
  have hcases := of_cases l
  rw [h] at hcases
  rcases hcases with (hentry | hheader | hlocation) | hother
  · exact absurd (not_isMark_of_entry hentry) (by simp [ColumnLine.isMark])
  · obtain ⟨rule', message', heq, hparts⟩ := eq_of_header? hheader
    obtain ⟨rfl, rfl⟩ := ColumnLine.header.inj heq
    exact hparts
  · obtain ⟨_, _, _, _, heq, -⟩ := eq_of_location? hlocation
    cases heq
  · cases hother

/-- The text after a location on a line without outer blanks has none. -/
theorem location_parts {l path line rest : List Char} {column : Option (List Char)} (hl : Text.Tight l)
    (h : ColumnLine.of l = .location path line column rest) : Text.Tight rest := by
  have hcases := of_cases l
  rw [h] at hcases
  rcases hcases with (hentry | hheader | hlocation) | hother
  · exact absurd (not_isMark_of_entry hentry) (by simp [ColumnLine.isMark])
  · obtain ⟨_, _, heq, -⟩ := eq_of_header? hheader
    cases heq
  · obtain ⟨_, _, _, _, heq, hsuffix, hhead⟩ := eq_of_location? hlocation
    obtain ⟨-, -, -, rfl⟩ := ColumnLine.location.inj heq
    refine ⟨hhead, fun c hc => hl.2 c ?_⟩
    obtain ⟨front, rfl⟩ := hsuffix
    rwa [List.getLast?_append_of_ne_nil]
    rintro rfl
    cases hc
  · cases hother

/-! ## The finding of two lines -/

/-- The message of a header and the text after its location. A header without a message still has the word for one. -/
def pairMessage (message rest : List Char) : String :=
  if rest = [] then (if message = [] then Rule.unknown else String.ofList message)
  else String.ofList (message ++ ':' :: ' ' :: rest)

theorem nonempty_ofList {s : List Char} (h : Text.Tight s) :
    Finding.nonempty (String.ofList s) = if s = [] then Rule.unknown else String.ofList s := by
  have htrim : Text.trimmed (String.ofList s) = String.ofList s := by
    rw [Text.trimmed, String.toList_ofList, Text.trim_eq_self h]
  rw [Finding.nonempty, htrim]
  simp

theorem nonempty_joinMessage {rest : List Char} (hmessage : Text.Tight message) (hrest : Text.Tight rest) :
    Finding.nonempty (String.ofList (joinMessage message rest)) = pairMessage message rest := by
  rw [joinMessage, pairMessage, Text.trim_eq_self hrest]
  by_cases hnil : rest = []
  · simp only [hnil, List.isEmpty_nil, if_true, nonempty_ofList hmessage]
  · have htight : Text.Tight (message ++ ':' :: ' ' :: rest) := by
      constructor
      · cases message with
        | nil =>
          rintro c ⟨⟩
          decide
        | cons d message => exact hmessage.1
      · rw [show message ++ ':' :: ' ' :: rest = message ++ [':', ' '] ++ rest by simp,
          List.getLast?_append_of_ne_nil _ hnil]
        exact hrest.2
    simp only [hnil, List.isEmpty_iff, if_false, nonempty_ofList htight]
    simp

theorem nonempty_rule (hne : rule ≠ []) (hok : ∀ c ∈ rule, isTypedRuleChar c = true) :
    Finding.nonempty (String.ofList rule) = String.ofList rule := by
  rw [nonempty_ofList (Text.tight_of_ink fun c hc => isBlank_of_isTypedRuleChar (hok c hc)), if_neg hne]

theorem locationFinding_fields (root : Path) (tool : Tool) (rule message path line : List Char)
    (column : Option (List Char)) (rest : List Char) :
    (locationFinding root tool rule message path line column rest).file = root.resolve (String.ofList path) ∧
    (locationFinding root tool rule message path line column rest).rule = Finding.nonempty (String.ofList rule) ∧
    (locationFinding root tool rule message path line column rest).message =
      Finding.nonempty (String.ofList (joinMessage message rest)) ∧
    (locationFinding root tool rule message path line column rest).line = Finding.fromOne (Text.position line) ∧
    (locationFinding root tool rule message path line column rest).column =
      column.elim 1 fun c => Finding.fromOne (Text.position c) := by
  simp only [locationFinding, Finding.ranked, Finding.placed, Finding.file_new, Finding.rule_new, Finding.message_new,
    true_and]
  cases column <;> rfl

/-! ## Reports -/

/-- What the lines of a report are. -/
def linesOf (s : List Char) : List ColumnLine := (inkLines s).map ColumnLine.of

theorem inkLines_append_feed_append (a b : List Char) : inkLines (a ++ '\n' :: b) = inkLines a ++ inkLines b := by
  induction a using Text.lines_induction with
  | last l hl => exact inkLines_append_feed b hl
  | feed l s hl ih => rw [List.append_assoc, List.cons_append, inkLines_append_feed _ hl, ih,
      inkLines_append_feed _ hl, List.append_assoc]

theorem tight_of_mem_inkLines {s l : List Char} (h : l ∈ inkLines s) : Text.Tight l := by
  obtain ⟨line, -, rfl⟩ := List.mem_map.1 (List.mem_filter.1 h).1
  exact Text.tight_trim line

/-- A report in columns is told line by line: an entry by itself, and a location with the nearest header before it. -/
theorem findings_paired (root : Path) (tool : Tool) (s : List Char) :
    findings root tool s = told (sayAt root tool) [] (linesOf s) ∧
    (∀ before rule message, openHeader? before = some (rule, message) ↔ ∃ h, Heads before h rule message) ∧
    (∀ rule message path line column rest, .header rule message ∈ linesOf s →
      .location path line column rest ∈ linesOf s →
      let f := locationFinding root tool rule message path line column rest
      f.file = root.resolve (String.ofList path) ∧ f.rule = String.ofList rule ∧ f.message = pairMessage message rest ∧
        ((∀ c ∈ line, Text.isAsciiDigit c = true) → f.line = Finding.placeOf (Text.ofDigits line)) ∧
        (∀ digits ∈ column, (∀ c ∈ digits, Text.isAsciiDigit c = true) →
          f.column = Finding.placeOf (Text.ofDigits digits)) ∧
        (column = none → f.column = 1)) ∧
    (∀ h i j rule message rule' message', Heads ((linesOf s).take i) h rule message →
      Heads ((linesOf s).take j) h rule' message' → (linesOf s)[i]?.any ColumnLine.isMark = true →
      (linesOf s)[j]?.any ColumnLine.isMark = true → i = j) ∧
    (∀ s', (linesOf s').filter ColumnLine.isMark = (linesOf s).filter ColumnLine.isMark →
      told (pairAt root tool) [] (linesOf s') = told (pairAt root tool) [] (linesOf s)) ∧
    (∀ b, openHeader? (linesOf s) = none →
      findings root tool (s ++ '\n' :: b) = findings root tool s ++ findings root tool b) := by
  have htold (t : List Char) : findings root tool t = told (sayAt root tool) [] (linesOf t) :=
    findingsFrom_eq_told root tool [] (linesOf t)
  refine ⟨htold s, fun _ _ _ => openHeader?_eq_some_iff, ?_, fun _ _ _ _ _ _ _ => heads_unique, fun s' hs' => ?_,
    fun b hb => ?_⟩
  · intro rule message path line column rest hheader hlocation
    obtain ⟨l, -, hl⟩ := List.mem_map.1 hheader
    obtain ⟨k, hk, hkl⟩ := List.mem_map.1 hlocation
    obtain ⟨hne, hok, hmessage⟩ := header_parts hl
    have hrest := location_parts (tight_of_mem_inkLines hk) hkl
    obtain ⟨hfile, hfrule, hfmessage, hline, hcolumn⟩ :=
      locationFinding_fields root tool rule message path line column rest
    rw [nonempty_rule hne hok] at hfrule
    rw [nonempty_joinMessage hmessage hrest] at hfmessage
    refine ⟨hfile, hfrule, hfmessage, fun hascii => ?_, ?_, ?_⟩
    · rw [hline, Finding.fromOne_position hascii]
    · rintro digits rfl hascii
      rw [hcolumn, Option.elim_some, Finding.fromOne_position hascii]
    · rintro rfl
      exact hcolumn
  · rw [told_pairAt_filter rfl (linesOf s'), hs', ← told_pairAt_filter rfl (linesOf s)]
  · have hnext : told (sayAt root tool) (linesOf s) (linesOf b) = told (sayAt root tool) [] (linesOf b) := by
      rw [← findingsFrom_eq_told, ← findingsFrom_eq_told, hb]
      rfl
    have hlines : linesOf (s ++ '\n' :: b) = linesOf s ++ linesOf b := by
      rw [linesOf, inkLines_append_feed_append, List.map_append]
      rfl
    rw [htold, hlines, told_append, List.nil_append, hnext, ← htold, ← htold]

/-- A header whose message is blank, and a location on line zero, in a column that does not fit 32 bits. -/
def blankReport : List Char := "fqcn:   (warning)\nsite.yml:0:5000000000".toList

/-- The finding has the word for a missing message and stands on line one, in the last column there is. -/
theorem findings_blank_header :
    linesOf blankReport =
      [.header "fqcn".toList [], .location "site.yml".toList ['0'] (some "5000000000".toList) []] ∧
    ∃ f, findings ⟨"/w"⟩ .ansibleLint blankReport = [f] ∧ f.rule = "fqcn" ∧
      f.message = Rule.unknown ∧ f.message ≠ String.ofList [] ∧
      f.line = 1 ∧ f.line.toNat ≠ Text.ofDigits ['0'] ∧
      f.column = Text.maxWord ∧ f.column.toNat ≠ Text.ofDigits "5000000000".toList := by
  have hlines : linesOf blankReport =
      [.header "fqcn".toList [], .location "site.yml".toList ['0'] (some "5000000000".toList) []] := by
    decide +kernel
  obtain ⟨-, hrule, hmessage, hline, hcolumn⟩ := locationFinding_fields ⟨"/w"⟩ .ansibleLint "fqcn".toList []
    "site.yml".toList ['0'] (some "5000000000".toList) []
  refine ⟨hlines, _, congrArg (findingsFrom ⟨"/w"⟩ .ansibleLint none) hlines, ?_⟩
  rw [hrule, hmessage, hline, hcolumn]
  decide +kernel

/-- A header, an entry, an unknown line and two locations. -/
def mixedReport : List Char :=
  "fqcn: Use FQCN (warning)\na.yml:1:1: [truthy] Truthy value\nFinished\nsite.yml:3:7 here\nsite.yml:9".toList

/-- The same header and locations. -/
def pairedReport : List Char := "fqcn: Use FQCN (warning)\nsite.yml:3:7 here\nsite.yml:9".toList

theorem findings_paired_mixedReport :
    ∃ f, (.header "fqcn".toList "Use FQCN".toList ∈ linesOf mixedReport ∧
        .location "site.yml".toList ['3'] (some ['7']) "here".toList ∈ linesOf mixedReport) ∧
      f = locationFinding ⟨"/w"⟩ .ansibleLint "fqcn".toList "Use FQCN".toList "site.yml".toList ['3'] (some ['7'])
        "here".toList ∧ (f.rule, f.message, f.line, f.column) = ("fqcn", "Use FQCN: here", 3, 7) ∧
      told (pairAt ⟨"/w"⟩ .ansibleLint) [] (linesOf pairedReport) =
        told (pairAt ⟨"/w"⟩ .ansibleLint) [] (linesOf mixedReport) ∧
      findings ⟨"/w"⟩ .ansibleLint (mixedReport ++ '\n' :: pairedReport) =
        findings ⟨"/w"⟩ .ansibleLint mixedReport ++ findings ⟨"/w"⟩ .ansibleLint pairedReport := by
  obtain ⟨-, -, hfields, -, hframe, happend⟩ := findings_paired ⟨"/w"⟩ .ansibleLint mixedReport
  have hpaired : linesOf pairedReport = [.header "fqcn".toList "Use FQCN".toList,
      .location "site.yml".toList ['3'] (some ['7']) "here".toList, .location "site.yml".toList ['9'] none []] := by
    decide +kernel
  have hmixed : linesOf mixedReport = [.header "fqcn".toList "Use FQCN".toList,
      .entry "a.yml".toList ['1'] ['1'] "truthy".toList "Truthy value".toList, .other,
      .location "site.yml".toList ['3'] (some ['7']) "here".toList, .location "site.yml".toList ['9'] none []] := by
    decide +kernel
  have hheader : .header "fqcn".toList "Use FQCN".toList ∈ linesOf mixedReport := by simp [hmixed]
  have hlocation : .location "site.yml".toList ['3'] (some ['7']) "here".toList ∈ linesOf mixedReport := by
    simp [hmixed]
  have hmarks : (linesOf pairedReport).filter ColumnLine.isMark = (linesOf mixedReport).filter ColumnLine.isMark := by
    rw [hpaired, hmixed]
    rfl
  have hclosed : openHeader? (linesOf mixedReport) = none := by
    rw [hmixed]
    rfl
  obtain ⟨-, hrule, hmessage, hline, hcolumn, -⟩ := hfields _ _ _ _ _ _ hheader hlocation
  refine ⟨_, ⟨hheader, hlocation⟩, rfl, ?_, hframe pairedReport hmarks, happend pairedReport hclosed⟩
  rw [hrule, hmessage, hline (List.all_eq_true.1 rfl), hcolumn ['7'] rfl (List.all_eq_true.1 rfl)]
  decide +kernel

end Columns

end LintHub
