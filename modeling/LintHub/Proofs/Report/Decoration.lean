import LintHub.Proofs.Text.Search
import LintHub.Report.Reading
import Mathlib.Logic.Basic

/-!
# Decorated texts

A terminal's decorations say nothing. A text that has escapes and colours anywhere between its characters is read as the
text without them.

* `Decorated plain text` : `text` is `plain` with decorations put in. `Coloured left plain text` : only colours of `left`
  are put in.
* `Decorated.dropEscapes` and `Coloured.erase` : one pass of `cleanChars` takes out one kind of decoration and joins
  nothing that a later pass would take for one.
* `read_of_decorated` : what a decorated text is cleaned to, and what is read in it.
-/

namespace LintHub

/-! ## Erasing a part of a text -/

namespace Text

variable {part : List Char}

theorem erase_cons {c : Char} {rest : List Char} (h : ¬ part <+: c :: rest) :
    erase part (c :: rest) = c :: erase part rest := by
  rw [erase, eraseFrom, if_neg (mt List.isPrefixOf_iff_prefix.1 h)]
  rfl

theorem erase_append {head rest : List Char} (h : ∀ a b, head = a ++ b → b ≠ [] → ¬ part <+: b ++ rest) :
    erase part (head ++ rest) = head ++ erase part rest := by
  induction head with
  | nil => rfl
  | cons c head ih =>
    have hhead : ∀ a b, head = a ++ b → b ≠ [] → ¬ part <+: b ++ rest := fun a b hab =>
      h (c :: a) b (by rw [hab, List.cons_append])
    have hc : ¬ part <+: c :: (head ++ rest) := h [] (c :: head) rfl (by simp)
    rw [List.cons_append, erase_cons hc, ih hhead, List.cons_append]

theorem eraseFrom_append (head rest : List Char) : eraseFrom part head.length (head ++ rest) = erase part rest := by
  induction head with
  | nil => rfl
  | cons c head ih => exact ih

theorem erase_part (hne : part ≠ []) (rest : List Char) : erase part (part ++ rest) = erase part rest := by
  obtain ⟨c, tail, rfl⟩ := List.exists_cons_of_ne_nil hne
  have hstart : (c :: tail).isPrefixOf (c :: (tail ++ rest)) = true :=
    List.isPrefixOf_iff_prefix.2 (List.prefix_append (c :: tail) rest)
  rw [erase, List.cons_append, eraseFrom, if_pos hstart]
  exact eraseFrom_append tail rest

end Text

namespace Report

/-- What follows the escape character in a complete escape. -/
inductive IsEscape : List Char → Prop
  | control {parameters intermediates : List Char} {final : Char} (hp : ∀ c ∈ parameters, within 0x30 0x3F c = true)
      (hi : ∀ c ∈ intermediates, within 0x20 0x2F c = true) (hf : within 0x40 0x7E final = true) :
      IsEscape ('[' :: (parameters ++ (intermediates ++ [final])))
  | bell {text : List Char} (ht : ∀ c ∈ text, isCommandText c = true) : IsEscape (']' :: (text ++ ['\x07']))
  | terminator {text : List Char} (ht : ∀ c ∈ text, isCommandText c = true) :
      IsEscape (']' :: (text ++ ['\x1b', '\\']))
  | pair {c : Char} (hc : within 0x40 0x5F c = true) (hbracket : c ≠ '[') (hclose : c ≠ ']') : IsEscape [c]

/-- The second text is the first with escapes and colours put in between its characters and at its ends. -/
inductive Decorated : List Char → List Char → Prop
  | nil : Decorated [] []
  | char (c : Char) {plain text : List Char} (h : Decorated plain text) : Decorated (c :: plain) (c :: text)
  | escape {body plain text : List Char} (hbody : IsEscape body) (h : Decorated plain text) :
      Decorated plain (Report.escape :: (body ++ text))
  | colour {colour : String} {plain text : List Char} (hcolour : colour ∈ colours) (h : Decorated plain text) :
      Decorated plain (colour.toList ++ text)

/-- The second text is the first with colours out of `left` put in. -/
inductive Coloured (left : List String) : List Char → List Char → Prop
  | nil : Coloured left [] []
  | char (c : Char) {plain text : List Char} (h : Coloured left plain text) : Coloured left (c :: plain) (c :: text)
  | colour {colour : String} {plain text : List Char} (hcolour : colour ∈ left) (h : Coloured left plain text) :
      Coloured left plain (colour.toList ++ text)

/-! ## Escapes -/

theorem within_eq_false {low high low' high' : Nat} {c : Char} (hc : within low high c = true)
    (h : high < low' ∨ high' < low) : within low' high' c = false := by
  simp only [within, Bool.and_eq_true, Bool.and_eq_false_iff, decide_eq_true_eq, decide_eq_false_iff_not] at hc ⊢
  omega

theorem controlLength?_control {parameters intermediates : List Char} {final : Char} (rest : List Char)
    (hp : ∀ c ∈ parameters, within 0x30 0x3F c = true) (hi : ∀ c ∈ intermediates, within 0x20 0x2F c = true)
    (hf : within 0x40 0x7E final = true) :
    controlLength? ('[' :: (parameters ++ (intermediates ++ final :: rest))) =
      some (parameters.length + intermediates.length + 2) := by
  have hfinal : (intermediates ++ final :: rest).dropWhile (within 0x20 0x2F) = final :: rest ∧
      (intermediates ++ final :: rest).takeWhile (within 0x20 0x2F) = intermediates :=
    (Text.span_append_cons hi (within_eq_false hf (.inr (by decide))) rest).symm
  have hparameters : (parameters ++ (intermediates ++ final :: rest)).dropWhile (within 0x30 0x3F) =
        intermediates ++ final :: rest ∧
      (parameters ++ (intermediates ++ final :: rest)).takeWhile (within 0x30 0x3F) = parameters := by
    cases intermediates with
    | nil => exact (Text.span_append_cons hp (within_eq_false hf (.inr (by decide))) rest).symm
    | cons c intermediates =>
      exact (Text.span_append_cons hp (within_eq_false (hi c (by simp)) (.inl (by decide))) _).symm
  simp only [controlLength?]
  rw [hparameters.1, hparameters.2, hfinal.1, hfinal.2]
  simp [hf]

theorem commandLength?_bell {text : List Char} (rest : List Char) (ht : ∀ c ∈ text, isCommandText c = true) :
    commandLength? (']' :: (text ++ '\x07' :: rest)) = some (text.length + 2) := by
  obtain ⟨htake, hdrop⟩ := Text.span_append_cons ht (show isCommandText '\x07' = false by decide) rest
  simp only [commandLength?]
  rw [hdrop, htake]
  rfl

theorem commandLength?_terminator {text : List Char} (rest : List Char) (ht : ∀ c ∈ text, isCommandText c = true) :
    commandLength? (']' :: (text ++ '\x1b' :: '\\' :: rest)) = some (text.length + 3) := by
  obtain ⟨htake, hdrop⟩ := Text.span_append_cons ht (show isCommandText '\x1b' = false by decide) ('\\' :: rest)
  simp only [commandLength?]
  rw [hdrop, htake]
  rfl

/-- A complete escape is as long as it is, whatever follows it. -/
theorem IsEscape.escapeLength? {body : List Char} (h : IsEscape body) (rest : List Char) :
    Report.escapeLength? (body ++ rest) = some body.length := by
  unfold Report.escapeLength?
  cases h with
  | control hp hi hf =>
    have hlength := controlLength?_control rest hp hi hf
    simp only [List.cons_append, List.append_assoc, List.nil_append]
    rw [hlength, Option.some_or]
    simp only [List.length_cons, List.length_append, List.length_nil, Option.some.injEq]
    omega
  | bell ht =>
    have hlength := commandLength?_bell rest ht
    simp only [List.cons_append, List.append_assoc, List.nil_append]
    rw [hlength]
    simp [controlLength?]
  | terminator ht =>
    have hlength := commandLength?_terminator rest ht
    simp only [List.cons_append, List.append_assoc, List.nil_append]
    rw [hlength]
    simp [controlLength?]
  | pair hc hbracket hclose =>
    rw [List.singleton_append, controlLength?.eq_2 _ (by simpa using hbracket),
      commandLength?.eq_2 _ (by simpa using hclose)]
    simp [pairLength?, hc]

theorem dropEscapesFrom_append (body rest : List Char) :
    dropEscapesFrom body.length (body ++ rest) = dropEscapes rest := by
  induction body with
  | nil => rfl
  | cons c body ih => exact ih

theorem dropEscapes_escape {body : List Char} (h : IsEscape body) (rest : List Char) :
    dropEscapes (escape :: (body ++ rest)) = dropEscapes rest := by
  rw [dropEscapes, dropEscapesFrom, if_pos rfl, h.escapeLength? rest]
  exact dropEscapesFrom_append body rest

theorem dropEscapes_cons {c : Char} (hc : c ≠ escape) (rest : List Char) :
    dropEscapes (c :: rest) = c :: dropEscapes rest := by
  rw [dropEscapes, dropEscapesFrom, if_neg hc]
  rfl

theorem dropEscapes_append {a : List Char} (ha : escape ∉ a) (rest : List Char) :
    dropEscapes (a ++ rest) = a ++ dropEscapes rest := by
  induction a with
  | nil => rfl
  | cons c a ih =>
    obtain ⟨hc, ha⟩ := not_or.1 (mt List.mem_cons.2 ha)
    rw [List.cons_append, dropEscapes_cons (Ne.symm hc), ih ha, List.cons_append]

/-! ## Colours -/

/-- Every colour is a bracket, a text without brackets and without `m`, and an `m`. -/
theorem exists_body_of_mem_colours {colour : String} (h : colour ∈ colours) :
    ∃ body, colour.toList = '[' :: (body ++ ['m']) ∧ '[' ∉ body ∧ 'm' ∉ body ∧ escape ∉ body := by
  have hall : ∀ colour ∈ colours, colour.toList = '[' :: (colour.toList.tail.dropLast ++ ['m']) ∧
      '[' ∉ colour.toList.tail.dropLast ∧ 'm' ∉ colour.toList.tail.dropLast ∧
      escape ∉ colour.toList.tail.dropLast := by
    decide
  exact ⟨_, hall colour h⟩

theorem escape_notMem_colour {colour : String} (h : colour ∈ colours) : escape ∉ colour.toList := by
  obtain ⟨body, hcolour, -, -, hbody⟩ := exists_body_of_mem_colours h
  rw [hcolour]
  simp only [List.mem_cons, List.mem_append, List.not_mem_nil, or_false, not_or]
  exact ⟨by decide, hbody, by decide⟩

/-- No other colour starts at a colour or inside of one, whatever follows. -/
theorem not_prefix_of_colour {colour other : String} (h : colour ∈ colours) (hother : other ∈ colours)
    (hne : other ≠ colour) {a b : List Char} (hab : other.toList = a ++ b) (hb : b ≠ []) (rest : List Char) :
    ¬ colour.toList <+: b ++ rest := by
  obtain ⟨body, hcolour, -, hm, -⟩ := exists_body_of_mem_colours h
  obtain ⟨body', hother, hbracket', hm', -⟩ := exists_body_of_mem_colours hother
  rintro ⟨tail, htail⟩
  rw [hcolour] at htail
  cases a with
  | nil =>
    rw [List.nil_append] at hab
    rw [← hab, hother] at htail
    simp only [List.cons_append, List.append_assoc, List.cons.injEq, true_and, List.nil_append] at htail
    have hbodies := Text.eq_of_append_notMem hm hm' htail
    apply hne
    apply String.toList_inj.1
    rw [hother, hcolour, hbodies.1]
  | cons d a =>
    obtain ⟨c, b, rfl⟩ := List.exists_cons_of_ne_nil hb
    have hc : c = '[' := (List.cons.inj htail).1.symm
    have hmem : c ∈ body' ++ ['m'] := by
      rw [hother, List.cons_append] at hab
      rw [(List.cons.inj hab).2]
      simp
    rcases List.mem_append.1 hmem with hmem | hmem
    · exact hbracket' (hc ▸ hmem)
    · rw [List.mem_singleton.1 hmem] at hc
      exact absurd hc (by decide)

namespace Coloured

variable {left : List String} {plain text : List Char}

/-- What starts a coloured text and has no bracket starts the plain one: a colour would begin with a bracket. -/
theorem prefix_of_notMem (hleft : ∀ colour ∈ left, colour ∈ colours) (h : Coloured left plain text) {part : List Char}
    (hpart : '[' ∉ part) (hhead : part <+: text) : part <+: plain := by
  induction h generalizing part with
  | nil => exact hhead
  | char c h ih =>
    cases part with
    | nil => exact List.nil_prefix
    | cons d part =>
      obtain ⟨rfl, htail⟩ := List.cons_prefix_cons.1 hhead
      exact List.cons_prefix_cons.2 ⟨rfl, ih (fun hmem => hpart (List.mem_cons_of_mem _ hmem)) htail⟩
  | colour hcolour h ih =>
    obtain ⟨body, heq, -⟩ := exists_body_of_mem_colours (hleft _ hcolour)
    rw [heq, List.cons_append] at hhead
    cases part with
    | nil => exact List.nil_prefix
    | cons d part =>
      obtain ⟨rfl, -⟩ := List.cons_prefix_cons.1 hhead
      exact absurd List.mem_cons_self hpart

/-- A colour that starts at a character of the plain text stands in the plain text. -/
theorem infix_of_prefix (hleft : ∀ colour ∈ left, colour ∈ colours) (h : Coloured left plain text) {colour : String}
    (hcolour : colour ∈ colours) {c : Char} (hhead : colour.toList <+: c :: text) : colour.toList <+: c :: plain := by
  obtain ⟨body, heq, hbody, -, -⟩ := exists_body_of_mem_colours hcolour
  have hbracket : '[' ∉ body ++ ['m'] := by
    rw [List.mem_append, not_or]
    exact ⟨hbody, by decide⟩
  rw [heq] at hhead ⊢
  obtain ⟨rfl, htail⟩ := List.cons_prefix_cons.1 hhead
  exact List.cons_prefix_cons.2 ⟨rfl, h.prefix_of_notMem hleft hbracket htail⟩

/-- Erasing a colour that the plain text has nowhere takes out just that one. -/
theorem erase {colour : String} (hleft : ∀ other ∈ colour :: left, other ∈ colours)
    (h : Coloured (colour :: left) plain text) (hplain : ¬ colour.toList <:+: plain) :
    Coloured left plain (Text.erase colour.toList text) := by
  have hcolour : colour ∈ colours := hleft colour List.mem_cons_self
  induction h with
  | nil => exact .nil
  | @char c plain text h ih =>
    have hstart : ¬ colour.toList <+: c :: text := fun hhead =>
      hplain (h.infix_of_prefix hleft hcolour hhead).isInfix
    rw [Text.erase_cons hstart]
    exact (ih fun hinside => hplain (hinside.trans (List.suffix_cons c plain).isInfix)).char c
  | @colour other plain text hother h ih =>
    by_cases heq : other = colour
    · obtain ⟨body, hbody, -⟩ := exists_body_of_mem_colours hcolour
      rw [heq, Text.erase_part (hbody ▸ List.cons_ne_nil _ _)]
      exact ih hplain
    · rw [Text.erase_append fun a b hab hb => not_prefix_of_colour hcolour (hleft other hother) heq hab hb text]
      exact (ih hplain).colour ((List.mem_cons.1 hother).resolve_left heq)

theorem foldl_erase (hleft : ∀ colour ∈ left, colour ∈ colours) (h : Coloured left plain text)
    (hplain : ∀ colour ∈ left, ¬ colour.toList <:+: plain) :
    left.foldl (fun text colour => Text.erase colour.toList text) text = plain := by
  induction left generalizing text with
  | nil =>
    induction h with
    | nil => rfl
    | char c h ih => exact congrArg (c :: ·) (ih (by simp))
    | colour hcolour h ih => cases hcolour
  | cons colour left ih =>
    rw [List.foldl_cons]
    exact ih (fun other hother => hleft other (List.mem_cons_of_mem _ hother))
      (h.erase hleft (hplain colour List.mem_cons_self))
      fun other hother => hplain other (List.mem_cons_of_mem _ hother)

end Coloured

/-! ## Reading -/

namespace Decorated

variable {plain text : List Char}

theorem dropEscapes (h : Decorated plain text) (hplain : Report.escape ∉ plain) :
    Coloured colours plain (Report.dropEscapes text) := by
  induction h with
  | nil => exact .nil
  | char c h ih =>
    obtain ⟨hc, hplain⟩ := not_or.1 (mt List.mem_cons.2 hplain)
    rw [dropEscapes_cons (Ne.symm hc)]
    exact (ih hplain).char c
  | escape hbody h ih =>
    rw [dropEscapes_escape hbody]
    exact ih hplain
  | colour hcolour h ih =>
    rw [dropEscapes_append (escape_notMem_colour hcolour)]
    exact (ih hplain).colour hcolour

theorem cleanChars (h : Decorated plain text) (hescape : Report.escape ∉ plain)
    (hcolours : ∀ colour ∈ colours, ¬ colour.toList <:+: plain) : Report.cleanChars text = plain :=
  (h.dropEscapes hescape).foldl_erase (fun _ hmem => hmem) hcolours

theorem chunk (part : List Char) (h : Decorated plain text) : Decorated (part ++ plain) (part ++ text) := by
  induction part with
  | nil => exact h
  | cons c part ih => exact ih.char c

end Decorated

/-- Decorations are invisible: a decorated text is cleaned to the plain text, if that has no escape and no colour
itself, and so the same is read in both. -/
theorem read_of_decorated {plain text : String} (h : Decorated plain.toList text.toList)
    (hescape : escape ∉ plain.toList) (hcolours : ∀ colour ∈ colours, Text.occursIn colour plain = false) :
    clean text = plain ∧
      ∀ root tool dialect, read text root tool dialect = read plain root tool dialect := by
  have hcolours : ∀ colour ∈ colours, ¬ colour.toList <:+: plain.toList := by
    intro colour hmem hinside
    have hnone := hcolours colour hmem
    rw [Text.occursIn, Text.occurs_of_infix hinside] at hnone
    cases hnone
  have htext : cleanChars text.toList = plain.toList := h.cleanChars hescape hcolours
  have hplain : cleanChars plain.toList = plain.toList := by
    have hself : Decorated (plain.toList ++ []) (plain.toList ++ []) := Decorated.nil.chunk plain.toList
    rw [List.append_nil] at hself
    exact hself.cleanChars hescape hcolours
  constructor
  · rw [clean, htext, String.ofList_toList]
  · intro root tool dialect
    simp only [read, readChars, htext, hplain]

/-- A report with a link, a reversed line feed, a window title and colours with and without escape characters, one of
them inside of a rule's name. -/
theorem read_of_decorated_report :
    clean "\x1b[1;31ma\x1b]8;;u\x07.yml[0m:3:1: \x1bM[tru[31mthy] \x1b]0;t\x1b\\m\x1b[0m" = "a.yml:3:1: [truthy] m" ∧
      ∀ root tool dialect,
        read "\x1b[1;31ma\x1b]8;;u\x07.yml[0m:3:1: \x1bM[tru[31mthy] \x1b]0;t\x1b\\m\x1b[0m" root tool dialect =
          read "a.yml:3:1: [truthy] m" root tool dialect := by
  have hred : IsEscape ['[', '1', ';', '3', '1', 'm'] :=
    @IsEscape.control ['1', ';', '3', '1'] [] 'm' (List.all_eq_true.1 rfl) (List.all_eq_true.1 rfl) rfl
  have hreset : IsEscape ['[', '0', 'm'] :=
    @IsEscape.control ['0'] [] 'm' (List.all_eq_true.1 rfl) (List.all_eq_true.1 rfl) rfl
  have hlink : IsEscape [']', '8', ';', ';', 'u', '\x07'] :=
    @IsEscape.bell ['8', ';', ';', 'u'] (List.all_eq_true.1 rfl)
  have htitle : IsEscape [']', '0', ';', 't', '\x1b', '\\'] :=
    @IsEscape.terminator ['0', ';', 't'] (List.all_eq_true.1 rfl)
  have hback : IsEscape ['M'] := .pair (by decide) (by decide) (by decide)
  have hmessage := ((Decorated.nil.escape hreset).chunk ['m']).escape htitle
  have hrule := ((hmessage.chunk "thy] ".toList).colour (show "[31m" ∈ colours by decide)).chunk "[tru".toList
  have hplace := ((hrule.escape hback).chunk ":3:1: ".toList).colour (show "[0m" ∈ colours by decide)
  have hfile := (((hplace.chunk ".yml".toList).escape hlink).chunk ['a']).escape hred
  have hreport : Decorated "a.yml:3:1: [truthy] m".toList
      "\x1b[1;31ma\x1b]8;;u\x07.yml[0m:3:1: \x1bM[tru[31mthy] \x1b]0;t\x1b\\m\x1b[0m".toList :=
    Eq.mpr (congrArg₂ Decorated (by decide) (by decide)) hfile
  exact read_of_decorated hreport (by decide) (by decide)

end Report

end LintHub
