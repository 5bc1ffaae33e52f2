import LintHub.Json.Commented
import LintHub.Proofs.Json.Reading
import LintHub.Proofs.Text.Phrase
import Mathlib.Data.Bool.AllAny

/-!
# Strict documents are commented documents

What the printers write needs no comment, so the reader of commented documents reads it too.

* `Commented.tokens` : the tokens of a value. `Commented.value?_tokens` reads the value from them.
* `Commented.Scans` : a text is cut into tokens. `tokenized_of_written` : a text that writes a value is cut into those
  of the value.
* `Commented.parse?_compact` : the compact text of a value is read as the value in canonical form.
-/

namespace LintHub.Json.Commented

/-! ## Tokens of a value -/

mutual

/-- The tokens of a value. -/
def tokens : Json → List Token
  | null => [.null]
  | bool b => [.bool b]
  | num n => [.num none (numberText n) (.num n)]
  | str s => [.str s]
  | arr items => .openBracket :: itemTokens items
  | obj fields => .openBrace :: fieldTokens fields

/-- The tokens of an array from its items on. -/
def itemTokens : List Json → List Token
  | [] => [.closeBracket]
  | [j] => tokens j ++ [.closeBracket]
  | j :: rest => tokens j ++ .comma :: itemTokens rest

/-- The tokens of an object from its fields on. -/
def fieldTokens : List (String × Json) → List Token
  | [] => [.closeBrace]
  | [(name, j)] => .str name :: .colon :: tokens j ++ [.closeBrace]
  | (name, j) :: rest => .str name :: .colon :: tokens j ++ .comma :: fieldTokens rest

end

theorem length_tokens_pos (j : Json) : 0 < (tokens j).length := by cases j <;> simp [tokens]

/-- A value is read from its tokens. -/
def Yields (j : Json) : Prop :=
  ∀ fuel ts, (tokens j).length ≤ fuel → value? fuel (tokens j ++ ts) = some (j, ts)

theorem items?_cons {fuel : Nat} {ts rest after : List Token} {j : Json} {items : List Json}
    (hj : value? fuel ts = some (j, rest)) (hitems : items? fuel (skipComma rest) = some (items, after)) :
    items? (fuel + 1) ts = some (j :: items, after) := by
  rw [items?.eq_def]
  dsimp only
  split
  · next more =>
    cases fuel with
    | zero => cases hj
    | succ fuel => cases hj
  · simp only [hj, hitems, Option.bind_eq_bind, Option.bind_some]

theorem items?_itemTokens {items : List Json} (h : ∀ j ∈ items, Yields j) {fuel : Nat} (ts : List Token)
    (hfuel : (itemTokens items).length ≤ fuel) : items? fuel (itemTokens items ++ ts) = some (items, ts) := by
  induction items generalizing fuel with
  | nil =>
    obtain ⟨fuel, rfl⟩ : ∃ n, fuel = n + 1 := ⟨fuel - 1, by simp [itemTokens] at hfuel; omega⟩
    rfl
  | cons j rest ih =>
    have hpos := length_tokens_pos j
    cases rest with
    | nil =>
      simp only [itemTokens, List.length_append, List.length_singleton] at hfuel
      obtain ⟨fuel, rfl⟩ : ∃ n, fuel = n + 2 := ⟨fuel - 2, by omega⟩
      rw [itemTokens, List.append_assoc]
      exact items?_cons (h j (by simp) (fuel + 1) _ (by omega)) rfl
    | cons next rest =>
      simp only [itemTokens, List.length_append, List.length_cons] at hfuel
      obtain ⟨fuel, rfl⟩ : ∃ n, fuel = n + 1 := ⟨fuel - 1, by omega⟩
      rw [itemTokens, List.append_assoc]
      · exact items?_cons (h j (by simp) fuel _ (by omega)) (ih (fun k hk => h k (by simp [hk])) (by omega))
      · simp

theorem fields?_cons {fuel : Nat} {name : String} {ts rest after : List Token} {j : Json}
    {fields : List (String × Json)} (hj : value? fuel ts = some (j, rest))
    (hfields : fields? fuel (skipComma rest) = some (fields, after)) :
    fields? (fuel + 1) (.str name :: .colon :: ts) = some ((name, j) :: fields, after) := by
  simp only [fields?, Token.propertyName?, hj, hfields, Option.bind_eq_bind, Option.bind_some]

theorem fields?_fieldTokens {fields : List (String × Json)} (h : ∀ field ∈ fields, Yields field.2) {fuel : Nat}
    (ts : List Token) (hfuel : (fieldTokens fields).length ≤ fuel) :
    fields? fuel (fieldTokens fields ++ ts) = some (fields, ts) := by
  induction fields generalizing fuel with
  | nil =>
    obtain ⟨fuel, rfl⟩ : ∃ n, fuel = n + 1 := ⟨fuel - 1, by simp [fieldTokens] at hfuel; omega⟩
    rfl
  | cons field rest ih =>
    obtain ⟨name, j⟩ := field
    have hj : Yields j := h (name, j) (by simp)
    cases rest with
    | nil =>
      simp only [fieldTokens, List.cons_append, List.length_append, List.length_cons] at hfuel
      obtain ⟨fuel, rfl⟩ : ∃ n, fuel = n + 2 := ⟨fuel - 2, by omega⟩
      rw [fieldTokens, List.cons_append, List.cons_append, List.append_assoc]
      exact fields?_cons (hj (fuel + 1) _ (by omega)) rfl
    | cons next rest =>
      simp only [fieldTokens, List.cons_append, List.length_append, List.length_cons] at hfuel
      obtain ⟨fuel, rfl⟩ : ∃ n, fuel = n + 1 := ⟨fuel - 1, by omega⟩
      rw [fieldTokens, List.cons_append, List.cons_append, List.append_assoc]
      · exact fields?_cons (hj fuel _ (by omega)) (ih (fun k hk => h k (by simp [hk])) (by omega))
      · simp

theorem value?_tokens (j : Json) : Yields j := by
  induction j using Json.induction with
  | arr items ih =>
    intro fuel ts hfuel
    simp only [tokens, List.length_cons] at hfuel
    obtain ⟨fuel, rfl⟩ : ∃ n, fuel = n + 1 := ⟨fuel - 1, by omega⟩
    rw [tokens, List.cons_append, value?, items?_itemTokens ih ts (by omega), Option.map_some]
  | obj fields ih =>
    intro fuel ts hfuel
    simp only [tokens, List.length_cons] at hfuel
    obtain ⟨fuel, rfl⟩ : ∃ n, fuel = n + 1 := ⟨fuel - 1, by omega⟩
    rw [tokens, List.cons_append, value?, fields?_fieldTokens ih ts (by omega), Option.map_some]
  | _ =>
    intro fuel ts hfuel
    simp only [tokens, List.length_singleton] at hfuel
    obtain ⟨fuel, rfl⟩ : ∃ n, fuel = n + 1 := ⟨fuel - 1, by omega⟩
    rfl

/-! ## Scanning -/

/-- The text is cut into the tokens. -/
def Scans (s : List Char) (ts : List Token) : Prop := ∀ fuel, s.length ≤ fuel → scanFrom? fuel s = some ts

variable {s rest after a : List Char} {ts : List Token}

theorem Scans.nil : Scans [] [] := fun fuel _ => by cases fuel <;> rfl

theorem isBlank_of_isSpace {c : Char} (h : isSpace c = true) : Text.isBlank c = true := by
  simp only [isSpace, Bool.or_eq_true, beq_iff_eq] at h
  rcases h with ((rfl | rfl) | rfl) | rfl <;> decide

theorem scans_cons {c : Char} (h : ∀ fuel, s.length ≤ fuel → scanFrom? (fuel + 1) (c :: s) = some ts) :
    Scans (c :: s) ts := by
  intro fuel hfuel
  rw [List.length_cons] at hfuel
  obtain ⟨fuel, rfl⟩ : ∃ n, fuel = n + 1 := ⟨fuel - 1, by omega⟩
  exact h fuel (by omega)

theorem Scans.spaces (h : Scans s ts) (ha : Spaces a) : Scans (a ++ s) ts := by
  induction a with
  | nil => exact h
  | cons c a ih =>
    refine scans_cons fun fuel hfuel => ?_
    rw [scanFrom?.eq_def]
    dsimp only
    rw [if_pos (isBlank_of_isSpace (ha c (by simp)))]
    exact ih (fun d hd => ha d (by simp [hd])) fuel hfuel

/-- Brackets, braces, commas and colons, with their tokens. -/
def marks : List (Char × Token) := [('{', .openBrace), ('}', .closeBrace), ('[', .openBracket), (']', .closeBracket),
  (',', .comma), (':', .colon)]

theorem Scans.mark (h : Scans s ts) {c : Char} {t : Token} (hc : (c, t) ∈ marks) : Scans (c :: s) (t :: ts) := by
  refine scans_cons fun fuel hfuel => ?_
  have hs := h fuel hfuel
  simp only [marks, List.mem_cons, Prod.mk.injEq, List.not_mem_nil, or_false] at hc
  rw [scanFrom?.eq_def]
  rcases hc with ⟨rfl, rfl⟩ | ⟨rfl, rfl⟩ | ⟨rfl, rfl⟩ | ⟨rfl, rfl⟩ | ⟨rfl, rfl⟩ | ⟨rfl, rfl⟩
  all_goals
    dsimp only
    rw [if_neg (by decide)]
    simp only [hs, Option.map_some]

/-- A character that starts a token of several characters. -/
def StartsLong (c : Char) : Prop := Text.isBlank c = false ∧ c ∉ ['/', '{', '}', '[', ']', ',', ':']
deriving Decidable

theorem Scans.long {c : Char} {t : Token} (h : Scans after ts) (hc : StartsLong c)
    (ht : longToken? (c :: s) = some (t, after)) (hlength : after.length ≤ s.length) : Scans (c :: s) (t :: ts) := by
  refine scans_cons fun fuel hfuel => ?_
  rw [scanFrom?.eq_def]
  dsimp only
  rw [if_neg (by rw [hc.1]; decide)]
  split
  iterate 8 exact absurd hc.2 (by decide)
  simp only [ht, h fuel (by omega), Option.bind_eq_bind, Option.bind_some]

/-! ## Strings -/

/-- A strict string in double quotes is read the same. -/
theorem stringTail?_of_strict {fuel : Nat} {t : List Char} (h : Json.stringTail? fuel s = some (t, rest)) :
    stringTail? '"' fuel s = some (t, rest) := by
  induction fuel generalizing s t with
  | zero => cases h
  | succ fuel ih =>
    rcases stringTail?_cases h with ⟨rfl, rfl⟩ | ⟨more, d, after, tail, rfl, hunit, htail, rfl⟩ |
      ⟨e, d, more, tail, rfl, hu, hletter, htail, rfl⟩ | ⟨c, more, tail, rfl, hquote, hslash, -, htail, rfl⟩
    · rw [stringTail?.eq_def]
      simp only [if_true]
    · rw [stringTail?, if_neg (by decide), if_pos rfl]
      simp only [if_true, hunit, ih htail, Option.bind_eq_bind, Option.bind_some]
    · rw [stringTail?, if_neg (by decide), if_pos rfl]
      by_cases hquote : e = '"'
      · subst hquote
        obtain rfl := Option.some.inj hletter
        rw [if_neg hu, if_pos (by decide), if_pos rfl]
        simp only [ih htail, Option.bind_eq_bind, Option.bind_some]
      · have hsingle : e ≠ '\'' := by
          rintro rfl
          cases hletter
        rw [if_neg hu, if_neg (by simp [hquote, hsingle])]
        simp only [hletter, ih htail, Option.map_some, Option.bind_eq_bind, Option.bind_some]
    · rw [stringTail?.eq_def]
      simp only [if_neg hquote, if_neg hslash, ih htail, Option.bind_eq_bind, Option.bind_some]

theorem longToken?_quote (name : String) (rest : List Char) :
    longToken? (quote name ++ rest) = some (.str name, rest) := by
  have htext : quote name ++ rest = '"' :: (name.toList.flatMap escapeChar ++ '"' :: rest) := by simp [quote]
  have hfuel : (name.toList.flatMap escapeChar).length <
      (name.toList.flatMap escapeChar ++ '"' :: rest).length + 1 := by
    rw [List.length_append]
    omega
  rw [htext, longToken?, if_pos (by decide), stringTail?_of_strict (stringTail?_escaped name.toList rest hfuel),
    Option.map_some]
  simp only [String.ofList_toList]

/-! ## Numbers and keywords -/

/-- A character that ends a number or a keyword. -/
def closers : List Char := [' ', '\n', '\t', '\r', ',', ']', '}']

/-- The text does not go on with a number or a keyword before it. -/
def Closed (rest : List Char) : Prop := ∀ c ∈ rest.head?, c ∈ closers

theorem Closed.nil : Closed [] := by simp [Closed]

theorem Closed.cons {c : Char} (rest : List Char) (h : c ∈ closers) : Closed (c :: rest) := by
  intro d hd
  obtain rfl : c = d := by simpa using hd
  exact h

theorem Closed.append_spaces (h : Closed rest) (ha : Spaces a) : Closed (a ++ rest) := by
  cases a with
  | nil => exact h
  | cons c a =>
    have hc := ha c (by simp)
    simp only [isSpace, Bool.or_eq_true, beq_iff_eq] at hc
    refine .cons _ ?_
    rcases hc with ((rfl | rfl) | rfl) | rfl <;> decide

theorem Closed.stopped (h : Closed rest) : Stopped rest := by
  have hall : ∀ c ∈ closers, Text.isAsciiDigit c = false ∧ c ≠ '.' ∧ c ≠ 'e' ∧ c ≠ 'E' :=
    List.all_iff_forall_prop.1 (by decide)
  exact fun c hc => hall c (h c hc)

theorem keyword?_closed (word : List Char) (h : Closed rest) : keyword? word (word ++ rest) = some rest := by
  have hword : word.isPrefixOf? (word ++ rest) = some rest := by
    induction word with
    | nil => cases rest <;> rfl
    | cons c word ih => simp [List.isPrefixOf?, ih]
  rw [keyword?, hword]
  cases rest with
  | nil => rfl
  | cons c rest =>
    have hall : ∀ c ∈ closers, Text.isAlphanumeric c = false := List.all_iff_forall_prop.1 (by decide)
    simp only [hall c (h c rfl), Bool.false_eq_true, if_false]

theorem longToken?_true (h : Closed rest) : longToken? ("true".toList ++ rest) = some (.bool true, rest) := by
  rw [show "true".toList ++ rest = 't' :: ("rue".toList ++ rest) from rfl, longToken?, if_neg (by decide),
    if_neg (by decide), ← List.cons_append, show 't' :: "rue".toList = "true".toList from rfl, keyword?_closed _ h]
  rfl

theorem longToken?_false (h : Closed rest) : longToken? ("false".toList ++ rest) = some (.bool false, rest) := by
  rw [show "false".toList ++ rest = 'f' :: ("alse".toList ++ rest) from rfl, longToken?, if_neg (by decide),
    if_neg (by decide), ← List.cons_append, show 'f' :: "alse".toList = "false".toList from rfl, keyword?_closed _ h]
  rfl

theorem longToken?_null (h : Closed rest) : longToken? ("null".toList ++ rest) = some (.null, rest) := by
  rw [show "null".toList ++ rest = 'n' :: ("ull".toList ++ rest) from rfl, longToken?, if_neg (by decide),
    if_neg (by decide), ← List.cons_append, show 'n' :: "ull".toList = "null".toList from rfl, keyword?_closed _ h]
  rfl

theorem wholePart?_toDigits (n : Nat) (h : Stopped rest) :
    wholePart? (Nat.toDigits 10 n ++ rest) = some (Nat.toDigits 10 n, rest) := by
  rcases Nat.eq_zero_or_pos n with rfl | hn
  · rw [Nat.toDigits_zero]
    rfl
  · have hzero : ∀ more, Nat.toDigits 10 n ++ rest ≠ '0' :: more := by
      intro more heq
      have hhead := head?_toDigits hn
      obtain ⟨c, t, hct, -⟩ := exists_toDigits_eq_cons n
      rw [hct, List.cons_append] at heq
      rw [hct, (List.cons.inj heq).1] at hhead
      exact hhead rfl
    obtain ⟨htake, hdrop⟩ := h.dropWhile_digits fun c => Text.isAsciiDigit_of_mem_toDigits (n := n)
    rw [wholePart?, Text.run?, htake, hdrop]
    · split
      · next hnil => exact absurd hnil Nat.toDigits_ne_nil
      · rfl
    · exact hzero

theorem decimalNumeral?_eq_some {sign : Option Char} {t u v digits : List Char} {places : Option (List Char)}
    {power : Option Int} {n : Number} (hdigits : wholePart? s = some (digits, t))
    (hplaces : fraction? t = some (places, u)) (hpower : exponent? u = some (power, v))
    (hvalue : Numeral.value? ⟨sign == some '-', digits, places, power⟩ = some n) :
    decimalNumeral? sign s = some (.num n, v) := by
  rw [decimalNumeral?, hdigits, Option.bind_eq_bind, Option.bind_some]
  dsimp only
  rw [hplaces, Option.bind_eq_bind, Option.bind_some]
  dsimp only
  rw [hpower, Option.bind_eq_bind, Option.bind_some]
  dsimp only
  rw [hvalue]

theorem decimalNumeral?_toDigits {n : Nat} (hn : n < 2 ^ 64) (h : Stopped rest) :
    decimalNumeral? none (Nat.toDigits 10 n ++ rest) = some (.num (.whole n), rest) :=
  decimalNumeral?_eq_some (wholePart?_toDigits n h) h.fraction? h.exponent? (Numeral.value?_toDigits hn)

theorem hexNumeral?_of_head {sign : Option Char} (h : ∀ x t, s = '0' :: x :: t → x ≠ 'x' ∧ x ≠ 'X') :
    hexNumeral? sign s = none := by
  unfold hexNumeral?
  split
  · next x t =>
    obtain ⟨hx, hX⟩ := h x t rfl
    rw [if_neg (by simp [hx, hX])]
  · rfl

/-- The digits of a number do not go on like one of base sixteen. -/
theorem second_toDigits (n : Nat) (h : Closed rest) {x : Char} {t : List Char}
    (heq : Nat.toDigits 10 n ++ rest = '0' :: x :: t) : x ≠ 'x' ∧ x ≠ 'X' := by
  rcases Nat.eq_zero_or_pos n with rfl | hn
  · rw [Nat.toDigits_zero, List.singleton_append] at heq
    obtain rfl := (List.cons.inj heq).2
    have hall : ∀ c ∈ closers, c ≠ 'x' ∧ c ≠ 'X' := List.all_iff_forall_prop.1 (by decide)
    exact hall x (h x rfl)
  · have hhead := head?_toDigits hn
    obtain ⟨c, u, hcu, -⟩ := exists_toDigits_eq_cons n
    rw [hcu, List.cons_append] at heq
    rw [hcu, (List.cons.inj heq).1] at hhead
    exact absurd rfl hhead

theorem numeralToken?_toDigits {n : Nat} (hn : n < 2 ^ 64) (h : Closed rest) :
    numeralToken? (Nat.toDigits 10 n ++ rest) =
      some (.num none (Nat.toDigits 10 n) (.num (.whole n)), rest) := by
  have hdecimal := decimalNumeral?_toDigits hn h.stopped
  have hhex : hexNumeral? none (Nat.toDigits 10 n ++ rest) = none :=
    hexNumeral?_of_head fun x t => second_toDigits n h
  have htake : (Nat.toDigits 10 n ++ rest).take ((Nat.toDigits 10 n ++ rest).length - rest.length) =
      Nat.toDigits 10 n := by simp
  obtain ⟨c, t, hct, hc⟩ := exists_toDigits_eq_cons n
  rw [hct, List.cons_append] at hdecimal hhex htake ⊢
  have hplus : c ≠ '+' := by
    rintro rfl
    cases hc
  have hminus : c ≠ '-' := by
    rintro rfl
    cases hc
  unfold numeralToken?
  split
  next sign digits hsign =>
  obtain ⟨rfl, rfl⟩ : none = sign ∧ c :: (t ++ rest) = digits := by
    split at hsign
    · next heq => exact absurd (List.cons.inj heq).1 hplus
    · next heq => exact absurd (List.cons.inj heq).1 hminus
    · exact Prod.mk.inj hsign
  have hsecond {x : Char} {u : List Char} (heq : c :: (t ++ rest) = '0' :: x :: u) : x ≠ 'x' ∧ x ≠ 'X' :=
    second_toDigits n h (by rw [hct, List.cons_append, heq])
  rw [hhex, Option.none_or]
  split
  · next u heq => exact absurd rfl (hsecond heq).1
  · next u heq => exact absurd rfl (hsecond heq).2
  · rw [hdecimal, Option.bind_eq_bind, Option.bind_some]
    simp only [htake]

theorem startsLong_of_isAsciiDigit {c : Char} (h : Text.isAsciiDigit c = true) : StartsLong c := by
  have hne {d : Char} (hd : Text.isAsciiDigit d = false) : c ≠ d := by
    rintro rfl
    simp [hd] at h
  refine ⟨Text.isBlank_of_isAsciiDigit h, ?_⟩
  simp only [List.mem_cons, List.not_mem_nil, or_false, not_or]
  exact ⟨hne (by decide), hne (by decide), hne (by decide), hne (by decide), hne (by decide), hne (by decide),
    hne (by decide)⟩

theorem longToken?_natText {n : Nat} (hn : n < 2 ^ 64) (h : Closed rest) :
    longToken? (numberText (.whole n) ++ rest) =
      some (.num none (numberText (.whole n)) (.num (.whole n)), rest) := by
  rw [numberText_nat]
  have hread := numeralToken?_toDigits hn h
  obtain ⟨c, t, hct, hc⟩ := exists_toDigits_eq_cons n
  rw [hct, List.cons_append] at hread ⊢
  have hquote : ¬ (c = '"' ∨ c = '\'') := by
    rintro (rfl | rfl) <;> cases hc
  rw [longToken?, if_neg (by simpa using hquote), if_pos (by simp [hc]), hread]

/-! ## Written pieces -/

/-- How a piece is cut into tokens, whatever follows it. -/
def Tokenized : Piece → List Char → Prop
  | .value j, s => ∀ depth shape rest ts, Fits depth shape j → Closed rest → Scans rest ts →
    Scans (s ++ rest) (tokens j ++ ts)
  | .items items, s => ∀ depth shape i rest ts, FitsItems depth shape i items → Scans rest ts →
    Scans (s ++ rest) (itemTokens items ++ ts)
  | .fields fields, s => ∀ depth shape rest ts, FitsFields depth shape fields → Scans rest ts →
    Scans (s ++ rest) (fieldTokens fields ++ ts)

theorem Scans.quote (h : Scans rest ts) (name : String) : Scans (quote name ++ rest) (.str name :: ts) :=
  h.long (c := '"') (by decide) (longToken?_quote name rest) (by simp; omega)

theorem Scans.natText {n : Nat} (h : Scans rest ts) (hrest : Closed rest) (hn : n < 2 ^ 64) :
    Scans (numberText (.whole n) ++ rest) (.num none (numberText (.whole n)) (.num (.whole n)) :: ts) := by
  have hlong := longToken?_natText hn hrest
  have htext := numberText_nat n
  obtain ⟨c, t, hct, hc⟩ := exists_toDigits_eq_cons n
  rw [hct] at htext
  rw [htext, List.cons_append] at hlong ⊢
  exact h.long (startsLong_of_isAsciiDigit hc) hlong (by simp)

section Before

variable {depth : Nat} {inner : Shape} {j : Json} {v b d : List Char} {c : Char} {t : Token}

/-- A value is cut together with the comma or bracket behind it. -/
theorem Tokenized.before (h : Tokenized (.value j) v) (hj : Fits depth inner j) (ha : Spaces a) (hb : Spaces b)
    (hc : (c, t) ∈ marks) (hclose : c ∈ closers) (hs : Scans rest ts) :
    Scans (a ++ (v ++ (b ++ c :: rest))) (tokens j ++ t :: ts) :=
  (h depth inner _ _ hj ((Closed.cons rest hclose).append_spaces hb) ((hs.mark hc).spaces hb)).spaces ha

theorem Tokenized.named (h : Tokenized (.value j) v) (hj : Fits depth inner j) (n : String) (ha : Spaces a)
    (hb : Spaces b) (hd : Spaces d) (hc : (c, t) ∈ marks) (hclose : c ∈ closers) (hs : Scans rest ts) :
    Scans (a ++ (quote n ++ ':' :: (b ++ (v ++ (d ++ c :: rest))))) (.str n :: .colon :: (tokens j ++ t :: ts)) :=
  (((h.before hj hb hd hc hclose hs).mark (by simp [marks])).quote n).spaces ha

end Before

/-- Every written piece is cut into its tokens. -/
theorem tokenized_of_written {p : Piece} (h : Written p s) : Tokenized p s := by
  -- Induction on how the piece is written. A number or a keyword is cut off only where the text after it closes it:
  -- hence `Closed` in the statement, and items and fields with the mark behind them.
  induction h with
  | null =>
    intro depth shape rest ts _ hrest hs
    exact hs.long (c := 'n') (s := "ull".toList ++ rest) (by decide) (longToken?_null hrest) (by simp; omega)
  | bool b =>
    intro depth shape rest ts _ hrest hs
    cases b with
    | true =>
      exact hs.long (c := 't') (s := "rue".toList ++ rest) (by decide) (longToken?_true hrest) (by simp; omega)
    | false =>
      exact hs.long (c := 'f') (s := "alse".toList ++ rest) (by decide) (longToken?_false hrest) (by simp; omega)
  | num n =>
    intro depth shape rest ts hf hrest hs
    cases n with
    | double d => exact absurd hf (by simp [Fits])
    | whole n =>
      simp only [Fits] at hf
      obtain ⟨m, rfl⟩ := Int.eq_ofNat_of_zero_le hf.1
      exact hs.natText hrest (by omega)
  | str t => exact fun depth shape rest ts _ _ hs => hs.quote t
  | emptyArr => exact fun depth shape rest ts _ _ hs => (hs.mark (by simp [marks])).mark (by simp [marks])
  | @arr items t _ ih =>
    intro depth shape rest ts hf hrest hs
    cases depth with
    | zero => exact absurd hf (by simp [Fits])
    | succ depth =>
      rw [Fits] at hf
      exact (ih depth shape 0 rest ts hf hs).mark (by simp [marks])
  | emptyObj => exact fun depth shape rest ts _ _ hs => (hs.mark (by simp [marks])).mark (by simp [marks])
  | @obj fields t _ ih =>
    intro depth shape rest ts hf hrest hs
    cases depth with
    | zero => exact absurd hf (by simp [Fits])
    | succ depth =>
      rw [Fits] at hf
      exact (ih depth shape rest ts hf.1 hs).mark (by simp [marks])
  | @lastItem a b j v ha hb _ ih =>
    intro depth shape i rest ts hf hs
    obtain ⟨⟨inner, -, hj⟩, -⟩ := hf
    have hitem := Tokenized.before ih hj ha hb (c := ']') (t := .closeBracket) (by simp [marks]) (by decide) hs
    simpa [itemTokens] using hitem
  | @item a b j v items u ha hb _ hu ihj ihu =>
    intro depth shape i rest ts hf hs
    obtain ⟨⟨inner, -, hj⟩, hf⟩ := hf
    have hitem := Tokenized.before ihj hj ha hb (c := ',') (t := .comma) (by simp [marks]) (by decide)
      (ihu depth shape (i + 1) rest ts hf hs)
    cases items with
    | nil => cases hu
    | cons k items => simpa [itemTokens] using hitem
  | @lastField a b d n j v ha hb hd _ ih =>
    intro depth shape rest ts hf hs
    obtain ⟨⟨inner, -, hj⟩, -⟩ := hf
    have hfield := Tokenized.named ih hj n ha hb hd (c := '}') (t := .closeBrace) (by simp [marks]) (by decide) hs
    simpa [fieldTokens] using hfield
  | @field a b d n j v fields u ha hb hd _ hu ihj ihu =>
    intro depth shape rest ts hf hs
    obtain ⟨⟨inner, -, hj⟩, hf⟩ := hf
    have hfield := Tokenized.named ihj hj n ha hb hd (c := ',') (t := .comma) (by simp [marks]) (by decide)
      (ihu depth shape rest ts hf hs)
    cases fields with
    | nil => cases hu
    | cons field fields => simpa [fieldTokens] using hfield

/-! ## Documents -/

/-- A text that writes a value between blanks is read as the value in canonical form. -/
theorem parse?_of_written {text : String} {j : Json} {a b : List Char} {depth : Nat} {shape : Shape}
    (htext : text.toList = a ++ s ++ b) (ha : Spaces a) (hb : Spaces b) (h : Written (.value j) s)
    (hf : Fits depth shape j) : parse? text = some j.canonical := by
  have hend : Scans b [] := by simpa using Scans.nil.spaces hb
  have hclosed : Closed b := by simpa using Closed.nil.append_spaces hb
  have hscans := (tokenized_of_written h depth shape b [] hf hclosed hend).spaces ha
  have hscan : Token.scan? text.toList = some (tokens j) := by
    rw [Token.scan?, htext, List.append_assoc, hscans _ (Nat.le_refl _), List.append_nil]
  have hvalue := value?_tokens j (2 * (tokens j).length + 2) [] (by omega)
  rw [List.append_nil] at hvalue
  rw [parse?, hscan, Option.bind_eq_bind, Option.bind_some]
  split
  · next hnil => exact absurd (length_tokens_pos j) (by simp [hnil])
  · rw [hvalue]

theorem parse?_compact {j : Json} {depth : Nat} {shape : Shape} (hf : Fits depth shape j) :
    parse? j.compact = some j.canonical :=
  parse?_of_written (a := []) (b := []) (by simp [compact]) .nil .nil (written_compactChars j) hf

end LintHub.Json.Commented
