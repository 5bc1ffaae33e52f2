import LintHub.Json.Printer
import LintHub.Json.Reader
import LintHub.Proofs.Text.Numeral
import LintHub.Proofs.Text.Search
import Mathlib.Algebra.Group.Nat.Defs

/-!
# Strings and numbers are read back

* `string?_quote` : a quoted string is read as the string, whatever follows its closing quote.
* `number?_natText` : the digits of a number below `2 ^ 64` are read as the number, if `Stopped` says that the text
  after them does not go on with it.
-/

namespace LintHub.Json

/-! ## Blanks -/

/-- Blanks of the grammar only. -/
def Spaces (s : List Char) : Prop := ∀ c ∈ s, isSpace c = true

theorem Spaces.nil : Spaces [] := by simp [Spaces]

theorem skipSpace_of_ink {c : Char} (s : List Char) (h : isSpace c = false) : skipSpace (c :: s) = c :: s := by
  simp [skipSpace, h]

theorem skipSpace_append {a : List Char} (s : List Char) (h : Spaces a) : skipSpace (a ++ s) = skipSpace s :=
  List.dropWhile_append_of_pos h

theorem skipSpace_append_ink {a : List Char} {c : Char} (s : List Char) (ha : Spaces a) (hc : isSpace c = false) :
    skipSpace (a ++ c :: s) = c :: s := by
  rw [skipSpace_append _ ha, skipSpace_of_ink s hc]

theorem skipSpace_skipSpace (s : List Char) : skipSpace (skipSpace s) = skipSpace s := by
  induction s with
  | nil => rfl
  | cons c s ih =>
    cases h : isSpace c with
    | true => simpa [skipSpace, h] using ih
    | false => rw [skipSpace_of_ink s h, skipSpace_of_ink s h]

/-! ## Strings -/

theorem hexValue?_hexDigit {n : Nat} (h : n < 16) : hexValue? (Text.hexDigit n) = some n := by
  have hall : ∀ m : Fin 16, hexValue? (Text.hexDigit m) = some m.val := by decide
  exact hall ⟨n, h⟩

theorem hexFour?_controlChar {n : Nat} (rest : List Char) (h : n < 256) :
    hexFour? ('0' :: '0' :: Text.hexDigit (n / 16) :: Text.hexDigit (n % 16) :: rest) = some (n, rest) := by
  have hzero : hexValue? '0' = some 0 := by decide
  have hsum : 4096 * 0 + 256 * 0 + 16 * (n / 16) + n % 16 = n := by omega
  simp only [hexFour?, hzero, hexValue?_hexDigit (show n / 16 < 16 by omega),
    hexValue?_hexDigit (show n % 16 < 16 by omega), Option.bind_eq_bind, Option.bind_some, hsum]

theorem escapedUnit?_controlChar {n : Nat} (rest : List Char) (h : n < 32) :
    escapedUnit? ('0' :: '0' :: Text.hexDigit (n / 16) :: Text.hexDigit (n % 16) :: rest) =
      some (Char.ofNat n, rest) := by
  have hlow : isLowHalf n = false := by simp [isLowHalf]; omega
  have hhigh : isHighHalf n = false := by simp [isHighHalf]; omega
  rw [escapedUnit?, hexFour?_controlChar rest (by omega), Option.bind_eq_bind, Option.bind_some]
  simp only [hlow, hhigh, Bool.false_eq_true, if_false]

theorem stringTail?_unit {d : Char} {more rest : List Char} (fuel : Nat)
    (h : escapedUnit? more = some (d, rest)) :
    stringTail? (fuel + 1) ('\\' :: 'u' :: more) =
      (stringTail? fuel rest).map fun found => (d :: found.1, found.2) := by
  rw [stringTail?, if_neg (by decide), if_pos rfl]
  simp only [if_true, h, Option.bind_eq_bind, Option.bind_some]
  cases stringTail? fuel rest <;> rfl

theorem stringTail?_letter {e d : Char} (fuel : Nat) (rest : List Char) (he : e ≠ 'u')
    (hd : escapeLetter? e = some d) :
    stringTail? (fuel + 1) ('\\' :: e :: rest) =
      (stringTail? fuel rest).map fun found => (d :: found.1, found.2) := by
  rw [stringTail?, if_neg (by decide), if_pos rfl]
  simp only [if_neg he, hd, Option.map_some, Option.bind_eq_bind, Option.bind_some]
  cases stringTail? fuel rest <;> rfl

theorem stringTail?_plain {c : Char} (fuel : Nat) (rest : List Char) (hquote : c ≠ '"') (hslash : c ≠ '\\')
    (hcontrol : ¬ c.toNat < 32) :
    stringTail? (fuel + 1) (c :: rest) = (stringTail? fuel rest).map fun found => (c :: found.1, found.2) := by
  rw [stringTail?.eq_def]
  simp only [if_neg hquote, if_neg hslash, if_neg hcontrol]
  cases stringTail? fuel rest <;> rfl

/-- A string ends at its quote, or goes on with a code unit's escape, a letter's escape or a plain character. -/
theorem stringTail?_cases {fuel : Nat} {s t rest : List Char} (h : stringTail? (fuel + 1) s = some (t, rest)) :
    (s = '"' :: rest ∧ t = []) ∨
    (∃ more d after tail, s = '\\' :: 'u' :: more ∧ escapedUnit? more = some (d, after) ∧
      stringTail? fuel after = some (tail, rest) ∧ t = d :: tail) ∨
    (∃ e d more tail, s = '\\' :: e :: more ∧ e ≠ 'u' ∧ escapeLetter? e = some d ∧
      stringTail? fuel more = some (tail, rest) ∧ t = d :: tail) ∨
    ∃ c more tail, s = c :: more ∧ c ≠ '"' ∧ c ≠ '\\' ∧ ¬ c.toNat < 32 ∧
      stringTail? fuel more = some (tail, rest) ∧ t = c :: tail := by
  unfold stringTail? at h
  split at h
  · cases h
  · cases h
  · next fuel' c more heq =>
    cases heq
    split at h
    · next hquote =>
      obtain ⟨rfl, rfl⟩ := Prod.mk.inj (Option.some.inj h)
      exact .inl ⟨by rw [hquote], rfl⟩
    · next hquote =>
      split at h
      · next hslash =>
        subst hslash
        split at h
        · cases h
        · next e more =>
          split at h
          · next hu =>
            simp only [Option.bind_eq_bind, Option.bind_eq_some_iff] at h
            obtain ⟨⟨d, after⟩, hunit, ⟨tail, past⟩, htail, heq⟩ := h
            obtain ⟨rfl, rfl⟩ := Prod.mk.inj (Option.some.inj heq)
            exact .inr (.inl ⟨more, d, after, tail, by rw [hu], hunit, htail, rfl⟩)
          · next hu =>
            simp only [Option.bind_eq_bind, Option.bind_eq_some_iff] at h
            obtain ⟨⟨d, after⟩, hmap, ⟨tail, past⟩, htail, heq⟩ := h
            obtain ⟨letter, hletter, hafter⟩ := Option.map_eq_some_iff.1 hmap
            obtain ⟨rfl, rfl⟩ := Prod.mk.inj hafter
            obtain ⟨rfl, rfl⟩ := Prod.mk.inj (Option.some.inj heq)
            exact .inr (.inr (.inl ⟨e, letter, more, tail, rfl, hu, hletter, htail, rfl⟩))
      · next hslash =>
        split at h
        · cases h
        · next hcontrol =>
          simp only [Option.bind_eq_bind, Option.bind_eq_some_iff] at h
          obtain ⟨⟨tail, past⟩, htail, heq⟩ := h
          obtain ⟨rfl, rfl⟩ := Prod.mk.inj (Option.some.inj heq)
          exact .inr (.inr (.inr ⟨c, more, tail, rfl, hquote, hslash, hcontrol, htail, rfl⟩))

/-- A character is written as a letter's escape, as a code unit, or as itself. -/
theorem escapeChar_cases (c : Char) :
    (∃ e, escapeChar c = ['\\', e] ∧ e ≠ 'u' ∧ escapeLetter? e = some c) ∨
    (c.toNat < 32 ∧
      escapeChar c = ['\\', 'u', '0', '0', Text.hexDigit (c.toNat / 16), Text.hexDigit (c.toNat % 16)]) ∨
    (c ≠ '"' ∧ c ≠ '\\' ∧ ¬ c.toNat < 32 ∧ escapeChar c = [c]) := by
  have hletter {e : Char} (hu : e ≠ 'u') (he : escapeLetter? e = some c) (hc : escapeChar c = ['\\', e]) :
      ∃ e, escapeChar c = ['\\', e] ∧ e ≠ 'u' ∧ escapeLetter? e = some c :=
    ⟨e, hc, hu, he⟩
  by_cases hquote : c = '"'
  · subst hquote
    exact .inl (hletter (by decide) (by decide) rfl)
  by_cases hslash : c = '\\'
  · subst hslash
    exact .inl (hletter (by decide) (by decide) rfl)
  by_cases hfeed : c = '\n'
  · subst hfeed
    exact .inl (hletter (by decide) (by decide) rfl)
  by_cases hreturn : c = '\r'
  · subst hreturn
    exact .inl (hletter (by decide) (by decide) rfl)
  by_cases htab : c = '\t'
  · subst htab
    exact .inl (hletter (by decide) (by decide) rfl)
  by_cases hback : c.toNat = 8
  · obtain rfl : c = Char.ofNat 8 := by rw [← hback, Char.ofNat_toNat]
    exact .inl (hletter (by decide) (by decide) rfl)
  by_cases hform : c.toNat = 12
  · obtain rfl : c = Char.ofNat 12 := by rw [← hform, Char.ofNat_toNat]
    exact .inl (hletter (by decide) (by decide) rfl)
  rw [escapeChar, if_neg hquote, if_neg hslash, if_neg hfeed, if_neg hreturn, if_neg htab, if_neg hback,
    if_neg hform]
  by_cases hcontrol : c.toNat < 32
  · exact .inr (.inl ⟨hcontrol, by rw [if_pos hcontrol]⟩)
  · exact .inr (.inr ⟨hquote, hslash, hcontrol, by rw [if_neg hcontrol]⟩)

theorem length_escapeChar_pos (c : Char) : 0 < (escapeChar c).length := by
  rcases escapeChar_cases c with ⟨e, hc, -⟩ | ⟨-, hc⟩ | ⟨-, -, -, hc⟩
  · simp [hc]
  · simp [hc]
  · simp [hc]

/-- An escaped character is read as the character. -/
theorem stringTail?_escapeChar (c : Char) (fuel : Nat) (rest : List Char) :
    stringTail? (fuel + 1) (escapeChar c ++ rest) =
      (stringTail? fuel rest).map fun found => (c :: found.1, found.2) := by
  rcases escapeChar_cases c with ⟨e, hc, hu, he⟩ | ⟨hcontrol, hc⟩ | ⟨hquote, hslash, hcontrol, hc⟩
  · rw [hc]
    exact stringTail?_letter fuel rest hu he
  · have hunit := escapedUnit?_controlChar rest hcontrol
    rw [Char.ofNat_toNat] at hunit
    rw [hc]
    exact stringTail?_unit fuel hunit
  · rw [hc]
    exact stringTail?_plain fuel rest hquote hslash hcontrol

/-- The body of a quoted string is read up to its closing quote. -/
theorem stringTail?_escaped (s : List Char) {fuel : Nat} (rest : List Char)
    (h : (s.flatMap escapeChar).length < fuel) :
    stringTail? fuel (s.flatMap escapeChar ++ '"' :: rest) = some (s, rest) := by
  induction s generalizing fuel with
  | nil =>
    obtain ⟨fuel, rfl⟩ : ∃ n, fuel = n + 1 := ⟨fuel - 1, by omega⟩
    rfl
  | cons c s ih =>
    rw [List.flatMap_cons, List.length_append] at h
    obtain ⟨fuel, rfl⟩ : ∃ n, fuel = n + 1 := ⟨fuel - 1, by omega⟩
    rw [List.flatMap_cons, List.append_assoc, stringTail?_escapeChar,
      ih (by have := length_escapeChar_pos c; omega), Option.map_some]

theorem string?_quote (s : String) (rest : List Char) : string? (quote s ++ rest) = some (s, rest) := by
  have htext : quote s ++ rest = '"' :: (s.toList.flatMap escapeChar ++ '"' :: rest) := by simp [quote]
  rw [htext, string?, stringTail?_escaped s.toList rest (by simp), Option.map_some]
  simp only [String.ofList_toList]

/-! ## Numbers -/

/-- The text does not go on with a number before it. -/
def Stopped (rest : List Char) : Prop :=
  ∀ c ∈ rest.head?, Text.isAsciiDigit c = false ∧ c ≠ '.' ∧ c ≠ 'e' ∧ c ≠ 'E'

theorem Stopped.nil : Stopped [] := by simp [Stopped]

theorem Stopped.dropWhile_digits {digits rest : List Char} (h : Stopped rest)
    (hd : ∀ c ∈ digits, Text.isAsciiDigit c = true) :
    (digits ++ rest).takeWhile Text.isAsciiDigit = digits ∧
      (digits ++ rest).dropWhile Text.isAsciiDigit = rest :=
  Text.span_append hd fun c hc => (h c hc).1

/-- A number is written without a zero in front. -/
theorem head?_toDigits {n : Nat} (h : 0 < n) : (Nat.toDigits 10 n).head? ≠ some '0' := by
  induction n using Nat.strongRecOn with
  | ind n ih =>
    rw [Nat.toDigits_eq_if (by omega)]
    split
    · simp; omega
    · have hstep := ih (n / 10) (by omega) (by omega)
      rwa [List.head?_append, Option.or_of_isSome (by simp [Nat.toDigits_ne_nil])]

theorem wholeDigits?_toDigits (n : Nat) {rest : List Char} (h : Stopped rest) :
    wholeDigits? (Nat.toDigits 10 n ++ rest) = some (Nat.toDigits 10 n, rest) := by
  obtain ⟨htake, hdrop⟩ := h.dropWhile_digits fun c => Text.isAsciiDigit_of_mem_toDigits (n := n)
  rw [wholeDigits?, htake, hdrop]
  rcases Nat.eq_zero_or_pos n with rfl | hn
  · simp only [Nat.toDigits_zero]
  · have hhead := head?_toDigits hn
    split
    · next hnil => exact absurd hnil Nat.toDigits_ne_nil
    · next hzero => simp [hzero] at hhead
    · rfl

/-- The text of a natural number. -/
theorem numberText_nat (n : Nat) : numberText (.whole n) = Nat.toDigits 10 n := by
  rw [numberText, show toString (n : Int) = n.repr from rfl, Nat.toList_repr]

theorem Stopped.fraction? {rest : List Char} (h : Stopped rest) : fraction? rest = some (none, rest) := by
  cases rest with
  | nil => rfl
  | cons c rest =>
    have := (h c rfl).2.1
    rw [Json.fraction?]
    intro more heq
    simp_all

theorem Stopped.exponent? {rest : List Char} (h : Stopped rest) : exponent? rest = some (none, rest) := by
  cases rest with
  | nil => rfl
  | cons c rest =>
    obtain ⟨-, -, he, hE⟩ := h c rfl
    simp [Json.exponent?, he, hE]

/-- Digits are no sign, and nothing that is read after them belongs to the number. -/
theorem numeral?_toDigits (n : Nat) {rest : List Char} (h : Stopped rest) :
    numeral? (Nat.toDigits 10 n ++ rest) = some (⟨false, Nat.toDigits 10 n, none, none⟩, rest) := by
  have hsign : ∀ more, Nat.toDigits 10 n ++ rest ≠ '-' :: more := by
    intro more heq
    cases hd : Nat.toDigits 10 n with
    | nil => exact Nat.toDigits_ne_nil hd
    | cons c digits =>
      have hc := Text.isAsciiDigit_of_mem_toDigits (n := n) (c := c) (by rw [hd]; simp)
      rw [hd, List.cons_append, List.cons.injEq] at heq
      rw [heq.1] at hc
      revert hc
      decide
  rw [numeral?]
  · simp [wholeDigits?_toDigits n h, h.fraction?, h.exponent?]
  · exact hsign

theorem Numeral.value?_toDigits {n : Nat} (h : n < 2 ^ 64) :
    Numeral.value? ⟨false, Nat.toDigits 10 n, none, none⟩ = some (.whole n) := by
  have hlt : (n : Int) < 0x10000000000000000 := by omega
  simp only [Numeral.value?, Text.ofDigits_toDigits, Bool.not_false, Bool.true_and, decide_eq_true hlt, if_true]

theorem number?_of_numeral? {s rest : List Char} {x : Numeral} {n : Number} (hx : numeral? s = some (x, rest))
    (hn : x.value? = some n) : number? s = some (n, rest) := by
  rw [number?, hx]
  simp only [Option.bind_eq_bind, Option.bind_some, hn]

theorem number?_natText {n : Nat} {rest : List Char} (hn : n < 2 ^ 64) (h : Stopped rest) :
    number? (numberText (.whole n) ++ rest) = some (.whole n, rest) := by
  rw [numberText_nat]
  exact number?_of_numeral? (numeral?_toDigits n h) (Numeral.value?_toDigits hn)

end LintHub.Json
