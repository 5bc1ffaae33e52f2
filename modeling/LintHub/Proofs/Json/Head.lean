import LintHub.Proofs.Json.Wanted
import LintHub.Proofs.Text.Search

/-!
# What follows a value

A reader takes a value's own characters and no others, so that the same value is read whatever follows it. Only a number
has to be told from more digits behind it.

* `exists_stringTail?`, `exists_string?` : a string ends at its quote.
* `exists_numeral?` : a numeral ends where the first character stands that does not go on with it.
* `exists_valueAs?` : a value. `exists_valueAs?_of_bracket` : an array ends at its bracket, and by
  `exists_append_of_bracket` nowhere else.
-/

namespace LintHub.Json

variable {α : Type} {s rest : List Char}

/-- The reader takes `a` out of `head`, if what follows starts as `rest` does. -/
def Takes (read : Reader α) (head rest : List Char) (a : α) : Prop :=
  ∀ t, t.head? = rest.head? → read (head ++ t) = some (a, t)

/-! ## Strings -/

theorem exists_hexFour? {n : Nat} (h : hexFour? s = some (n, rest)) :
    ∃ head, s = head ++ rest ∧ ∀ t, hexFour? (head ++ t) = some (n, t) := by
  unfold hexFour? at h
  split at h
  · next a b c d more =>
    simp only [Option.bind_eq_bind, Option.bind_eq_some_iff] at h
    obtain ⟨a', ha, b', hb, c', hc, d', hd, heq⟩ := h
    obtain ⟨rfl, rfl⟩ := Prod.mk.inj (Option.some.inj heq)
    refine ⟨[a, b, c, d], rfl, fun t => ?_⟩
    simp [hexFour?, ha, hb, hc, hd]
  · cases h

theorem exists_escapedUnit? {d : Char} (h : escapedUnit? s = some (d, rest)) :
    ∃ head, s = head ++ rest ∧ ∀ t, escapedUnit? (head ++ t) = some (d, t) := by
  rw [escapedUnit?, Option.bind_eq_bind, Option.bind_eq_some_iff] at h
  obtain ⟨⟨n, more⟩, hfour, h⟩ := h
  obtain ⟨first, rfl, hfirst⟩ := exists_hexFour? hfour
  dsimp only at h
  split at h
  · cases h
  · next hlow =>
    split at h
    · next hhigh =>
      split at h
      · next after =>
        simp only [Option.bind_eq_some_iff] at h
        obtain ⟨⟨m, past⟩, hsecond, h⟩ := h
        obtain ⟨second, rfl, hlast⟩ := exists_hexFour? hsecond
        dsimp only at h
        split at h
        · next hpair =>
          obtain ⟨rfl, rfl⟩ := Prod.mk.inj (Option.some.inj h)
          refine ⟨first ++ '\\' :: 'u' :: second, by simp, fun t => ?_⟩
          simp [escapedUnit?, hfirst, hlast, hlow, hhigh, hpair]
        · cases h
      · cases h
    · next hhigh =>
      obtain ⟨rfl, rfl⟩ := Prod.mk.inj (Option.some.inj h)
      refine ⟨first, rfl, fun t => ?_⟩
      simp [escapedUnit?, hfirst, hlow, hhigh]

theorem exists_stringTail? {fuel : Nat} {cs : List Char} (h : stringTail? fuel s = some (cs, rest)) :
    ∃ head, s = head ++ rest ∧
      ∀ t fuel, head.length ≤ fuel → stringTail? fuel (head ++ t) = some (cs, t) := by
  induction fuel generalizing s cs with
  | zero => cases h
  | succ fuel ih =>
    rcases stringTail?_cases h with ⟨rfl, rfl⟩ | ⟨more, d, after, tail, rfl, hunit, htail, rfl⟩ |
      ⟨e, d, more, tail, rfl, hu, hletter, htail, rfl⟩ | ⟨c, more, tail, rfl, hquote, hslash, hcontrol, htail, rfl⟩
    · refine ⟨['"'], rfl, fun t fuel hle => ?_⟩
      obtain ⟨fuel, rfl⟩ := Nat.exists_eq_add_one.2 (Nat.zero_lt_of_lt hle)
      rfl
    · obtain ⟨unit, rfl, hunit'⟩ := exists_escapedUnit? hunit
      obtain ⟨head, rfl, hhead⟩ := ih htail
      refine ⟨'\\' :: 'u' :: (unit ++ head), by simp, fun t fuel hle => ?_⟩
      obtain ⟨fuel, rfl⟩ := Nat.exists_eq_add_one.2 (Nat.zero_lt_of_lt hle)
      simp only [List.length_cons, List.length_append] at hle
      have hmore := hunit' (head ++ t)
      rw [← List.append_assoc] at hmore
      rw [List.cons_append, List.cons_append, stringTail?_unit fuel hmore, hhead t fuel (by omega), Option.map_some]
    · obtain ⟨head, rfl, hhead⟩ := ih htail
      refine ⟨'\\' :: e :: head, by simp, fun t fuel hle => ?_⟩
      obtain ⟨fuel, rfl⟩ := Nat.exists_eq_add_one.2 (Nat.zero_lt_of_lt hle)
      simp only [List.length_cons] at hle
      rw [List.cons_append, List.cons_append, stringTail?_letter fuel _ hu hletter, hhead t fuel (by omega),
        Option.map_some]
    · obtain ⟨head, rfl, hhead⟩ := ih htail
      refine ⟨c :: head, by simp, fun t fuel hle => ?_⟩
      obtain ⟨fuel, rfl⟩ := Nat.exists_eq_add_one.2 (Nat.zero_lt_of_lt hle)
      simp only [List.length_cons] at hle
      rw [List.cons_append, stringTail?_plain fuel _ hquote hslash hcontrol, hhead t fuel (by omega), Option.map_some]

theorem exists_string? {name : String} (h : string? s = some (name, rest)) :
    ∃ head, s = '"' :: (head ++ rest) ∧ ∀ t, string? ('"' :: (head ++ t)) = some (name, t) := by
  unfold string? at h
  split at h
  · next body =>
    obtain ⟨⟨cs, after⟩, hbody, heq⟩ := Option.map_eq_some_iff.1 h
    obtain ⟨rfl, rfl⟩ := Prod.mk.inj heq
    obtain ⟨head, rfl, hhead⟩ := exists_stringTail? hbody
    refine ⟨head, rfl, fun t => ?_⟩
    rw [string?, hhead t _ (by simp), Option.map_some]
  · cases h

/-! ## Numbers -/

theorem exists_wholeDigits? {digits : List Char} (h : wholeDigits? s = some (digits, rest)) :
    s = digits ++ rest ∧ Takes wholeDigits? digits rest digits := by
  have hparts : s.takeWhile Text.isAsciiDigit = digits ∧ s.dropWhile Text.isAsciiDigit = rest := by
    rw [wholeDigits?] at h
    split at h
    · cases h
    · cases h
    · exact Prod.mk.inj (Option.some.inj h)
  refine ⟨by rw [← hparts.1, ← hparts.2, List.takeWhile_append_dropWhile], fun t ht => ?_⟩
  obtain ⟨htake, hdrop⟩ := Text.span_of_head? hparts ht
  rw [wholeDigits?, hparts.1, hparts.2] at h
  rw [wholeDigits?, htake, hdrop]
  split at h
  · cases h
  · cases h
  · rfl

theorem exists_fraction? {places : Option (List Char)} (h : fraction? s = some (places, rest)) :
    ∃ head, s = head ++ rest ∧ Takes fraction? head rest places := by
  unfold fraction? at h
  split at h
  · next digits =>
    split at h
    · cases h
    · next hne =>
      obtain ⟨rfl, rfl⟩ := Prod.mk.inj (Option.some.inj h)
      refine ⟨'.' :: digits.takeWhile Text.isAsciiDigit, by simp, fun t ht => ?_⟩
      obtain ⟨htake, hdrop⟩ := Text.span_of_head? ⟨rfl, rfl⟩ ht
      rw [List.cons_append, fraction?, htake, hdrop]
      split
      · contradiction
      · rfl
  · next hpoint =>
    obtain ⟨rfl, rfl⟩ := Prod.mk.inj (Option.some.inj h)
    refine ⟨[], rfl, fun t ht => ?_⟩
    rw [List.nil_append, fraction?]
    rintro more rfl
    cases s with
    | nil => cases ht
    | cons c s =>
      obtain rfl : '.' = c := by simpa using ht
      exact hpoint s rfl

/-- What starts a text decides how it begins, whatever follows. -/
theorem ne_cons_of_head {head rest : List Char} {c : Char} (hne : head ≠ []) (h : ∀ more, head ++ rest ≠ c :: more)
    (t more : List Char) : head ++ t ≠ c :: more := by
  obtain ⟨d, head, rfl⟩ := List.exists_cons_of_ne_nil hne
  intro heq
  obtain ⟨rfl, -⟩ := List.cons.inj heq
  exact h _ rfl

theorem exists_signedDigits? {n : Int} (h : signedDigits? s = some (n, rest)) :
    ∃ head, s = head ++ rest ∧ Takes signedDigits? head rest n := by
  unfold signedDigits? at h
  split at h
  next negative digits hsign =>
  split at h
  · cases h
  · next hne =>
    obtain ⟨rfl, rfl⟩ := Prod.mk.inj (Option.some.inj h)
    have hspan {t : List Char} (ht : t.head? = (digits.dropWhile Text.isAsciiDigit).head?) :
        (digits.takeWhile Text.isAsciiDigit ++ t).takeWhile Text.isAsciiDigit = digits.takeWhile Text.isAsciiDigit ∧
          (digits.takeWhile Text.isAsciiDigit ++ t).dropWhile Text.isAsciiDigit = t :=
      Text.span_of_head? ⟨rfl, rfl⟩ ht
    split at hsign
    · obtain ⟨rfl, rfl⟩ := Prod.mk.inj hsign
      refine ⟨'+' :: _, by rw [List.cons_append, List.takeWhile_append_dropWhile], fun t ht => ?_⟩
      simp only [List.cons_append, signedDigits?, hspan ht]
    · obtain ⟨rfl, rfl⟩ := Prod.mk.inj hsign
      refine ⟨'-' :: _, by rw [List.cons_append, List.takeWhile_append_dropWhile], fun t ht => ?_⟩
      simp only [List.cons_append, signedDigits?, hspan ht]
    · next hplus hminus =>
      obtain ⟨rfl, rfl⟩ := Prod.mk.inj hsign
      refine ⟨_, List.takeWhile_append_dropWhile.symm, fun t ht => ?_⟩
      rw [← List.takeWhile_append_dropWhile (p := Text.isAsciiDigit) (l := s)] at hplus hminus
      have hplus := ne_cons_of_head hne hplus t
      have hminus := ne_cons_of_head hne hminus t
      simp only [signedDigits?, hspan ht]

theorem exists_exponent? {power : Option Int} (h : exponent? s = some (power, rest)) :
    ∃ head, s = head ++ rest ∧ Takes exponent? head rest power := by
  unfold exponent? at h
  split at h
  · next c more =>
    split at h
    · next hc =>
      obtain ⟨⟨n, after⟩, hsigned, heq⟩ := Option.map_eq_some_iff.1 h
      obtain ⟨rfl, rfl⟩ := Prod.mk.inj heq
      obtain ⟨head, rfl, hhead⟩ := exists_signedDigits? hsigned
      refine ⟨c :: head, rfl, fun t ht => ?_⟩
      rw [List.cons_append, exponent?, if_pos hc, hhead t ht, Option.map_some]
    · next hc =>
      obtain ⟨rfl, rfl⟩ := Prod.mk.inj (Option.some.inj h)
      refine ⟨[], rfl, fun t ht => ?_⟩
      cases t with
      | nil => cases ht
      | cons d t =>
        obtain rfl : d = c := by simpa using ht
        rw [List.nil_append, exponent?, if_neg hc]
  · obtain ⟨rfl, rfl⟩ := Prod.mk.inj (Option.some.inj h)
    refine ⟨[], rfl, fun t ht => ?_⟩
    rw [List.head?_nil, List.head?_eq_none_iff] at ht
    rw [ht]
    rfl

theorem head?_append_of_head? {t : List Char} (head : List Char) (ht : t.head? = rest.head?) :
    (head ++ t).head? = (head ++ rest).head? := by
  rw [List.head?_append, List.head?_append, ht]

theorem wholeDigits?_ne_nil {digits : List Char} (h : wholeDigits? s = some (digits, rest)) : digits ≠ [] := by
  rw [wholeDigits?] at h
  split at h
  · cases h
  · cases h
  · next hne _ =>
    obtain ⟨rfl, rfl⟩ := Prod.mk.inj (Option.some.inj h)
    exact hne

theorem exists_numeral? {x : Numeral} (h : numeral? s = some (x, rest)) :
    ∃ head, s = head ++ rest ∧ head ≠ [] ∧ Takes numeral? head rest x := by
  unfold numeral? at h
  split at h
  next negative body hsign =>
  simp only [Option.bind_eq_bind, Option.bind_eq_some_iff] at h
  obtain ⟨⟨digits, u⟩, hdigits, ⟨places, v⟩, hplaces, ⟨power, w⟩, hpower, heq⟩ := h
  obtain ⟨rfl, rfl⟩ := Prod.mk.inj (Option.some.inj heq)
  dsimp only at hdigits hplaces hpower
  have hne := wholeDigits?_ne_nil hdigits
  obtain ⟨rfl, hwhole⟩ := exists_wholeDigits? hdigits
  obtain ⟨a, rfl, ha⟩ := exists_fraction? hplaces
  obtain ⟨b, rfl, hb⟩ := exists_exponent? hpower
  have htail {t : List Char} (ht : t.head? = w.head?) := head?_append_of_head? b ht
  have hparts {t : List Char} (ht : t.head? = w.head?) : wholeDigits? (digits ++ (a ++ (b ++ t))) =
      some (digits, a ++ (b ++ t)) := hwhole _ (head?_append_of_head? a (htail ht))
  have hrest {t : List Char} (ht : t.head? = w.head?) : fraction? (a ++ (b ++ t)) = some (places, b ++ t) :=
    ha _ (htail ht)
  split at hsign
  · obtain ⟨rfl, rfl⟩ := Prod.mk.inj hsign
    refine ⟨'-' :: (digits ++ (a ++ b)), by simp, by simp, fun t ht => ?_⟩
    simp only [List.cons_append, List.append_assoc, numeral?, hparts ht, hrest ht, hb t ht, Option.bind_eq_bind,
      Option.bind_some]
  · next hminus =>
    obtain ⟨rfl, rfl⟩ := Prod.mk.inj hsign
    refine ⟨digits ++ (a ++ b), by simp, by simp [hne], fun t ht => ?_⟩
    have hminus := ne_cons_of_head hne hminus (a ++ (b ++ t))
    simp only [List.append_assoc, numeral?, hparts ht, hrest ht, hb t ht, Option.bind_eq_bind, Option.bind_some]

/-! ## Values -/

theorem exists_skipSpace {c : Char} (h : skipSpace s = c :: rest) :
    ∃ blanks, s = blanks ++ c :: rest ∧ Spaces blanks ∧ isSpace c = false := by
  refine ⟨s.takeWhile isSpace, ?_, List.all_eq_true.1 List.all_takeWhile, ?_⟩
  · rw [← h]
    exact List.takeWhile_append_dropWhile.symm
  · have hc := List.head?_dropWhile_not isSpace s
    rw [show s.dropWhile isSpace = c :: rest from h] at hc
    exact hc

/-- A numeral starts as no other scalar does. -/
theorem scalar?_of_numeral? {x : Numeral} (h : numeral? s = some (x, rest)) :
    scalar? s = x.value?.map fun n => (.num n, rest) := by
  unfold scalar?
  split
  · cases h
  · cases h
  · cases h
  · cases h
  · rw [number?, h]
    simp only [Option.bind_eq_bind, Option.bind_some]
    cases x.value? <;> rfl

theorem valueAs?_of_numeral? (depth : Nat) (shape : Shape) {x : Numeral} (h : numeral? s = some (x, rest)) :
    valueAs? depth shape s = x.value?.map fun n => (.num n, rest) := by
  cases s with
  | nil => cases h
  | cons c s =>
    have hspace : isSpace c = false := by
      cases hc : isSpace c with
      | false => rfl
      | true =>
        simp only [isSpace, Bool.or_eq_true, beq_iff_eq] at hc
        rcases hc with ((rfl | rfl) | rfl) | rfl <;> cases h
    have harr : c ≠ '[' := by
      rintro rfl
      cases h
    have hobj : c ≠ '{' := by
      rintro rfl
      cases h
    rw [valueAs?_of_opens depth shape s hspace harr hobj, scalar?_of_numeral? h]

theorem exists_scalar? {j : Json} (h : scalar? s = some (j, rest)) :
    ∃ head, s = head ++ rest ∧ head ≠ [] ∧ Takes scalar? head rest j := by
  unfold scalar? at h
  split at h
  · obtain ⟨rfl, rfl⟩ := Prod.mk.inj (Option.some.inj h)
    exact ⟨"null".toList, rfl, by decide, fun t _ => rfl⟩
  · obtain ⟨rfl, rfl⟩ := Prod.mk.inj (Option.some.inj h)
    exact ⟨"true".toList, rfl, by decide, fun t _ => rfl⟩
  · obtain ⟨rfl, rfl⟩ := Prod.mk.inj (Option.some.inj h)
    exact ⟨"false".toList, rfl, by decide, fun t _ => rfl⟩
  · obtain ⟨⟨text, after⟩, hstring, heq⟩ := Option.map_eq_some_iff.1 h
    obtain ⟨rfl, rfl⟩ := Prod.mk.inj heq
    obtain ⟨head, hs, hhead⟩ := exists_string? hstring
    refine ⟨'"' :: head, hs, by simp, fun t _ => ?_⟩
    rw [List.cons_append, scalar?, hhead t, Option.map_some]
  · obtain ⟨⟨n, after⟩, hnumber, heq⟩ := Option.map_eq_some_iff.1 h
    obtain ⟨rfl, rfl⟩ := Prod.mk.inj heq
    simp only [number?, Option.bind_eq_bind, Option.bind_eq_some_iff] at hnumber
    obtain ⟨⟨x, after⟩, hx, n, hn, heq⟩ := hnumber
    obtain ⟨rfl, rfl⟩ := Prod.mk.inj (Option.some.inj heq)
    obtain ⟨head, hs, hne, hhead⟩ := exists_numeral? hx
    refine ⟨head, hs, hne, fun t ht => ?_⟩
    rw [scalar?_of_numeral? (hhead t ht), hn, Option.map_some]

variable {depth : Nat} {blanks u t : List Char} {c : Char}

theorem valueAs?_emptyArr (hblanks : Spaces blanks) :
    valueAs? (depth + 1) .whole ('[' :: (blanks ++ ']' :: t)) = some (.arr [], t) := by
  have hclose : skipSpace (blanks ++ ']' :: t) = ']' :: t := skipSpace_append_ink t hblanks (by decide)
  rw [valueAs?, skipSpace_of_ink _ (by decide)]
  simp only [hclose]

theorem valueAs?_emptyObj (hblanks : Spaces blanks) :
    valueAs? (depth + 1) .whole ('{' :: (blanks ++ '}' :: t)) = some (.obj [], t) := by
  have hclose : skipSpace (blanks ++ '}' :: t) = '}' :: t := skipSpace_append_ink t hblanks (by decide)
  rw [valueAs?, skipSpace_of_ink _ (by decide)]
  simp only [hclose]

theorem valueAs?_arr {js : List Json} (hblanks : Spaces blanks) (hc : isSpace c = false) (hclose : c ≠ ']')
    (hitems : readItems (fun _ => some (valueAs? depth .whole)) ((c :: u).length + 1) 0 (c :: u) = some (js, t)) :
    valueAs? (depth + 1) .whole ('[' :: (blanks ++ c :: u)) = some (.arr js, t) := by
  have hopen : skipSpace (blanks ++ c :: u) = c :: u := skipSpace_append_ink u hblanks hc
  rw [valueAs?, skipSpace_of_ink _ (by decide)]
  simp only [hopen]
  split
  · next heq => exact absurd (List.cons.inj heq).1 hclose
  · exact Option.map_eq_some_iff.2 ⟨(js, t), hitems, rfl⟩

theorem valueAs?_obj {fields : List (String × Json)} (hblanks : Spaces blanks) (hc : isSpace c = false)
    (hclose : c ≠ '}')
    (hfields : readFields (fun _ => some (valueAs? depth .whole)) true ((c :: u).length + 1) [] (c :: u) =
      some (fields, t)) :
    valueAs? (depth + 1) .whole ('{' :: (blanks ++ c :: u)) = some (.obj fields, t) := by
  have hopen : skipSpace (blanks ++ c :: u) = c :: u := skipSpace_append_ink u hblanks hc
  rw [valueAs?, skipSpace_of_ink _ (by decide)]
  simp only [hopen]
  split
  · next heq => exact absurd (List.cons.inj heq).1 hclose
  · exact Option.map_eq_some_iff.2 ⟨(fields, t), hfields, rfl⟩

section Lists

variable (hvalue : ∀ {s rest : List Char} {j : Json}, valueAs? depth .whole s = some (j, rest) →
  ∃ head, s = head ++ rest ∧ head ≠ [] ∧ Takes (valueAs? depth .whole) head rest j)

include hvalue

theorem exists_readItems {fuel i : Nat} {js : List Json}
    (h : readItems (fun _ => some (valueAs? depth .whole)) fuel i s = some (js, rest)) :
    ∃ head, s = head ++ rest ∧ head ≠ [] ∧ ∀ t fuel, head.length ≤ fuel →
      readItems (fun _ => some (valueAs? depth .whole)) fuel i (head ++ t) = some (js, t) := by
  induction fuel generalizing i s js with
  | zero => cases h
  | succ fuel ih =>
    obtain ⟨j, after, tail, hj, rfl, hnext⟩ := readItems_cases h
    obtain ⟨item, rfl, hne, hitem⟩ := hvalue hj
    obtain ⟨more, hmore, htail⟩ | ⟨hclose, rfl⟩ := hnext
    · obtain ⟨head, rfl, -, hhead⟩ := ih htail
      obtain ⟨blanks, rfl, hblanks, -⟩ := exists_skipSpace hmore
      refine ⟨item ++ (blanks ++ ',' :: head), by simp, by simp, fun t fuel hle => ?_⟩
      simp only [List.length_append, List.length_cons] at hle
      obtain ⟨fuel, rfl⟩ := Nat.exists_eq_add_one.2 (show 0 < fuel by omega)
      have hfirst := hitem (blanks ++ ',' :: (head ++ t)) (by cases blanks <;> rfl)
      simp only [List.append_assoc, List.cons_append]
      exact readItems_more rfl hfirst hblanks (hhead t fuel (by omega))
    · obtain ⟨blanks, rfl, hblanks, -⟩ := exists_skipSpace hclose
      refine ⟨item ++ (blanks ++ [']']), by simp, by simp, fun t fuel hle => ?_⟩
      simp only [List.length_append, List.length_cons] at hle
      obtain ⟨fuel, rfl⟩ := Nat.exists_eq_add_one.2 (show 0 < fuel by omega)
      have hlast := hitem (blanks ++ ']' :: t) (by cases blanks <;> rfl)
      simp only [List.append_assoc, List.singleton_append]
      exact readItems_last rfl hlast hblanks

theorem exists_readFields {fuel : Nat} {seen : List String} {fields : List (String × Json)}
    (h : readFields (fun _ => some (valueAs? depth .whole)) true fuel seen s = some (fields, rest)) :
    ∃ head, s = head ++ rest ∧ head ≠ [] ∧ ∀ t fuel, head.length ≤ fuel →
      readFields (fun _ => some (valueAs? depth .whole)) true fuel seen (head ++ t) = some (fields, t) := by
  induction fuel generalizing seen s fields with
  | zero => cases h
  | succ fuel ih =>
    obtain ⟨name, after, value, j, past, tail, hname, hcolon, hj, rfl, hnext⟩ := readFields_cases h
    obtain ⟨field, rfl, hne, hfield⟩ := hvalue hj
    obtain ⟨key, hkey, hread⟩ := exists_string? hname
    obtain ⟨before, rfl, hbefore, -⟩ := exists_skipSpace hkey
    obtain ⟨middle, rfl, hmiddle, -⟩ := exists_skipSpace hcolon
    have hstart (u : List Char) : string? (skipSpace (before ++ '"' :: (key ++ (middle ++ ':' :: u)))) =
        some (name, middle ++ ':' :: u) := by
      rw [skipSpace_append_ink _ hbefore (by decide), hread]
    obtain ⟨more, hmore, htail⟩ | ⟨hclose, rfl⟩ := hnext
    · obtain ⟨head, rfl, -, hhead⟩ := ih htail
      obtain ⟨blanks, rfl, hblanks, -⟩ := exists_skipSpace hmore
      refine ⟨before ++ '"' :: (key ++ (middle ++ ':' :: (field ++ (blanks ++ ',' :: head)))), by simp, by simp,
        fun t fuel hle => ?_⟩
      simp only [List.length_append, List.length_cons] at hle
      obtain ⟨fuel, rfl⟩ := Nat.exists_eq_add_one.2 (show 0 < fuel by omega)
      have hfirst := hfield (blanks ++ ',' :: (head ++ t)) (by cases blanks <;> rfl)
      simp only [List.append_assoc, List.cons_append]
      exact readFields_more (hstart _) hmiddle rfl rfl hfirst hblanks (hhead t fuel (by omega))
    · obtain ⟨blanks, rfl, hblanks, -⟩ := exists_skipSpace hclose
      refine ⟨before ++ '"' :: (key ++ (middle ++ ':' :: (field ++ (blanks ++ ['}'])))), by simp, by simp,
        fun t fuel hle => ?_⟩
      simp only [List.length_append, List.length_cons] at hle
      obtain ⟨fuel, rfl⟩ := Nat.exists_eq_add_one.2 (show 0 < fuel by omega)
      have hlast := hfield (blanks ++ '}' :: t) (by cases blanks <;> rfl)
      simp only [List.append_assoc, List.cons_append, List.nil_append]
      exact readFields_last (hstart _) hmiddle rfl rfl hlast hblanks

/-- An array ends at its bracket, whatever follows. -/
theorem exists_valueAs?_of_bracket {j : Json} {inside : List Char} (hs : skipSpace s = '[' :: inside)
    (h : valueAs? (depth + 1) .whole s = some (j, rest)) :
    ∃ head, s = head ++ rest ∧ head ≠ [] ∧ ∀ t, valueAs? (depth + 1) .whole (head ++ t) = some (j, t) := by
  rw [valueAs?] at h
  simp only [hs] at h
  obtain ⟨before, rfl, hbefore, -⟩ := exists_skipSpace hs
  split at h
  · next after hafter =>
    obtain ⟨rfl, rfl⟩ := Prod.mk.inj (Option.some.inj h)
    obtain ⟨blanks, rfl, hblanks, -⟩ := exists_skipSpace hafter
    refine ⟨before ++ '[' :: (blanks ++ [']']), by simp, by simp, fun t => ?_⟩
    simp only [List.append_assoc, List.cons_append, List.nil_append]
    rw [valueAs?_append_spaces _ _ _ hbefore, valueAs?_emptyArr hblanks]
  · next hinside =>
    obtain ⟨⟨js, after⟩, hitems, heq⟩ := Option.map_eq_some_iff.1 h
    obtain ⟨rfl, rfl⟩ := Prod.mk.inj heq
    obtain ⟨head, hopen, hne, hhead⟩ := exists_readItems hvalue hitems
    obtain ⟨c, head, rfl⟩ := List.exists_cons_of_ne_nil hne
    obtain ⟨blanks, rfl, hblanks, hc⟩ := exists_skipSpace hopen
    have hclose : c ≠ ']' := fun heq => hinside _ (by rw [hopen, heq, List.cons_append])
    refine ⟨before ++ '[' :: (blanks ++ c :: head), by simp, by simp, fun t => ?_⟩
    simp only [List.append_assoc, List.cons_append]
    rw [valueAs?_append_spaces _ _ _ hbefore]
    exact valueAs?_arr hblanks hc hclose (hhead t _ (by simp; omega))

theorem exists_valueAs?_of_brace {j : Json} {inside : List Char} (hs : skipSpace s = '{' :: inside)
    (h : valueAs? (depth + 1) .whole s = some (j, rest)) :
    ∃ head, s = head ++ rest ∧ head ≠ [] ∧ ∀ t, valueAs? (depth + 1) .whole (head ++ t) = some (j, t) := by
  rw [valueAs?] at h
  simp only [hs] at h
  obtain ⟨before, rfl, hbefore, -⟩ := exists_skipSpace hs
  split at h
  · next after hafter =>
    obtain ⟨rfl, rfl⟩ := Prod.mk.inj (Option.some.inj h)
    obtain ⟨blanks, rfl, hblanks, -⟩ := exists_skipSpace hafter
    refine ⟨before ++ '{' :: (blanks ++ ['}']), by simp, by simp, fun t => ?_⟩
    simp only [List.append_assoc, List.cons_append, List.nil_append]
    rw [valueAs?_append_spaces _ _ _ hbefore, valueAs?_emptyObj hblanks]
  · next hinside =>
    obtain ⟨⟨fields, after⟩, hfields, heq⟩ := Option.map_eq_some_iff.1 h
    obtain ⟨rfl, rfl⟩ := Prod.mk.inj heq
    obtain ⟨head, hopen, hne, hhead⟩ := exists_readFields hvalue hfields
    obtain ⟨c, head, rfl⟩ := List.exists_cons_of_ne_nil hne
    obtain ⟨blanks, rfl, hblanks, hc⟩ := exists_skipSpace hopen
    have hclose : c ≠ '}' := fun heq => hinside _ (by rw [hopen, heq, List.cons_append])
    refine ⟨before ++ '{' :: (blanks ++ c :: head), by simp, by simp, fun t => ?_⟩
    simp only [List.append_assoc, List.cons_append]
    rw [valueAs?_append_spaces _ _ _ hbefore]
    exact valueAs?_obj hblanks hc hclose (hhead t _ (by simp; omega))

end Lists

theorem exists_valueAs?_of_scalar? {j : Json} (depth : Nat) (h : scalar? (skipSpace s) = some (j, rest))
    (harr : ∀ t, skipSpace s ≠ '[' :: t) (hobj : ∀ t, skipSpace s ≠ '{' :: t) :
    ∃ head, s = head ++ rest ∧ head ≠ [] ∧ Takes (valueAs? depth .whole) head rest j := by
  obtain ⟨head, hs, hne, hhead⟩ := exists_scalar? h
  obtain ⟨c, head, rfl⟩ := List.exists_cons_of_ne_nil hne
  obtain ⟨blanks, rfl, hblanks, hc⟩ := exists_skipSpace hs
  refine ⟨blanks ++ c :: head, by simp, by simp, fun t ht => ?_⟩
  rw [hs] at harr hobj
  have harr' : c ≠ '[' := fun heq => harr _ (by rw [heq, List.cons_append])
  have hobj' : c ≠ '{' := fun heq => hobj _ (by rw [heq, List.cons_append])
  rw [List.append_assoc, valueAs?_append_spaces _ _ _ hblanks, List.cons_append,
    valueAs?_of_opens depth .whole _ hc harr' hobj']
  exact hhead t ht

/-- The same value is read whatever follows it, if that starts as what follows it here. -/
theorem exists_valueAs? {j : Json} (h : valueAs? depth .whole s = some (j, rest)) :
    ∃ head, s = head ++ rest ∧ head ≠ [] ∧ Takes (valueAs? depth .whole) head rest j := by
  induction depth generalizing s rest j with
  | zero =>
    rw [valueAs?] at h
    split at h
    · cases h
    · cases h
    · next harr hobj => exact exists_valueAs?_of_scalar? 0 h harr hobj
  | succ depth ih =>
    have hread := h
    rw [valueAs?] at h
    split at h
    · next inside hs =>
      obtain ⟨head, heq, hne, hhead⟩ := exists_valueAs?_of_bracket ih hs hread
      exact ⟨head, heq, hne, fun t _ => hhead t⟩
    · next inside hs =>
      obtain ⟨head, heq, hne, hhead⟩ := exists_valueAs?_of_brace ih hs hread
      exact ⟨head, heq, hne, fun t _ => hhead t⟩
    · next harr hobj => exact exists_valueAs?_of_scalar? (depth + 1) h harr hobj

/-! ## The end of an array -/

theorem exists_append_of_readItems {fuel i : Nat} {js : List Json}
    (h : readItems (fun _ => some (valueAs? depth .whole)) fuel i s = some (js, rest)) :
    ∃ inside, s = inside ++ ']' :: rest := by
  induction fuel generalizing i s js with
  | zero => cases h
  | succ fuel ih =>
    obtain ⟨j, after, tail, hj, rfl, hnext⟩ := readItems_cases h
    obtain ⟨item, rfl, -, -⟩ := exists_valueAs? hj
    obtain ⟨more, hmore, htail⟩ | ⟨hclose, rfl⟩ := hnext
    · obtain ⟨inside, rfl⟩ := ih htail
      obtain ⟨blanks, rfl, -, -⟩ := exists_skipSpace hmore
      exact ⟨item ++ (blanks ++ ',' :: inside), by simp⟩
    · obtain ⟨blanks, rfl, -, -⟩ := exists_skipSpace hclose
      exact ⟨item ++ blanks, by simp⟩

/-- The last character of an array is a bracket. -/
theorem exists_append_of_bracket {j : Json} {t : List Char} (hs : skipSpace s = '[' :: t)
    (h : valueAs? depth .whole s = some (j, rest)) : ∃ inside, s = inside ++ ']' :: rest := by
  cases depth with
  | zero =>
    rw [valueAs?] at h
    simp only [hs] at h
    cases h
  | succ depth =>
    obtain ⟨before, rfl, -, -⟩ := exists_skipSpace hs
    rw [valueAs?] at h
    simp only [hs] at h
    split at h
    · next after hafter =>
      obtain ⟨rfl, rfl⟩ := Prod.mk.inj (Option.some.inj h)
      obtain ⟨blanks, rfl, -, -⟩ := exists_skipSpace hafter
      exact ⟨before ++ '[' :: blanks, by simp⟩
    · obtain ⟨⟨js, after⟩, hitems, heq⟩ := Option.map_eq_some_iff.1 h
      obtain ⟨rfl, rfl⟩ := Prod.mk.inj heq
      obtain ⟨inside, hinside⟩ := exists_append_of_readItems hitems
      have ht : ∃ blanks, t = blanks ++ skipSpace t := ⟨t.takeWhile isSpace, List.takeWhile_append_dropWhile.symm⟩
      obtain ⟨blanks, ht⟩ := ht
      rw [hinside] at ht
      exact ⟨before ++ '[' :: (blanks ++ inside), by simp [ht]⟩

end LintHub.Json
