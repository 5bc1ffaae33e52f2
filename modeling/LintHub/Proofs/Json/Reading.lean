import LintHub.Proofs.Json.Grammar
import Mathlib.Algebra.Group.Int.Defs

/-!
# Written documents are read back

* `Json.Fits` : a shape wants all of a value, no record of it repeats a name, it nests no deeper than allowed, and its
  numbers are natural and below `2 ^ 64`.
* `valueAs?_written` : a text that writes such a value is read as the value, whatever stands before and after it.
* `parseAs?_compact` and `parse?_pretty` : what the printers write is read back.
-/

namespace LintHub.Json

/-! ## Values that a shape wants -/

mutual

/-- The value is read in full by a shape. -/
def Fits : Nat → Shape → Json → Prop
  | _, _, .null => True
  | _, _, .bool _ => True
  | _, _, .str _ => True
  | _, _, .num (.whole n) => 0 ≤ n ∧ n < 2 ^ 64
  | _, _, .num (.double _) => False
  | 0, _, .arr _ => False
  | 0, _, .obj _ => False
  | depth + 1, shape, .arr items => FitsItems depth shape 0 items
  | depth + 1, shape, .obj fields =>
    FitsFields depth shape fields ∧ (shape.allowsRepeats = true ∨ (fields.map (·.1)).Nodup)

/-- Items from number `i` on are read in full. -/
def FitsItems : Nat → Shape → Nat → List Json → Prop
  | _, _, _, [] => True
  | depth, shape, i, j :: rest =>
    (∃ inner, shape.itemAt i = some inner ∧ Fits depth inner j) ∧ FitsItems depth shape (i + 1) rest

/-- Fields are read in full. -/
def FitsFields : Nat → Shape → List (String × Json) → Prop
  | _, _, [] => True
  | depth, shape, (name, j) :: rest =>
    (∃ inner, shape.fieldAt name = some inner ∧ Fits depth inner j) ∧ FitsFields depth shape rest

end

theorem fitsItems_of_itemAt {depth : Nat} {shape inner : Shape} (hshape : ∀ i, shape.itemAt i = some inner)
    {items : List Json} (h : ∀ j ∈ items, Fits depth inner j) (i : Nat) : FitsItems depth shape i items := by
  induction items generalizing i with
  | nil => exact trivial
  | cons j rest ih => exact ⟨⟨inner, hshape i, h j (by simp)⟩, ih (fun k hk => h k (by simp [hk])) (i + 1)⟩

theorem fitsFields_of_fieldAt {depth : Nat} {shape inner : Shape} (hshape : ∀ name, shape.fieldAt name = some inner)
    {fields : List (String × Json)} (h : ∀ field ∈ fields, Fits depth inner field.2) :
    FitsFields depth shape fields := by
  induction fields with
  | nil => exact trivial
  | cons field rest ih => exact ⟨⟨inner, hshape field.1, h field (by simp)⟩, ih fun k hk => h k (by simp [hk])⟩

/-! ## First characters -/

theorem valueAs?_skipSpace (depth : Nat) (shape : Shape) (s : List Char) :
    valueAs? depth shape (skipSpace s) = valueAs? depth shape s := by
  cases depth with
  | zero => rw [valueAs?, valueAs?, skipSpace_skipSpace]
  | succ depth => rw [valueAs?, valueAs?, skipSpace_skipSpace]

theorem valueAs?_append_spaces (depth : Nat) (shape : Shape) {a : List Char} (s : List Char) (h : Spaces a) :
    valueAs? depth shape (a ++ s) = valueAs? depth shape s := by
  rw [← valueAs?_skipSpace, skipSpace_append s h, valueAs?_skipSpace]

/-- A character that is no blank and closes nothing. -/
def Opens (c : Char) : Prop := isSpace c = false ∧ c ≠ ']' ∧ c ≠ '}'

theorem exists_toDigits_eq_cons (n : Nat) :
    ∃ c t, Nat.toDigits 10 n = c :: t ∧ Text.isAsciiDigit c = true := by
  cases hd : Nat.toDigits 10 n with
  | nil => exact absurd hd Nat.toDigits_ne_nil
  | cons c t => exact ⟨c, t, rfl, Text.isAsciiDigit_of_mem_toDigits (n := n) (by rw [hd]; simp)⟩

theorem opens_of_isAsciiDigit {c : Char} (h : Text.isAsciiDigit c = true) : Opens c := by
  refine ⟨?_, ?_, ?_⟩
  · cases hc : isSpace c with
    | false => rfl
    | true =>
      simp only [isSpace, Bool.or_eq_true, beq_iff_eq] at hc
      rcases hc with ((rfl | rfl) | rfl) | rfl <;> exact absurd h (by decide)
  · rintro rfl
    exact absurd h (by decide)
  · rintro rfl
    exact absurd h (by decide)

/-- A value that is read starts with a character that opens it. -/
theorem Written.opens {j : Json} {s : List Char} (h : Written (.value j) s) {depth : Nat} {shape : Shape}
    (hf : Fits depth shape j) : ∃ c t, s = c :: t ∧ Opens c := by
  cases h with
  | null => exact ⟨_, _, rfl, by decide, by decide, by decide⟩
  | bool b => cases b <;> exact ⟨_, _, rfl, by decide, by decide, by decide⟩
  | str s => exact ⟨_, _, rfl, by decide, by decide, by decide⟩
  | emptyArr => exact ⟨_, _, rfl, by decide, by decide, by decide⟩
  | arr h => exact ⟨_, _, rfl, by decide, by decide, by decide⟩
  | emptyObj => exact ⟨_, _, rfl, by decide, by decide, by decide⟩
  | obj h => exact ⟨_, _, rfl, by decide, by decide, by decide⟩
  | num n =>
    cases n with
    | double d => exact absurd hf (by simp [Fits])
    | whole n =>
      obtain ⟨m, rfl⟩ := Int.eq_ofNat_of_zero_le (show 0 ≤ n by simp only [Fits] at hf; exact hf.1)
      obtain ⟨c, t, hct, hc⟩ := exists_toDigits_eq_cons m
      exact ⟨c, t, by rw [numberText_nat, hct], opens_of_isAsciiDigit hc⟩

/-! ## Scalars -/

theorem valueAs?_of_opens (depth : Nat) (shape : Shape) {c : Char} (t : List Char) (hc : isSpace c = false)
    (harr : c ≠ '[') (hobj : c ≠ '{') : valueAs? depth shape (c :: t) = scalar? (c :: t) := by
  cases depth with
  | zero =>
    rw [valueAs?, skipSpace_of_ink t hc]
    split
    · next h => exact absurd (List.cons.inj h).1 harr
    · next h => exact absurd (List.cons.inj h).1 hobj
    · rfl
  | succ depth =>
    rw [valueAs?, skipSpace_of_ink t hc]
    split
    · next h => exact absurd (List.cons.inj h).1 harr
    · next h => exact absurd (List.cons.inj h).1 hobj
    · rfl

theorem scalar?_digits {c : Char} (t : List Char) (hc : Text.isAsciiDigit c = true) :
    scalar? (c :: t) = (number? (c :: t)).map fun (n, rest) => (.num n, rest) := by
  have hne (d : Char) (hd : Text.isAsciiDigit d = false) : c ≠ d := by
    rintro rfl
    simp [hc] at hd
  rw [scalar?]
  · intro rest h
    exact hne 'n' (by decide) (List.cons.inj h).1
  · intro rest h
    exact hne 't' (by decide) (List.cons.inj h).1
  · intro rest h
    exact hne 'f' (by decide) (List.cons.inj h).1
  · intro rest h
    exact hne '"' (by decide) (List.cons.inj h).1

theorem valueAs?_natText (depth : Nat) (shape : Shape) {n : Nat} {rest : List Char} (hn : n < 2 ^ 64)
    (h : Stopped rest) : valueAs? depth shape (numberText (.whole n) ++ rest) = some (.num (.whole n), rest) := by
  obtain ⟨c, t, hct, hc⟩ := exists_toDigits_eq_cons n
  have hread := number?_natText hn h
  rw [numberText_nat, hct, List.cons_append] at hread ⊢
  have hne (d : Char) (hd : Text.isAsciiDigit d = false) : c ≠ d := by
    rintro rfl
    simp [hc] at hd
  rw [valueAs?_of_opens depth shape _ (opens_of_isAsciiDigit hc).1 (hne _ (by decide)) (hne _ (by decide)),
    scalar?_digits _ hc, hread, Option.map_some]

theorem valueAs?_quote (depth : Nat) (shape : Shape) (s : String) (rest : List Char) :
    valueAs? depth shape (quote s ++ rest) = some (.str s, rest) := by
  have hcons : quote s ++ rest = '"' :: (s.toList.flatMap escapeChar ++ ['"'] ++ rest) := rfl
  have hread := string?_quote s rest
  rw [hcons] at hread ⊢
  rw [valueAs?_of_opens depth shape _ (by decide) (by decide) (by decide), scalar?, hread, Option.map_some]

/-! ## Items and fields -/

theorem Stopped.append_spaces {a rest : List Char} (ha : Spaces a) (h : Stopped rest) : Stopped (a ++ rest) := by
  cases a with
  | nil => exact h
  | cons c a =>
    intro d hd
    obtain rfl : c = d := by simpa using hd
    have hc := ha c (by simp)
    simp only [isSpace, Bool.or_eq_true, beq_iff_eq] at hc
    rcases hc with ((rfl | rfl) | rfl) | rfl <;> decide

theorem Stopped.comma (rest : List Char) : Stopped (',' :: rest) := by
  intro c hc
  obtain rfl : ',' = c := by simpa using hc
  decide

theorem Stopped.closeArr (rest : List Char) : Stopped (']' :: rest) := by
  intro c hc
  obtain rfl : ']' = c := by simpa using hc
  decide

theorem Stopped.closeObj (rest : List Char) : Stopped ('}' :: rest) := by
  intro c hc
  obtain rfl : '}' = c := by simpa using hc
  decide

variable {s rest more b c d : List Char} {fuel i : Nat} {reader : Reader Json} {j : Json}

theorem readItems_last {read : Nat → Option (Reader Json)} (hread : read i = some reader)
    (hj : reader s = some (j, b ++ ']' :: rest)) (hb : Spaces b) :
    readItems read (fuel + 1) i s = some ([j], rest) := by
  have hclose : skipSpace (b ++ ']' :: rest) = ']' :: rest := skipSpace_append_ink rest hb (by decide)
  simp only [readItems, hread, hj, hclose, Option.bind_eq_bind, Option.bind_some]

theorem readItems_more {read : Nat → Option (Reader Json)} {items : List Json} (hread : read i = some reader)
    (hj : reader s = some (j, b ++ ',' :: more)) (hb : Spaces b)
    (hmore : readItems read fuel (i + 1) more = some (items, rest)) :
    readItems read (fuel + 1) i s = some (j :: items, rest) := by
  have hcomma : skipSpace (b ++ ',' :: more) = ',' :: more := skipSpace_append_ink more hb (by decide)
  simp only [readItems, hread, hj, hcomma, hmore, Option.bind_eq_bind, Option.bind_some]

theorem readFields_last {read : String → Option (Reader Json)} {repeats : Bool} {seen : List String} {name : String}
    {value : List Char} (hs : string? (skipSpace s) = some (name, c ++ ':' :: value)) (hc : Spaces c)
    (hread : read name = some reader) (hseen : (!repeats && seen.contains name) = false)
    (hj : reader value = some (j, d ++ '}' :: rest)) (hd : Spaces d) :
    readFields read repeats (fuel + 1) seen s = some ([(name, j)], rest) := by
  have hcolon : skipSpace (c ++ ':' :: value) = ':' :: value := skipSpace_append_ink value hc (by decide)
  have hclose : skipSpace (d ++ '}' :: rest) = '}' :: rest := skipSpace_append_ink rest hd (by decide)
  simp only [readFields, hs, hcolon, hread, hseen, hj, hclose, Bool.false_eq_true, if_false, Option.bind_eq_bind,
    Option.bind_some]

theorem readFields_more {read : String → Option (Reader Json)} {repeats : Bool} {seen : List String} {name : String}
    {value : List Char} {fields : List (String × Json)}
    (hs : string? (skipSpace s) = some (name, c ++ ':' :: value)) (hc : Spaces c)
    (hread : read name = some reader) (hseen : (!repeats && seen.contains name) = false)
    (hj : reader value = some (j, d ++ ',' :: more)) (hd : Spaces d)
    (hmore : readFields read repeats fuel (name :: seen) more = some (fields, rest)) :
    readFields read repeats (fuel + 1) seen s = some ((name, j) :: fields, rest) := by
  have hcolon : skipSpace (c ++ ':' :: value) = ':' :: value := skipSpace_append_ink value hc (by decide)
  have hcomma : skipSpace (d ++ ',' :: more) = ',' :: more := skipSpace_append_ink more hd (by decide)
  simp only [readFields, hs, hcolon, hread, hseen, hj, hcomma, hmore, Bool.false_eq_true, if_false,
    Option.bind_eq_bind, Option.bind_some]

/-! ## Written pieces -/

/-- How many items or fields a piece lists. -/
def Piece.count : Piece → Nat
  | .value _ => 0
  | .items js => js.length
  | .fields fs => fs.length

theorem Written.count_le {p : Piece} (h : Written p s) : p.count ≤ s.length := by
  induction h with
  | lastItem => simp [Piece.count]; omega
  | item _ _ _ _ _ ih => simp [Piece.count] at ih ⊢; omega
  | lastField => simp [Piece.count]; omega
  | field _ _ _ _ _ _ ih => simp [Piece.count] at ih ⊢; omega
  | _ => exact Nat.zero_le _

/-- The blanks before the first item are followed by a character that opens it, and there are at most as many items
as characters after them. -/
theorem Written.items_shape {items : List Json} (h : Written (.items items) s) {depth : Nat} {shape : Shape}
    (hf : FitsItems depth shape i items) :
    ∃ a c t, s = a ++ c :: t ∧ Spaces a ∧ Opens c ∧ items.length ≤ t.length + 1 := by
  cases h with
  | @lastItem a b j v ha hb hj =>
    obtain ⟨⟨inner, -, hj'⟩, -⟩ := hf
    obtain ⟨c, t, rfl, hc⟩ := hj.opens hj'
    exact ⟨a, c, t ++ b ++ [']'], by simp, ha, hc, by simp⟩
  | @item a b j v items u ha hb hj hu =>
    obtain ⟨⟨inner, -, hj'⟩, -⟩ := hf
    obtain ⟨c, t, rfl, hc⟩ := hj.opens hj'
    have hcount : items.length ≤ u.length := hu.count_le
    exact ⟨a, c, t ++ b ++ ',' :: u, by simp, ha, hc, by simp; omega⟩

/-- The blanks before the first field are followed by a quote, and there are at most as many fields as characters
after them. -/
theorem Written.fields_shape {fields : List (String × Json)} (h : Written (.fields fields) s) :
    ∃ a t, s = a ++ '"' :: t ∧ Spaces a ∧ fields.length ≤ t.length + 1 := by
  cases h with
  | @lastField a b d n j v ha hb hd hj =>
    exact ⟨a, n.toList.flatMap escapeChar ++ '"' :: ':' :: (b ++ v ++ d ++ ['}']), by simp [quote], ha, by simp⟩
  | @field a b d n j v fields u ha hb hd hj hu =>
    have hcount : fields.length ≤ u.length := hu.count_le
    exact ⟨a, n.toList.flatMap escapeChar ++ '"' :: ':' :: (b ++ v ++ d ++ ',' :: u), by simp [quote], ha,
      by simp; omega⟩

/-- How a piece is read from a text, whatever follows it. -/
def Reads : Piece → List Char → Prop
  | .value j, s => ∀ depth shape rest, Fits depth shape j → Stopped rest →
    valueAs? depth shape (s ++ rest) = some (j, rest)
  | .items items, s => ∀ depth shape i fuel rest, FitsItems depth shape i items → items.length ≤ fuel →
    readItems (fun i => (shape.itemAt i).map (valueAs? depth)) fuel i (s ++ rest) = some (items, rest)
  | .fields fields, s => ∀ depth shape seen fuel rest, FitsFields depth shape fields →
    (shape.allowsRepeats = true ∨ (fields.map (·.1)).Nodup ∧ ∀ name ∈ fields.map (·.1), name ∉ seen) →
    fields.length ≤ fuel →
    readFields (fun name => (shape.fieldAt name).map (valueAs? depth)) shape.allowsRepeats fuel seen (s ++ rest) =
      some (fields, rest)

theorem readItems_skipSpace (depth : Nat) (shape : Shape) (fuel i : Nat) (s : List Char) :
    readItems (fun i => (shape.itemAt i).map (valueAs? depth)) fuel i (skipSpace s) =
      readItems (fun i => (shape.itemAt i).map (valueAs? depth)) fuel i s := by
  cases fuel with
  | zero => rfl
  | succ fuel =>
    simp only [readItems]
    cases shape.itemAt i with
    | none => rfl
    | some inner => simp only [Option.map_some, Option.bind_eq_bind, Option.bind_some, valueAs?_skipSpace]

theorem readFields_skipSpace (read : String → Option (Reader Json)) (repeats : Bool) (fuel : Nat)
    (seen : List String) (s : List Char) :
    readFields read repeats fuel seen (skipSpace s) = readFields read repeats fuel seen s := by
  cases fuel with
  | zero => rfl
  | succ fuel => simp only [readFields, skipSpace_skipSpace]

/-- An array is read when its items are. -/
theorem reads_arr {items : List Json} (h : Written (.items items) s) (hs : Reads (.items items) s) :
    Reads (.value (.arr items)) ('[' :: s) := by
  intro depth shape rest hf _
  cases depth with
  | zero => exact absurd hf (by simp [Fits])
  | succ depth =>
    simp only [Fits] at hf
    obtain ⟨a, c, t, rfl, ha, hc, hcount⟩ := h.items_shape hf
    have hskip : skipSpace (a ++ c :: t ++ rest) = c :: (t ++ rest) := by
      rw [List.append_assoc, skipSpace_append _ ha, List.cons_append, skipSpace_of_ink _ hc.1]
    have hitems := hs depth shape 0 ((c :: (t ++ rest)).length + 1) rest hf (by simp; omega)
    rw [← readItems_skipSpace, hskip] at hitems
    rw [List.cons_append, valueAs?, skipSpace_of_ink _ (show isSpace '[' = false by decide)]
    simp only [hskip]
    split
    · next h => exact absurd (List.cons.inj h).1 hc.2.1
    · rw [hitems, Option.map_some]

/-- An object is read when its fields are. -/
theorem reads_obj {fields : List (String × Json)} (h : Written (.fields fields) s) (hs : Reads (.fields fields) s) :
    Reads (.value (.obj fields)) ('{' :: s) := by
  intro depth shape rest hf _
  cases depth with
  | zero => exact absurd hf (by simp [Fits])
  | succ depth =>
    simp only [Fits] at hf
    obtain ⟨a, t, rfl, ha, hcount⟩ := h.fields_shape
    have hskip : skipSpace (a ++ '"' :: t ++ rest) = '"' :: (t ++ rest) := by
      rw [List.append_assoc, skipSpace_append _ ha, List.cons_append, skipSpace_of_ink _ (by decide)]
    have hfields := hs depth shape [] (('"' :: (t ++ rest)).length + 1) rest hf.1
      (hf.2.imp_right fun hnodup => ⟨hnodup, by simp⟩) (by simp; omega)
    rw [← readFields_skipSpace, hskip] at hfields
    rw [List.cons_append, valueAs?, skipSpace_of_ink _ (show isSpace '{' = false by decide)]
    simp only [hskip]
    split
    · next h => exact absurd (List.cons.inj h).1 (by decide)
    · rw [hfields, Option.map_some]

theorem string?_skipSpace_quote {a : List Char} (name : String) (rest : List Char) (ha : Spaces a) :
    string? (skipSpace (a ++ quote name ++ rest)) = some (name, rest) := by
  have hquote : skipSpace (quote name ++ rest) = quote name ++ rest := skipSpace_of_ink _ (by decide)
  rw [List.append_assoc, skipSpace_append _ ha, hquote, string?_quote]

theorem unseen_of_names {repeats : Bool} {seen : List String} {field : String × Json}
    {fields : List (String × Json)}
    (h : repeats = true ∨ ((field :: fields).map (·.1)).Nodup ∧ ∀ name ∈ (field :: fields).map (·.1), name ∉ seen) :
    (!repeats && seen.contains field.1) = false := by
  rcases h with rfl | ⟨-, h⟩
  · rfl
  · have : seen.contains field.1 = false := by simpa using h field.1 (by simp)
    rw [this, Bool.and_false]

theorem names_tail {repeats : Bool} {seen : List String} {field : String × Json} {fields : List (String × Json)}
    (h : repeats = true ∨ ((field :: fields).map (·.1)).Nodup ∧ ∀ name ∈ (field :: fields).map (·.1), name ∉ seen) :
    repeats = true ∨ (fields.map (·.1)).Nodup ∧ ∀ name ∈ fields.map (·.1), name ∉ field.1 :: seen := by
  refine h.imp_right fun ⟨hnodup, hseen⟩ => ?_
  rw [List.map_cons, List.nodup_cons] at hnodup
  refine ⟨hnodup.2, fun name hname => ?_⟩
  rw [List.mem_cons, not_or]
  refine ⟨?_, hseen name (by simp at hname ⊢; exact .inr hname)⟩
  rintro rfl
  exact hnodup.1 hname

/-- Every written piece is read back. -/
theorem Written.reads {p : Piece} (h : Written p s) : Reads p s := by
  -- Induction on how the piece is written. The text after it is arbitrary, up to `Stopped` after a number, so that each
  -- item is read with the rest of its list behind it.
  induction h with
  | null =>
    intro depth shape rest _ _
    exact valueAs?_of_opens depth shape _ (by decide) (by decide) (by decide)
  | bool b =>
    intro depth shape rest _ _
    cases b with
    | true => exact valueAs?_of_opens depth shape _ (by decide) (by decide) (by decide)
    | false => exact valueAs?_of_opens depth shape _ (by decide) (by decide) (by decide)
  | num n =>
    intro depth shape rest hf hrest
    cases n with
    | double d => exact absurd hf (by simp [Fits])
    | whole n =>
      simp only [Fits] at hf
      obtain ⟨m, rfl⟩ := Int.eq_ofNat_of_zero_le hf.1
      exact valueAs?_natText depth shape (by omega) hrest
  | str s =>
    intro depth shape rest _ _
    exact valueAs?_quote depth shape s rest
  | emptyArr =>
    intro depth shape rest hf _
    cases depth with
    | zero => exact absurd hf (by simp [Fits])
    | succ depth => rfl
  | arr h ih => exact reads_arr h ih
  | emptyObj =>
    intro depth shape rest hf _
    cases depth with
    | zero => exact absurd hf (by simp [Fits])
    | succ depth => rfl
  | obj h ih => exact reads_obj h ih
  | @lastItem a b j v ha hb hj ih =>
    intro depth shape i fuel rest hf hfuel
    obtain ⟨⟨inner, hinner, hj'⟩, -⟩ := hf
    obtain ⟨fuel, rfl⟩ : ∃ n, fuel = n + 1 := ⟨fuel - 1, by simp at hfuel; omega⟩
    have htext : a ++ v ++ b ++ [']'] ++ rest = a ++ (v ++ (b ++ ']' :: rest)) := by simp
    have hvalue := ih depth inner (b ++ ']' :: rest) hj' ((Stopped.closeArr rest).append_spaces hb)
    rw [← valueAs?_append_spaces depth inner _ ha, ← htext] at hvalue
    exact readItems_last (by rw [hinner, Option.map_some]) hvalue hb
  | @item a b j v items u ha hb hj hu ihj ihu =>
    intro depth shape i fuel rest hf hfuel
    obtain ⟨⟨inner, hinner, hj'⟩, hf'⟩ := hf
    obtain ⟨fuel, rfl⟩ : ∃ n, fuel = n + 1 := ⟨fuel - 1, by simp at hfuel; omega⟩
    have htext : a ++ v ++ b ++ ',' :: u ++ rest = a ++ (v ++ (b ++ ',' :: (u ++ rest))) := by simp
    have hvalue := ihj depth inner (b ++ ',' :: (u ++ rest)) hj' ((Stopped.comma _).append_spaces hb)
    rw [← valueAs?_append_spaces depth inner _ ha, ← htext] at hvalue
    have hmore := ihu depth shape (i + 1) fuel rest hf' (by simpa using hfuel)
    exact readItems_more (by rw [hinner, Option.map_some]) hvalue hb hmore
  | @lastField a b d n j v ha hb hd hj ih =>
    intro depth shape seen fuel rest hf hnames hfuel
    obtain ⟨⟨inner, hinner, hj'⟩, -⟩ := hf
    obtain ⟨fuel, rfl⟩ : ∃ n, fuel = n + 1 := ⟨fuel - 1, by simp at hfuel; omega⟩
    have htext : a ++ quote n ++ ':' :: (b ++ v ++ d ++ ['}']) ++ rest =
        a ++ quote n ++ ':' :: (b ++ (v ++ (d ++ '}' :: rest))) := by simp
    have hvalue := ih depth inner (d ++ '}' :: rest) hj' ((Stopped.closeObj rest).append_spaces hd)
    rw [← valueAs?_append_spaces depth inner _ hb] at hvalue
    rw [htext]
    exact readFields_last (c := []) (string?_skipSpace_quote n _ ha) Spaces.nil (by rw [hinner, Option.map_some])
      (unseen_of_names hnames) hvalue hd
  | @field a b d n j v fields u ha hb hd hj hu ihj ihu =>
    intro depth shape seen fuel rest hf hnames hfuel
    obtain ⟨⟨inner, hinner, hj'⟩, hf'⟩ := hf
    obtain ⟨fuel, rfl⟩ : ∃ n, fuel = n + 1 := ⟨fuel - 1, by simp at hfuel; omega⟩
    have htext : a ++ quote n ++ ':' :: (b ++ v ++ d ++ ',' :: u) ++ rest =
        a ++ quote n ++ ':' :: (b ++ (v ++ (d ++ ',' :: (u ++ rest)))) := by simp
    have hvalue := ihj depth inner (d ++ ',' :: (u ++ rest)) hj' ((Stopped.comma _).append_spaces hd)
    rw [← valueAs?_append_spaces depth inner _ hb] at hvalue
    have hmore := ihu depth shape (n :: seen) fuel rest hf' (names_tail hnames) (by simpa using hfuel)
    rw [htext]
    exact readFields_more (c := []) (string?_skipSpace_quote n _ ha) Spaces.nil (by rw [hinner, Option.map_some])
      (unseen_of_names hnames) hvalue hd hmore

/-! ## Documents -/

/-- A written value is read back, whatever stands before and after it. -/
theorem valueAs?_written {a : List Char} {depth : Nat} {shape : Shape} (ha : Spaces a) (h : Written (.value j) s)
    (hf : Fits depth shape j) (hrest : Stopped rest) : valueAs? depth shape (a ++ s ++ rest) = some (j, rest) := by
  rw [List.append_assoc, valueAs?_append_spaces depth shape _ ha]
  exact h.reads depth shape rest hf hrest

theorem parseAs?_of_written {text : String} {shape : Shape} {a : List Char} (htext : text.toList = a ++ s ++ b)
    (ha : Spaces a) (hb : Spaces b) (h : Written (.value j) s) (hf : Fits maxDepth shape j) :
    parseAs? shape text = some j := by
  have hskip : skipSpace b = [] := by
    rw [← List.append_nil b, skipSpace_append [] hb]
    rfl
  have hrest := Stopped.nil.append_spaces hb
  rw [List.append_nil] at hrest
  rw [parseAs?, htext, valueAs?_written ha h hf hrest]
  simp [hskip]

theorem parseAs?_compact {shape : Shape} (hf : Fits maxDepth shape j) : parseAs? shape j.compact = some j :=
  parseAs?_of_written (a := []) (b := []) (by simp [compact]) .nil .nil (written_compactChars j) hf

theorem parse?_pretty (hf : Fits maxDepth .whole j) : parse? j.pretty = some j :=
  parseAs?_of_written (a := []) (b := []) (by simp [pretty]) .nil .nil (written_prettyChars j 0) hf

/-- A line feed after the value does no harm. -/
theorem parse?_pretty_line (hf : Fits maxDepth .whole j) : parse? (j.pretty ++ "\n") = some j :=
  parseAs?_of_written (a := []) (b := ['\n']) (by simp [pretty]) .nil (by simp [Spaces, isSpace])
    (written_prettyChars j 0) hf

end LintHub.Json
