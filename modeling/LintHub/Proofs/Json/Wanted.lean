import LintHub.Proofs.Json.Record

/-!
# The wanted parts of a document

A shape says which parts of a document are wanted. Reading by a shape gives the wanted parts of what reading without one
gives.

* `Json.Shape.keep` : the wanted parts of a value. None if a wanted field comes twice or an array is too long.
* `Json.skipValue?_of_valueAs?` : a value that can be read can be passed over.
* `Json.valueAs?_eq_keep`, `Json.parseAs?_eq_keep` : reading by a shape.
* `Json.lookup_keepFields` : a wanted field is there with its wanted parts.
-/

namespace LintHub.Json

/-! ## What a shape keeps -/

mutual

/-- The wanted parts of a value. None if a wanted field of a record comes twice, or an array has more items than the
record has fields. -/
def Shape.keep (shape : Shape) : Json → Option Json
  | .arr js => (Shape.keepItems shape 0 js).map .arr
  | .obj fs => (Shape.keepFields shape [] fs).map .obj
  | j => some j

/-- The wanted parts of items from number `i` on. -/
def Shape.keepItems (shape : Shape) (i : Nat) : List Json → Option (List Json)
  | [] => some []
  | j :: rest => do
    let inner ← shape.itemAt i
    let kept ← inner.keep j
    let more ← Shape.keepItems shape (i + 1) rest
    some (kept :: more)

/-- The wanted fields after those of the names in `seen`. -/
def Shape.keepFields (shape : Shape) (seen : List String) : List (String × Json) → Option (List (String × Json))
  | [] => some []
  | (name, j) :: rest =>
    match shape.fieldAt name with
    | none => Shape.keepFields shape seen rest
    | some inner =>
      if !shape.allowsRepeats && seen.contains name then none
      else do
        let kept ← inner.keep j
        let more ← Shape.keepFields shape (name :: seen) rest
        some ((name, kept) :: more)

end

variable {s after rest : List Char}

/-! ## Strings that are passed over -/

theorem length_hexFour? {n : Nat} (h : hexFour? s = some (n, rest)) :
    rest.length + 4 = s.length := by
  unfold hexFour? at h
  split at h
  · simp only [Option.bind_eq_bind, Option.bind_eq_some_iff] at h
    obtain ⟨_, -, _, -, _, -, _, -, heq⟩ := h
    obtain ⟨-, rfl⟩ := Prod.mk.inj (Option.some.inj heq)
    rfl
  · cases h

/-- A string's tail stands at the start of `s` and is passed over. -/
def PassesString (s rest : List Char) : Prop :=
  rest.length < s.length ∧ ∀ fuel, s.length < fuel → skipString? fuel s = some rest

theorem PassesString.of_step (h : PassesString after rest) (hlength : after.length < s.length)
    (hstep : ∀ fuel, skipString? (fuel + 1) s = skipString? fuel after) : PassesString s rest := by
  refine ⟨Nat.lt_trans h.1 hlength, fun fuel hfuel => ?_⟩
  obtain ⟨fuel, rfl⟩ : ∃ m, fuel = m + 1 := ⟨fuel - 1, by omega⟩
  rw [hstep, h.2 fuel (by omega)]

theorem PassesString.hexFour {n : Nat} (h : PassesString after rest) (hfour : hexFour? s = some (n, after)) :
    PassesString ('\\' :: 'u' :: s) rest := by
  have hlength := length_hexFour? hfour
  refine h.of_step (by simp only [List.length_cons]; omega) fun fuel => ?_
  rw [skipString?, if_neg (by decide), if_pos rfl]
  simp only [if_true, hfour, Option.bind_some]

/-- The halves of a pair are passed over one by one. -/
theorem PassesString.unit {d : Char} (h : PassesString after rest) (hunit : escapedUnit? s = some (d, after)) :
    PassesString ('\\' :: 'u' :: s) rest := by
  rw [escapedUnit?, Option.bind_eq_bind, Option.bind_eq_some_iff] at hunit
  obtain ⟨⟨n, more⟩, hfour, hunit⟩ := hunit
  dsimp only at hunit
  split at hunit
  · cases hunit
  · split at hunit
    · split at hunit
      · next low =>
        rw [Option.bind_eq_some_iff] at hunit
        obtain ⟨⟨m, past⟩, hsecond, hunit⟩ := hunit
        dsimp only at hunit
        split at hunit
        · obtain ⟨-, rfl⟩ := Prod.mk.inj (Option.some.inj hunit)
          exact (h.hexFour hsecond).hexFour hfour
        · cases hunit
      · cases hunit
    · obtain ⟨-, rfl⟩ := Prod.mk.inj (Option.some.inj hunit)
      exact h.hexFour hfour

/-- A string that can be read can be passed over. -/
theorem passesString_of_stringTail? {read : Nat} {t : List Char} (h : stringTail? read s = some (t, rest)) :
    PassesString s rest := by
  induction read generalizing s t with
  | zero => cases h
  | succ read ih =>
    rcases stringTail?_cases h with ⟨rfl, -⟩ | ⟨more, d, after, tail, rfl, hunit, htail, -⟩ |
      ⟨e, d, more, tail, rfl, hu, hletter, htail, -⟩ | ⟨c, more, tail, rfl, hquote, hslash, hcontrol, htail, -⟩
    · refine ⟨by simp, fun fuel hfuel => ?_⟩
      obtain ⟨fuel, rfl⟩ : ∃ m, fuel = m + 1 := ⟨fuel - 1, by simp at hfuel; omega⟩
      rw [skipString?.eq_def]
      simp only [if_true]
    · exact (ih htail).unit hunit
    · refine (ih htail).of_step (by simp only [List.length_cons]; omega) fun fuel => ?_
      rw [skipString?, if_neg (by decide), if_pos rfl]
      simp only [if_neg hu, hletter, Option.isSome_some, if_true]
    · refine (ih htail).of_step (by simp) fun fuel => ?_
      rw [skipString?.eq_def]
      simp only [if_neg hquote, if_neg hslash, if_neg hcontrol]

theorem string?_eq_some {t : String} (h : string? s = some (t, rest)) :
    ∃ body, s = '"' :: body ∧ rest.length < body.length ∧ skipString? body.length.succ body = some rest := by
  unfold string? at h
  split at h
  · next body =>
    obtain ⟨⟨cs, after⟩, hbody, heq⟩ := Option.map_eq_some_iff.1 h
    obtain ⟨-, rfl⟩ := Prod.mk.inj heq
    obtain ⟨hshort, hskip⟩ := passesString_of_stringTail? hbody
    exact ⟨body, rfl, hshort, hskip _ (Nat.lt_succ_self _)⟩
  · cases h

/-! ## Numerals -/

theorem length_wholeDigits? {digits : List Char} (h : wholeDigits? s = some (digits, rest)) :
    rest.length ≤ s.length := by
  rw [wholeDigits?] at h
  split at h
  · cases h
  · cases h
  · obtain ⟨-, rfl⟩ := Prod.mk.inj (Option.some.inj h)
    exact (List.dropWhile_suffix _).length_le

theorem length_fraction? {places : Option (List Char)} (h : fraction? s = some (places, rest)) :
    rest.length ≤ s.length := by
  unfold fraction? at h
  split at h
  · split at h
    · cases h
    · obtain ⟨-, rfl⟩ := Prod.mk.inj (Option.some.inj h)
      exact Nat.le_succ_of_le (List.dropWhile_suffix _).length_le
  · obtain ⟨-, rfl⟩ := Prod.mk.inj (Option.some.inj h)
    exact Nat.le_refl _

theorem length_signedDigits? {n : Int} (h : signedDigits? s = some (n, rest)) :
    rest.length ≤ s.length := by
  unfold signedDigits? at h
  split at h
  next negative t hsign =>
  split at h
  · cases h
  · obtain ⟨-, rfl⟩ := Prod.mk.inj (Option.some.inj h)
    refine Nat.le_trans (List.dropWhile_suffix _).length_le ?_
    split at hsign <;> obtain ⟨-, rfl⟩ := Prod.mk.inj hsign <;> simp

theorem length_exponent? {power : Option Int} (h : exponent? s = some (power, rest)) :
    rest.length ≤ s.length := by
  unfold exponent? at h
  split at h
  · split at h
    · obtain ⟨⟨n, after⟩, hsigned, heq⟩ := Option.map_eq_some_iff.1 h
      obtain ⟨-, rfl⟩ := Prod.mk.inj heq
      exact Nat.le_succ_of_le (length_signedDigits? hsigned)
    · obtain ⟨-, rfl⟩ := Prod.mk.inj (Option.some.inj h)
      exact Nat.le_refl _
  · obtain ⟨-, rfl⟩ := Prod.mk.inj (Option.some.inj h)
    exact Nat.le_refl _

theorem length_numeral? {x : Numeral} (h : numeral? s = some (x, rest)) :
    rest.length ≤ s.length := by
  unfold numeral? at h
  split at h
  next negative t hsign =>
  simp only [Option.bind_eq_bind, Option.bind_eq_some_iff] at h
  obtain ⟨⟨digits, u⟩, hdigits, ⟨places, v⟩, hplaces, ⟨power, w⟩, hpower, heq⟩ := h
  obtain ⟨-, rfl⟩ := Prod.mk.inj (Option.some.inj heq)
  refine Nat.le_trans (length_exponent? hpower) (Nat.le_trans (length_fraction? hplaces)
    (Nat.le_trans (length_wholeDigits? hdigits) ?_))
  split at hsign <;> obtain ⟨-, rfl⟩ := Prod.mk.inj hsign <;> simp

/-! ## Items and fields that are read whole -/

/-- An item is read, then more items after a comma, or the end of the array. -/
theorem readItems_cases {reader : Reader Json} {fuel i : Nat} {js : List Json}
    (h : readItems (fun _ => some reader) (fuel + 1) i s = some (js, rest)) :
    ∃ j after tail, reader s = some (j, after) ∧ js = j :: tail ∧
      ((∃ more, skipSpace after = ',' :: more ∧
          readItems (fun _ => some reader) fuel (i + 1) more = some (tail, rest)) ∨
        (skipSpace after = ']' :: rest ∧ tail = [])) := by
  simp only [readItems, Option.bind_eq_bind, Option.bind_some, Option.bind_eq_some_iff] at h
  obtain ⟨⟨j, after⟩, hj, h⟩ := h
  dsimp only at h
  split at h
  · next more hmore =>
    obtain ⟨⟨tail, past⟩, htail, heq⟩ := Option.bind_eq_some_iff.1 h
    obtain ⟨rfl, rfl⟩ := Prod.mk.inj (Option.some.inj heq)
    exact ⟨j, after, tail, hj, rfl, .inl ⟨more, hmore, htail⟩⟩
  · next past hpast =>
    obtain ⟨rfl, rfl⟩ := Prod.mk.inj (Option.some.inj h)
    exact ⟨j, after, [], hj, rfl, .inr ⟨hpast, rfl⟩⟩
  · cases h

/-- A name, a colon and a value are read, then more fields after a comma, or the end of the object. -/
theorem readFields_cases {reader : Reader Json} {fuel : Nat} {seen : List String} {fields : List (String × Json)}
    (h : readFields (fun _ => some reader) true (fuel + 1) seen s = some (fields, rest)) :
    ∃ name after value j past tail, string? (skipSpace s) = some (name, after) ∧ skipSpace after = ':' :: value ∧
      reader value = some (j, past) ∧ fields = (name, j) :: tail ∧
      ((∃ more, skipSpace past = ',' :: more ∧
          readFields (fun _ => some reader) true fuel (name :: seen) more = some (tail, rest)) ∨
        (skipSpace past = '}' :: rest ∧ tail = [])) := by
  simp only [readFields, Option.bind_eq_bind, Option.bind_eq_some_iff, Bool.not_true, Bool.false_and,
    Bool.false_eq_true, if_false] at h
  obtain ⟨⟨name, after⟩, hname, h⟩ := h
  dsimp only at h
  split at h
  · next value hcolon =>
    obtain ⟨⟨j, past⟩, hj, h⟩ := Option.bind_eq_some_iff.1 h
    dsimp only at h
    split at h
    · next more hmore =>
      obtain ⟨⟨tail, past'⟩, htail, heq⟩ := Option.bind_eq_some_iff.1 h
      obtain ⟨rfl, rfl⟩ := Prod.mk.inj (Option.some.inj heq)
      exact ⟨name, after, value, j, past, tail, hname, hcolon, hj, rfl, .inl ⟨more, hmore, htail⟩⟩
    · next past' hpast =>
      obtain ⟨rfl, rfl⟩ := Prod.mk.inj (Option.some.inj h)
      exact ⟨name, after, value, j, past, [], hname, hcolon, hj, rfl, .inr ⟨hpast, rfl⟩⟩
    · cases h
  · cases h

/-! ## Values that are passed over -/

-- A bracket is one character and pays for two calls, of a list and of its first item: hence twice the length.

/-- A value stands at the start of `s` and is passed over. -/
def Passes (s rest : List Char) : Prop :=
  rest.length ≤ s.length ∧ ∀ fuel, 2 * s.length < fuel → skipValue? fuel s = some rest

theorem length_skipSpace (s : List Char) : (skipSpace s).length ≤ s.length := (List.dropWhile_suffix _).length_le

theorem Shape.keep_of_scalar? {j : Json} (shape : Shape) (h : scalar? s = some (j, rest)) :
    shape.keep j = some j := by
  unfold scalar? at h
  split at h
  iterate 3
    obtain ⟨rfl, -⟩ := Prod.mk.inj (Option.some.inj h)
    exact rfl
  · obtain ⟨_, -, heq⟩ := Option.map_eq_some_iff.1 h
    obtain ⟨rfl, -⟩ := Prod.mk.inj heq
    exact rfl
  · obtain ⟨_, -, heq⟩ := Option.map_eq_some_iff.1 h
    obtain ⟨rfl, -⟩ := Prod.mk.inj heq
    exact rfl

theorem number?_eq_some {n : Number} (h : number? s = some (n, rest)) :
    (numeral? s).map (·.2) = some rest := by
  simp only [number?, Option.bind_eq_bind, Option.bind_eq_some_iff] at h
  obtain ⟨⟨x, after⟩, hx, m, -, heq⟩ := h
  obtain ⟨-, rfl⟩ := Prod.mk.inj (Option.some.inj heq)
  rw [hx, Option.map_some]

theorem passes_of_scalar? {j : Json} (h : scalar? (skipSpace s) = some (j, rest))
    (harr : ∀ t, skipSpace s ≠ '[' :: t) (hobj : ∀ t, skipSpace s ≠ '{' :: t) : Passes s rest := by
  have hshort := length_skipSpace s
  have hskip {n fuel : Nat} (hfuel : 2 * n < fuel) : ∃ m, fuel = m + 1 := ⟨fuel - 1, by omega⟩
  unfold scalar? at h
  split at h
  iterate 3
    next t hs =>
      obtain ⟨-, rfl⟩ := Prod.mk.inj (Option.some.inj h)
      rw [hs] at hshort
      simp only [List.length_cons] at hshort
      refine ⟨by omega, fun fuel hfuel => ?_⟩
      obtain ⟨fuel, rfl⟩ := hskip hfuel
      rw [skipValue?, hs]
      rfl
  · next t hs =>
    obtain ⟨⟨u, after⟩, hstring, heq⟩ := Option.map_eq_some_iff.1 h
    obtain ⟨-, rfl⟩ := Prod.mk.inj heq
    obtain ⟨body, hbody, hlength, hbodySkip⟩ := string?_eq_some hstring
    rw [hbody, List.length_cons] at hshort
    refine ⟨by omega, fun fuel hfuel => ?_⟩
    obtain ⟨fuel, rfl⟩ := hskip hfuel
    rw [skipValue?, hbody]
    exact hbodySkip
  · next hnull htrue hfalse hquote =>
    obtain ⟨⟨n, after⟩, hnumber, heq⟩ := Option.map_eq_some_iff.1 h
    obtain ⟨-, rfl⟩ := Prod.mk.inj heq
    have hrest := number?_eq_some hnumber
    obtain ⟨⟨x, after'⟩, hx, hafter⟩ := Option.map_eq_some_iff.1 hrest
    dsimp only at hafter
    subst hafter
    have hlength := length_numeral? hx
    refine ⟨by omega, fun fuel hfuel => ?_⟩
    obtain ⟨fuel, rfl⟩ := hskip hfuel
    rw [skipValue?.eq_def]
    dsimp only
    split
    · next t ht => exact absurd ht (hquote t)
    · next t ht => exact absurd ht (harr t)
    · next t ht => exact absurd ht (hobj t)
    · next t ht => exact absurd ht (hnull t)
    · next t ht => exact absurd ht (htrue t)
    · next t ht => exact absurd ht (hfalse t)
    · exact hrest

/-- Items from `s` on are passed over, up to the end of their array. -/
def PassesItems (s rest : List Char) : Prop :=
  rest.length ≤ s.length ∧ ∀ fuel, 2 * s.length + 1 < fuel → skipItems? fuel s = some rest

/-- Fields from `s` on are passed over, up to the end of their object. -/
def PassesFields (s rest : List Char) : Prop :=
  rest.length ≤ s.length ∧ ∀ fuel, 2 * s.length + 1 < fuel → skipFields? fuel s = some rest

section Passing

variable {depth : Nat} (hvalue : ∀ {s rest : List Char} {j : Json},
  valueAs? depth .whole s = some (j, rest) → Passes s rest)

include hvalue

theorem passesItems_of_readItems {fuel i : Nat} {js : List Json}
    (h : readItems (fun _ => some (valueAs? depth .whole)) fuel i s = some (js, rest)) : PassesItems s rest := by
  induction fuel generalizing i s js with
  | zero => cases h
  | succ fuel ih =>
    obtain ⟨j, after, tail, hj, -, hnext⟩ := readItems_cases h
    obtain ⟨hshort, hskip⟩ := hvalue hj
    have hblank := length_skipSpace after
    obtain ⟨more, hmore, htail⟩ | ⟨hclose, -⟩ := hnext
    · obtain ⟨hshort', hskip'⟩ := ih htail
      rw [hmore, List.length_cons] at hblank
      refine ⟨by omega, fun skip hfuel => ?_⟩
      obtain ⟨skip, rfl⟩ : ∃ m, skip = m + 1 := ⟨skip - 1, by omega⟩
      rw [skipItems?, hskip skip (by omega)]
      simp only [Option.bind_eq_bind, Option.bind_some, hmore]
      exact hskip' skip (by omega)
    · rw [hclose, List.length_cons] at hblank
      refine ⟨by omega, fun skip hfuel => ?_⟩
      obtain ⟨skip, rfl⟩ : ∃ m, skip = m + 1 := ⟨skip - 1, by omega⟩
      rw [skipItems?, hskip skip (by omega)]
      simp only [Option.bind_eq_bind, Option.bind_some, hclose]

theorem passesFields_of_readFields {fuel : Nat} {seen : List String} {fields : List (String × Json)}
    (h : readFields (fun _ => some (valueAs? depth .whole)) true fuel seen s = some (fields, rest)) :
    PassesFields s rest := by
  induction fuel generalizing seen s fields with
  | zero => cases h
  | succ fuel ih =>
    obtain ⟨name, after, value, j, past, tail, hname, hcolon, hj, -, hnext⟩ := readFields_cases h
    obtain ⟨body, hbody, hnameLength, hnameSkip⟩ := string?_eq_some hname
    obtain ⟨hshort, hskip⟩ := hvalue hj
    have hstart := length_skipSpace s
    have hblank := length_skipSpace after
    have hpast := length_skipSpace past
    rw [hbody, List.length_cons] at hstart
    rw [hcolon, List.length_cons] at hblank
    obtain ⟨more, hmore, htail⟩ | ⟨hclose, -⟩ := hnext
    · obtain ⟨hshort', hskip'⟩ := ih htail
      rw [hmore, List.length_cons] at hpast
      refine ⟨by omega, fun skip hfuel => ?_⟩
      obtain ⟨skip, rfl⟩ : ∃ m, skip = m + 1 := ⟨skip - 1, by omega⟩
      rw [skipFields?, hbody]
      simp only [hnameSkip, Option.bind_eq_bind, Option.bind_some, hcolon, hskip skip (by omega), hmore]
      exact hskip' skip (by omega)
    · rw [hclose, List.length_cons] at hpast
      refine ⟨by omega, fun skip hfuel => ?_⟩
      obtain ⟨skip, rfl⟩ : ∃ m, skip = m + 1 := ⟨skip - 1, by omega⟩
      rw [skipFields?, hbody]
      simp only [hnameSkip, Option.bind_eq_bind, Option.bind_some, hcolon, hskip skip (by omega), hclose]

end Passing

/-- Passing over an array, or an object, whose inside is passed over. -/
theorem passes_of_open {t : List Char} {c : Char} (hs : skipSpace s = c :: t)
    (hlength : after.length ≤ t.length)
    (hskip : ∀ fuel, 2 * s.length < fuel + 1 → skipValue? (fuel + 1) s = some after) : Passes s after := by
  have hstart := length_skipSpace s
  rw [hs, List.length_cons] at hstart
  refine ⟨by omega, fun fuel hfuel => ?_⟩
  obtain ⟨fuel, rfl⟩ : ∃ m, fuel = m + 1 := ⟨fuel - 1, by omega⟩
  exact hskip fuel hfuel

/-- A value that can be read can be passed over. -/
theorem passes_of_valueAs? {depth : Nat} {j : Json}
    (h : valueAs? depth .whole s = some (j, rest)) : Passes s rest := by
  induction depth generalizing s rest j with
  | zero =>
    rw [valueAs?.eq_def] at h
    dsimp only at h
    split at h
    · cases h
    · cases h
    · next harr hobj => exact passes_of_scalar? h harr hobj
  | succ depth ih =>
    have hstart := length_skipSpace s
    rw [valueAs?.eq_def] at h
    dsimp only at h
    split at h
    · next t hs =>
      rw [hs, List.length_cons] at hstart
      have hblank := length_skipSpace t
      split at h
      · next after hafter =>
        obtain ⟨-, rfl⟩ := Prod.mk.inj (Option.some.inj h)
        rw [hafter, List.length_cons] at hblank
        refine passes_of_open hs (by omega) fun fuel hfuel => ?_
        rw [skipValue?, hs]
        simp only [hafter]
      · next hinside =>
        obtain ⟨⟨js, after⟩, hitems, heq⟩ := Option.map_eq_some_iff.1 h
        obtain ⟨-, rfl⟩ := Prod.mk.inj heq
        obtain ⟨hshort, hskip⟩ := passesItems_of_readItems ih hitems
        refine passes_of_open hs (Nat.le_trans hshort hblank) fun fuel hfuel => ?_
        rw [skipValue?]
        simp only [hs]
        exact hskip fuel (by omega)
    · next t hs =>
      rw [hs, List.length_cons] at hstart
      have hblank := length_skipSpace t
      split at h
      · next after hafter =>
        obtain ⟨-, rfl⟩ := Prod.mk.inj (Option.some.inj h)
        rw [hafter, List.length_cons] at hblank
        refine passes_of_open hs (by omega) fun fuel hfuel => ?_
        rw [skipValue?, hs]
        simp only [hafter]
      · next hinside =>
        obtain ⟨⟨fields, after⟩, hfields, heq⟩ := Option.map_eq_some_iff.1 h
        obtain ⟨-, rfl⟩ := Prod.mk.inj heq
        obtain ⟨hshort, hskip⟩ := passesFields_of_readFields ih hfields
        refine passes_of_open hs (Nat.le_trans hshort hblank) fun fuel hfuel => ?_
        rw [skipValue?]
        simp only [hs]
        exact hskip fuel (by omega)
    · next harr hobj => exact passes_of_scalar? h harr hobj

theorem skipValue?_of_valueAs? {depth : Nat} {j : Json}
    (h : valueAs? depth .whole s = some (j, rest)) : skipValue? (2 * s.length + 2) s = some rest :=
  (passes_of_valueAs? h).2 _ (by omega)

/-! ## Reading by a shape -/

section Keeping

variable {depth : Nat} (hvalue : ∀ (shape : Shape) {s rest : List Char} {j : Json},
  valueAs? depth .whole s = some (j, rest) → valueAs? depth shape s = (shape.keep j).map (·, rest))

include hvalue

theorem readItems_eq_keepItems (shape : Shape) {fuel i : Nat} {js : List Json}
    (h : readItems (fun _ => some (valueAs? depth .whole)) fuel i s = some (js, rest)) :
    readItems (fun i => (shape.itemAt i).map (valueAs? depth)) fuel i s =
      (shape.keepItems i js).map (·, rest) := by
  induction fuel generalizing i s js with
  | zero => cases h
  | succ fuel ih =>
    obtain ⟨j, after, tail, hj, rfl, hnext⟩ := readItems_cases h
    rw [readItems, Shape.keepItems]
    cases shape.itemAt i with
    | none => rfl
    | some inner =>
      simp only [Option.map_some, Option.bind_eq_bind, Option.bind_some, hvalue inner hj]
      cases inner.keep j with
      | none => rfl
      | some kept =>
        obtain ⟨more, hmore, htail⟩ | ⟨hclose, rfl⟩ := hnext
        · simp only [Option.map_some, Option.bind_some, hmore, ih htail]
          cases shape.keepItems (i + 1) tail <;> rfl
        · simp only [Option.map_some, Option.bind_some, hclose, Shape.keepItems]

theorem readFields_eq_keepFields (shape : Shape) {fuel : Nat} {seen : List String} {fields : List (String × Json)}
    (h : readFields (fun _ => some (valueAs? depth .whole)) true fuel seen s = some (fields, rest))
    (met : List String) :
    readFields (fun name => (shape.fieldAt name).map (valueAs? depth)) shape.allowsRepeats fuel met s =
      (shape.keepFields met fields).map (·, rest) := by
  induction fuel generalizing seen s fields met with
  | zero => cases h
  | succ fuel ih =>
    obtain ⟨name, after, value, j, past, tail, hname, hcolon, hj, rfl, hnext⟩ := readFields_cases h
    rw [readFields, Shape.keepFields]
    simp only [hname, hcolon, Option.bind_eq_bind, Option.bind_some]
    -- The field is left out, or its name is refused, or it is kept as far as `inner` wants it.
    cases shape.fieldAt name with
    | none =>
      simp only [Option.map_none, skipValue?_of_valueAs? hj, Option.bind_some]
      obtain ⟨more, hmore, htail⟩ | ⟨hclose, rfl⟩ := hnext
      · simp only [hmore, ih htail met]
      · simp only [hclose, Shape.keepFields, Option.map_some]
    | some inner =>
      simp only [Option.map_some, hvalue inner hj]
      split
      · rfl
      · cases inner.keep j with
        | none => rfl
        | some kept =>
          obtain ⟨more, hmore, htail⟩ | ⟨hclose, rfl⟩ := hnext
          · simp only [Option.map_some, Option.bind_some, hmore, ih htail (name :: met)]
            cases shape.keepFields (name :: met) tail <;> rfl
          · simp only [Option.map_some, Option.bind_some, hclose, Shape.keepFields]

end Keeping

theorem valueAs?_eq_keep {depth : Nat} (shape : Shape) {j : Json}
    (h : valueAs? depth .whole s = some (j, rest)) :
    valueAs? depth shape s = (shape.keep j).map (·, rest) := by
  induction depth generalizing shape s rest j with
  | zero =>
    rw [valueAs?.eq_def] at h ⊢
    dsimp only at h ⊢
    split at h
    · cases h
    · cases h
    · rw [h, shape.keep_of_scalar? h, Option.map_some]
  | succ depth ih =>
    rw [valueAs?.eq_def] at h ⊢
    dsimp only at h ⊢
    split at h
    · split at h
      · obtain ⟨rfl, rfl⟩ := Prod.mk.inj (Option.some.inj h)
        rfl
      · obtain ⟨⟨js, after⟩, hitems, heq⟩ := Option.map_eq_some_iff.1 h
        obtain ⟨rfl, rfl⟩ := Prod.mk.inj heq
        rw [readItems_eq_keepItems (fun shape => ih shape) shape hitems, Shape.keep]
        cases shape.keepItems 0 js <;> rfl
    · split at h
      · obtain ⟨rfl, rfl⟩ := Prod.mk.inj (Option.some.inj h)
        rfl
      · obtain ⟨⟨fields, after⟩, hfields, heq⟩ := Option.map_eq_some_iff.1 h
        obtain ⟨rfl, rfl⟩ := Prod.mk.inj heq
        rw [readFields_eq_keepFields (fun shape => ih shape) shape hfields [], Shape.keep]
        cases shape.keepFields [] fields <;> rfl
    · rw [h, shape.keep_of_scalar? h, Option.map_some]

/-- Reading by a shape gives the wanted parts of the text's value. -/
theorem parseAs?_eq_keep (shape : Shape) {text : String} {j : Json} (h : parse? text = some j) :
    parseAs? shape text = shape.keep j := by
  unfold parse? parseAs? at h
  split at h
  · next j' rest hread =>
    split at h
    · next hend =>
      obtain rfl := Option.some.inj h
      rw [parseAs?, valueAs?_eq_keep shape hread]
      cases shape.keep j' with
      | none => rfl
      | some kept => simp only [Option.map_some, hend, if_true]
    · cases h
  · cases h

/-! ## Fields that are kept -/

/-- A first field is left out, or kept with its wanted parts. -/
theorem keepFields_cons {shape : Shape} {seen : List String} {name : String} {j : Json}
    {fields kept : List (String × Json)} (h : shape.keepFields seen ((name, j) :: fields) = some kept) :
    (shape.fieldAt name = none ∧ shape.keepFields seen fields = some kept) ∨
      ∃ inner k more, shape.fieldAt name = some inner ∧ inner.keep j = some k ∧
        shape.keepFields (name :: seen) fields = some more ∧ kept = (name, k) :: more := by
  rw [Shape.keepFields] at h
  split at h
  · next hname => exact .inl ⟨hname, h⟩
  · next inner hname =>
    split at h
    · cases h
    · simp only [Option.bind_eq_bind, Option.bind_eq_some_iff] at h
      obtain ⟨k, hk, more, hmore, heq⟩ := h
      exact .inr ⟨inner, k, more, hname, hk, hmore, (Option.some.inj heq).symm⟩

theorem mem_keepFields {shape inner : Shape} {name : String} (hname : shape.fieldAt name = some inner) {j : Json}
    {fields kept : List (String × Json)} {seen : List String} (h : shape.keepFields seen fields = some kept)
    (hmem : (name, j) ∈ fields) : ∃ k, inner.keep j = some k ∧ (name, k) ∈ kept := by
  induction fields generalizing seen kept with
  | nil => cases hmem
  | cons field rest ih =>
    obtain ⟨key, value⟩ := field
    obtain ⟨hkey, hrest⟩ | ⟨inner', k, more, hkey, hk, hrest, rfl⟩ := keepFields_cons h
    · refine ih hrest ((List.mem_cons.1 hmem).resolve_left fun heq => ?_)
      obtain ⟨rfl, -⟩ := Prod.mk.inj heq
      simp [hkey] at hname
    · rcases List.mem_cons.1 hmem with heq | hmem
      · obtain ⟨rfl, rfl⟩ := Prod.mk.inj heq
        obtain rfl := Option.some.inj (hkey.symm.trans hname)
        exact ⟨k, hk, List.mem_cons_self⟩
      · obtain ⟨k', hk', hmem'⟩ := ih hrest hmem
        exact ⟨k', hk', List.mem_cons_of_mem _ hmem'⟩

/-- A wanted field is there with its wanted parts. -/
theorem lookup_keepFields {shape inner : Shape} {name : String} (hname : shape.fieldAt name = some inner)
    {fields kept : List (String × Json)} {seen : List String} (h : shape.keepFields seen fields = some kept) :
    lookup name kept = (lookup name fields).bind inner.keep := by
  induction fields generalizing seen kept with
  | nil =>
    obtain rfl := Option.some.inj h
    rfl
  | cons field rest ih =>
    obtain ⟨key, value⟩ := field
    obtain ⟨hkey, hrest⟩ | ⟨inner', k, more, hkey, hk, hrest, rfl⟩ := keepFields_cons h
    · have hne : key ≠ name := by
        rintro rfl
        simp [hkey] at hname
      rw [ih hrest, lookup_cons, if_neg hne, Option.or_none]
    · by_cases hne : key = name
      · subst hne
        obtain rfl := Option.some.inj (hkey.symm.trans hname)
        rw [lookup_cons, lookup_cons, if_pos rfl, if_pos rfl, ih hrest]
        cases hlookup : lookup key rest with
        | none => exact hk.symm
        | some j =>
          obtain ⟨k', hk', -⟩ := mem_keepFields hname hrest (mem_of_lookup hlookup)
          simp [hk']
      · rw [lookup_cons, lookup_cons, if_neg hne, if_neg hne, Option.or_none, Option.or_none, ih hrest]

end LintHub.Json
