import LintHub.Proofs.Json.Head
import LintHub.Proofs.Report.LogLines
import LintHub.Proofs.Report.Printed

/-!
# The first value of a report

A report of issues is the first value of its text, and an issue is described by what stands under certain names.

* `Issues.described` : the finding of an issue. `Issues.finding?_eq` : the reader finds the same.
* `Issues.asNat?_of_value?` : which numerals count as lines and columns.
* `Issues.findings_firstValue` : a whole report, whatever follows it.
-/

namespace LintHub

namespace Json

theorem isSome_lookup (name : String) (fields : List (String × Json)) :
    (lookup name fields).isSome = fields.any fun field => field.1 == name := by
  rw [lookup, Option.isSome_map, List.isSome_find?, List.any_reverse]

end Json

namespace Issues

/-! ## What an issue says -/

/-- An object with a type or a rule. -/
def isIssue : Json → Bool
  | .obj fields => (fields.any fun field => field.1 == "type") || fields.any fun field => field.1 == "check_name"
  | _ => false

/-- What stands under these names, one inside of the other. -/
def at? (j : Json) (names : List String) : Option Json := names.foldlM (fun j name => j.get? name) j

/-- The string that stands there, or the empty one. -/
def textAt (j : Json) (names : List String) : String := ((at? j names).bind Json.asString?).getD ""

/-- A line or a column: one if there is none, and the nearest one that there can be if it is too small or too large. -/
def toWord (n : Option Nat) : UInt32 := UInt32.ofNat (n.elim 1 fun n => max 1 (min n 0xFFFFFFFF))

/-- The line or the column that stands under the first of these names under which a natural number stands. -/
def wordAt (j : Json) (places : List (List String)) : UInt32 :=
  toWord (places.findSome? fun names => (at? j names).bind Json.asNat?)

/-- Where a line may stand. -/
def linePlaces : List (List String) :=
  [["location", "lines", "begin"], ["location", "lines", "begin", "line"], ["location", "positions", "begin", "line"]]

/-- Where a column may stand. -/
def columnPlaces : List (List String) :=
  [["location", "positions", "begin", "column"], ["location", "lines", "begin", "column"]]

/-- The finding that an issue describes. -/
def described (root : Path) (tool : Tool) (issue : Json) : Finding :=
  let plain := Finding.new (root.resolve (textAt issue ["location", "path"])) (textAt issue ["check_name"])
    (textAt issue ["description"]) tool
  { plain with
    line := wordAt issue linePlaces
    column := wordAt issue columnPlaces
    severity := .ofIssue (textAt issue ["severity"])
    page := (url? issue).or plain.page }

theorem isIssue_eq (issue : Json) :
    isIssue issue = !((issue.get? "type").isNone && (issue.get? "check_name").isNone) := by
  cases issue with
  | obj fields =>
    rw [isIssue, Json.get?, Json.get?, ← Option.not_isSome, ← Option.not_isSome, Json.isSome_lookup,
      Json.isSome_lookup, ← Bool.not_or, Bool.not_not]
  | _ => rfl

theorem at?_cons (j : Json) (name : String) (names : List String) :
    at? j (name :: names) = (j.get? name).bind fun k => at? k names := List.foldlM_cons

theorem at?_nil (j : Json) : at? j [] = some j := rfl

theorem textAt_singleton (j : Json) (name : String) : textAt j [name] = (j.stringField? name).getD "" := by
  rw [textAt, at?_cons, Json.stringField?, Option.bind_assoc]
  rfl

theorem fromOne_clamp (n : Option Nat) : Finding.fromOne (clamp n) = toWord n := by
  cases n with
  | none => rfl
  | some n =>
    apply UInt32.toNat_inj.1
    have hword : (toWord (some n)).toNat = max 1 (min n 0xFFFFFFFF) := by
      rw [toWord, Option.elim_some, UInt32.toNat_ofNat_of_lt']
      show max 1 (min n 0xFFFFFFFF) < 4294967296
      omega
    rw [hword, clamp, Option.elim_some, Finding.toNat_fromOne, Text.toNat_clampWord]

theorem findSome?_cons_eq_or {α β : Type} (f : α → Option β) (a : α) (as : List α) :
    (a :: as).findSome? f = (f a).or (as.findSome? f) := by
  rw [List.findSome?_cons]
  cases f a <;> rfl

/-- The field `lines` gives the line before `positions` does, and the column after it. -/
theorem place_eq (location : Json) :
    place location =
      (clamp ([["lines", "begin"], ["lines", "begin", "line"], ["positions", "begin", "line"]].findSome? fun names =>
        (at? location names).bind Json.asNat?),
      clamp ([["positions", "begin", "column"], ["lines", "begin", "column"]].findSome? fun names =>
        (at? location names).bind Json.asNat?)) := by
  have hbegin (name : String) : at? location [name, "begin"] = begin? name location := by
    simp [begin?, at?_cons, at?_nil]
  have hnumber (name key : String) :
      (at? location [name, "begin", key]).bind Json.asNat? = (begin? name location).bind (number? key) := by
    simp only [begin?, at?_cons, at?_nil, Option.bind_assoc, Option.bind_some]
    rfl
  simp only [findSome?_cons_eq_or, List.findSome?_nil, Option.or_none, hbegin, hnumber, place]
  cases begin? "lines" location with
  | none => rfl
  | some start => simp only [Option.bind_some, Option.or_assoc]

theorem fromOne_place (issue : Json) :
    Finding.fromOne ((issue.get? "location").elim (1, 1) place).1 = wordAt issue linePlaces ∧
      Finding.fromOne ((issue.get? "location").elim (1, 1) place).2 = wordAt issue columnPlaces := by
  cases hlocation : issue.get? "location" with
  | none =>
    have hnone (names : List String) : at? issue ("location" :: names) = none := by
      rw [at?_cons, hlocation, Option.bind_none]
    simp only [wordAt, linePlaces, columnPlaces, findSome?_cons_eq_or, List.findSome?_nil, hnone, Option.bind_none]
    decide
  | some location =>
    have hsome (names : List String) : at? issue ("location" :: names) = at? location names := by
      rw [at?_cons, hlocation, Option.bind_some]
    rw [Option.elim_some, place_eq, fromOne_clamp, fromOne_clamp]
    simp only [wordAt, linePlaces, columnPlaces, findSome?_cons_eq_or, List.findSome?_nil, hsome, and_self]

/-- An issue is described, and nothing else is. -/
theorem finding?_eq (root : Path) (tool : Tool) (issue : Json) :
    finding? root tool issue = if isIssue issue then some (described root tool issue) else none := by
  obtain ⟨hline, hcolumn⟩ := fromOne_place issue
  have hpath : textAt issue ["location", "path"] =
      ((issue.get? "location").bind (Json.stringField? "path")).getD "" := by
    simp only [textAt, at?_cons, at?_nil, Option.bind_assoc, Option.bind_some]
    rfl
  rw [finding?, isIssue_eq]
  cases hissue : (issue.get? "type").isNone && (issue.get? "check_name").isNone with
  | true => rfl
  | false =>
    simp only [Bool.false_eq_true, if_false, Bool.not_false, if_true, described, textAt_singleton, hpath, ← hline,
      ← hcolumn, url?]
    generalize Finding.new _ _ _ _ = plain
    generalize Option.elim _ _ _ = position
    cases issue.stringField? "url" with
    | none => rfl
    | some url =>
      by_cases hurl : url = ""
      · simp [hurl, Finding.ranked, Finding.placed, Option.filter_some_neg]
      · simp [hurl, Finding.ranked, Finding.placed, Option.filter_some_pos]

theorem filterMap_finding? (root : Path) (tool : Tool) (items : List Json) :
    items.filterMap (finding? root tool) = (items.filter isIssue).map (described root tool) := by
  rw [← List.filterMap_eq_filter, List.map_filterMap]
  congr 1
  funext issue
  rw [finding?_eq, Option.guard]
  split <;> rfl

/-! ## Numbers -/

/-- A numeral without sign, point and exponent. -/
def isPlain (x : Json.Numeral) : Bool := !x.negative && x.places.isNone && x.power.isNone

theorem asNat?_of_value? {x : Json.Numeral} {n : Number} (h : x.value? = some n) :
    (Json.num n).asNat? =
      if isPlain x = true ∧ Text.ofDigits x.digits < 2 ^ 64 then some (Text.ofDigits x.digits) else none := by
  obtain ⟨negative, digits, places, power⟩ := x
  unfold Json.Numeral.value? at h
  dsimp only at h ⊢
  split at h
  · split at h
    · next hwhole =>
      obtain rfl := Option.some.inj h
      simp only [Bool.and_eq_true, Bool.not_eq_true', decide_eq_true_eq] at hwhole
      have hfits : Text.ofDigits digits < 18446744073709551616 := by omega
      simp [Json.asNat?, isPlain, hwhole.1, hfits]
    · next hwhole =>
      simp only [Bool.and_eq_true, Bool.not_eq_true', decide_eq_true_eq] at hwhole
      have hnot : ¬ (negative = false ∧ Text.ofDigits digits < 2 ^ 64) := fun h => hwhole ⟨h.1, by omega⟩
      split at h
      · next hnegative =>
        simp only [Bool.and_eq_true, decide_eq_true_eq] at hnegative
        obtain rfl := Option.some.inj h
        have hpos : Text.ofDigits digits ≠ 0 := by omega
        simp [Json.asNat?, isPlain, hnegative.1.1, hpos]
      · obtain ⟨d, -, rfl⟩ := Option.map_eq_some_iff.1 h
        simpa [Json.asNat?, isPlain] using hnot
  · next hparts =>
    obtain ⟨d, -, rfl⟩ := Option.map_eq_some_iff.1 h
    have hplain : isPlain ⟨negative, digits, places, power⟩ = false := by
      cases places with
      | some _ => simp [isPlain]
      | none => cases power with
        | some _ => simp [isPlain]
        | none => exact absurd rfl (hparts rfl)
    simp [Json.asNat?, hplain]

/-! ## Reports -/

theorem inkLines_of_blank {s : List Char} (h : ∀ c ∈ s, Text.isBlank c = true) : Columns.inkLines s = [] := by
  induction s using Text.lines_induction with
  | last l hl =>
    rw [Columns.inkLines_of_notMem hl, Text.trim, Text.trimStart_eq_nil.2 h]
    rfl
  | feed l s hl ih =>
    have hline : Text.trim l = [] := by
      rw [Text.trim, Text.trimStart_eq_nil.2 fun c hc => h c (by simp [hc])]
      rfl
    rw [Columns.inkLines_append_feed s hl, ih fun c hc => h c (by simp [hc]), Columns.inkLines_of_notMem hl, hline]
    rfl

/-- A report is its first value, whatever follows it: an array gives a finding for each of its issues, in order, and
anything else is read in columns. A numeral counts as a line or a column if it is natural. One of more than 64 bits counts
as none, so that the place is the first one, and not the last one that there can be. -/
theorem findings_firstValue (root : Path) (tool : Tool) :
    (∀ s items rest, Json.valueAs? Json.maxDepth .whole s = some (.arr items, rest) →
      ∃ head, s = head ++ rest ∧
        ∀ t, findings root tool (head ++ t) = (items.filter isIssue).map (described root tool)) ∧
    (∀ s, (∀ items rest, Json.valueAs? Json.maxDepth .whole s ≠ some (.arr items, rest)) →
      findings root tool s = Columns.findings root tool s) ∧
    (∀ s, (∀ c ∈ s, Text.isBlank c = true) → findings root tool s = []) ∧
    (∀ j : Json, (∀ n, j ≠ .num n) → j.asNat? = none) ∧
    ∀ depth s x after j rest, Json.numeral? s = some (x, after) → Json.valueAs? depth .whole s = some (j, rest) →
      (j.asNat? = if isPlain x = true ∧ Text.ofDigits x.digits < 2 ^ 64 then some (Text.ofDigits x.digits) else none) ∧
      (isPlain x = true →
        (toWord j.asNat? = toWord (some (Text.ofDigits x.digits)) ↔ Text.ofDigits x.digits < 2 ^ 64)) := by
  refine ⟨?_, ?_, ?_, ?_, ?_⟩
  · intro s items rest h
    obtain ⟨inside, hs⟩ := Json.skipSpace_of_valueAs?_arr h
    obtain ⟨head, heq, -, hhead⟩ := Json.exists_valueAs?_of_bracket Json.exists_valueAs? hs h
    refine ⟨head, heq, fun t => ?_⟩
    rw [findings, Json.maxDepth, hhead t]
    exact filterMap_finding? root tool items
  · intro s h
    unfold findings
    split
    · next items rest hread => exact absurd hread (h items rest)
    · rfl
  · intro s h
    have hcolumns : Columns.findings root tool s = [] := by
      rw [Columns.findings, inkLines_of_blank h]
      rfl
    unfold findings
    split
    · next items rest hread =>
      obtain ⟨inside, hs⟩ := Json.skipSpace_of_valueAs?_arr hread
      obtain ⟨blanks, rfl, -, -⟩ := Json.exists_skipSpace hs
      exact absurd (h '[' (by simp)) (by decide)
    · exact hcolumns
  · intro j h
    cases j with
    | num n => exact absurd rfl (h n)
    | _ => rfl
  · intro depth s x after j rest hx hj
    rw [Json.valueAs?_of_numeral? depth .whole hx] at hj
    obtain ⟨n, hn, heq⟩ := Option.map_eq_some_iff.1 hj
    obtain ⟨rfl, rfl⟩ := Prod.mk.inj heq
    have hnat := asNat?_of_value? hn
    refine ⟨hnat, fun hplain => ?_⟩
    rw [hnat]
    by_cases hfits : Text.ofDigits x.digits < 2 ^ 64
    · simp only [hplain, hfits, and_self, if_true]
    · have hlarge : min (Text.ofDigits x.digits) 0xFFFFFFFF = 0xFFFFFFFF := by omega
      simp only [hfits, and_false, if_false, iff_false, toWord, Option.elim_none, Option.elim_some, hlarge]
      decide

/-- An issue whose line is zero and whose column does not fit 32 bits, between a number and any other text. -/
theorem findings_firstValue_between :
    (∀ t, findings ⟨"/w"⟩ .ansibleLint ("[7,\x7b\"type\":1,\"location\":\x7b\"lines\":\x7b\"begin\":
        \x7b\"line\":0,\"column\":5000000000\x7d\x7d\x7d\x7d]".toList ++ t) =
      [described ⟨"/w"⟩ .ansibleLint (.obj [("type", .nat 1), ("location", .obj [("lines", .obj [("begin",
        .obj [("line", .nat 0), ("column", .nat 5000000000)])])])])]) ∧
    findings ⟨"/w"⟩ .ansibleLint "7[]".toList = Columns.findings ⟨"/w"⟩ .ansibleLint "7[]".toList ∧
    findings ⟨"/w"⟩ .ansibleLint " \n".toList = [] ∧
    (Json.str "2").asNat? = none ∧
    (Json.nat 5000000000).asNat? = some 5000000000 := by
  obtain ⟨harray, hother, hblank, hnone, hnumeral⟩ := findings_firstValue ⟨"/w"⟩ .ansibleLint
  refine ⟨fun t => ?_, ?_, ?_, ?_, ?_⟩
  · have hread : Json.valueAs? Json.maxDepth .whole "[7,\x7b\"type\":1,\"location\":\x7b\"lines\":\x7b\"begin\":
        \x7b\"line\":0,\"column\":5000000000\x7d\x7d\x7d\x7d]".toList =
        some (.arr [.nat 7, .obj [("type", .nat 1), ("location", .obj [("lines", .obj [("begin",
          .obj [("line", .nat 0), ("column", .nat 5000000000)])])])]], []) := by rfl
    obtain ⟨head, hs, hhead⟩ := harray _ _ _ hread
    rw [List.append_nil] at hs
    rw [hs, hhead t]
    rfl
  · apply hother
    intro items rest h
    have hseven : Json.valueAs? Json.maxDepth .whole "7[]".toList = some (.nat 7, "[]".toList) := by rfl
    rw [hseven] at h
    cases h
  · exact hblank _ (List.all_eq_true.1 rfl)
  · exact hnone _ (by simp)
  · have hread : Json.valueAs? 0 .whole "5000000000".toList = some (.nat 5000000000, []) := by rfl
    have hparts : Json.numeral? "5000000000".toList = some (⟨false, "5000000000".toList, none, none⟩, []) := by rfl
    rw [(hnumeral _ _ _ _ _ _ hparts hread).1]
    decide

end Issues

end LintHub
