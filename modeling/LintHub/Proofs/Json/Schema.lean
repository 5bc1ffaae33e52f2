import LintHub.Json.Schema
import LintHub.Proofs.Json.Canonical

/-!
# What schemas accept

* `Schema.Accepts` : the documents that a schema allows.
* `Schema.check_eq_ok_iff` : the check finds no violation exactly in these.
* `Schema.Accepts.canonical` : the canonical form of an accepted document is accepted.
-/

namespace LintHub.Schema

/-- The documents that a schema allows. -/
inductive Accepts : Schema → Json → Prop where
  | string (s : String) : Accepts .string (.str s)
  | boolean (b : Bool) : Accepts .boolean (.bool b)
  | count {n : Number} : isWhole n = true → isBelowOne n = false → Accepts .count (.num n)
  | noString : Accepts .nullableString .null
  | someString (s : String) : Accepts .nullableString (.str s)
  | noChoice (choices : List String) : Accepts (.nullableChoice choices) .null
  | someChoice {choices : List String} {s : String} : s ∈ choices → Accepts (.nullableChoice choices) (.str s)
  | array {item : Schema} {items : List Json} : (∀ j ∈ items, Accepts item j) → Accepts (.array item) (.arr items)
  | object {properties : List (String × Schema)} {fields : List (String × Json)} :
    (∀ field ∈ fields, (property? properties field.1).isSome) →
    (∀ field ∈ fields, ∀ schema, property? properties field.1 = some schema → Accepts schema field.2) →
    Accepts (.object properties) (.obj fields)

/-! ## The check -/

theorem checkItems_eq_ok_iff {item : Schema} {items : List Json} (place : Nat) :
    checkItems item place items = .ok () ↔ ∀ j ∈ items, check item j = .ok () := by
  induction items generalizing place with
  | nil => simp [checkItems]
  | cons j rest ih =>
    rw [checkItems, List.forall_mem_cons]
    cases h : check item j with
    | ok _ => simp [ih]
    | error v => simp

theorem checkFields_eq_ok_iff {properties : List (String × Schema)} {fields : List (String × Json)} :
    checkFields properties fields = .ok () ↔
      (∀ field ∈ fields, (property? properties field.1).isSome) ∧
        ∀ field ∈ fields, ∀ schema, property? properties field.1 = some schema → check schema field.2 = .ok () := by
  induction fields with
  | nil => simp [checkFields]
  | cons field rest ih =>
    rw [checkFields, List.forall_mem_cons, List.forall_mem_cons]
    cases hname : property? properties field.1 with
    | none => simp
    | some schema =>
      cases h : check schema field.2 with
      | ok _ => simp [ih, h]
      | error v => simp [h]

theorem accepts_of_checkScalar {schema : Schema} {j : Json} (h : checkScalar schema j = .ok ()) :
    Accepts schema j := by
  unfold checkScalar at h
  split at h
  case h_1 => exact .string _
  case h_3 => exact .boolean _
  case h_5 n =>
    split at h
    · cases h
    · next hwhole =>
      split at h
      · cases h
      · next hone => exact .count (by simpa using hwhole) (by simpa using hone)
  case h_7 => exact .someString _
  case h_8 => exact .noString
  case h_10 choices s =>
    split at h
    · next hs => exact .someChoice (List.contains_iff_mem.1 hs)
    · cases h
  case h_11 => exact .noChoice _
  all_goals cases h

theorem check_eq_ok_iff {schema : Schema} {j : Json} : check schema j = .ok () ↔ Accepts schema j := by
  induction j using Json.induction generalizing schema with
  | arr items ih =>
    cases schema with
    | array item =>
      rw [check, checkItems_eq_ok_iff]
      constructor
      · exact fun h => .array fun j hj => (ih j hj).1 (h j hj)
      · rintro (_ | _ | _ | _ | _ | _ | _ | h)
        exact fun j hj => (ih j hj).2 (h j hj)
    | _ => exact ⟨fun h => accepts_of_checkScalar (by simpa only [check] using h), fun h => nomatch h⟩
  | obj fields ih =>
    cases schema with
    | object properties =>
      rw [check, checkFields_eq_ok_iff]
      constructor
      · exact fun ⟨hnames, h⟩ => .object hnames fun field hfield schema hschema =>
          (ih field hfield).1 (h field hfield schema hschema)
      · intro h
        cases h with
        | object hnames h =>
          exact ⟨hnames, fun field hfield schema hschema => (ih field hfield).2 (h field hfield schema hschema)⟩
    | _ => exact ⟨fun h => accepts_of_checkScalar (by simpa only [check] using h), fun h => nomatch h⟩
  | _ =>
    refine ⟨fun h => accepts_of_checkScalar (by simpa only [check] using h), fun h => ?_⟩
    cases h <;> simp_all [check, checkScalar]

/-! ## Canonical form -/

theorem Accepts.canonical {schema : Schema} {j : Json} (h : Accepts schema j) : Accepts schema j.canonical := by
  induction h with
  | array _ ih =>
    rw [Json.canonical_arr]
    refine .array fun j hj => ?_
    obtain ⟨k, hk, rfl⟩ := List.mem_map.1 hj
    exact ih k hk
  | object hnames _ ih =>
    rw [Json.canonical_obj]
    refine .object (fun field hfield => ?_) fun field hfield schema hschema => ?_
    · obtain ⟨original, horiginal, rfl⟩ := Json.mem_canonicalTable hfield
      exact hnames original horiginal
    · obtain ⟨original, horiginal, rfl⟩ := Json.mem_canonicalTable hfield
      exact ih original horiginal schema hschema
  | string s => exact .string s
  | boolean b => exact .boolean b
  | count hwhole hone => exact .count hwhole hone
  | noString => exact .noString
  | someString s => exact .someString s
  | noChoice choices => exact .noChoice choices
  | someChoice hs => exact .someChoice hs

/-! ## Fields -/

/-- An object is accepted if its schema knows each field and accepts it. -/
theorem Accepts.object_of_forall {properties : List (String × Schema)} {fields : List (String × Json)}
    (h : ∀ field ∈ fields, ∃ schema, property? properties field.1 = some schema ∧ Accepts schema field.2) :
    Accepts (.object properties) (.obj fields) := by
  refine .object (fun field hfield => ?_) fun field hfield schema hschema => ?_
  · obtain ⟨schema, hschema, -⟩ := h field hfield
    exact Option.isSome_of_eq_some hschema
  · obtain ⟨known, hknown, haccepts⟩ := h field hfield
    obtain rfl := Option.some.inj (hknown.symm.trans hschema)
    exact haccepts

/-- A field of an accepted object is accepted by the schema of its name. -/
theorem Accepts.get? {properties : List (String × Schema)} {j k : Json} {name : String}
    (h : Accepts (.object properties) j) (hname : j.get? name = some k) :
    ∃ schema, property? properties name = some schema ∧ Accepts schema k := by
  cases h with
  | @object _ fields hnames h =>
    have hmem : (name, k) ∈ fields := Json.mem_of_lookup hname
    obtain ⟨schema, hschema⟩ := Option.isSome_iff_exists.1 (hnames _ hmem)
    exact ⟨schema, hschema, h _ hmem schema hschema⟩

end LintHub.Schema
