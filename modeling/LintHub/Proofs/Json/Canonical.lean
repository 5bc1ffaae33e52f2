import LintHub.Proofs.Json.Record
import LintHub.Proofs.Table
import Mathlib.Data.List.Induction

/-!
# The canonical form says the same

* `canonical_obj` : the fields of an object become a table.
* `get?_canonical` : a field is there in canonical form.
* `mem_canonicalTable` : every field of the table comes from one of the object.
* `asString?_canonical`, `listOf?_canonical`, `optional?_canonical`, … : what is read from a value is read from its
  canonical form.
-/

namespace LintHub.Json

variable {α : Type}

/-! ## Objects as tables -/

theorem insertField_eq_insert (field : String × Json) (fields : List (String × Json)) :
    insertField field fields = Table.insert fields field.1 field.2 := by
  induction fields with
  | nil => rfl
  | cons head rest ih =>
    cases hcompare : compare field.1 head.1 <;> simp only [insertField, Table.insert, hcompare, ih]

theorem canonicalItems_eq_map (items : List Json) : canonicalItems items = items.map canonical := by
  induction items with
  | nil => rfl
  | cons j rest ih => rw [canonicalItems, ih, List.map_cons]

theorem canonicalFields_eq_map (fields : List (String × Json)) :
    canonicalFields fields = fields.map fun field => (field.1, field.2.canonical) := by
  induction fields with
  | nil => rfl
  | cons field rest ih => rw [canonicalFields, ih, List.map_cons]

/-- The fields of an object in canonical form. -/
def canonicalTable (fields : List (String × Json)) : Table Json :=
  Table.ofList (fields.map fun field => (field.1, field.2.canonical))

theorem canonical_arr (items : List Json) : (arr items).canonical = arr (items.map canonical) := by
  rw [canonical, canonicalItems_eq_map]

theorem canonical_obj (fields : List (String × Json)) : (obj fields).canonical = obj (canonicalTable fields) := by
  rw [canonical, canonicalFields_eq_map, canonicalTable, Table.ofList]
  simp only [insertField_eq_insert]

theorem mem_ofList {pairs : List (String × α)} {e : String × α} (h : e ∈ Table.ofList pairs) : e ∈ pairs := by
  induction pairs using List.reverseRecOn with
  | nil => cases h
  | append_singleton pairs pair ih =>
    rw [Table.ofList, List.foldl_append] at h
    rcases Table.mem_insert h with rfl | h
    · simp
    · exact List.mem_append_left _ (ih h)

theorem mem_canonicalTable {fields : List (String × Json)} {field : String × Json}
    (h : field ∈ canonicalTable fields) : ∃ original ∈ fields, field = (original.1, original.2.canonical) := by
  obtain ⟨original, horiginal, rfl⟩ := List.mem_map.1 (mem_ofList h)
  exact ⟨original, horiginal, rfl⟩

/-! ## Fields -/

theorem lookup_append_singleton (name : String) (fields : List (String × Json)) (field : String × Json) :
    lookup name (fields ++ [field]) = if field.1 = name then some field.2 else lookup name fields := by
  rw [lookup, List.reverse_append, List.reverse_singleton, List.singleton_append]
  by_cases h : field.1 = name
  · rw [if_pos h, List.find?_cons_of_pos (by simpa using h)]
    rfl
  · rw [if_neg h, List.find?_cons_of_neg (by simpa using h)]
    rfl

theorem lookup_eq_get? {t : Table Json} (h : t.Sorted) (name : String) : lookup name t = t.get? name := by
  induction t with
  | nil => rfl
  | cons head rest ih =>
    obtain ⟨hhead, hrest⟩ := List.pairwise_cons.1 h
    obtain ⟨key, j⟩ := head
    rw [Table.get?_cons]
    by_cases hkey : key = name
    · subst hkey
      have hfresh : key ∉ rest.map (·.1) := by
        intro hmem
        obtain ⟨e, he, hname⟩ := List.mem_map.1 hmem
        have hlt := hhead e he
        rw [hname] at hlt
        exact Table.ne_of_compare (by rw [hlt]; decide) rfl
      rw [lookup_cons, lookup_of_notMem hfresh, if_pos rfl, if_pos rfl, Option.none_or]
    · rw [lookup_cons, ih hrest, if_neg hkey, if_neg (Ne.symm hkey), Option.or_none]

/-- The table of fields has the last of each name. -/
theorem get?_ofList (fields : List (String × Json)) (name : String) :
    (Table.ofList fields).get? name = lookup name fields := by
  induction fields using List.reverseRecOn with
  | nil => rfl
  | append_singleton fields field ih =>
    rw [Table.ofList] at ih
    rw [lookup_append_singleton, Table.ofList, List.foldl_append, List.foldl_cons, List.foldl_nil, Table.get?_insert,
      ih]
    by_cases h : field.1 = name
    · rw [if_pos h, if_pos h.symm]
    · rw [if_neg h, if_neg (Ne.symm h)]

theorem lookup_map_canonical (name : String) (fields : List (String × Json)) :
    lookup name (fields.map fun field => (field.1, field.2.canonical)) = (lookup name fields).map canonical := by
  induction fields using List.reverseRecOn with
  | nil => rfl
  | append_singleton fields field ih =>
    rw [List.map_append, List.map_singleton, lookup_append_singleton, lookup_append_singleton, ih]
    split <;> rfl

/-- A field of a value is there in canonical form. -/
theorem get?_canonical (name : String) (j : Json) : j.canonical.get? name = (j.get? name).map canonical := by
  cases j with
  | obj fields =>
    rw [canonical_obj]
    simp only [get?]
    rw [canonicalTable, lookup_eq_get? (Table.sorted_ofList _), get?_ofList, lookup_map_canonical]
  | arr items => rfl
  | _ => rfl

/-! ## Readers -/

theorem asString?_canonical (j : Json) : j.canonical.asString? = j.asString? := by
  cases j <;> simp [canonical, asString?]

theorem asBool?_canonical (j : Json) : j.canonical.asBool? = j.asBool? := by cases j <;> simp [canonical, asBool?]

theorem long?_canonical (j : Json) : j.canonical.long? = j.long? := by cases j <;> simp [canonical, long?, asNat?]

theorem listOf?_canonical {read : Json → Option α} (h : ∀ j, read j.canonical = read j) (j : Json) :
    listOf? read j.canonical = listOf? read j := by
  cases j with
  | arr items =>
    rw [canonical_arr]
    simp only [listOf?, asArray?, Option.bind_some]
    induction items with
    | nil => rfl
    | cons k rest ih => simp only [List.map_cons, List.mapM_cons, h, ih]
  | obj fields => rw [canonical_obj]; rfl
  | _ => rfl

theorem optional?_canonical {read : Json → Option α} (h : ∀ j, read j.canonical = read j) (fallback : α)
    (o : Option Json) : optional? read fallback (o.map canonical) = optional? read fallback o := by
  cases o with
  | none => rfl
  | some j => exact h j

theorem nullable?_canonical {read : Json → Option α} (h : ∀ j, read j.canonical = read j) (o : Option Json) :
    nullable? read (o.map canonical) = nullable? read o := by
  cases o with
  | none => rfl
  | some j =>
    have hread := h j
    cases j with
    | arr items =>
      rw [canonical_arr] at hread
      rw [Option.map_some, canonical_arr]
      exact congrArg (Option.map some) hread
    | obj fields =>
      rw [canonical_obj] at hread
      rw [Option.map_some, canonical_obj]
      exact congrArg (Option.map some) hread
    | _ => rfl

end LintHub.Json
