import LintHub.Json.Record
import LintHub.Proofs.Json.Reading

/-!
# Records are read back

* `fits_nat`, `fits_str`, `fits_arr_whole`, … : values that a reader wants in full.
* `lookup_of_mem` : a field of an object without repeated names is found by its name.
* `word?_nat`, `nullable?_map_str`, `mapM_map_eq_some` : what is written for a number, an optional text or a list is
  read back.
-/

namespace LintHub.Json

variable {α β γ : Type}

theorem fits_nat (depth : Nat) (shape : Shape) {n : Nat} (h : n < 2 ^ 64) : Fits depth shape (.nat n) := by
  simp only [nat, Fits]
  omega

theorem fits_str (depth : Nat) (shape : Shape) (s : String) : Fits depth shape (.str s) := by simp only [Fits]

theorem fits_bool (depth : Nat) (shape : Shape) (b : Bool) : Fits depth shape (.bool b) := by simp only [Fits]

theorem fits_arr_whole {depth : Nat} {items : List Json} (h : ∀ j ∈ items, Fits depth .whole j) :
    Fits (depth + 1) .whole (.arr items) := by
  rw [Fits]
  exact fitsItems_of_itemAt (fun _ => rfl) h 0

theorem fits_obj_whole {depth : Nat} {fields : List (String × Json)}
    (h : ∀ field ∈ fields, Fits depth .whole field.2) : Fits (depth + 1) .whole (.obj fields) := by
  rw [Fits]
  exact ⟨fitsFields_of_fieldAt (fun _ => rfl) h, .inl rfl⟩

theorem word?_nat (n : UInt32) : word? (.nat n.toNat) = some n := by
  have := n.toNat_lt
  simp [word?, nat, asNat?, this]

theorem long?_nat (n : UInt64) : long? (.nat n.toNat) = some n := by
  have := n.toNat_lt
  simp [long?, nat, asNat?, this]

theorem mem_fieldOf {name : String} {o : Option String} {field : String × Json} :
    field ∈ fieldOf name o ↔ ∃ s, o = some s ∧ field = (name, .str s) := by
  cases o <;> simp [fieldOf]

theorem mem_names_fieldOf {name key : String} {o : Option String} :
    key ∈ (fieldOf name o).map (·.1) ↔ o.isSome = true ∧ key = name := by
  cases o <;> simp [fieldOf]

theorem nullable?_map_str (o : Option String) : nullable? asString? (o.map .str) = some o := by
  cases o <;> rfl

/-- A field of an object without repeated names is found. -/
theorem lookup_of_mem {fields : List (String × Json)} {name : String} {j : Json}
    (hnodup : (fields.map (·.1)).Nodup) (h : (name, j) ∈ fields) : lookup name fields = some j := by
  have hfind {l : List (String × Json)} (hl : (l.map (·.1)).Nodup) (hmem : (name, j) ∈ l) :
      l.find? (fun field => field.1 == name) = some (name, j) := by
    induction l with
    | nil => cases hmem
    | cons field l ih =>
      rw [List.map_cons, List.nodup_cons] at hl
      rcases List.mem_cons.1 hmem with rfl | hmem
      · simp
      · have hne : field.1 ≠ name := by
          rintro rfl
          exact hl.1 (List.mem_map.2 ⟨_, hmem, rfl⟩)
        rw [List.find?_cons_of_neg (by simpa using hne), ih hl.2 hmem]
  have hreverse : (fields.reverse.map (·.1)).Nodup := by
    rw [List.map_reverse]
    exact List.pairwise_reverse.2 (hnodup.imp Ne.symm)
  rw [lookup, hfind hreverse (List.mem_reverse.2 h),
    Option.map_some]

theorem lookup_of_notMem {fields : List (String × Json)} {name : String} (h : name ∉ fields.map (·.1)) :
    lookup name fields = none := by
  rw [lookup, List.find?_eq_none.2, Option.map_none]
  intro field hfield heq
  refine h (List.mem_map.2 ⟨field, List.mem_reverse.1 hfield, ?_⟩)
  simpa using heq

theorem lookup_append (name : String) (fields more : List (String × Json)) :
    lookup name (fields ++ more) = (lookup name more).or (lookup name fields) := by
  rw [lookup, List.reverse_append, List.find?_append, Option.map_or]
  rfl

theorem lookup_cons (name key : String) (j : Json) (fields : List (String × Json)) :
    lookup name ((key, j) :: fields) = (lookup name fields).or (if key = name then some j else none) := by
  rw [← List.singleton_append, lookup_append]
  by_cases h : key = name
  · simp [lookup, h]
  · simp [lookup, h]

theorem lookup_fieldOf (name key : String) (o : Option String) :
    lookup name (fieldOf key o) = if key = name then o.map .str else none := by
  cases o with
  | none => simp [fieldOf, lookup]
  | some s =>
    by_cases h : key = name
    · simp [fieldOf, lookup, h]
    · simp [fieldOf, lookup, h]

theorem mem_of_lookup {fields : List (String × Json)} {name : String} {j : Json} (h : lookup name fields = some j) :
    (name, j) ∈ fields := by
  obtain ⟨⟨key, value⟩, hfind, rfl⟩ := Option.map_eq_some_iff.1 h
  obtain rfl : key = name := by simpa using List.find?_some hfind
  exact List.mem_reverse.1 (List.mem_of_find?_eq_some hfind)

/-- A list that is written item by item is read item by item. -/
theorem mapM_map_eq_map {write : α → β} {read : β → Option γ} {view : α → γ} {as : List α}
    (h : ∀ a ∈ as, read (write a) = some (view a)) : (as.map write).mapM read = some (as.map view) := by
  induction as with
  | nil => rfl
  | cons a as ih => simp [h a (by simp), ih fun b hb => h b (by simp [hb])]

theorem mapM_map_eq_some {write : α → β} {read : β → Option α} {as : List α}
    (h : ∀ a ∈ as, read (write a) = some a) : (as.map write).mapM read = some as := by
  rw [mapM_map_eq_map h, List.map_id']

/-- What a list of reads answers comes from the items. -/
theorem read_of_mapM {read : α → Option β} {as : List α} {bs : List β}
    (h : as.mapM read = some bs) {a : α} (ha : a ∈ as) : ∃ b, read a = some b := by
  induction as generalizing bs with
  | nil => cases ha
  | cons head rest ih =>
    simp only [List.mapM_cons, Option.bind_eq_bind, Option.bind_eq_some_iff] at h
    obtain ⟨b, hb, more, hmore, -⟩ := h
    rcases List.mem_cons.1 ha with rfl | ha
    · exact ⟨b, hb⟩
    · exact ih hmore ha

theorem mem_of_mapM {read : α → Option β} {as : List α} {bs : List β} (h : as.mapM read = some bs) {b : β}
    (hb : b ∈ bs) : ∃ a ∈ as, read a = some b := by
  induction as generalizing bs with
  | nil =>
    obtain rfl := Option.some.inj h
    cases hb
  | cons head rest ih =>
    simp only [List.mapM_cons, Option.bind_eq_bind, Option.bind_eq_some_iff] at h
    obtain ⟨first, hfirst, more, hmore, hbs⟩ := h
    obtain rfl := Option.some.inj hbs
    rcases List.mem_cons.1 hb with rfl | hb
    · exact ⟨head, List.mem_cons_self, hfirst⟩
    · obtain ⟨a, ha, hread⟩ := ih hmore hb
      exact ⟨a, List.mem_cons_of_mem _ ha, hread⟩

end LintHub.Json
