import LintHub.Path.Basic
import LintHub.Table

/-!
# Laws of tables

* `Table.get?_insert`, `Table.get?_erase` : the view after a change. `Table.get?_insert_path` and `Table.get?_erase_path`
  are of tables whose names are the texts of paths.
* `Table.get?_map`, `Table.insert_map` : tables whose values are changed one by one.
* `Table.Sorted` : the names increase. `Table.sorted_ofList` says that every built table is sorted, and
  `Table.ofList_eq_self` that a sorted table is built from its own pairs.
* `Table.eq_of_get?_eq` : sorted tables with the same view are equal.
-/

namespace LintHub.Table

variable {α : Type}

/-! ## The view -/

theorem ne_of_compare {a b : String} (h : compare a b ≠ .eq) : a ≠ b := by
  rintro rfl
  exact h Std.ReflOrd.compare_self

theorem get?_cons (head : String × α) (rest : Table α) (key : String) :
    get? (head :: rest) key = if key = head.1 then some head.2 else rest.get? key := by
  rw [get?, List.lookup_cons, get?]
  by_cases h : key = head.1
  · simp [h]
  · simp [h, beq_eq_false_iff_ne.2 h]

theorem mem_of_get? {t : Table α} {name : String} {a : α} (h : t.get? name = some a) : (name, a) ∈ t := by
  induction t with
  | nil => cases h
  | cons head rest ih =>
    rw [get?_cons] at h
    split at h
    · next hname =>
      rw [hname, ← Option.some.inj h]
      exact List.mem_cons_self
    · exact List.mem_cons_of_mem _ (ih h)

theorem get?_insert (t : Table α) (name : String) (a : α) (key : String) :
    (t.insert name a).get? key = if key = name then some a else t.get? key := by
  induction t with
  | nil => rw [Table.insert, get?_cons]
  | cons head rest ih =>
    rw [Table.insert]
    split
    · rw [get?_cons]
    · next heq =>
      obtain rfl : name = head.1 := Std.LawfulEqOrd.eq_of_compare heq
      rw [get?_cons, get?_cons]
      by_cases h : key = head.1
      · simp [h]
      · simp [h]
    · next hgt =>
      have hne : name ≠ head.1 := ne_of_compare (by rw [hgt]; decide)
      rw [get?_cons, ih, get?_cons]
      by_cases h : key = head.1
      · simp [h, hne.symm]
      · simp [h]

theorem get?_erase (t : Table α) (name key : String) :
    (t.erase name).get? key = if key = name then none else t.get? key := by
  induction t with
  | nil => simp [erase, get?]
  | cons head rest ih =>
    rw [erase] at ih ⊢
    by_cases hname : head.1 = name
    · rw [List.filter_cons_of_neg (by simp [hname]), ih, get?_cons]
      by_cases h : key = name
      · simp [h]
      · simp [h, hname]
    · rw [List.filter_cons_of_pos (by simp [hname]), get?_cons, ih, get?_cons]
      by_cases h : key = head.1
      · simp [h, hname]
      · simp [h]

theorem get?_map {β : Type} (f : α → β) (t : Table α) (name : String) :
    get? (t.map fun entry => (entry.1, f entry.2)) name = (t.get? name).map f := by
  induction t with
  | nil => rfl
  | cons head rest ih =>
    rw [List.map_cons, get?_cons, get?_cons, ih]
    split
    · rfl
    · rfl

theorem insert_map {β : Type} (f : α → β) (t : Table α) (name : String) (a : α) :
    Table.insert (t.map fun entry => (entry.1, f entry.2)) name (f a) =
      (t.insert name a).map fun entry => (entry.1, f entry.2) := by
  induction t with
  | nil => rfl
  | cons head rest ih =>
    rw [List.map_cons, Table.insert, Table.insert]
    dsimp only
    split
    · rfl
    · rfl
    · rw [List.map_cons, ih]

theorem path_text_inj {p q : Path} : q.text = p.text ↔ p = q :=
  ⟨fun h => congrArg Path.mk h.symm, fun h => congrArg Path.text h.symm⟩

theorem get?_insert_path (t : Table α) (path : Path) (a : α) (other : Path) :
    (t.insert path.text a).get? other.text = if path = other then some a else t.get? other.text := by
  rw [get?_insert]
  simp only [path_text_inj]

theorem get?_erase_path (t : Table α) (path other : Path) :
    (t.erase path.text).get? other.text = if path = other then none else t.get? other.text := by
  rw [get?_erase]
  simp only [path_text_inj]

/-! ## Order -/

/-- The names increase. -/
def Sorted (t : Table α) : Prop := t.Pairwise fun a b => compare a.1 b.1 = .lt

theorem Sorted.nil : Sorted ([] : Table α) := List.Pairwise.nil

theorem mem_insert {t : Table α} {name : String} {a : α} {e : String × α} (h : e ∈ t.insert name a) :
    e = (name, a) ∨ e ∈ t := by
  induction t with
  | nil => exact .inl (by simpa [Table.insert] using h)
  | cons head rest ih =>
    rw [Table.insert] at h
    split at h
    · simpa using h
    · exact (List.mem_cons.1 h).imp_right fun h => by simp [h]
    · rcases List.mem_cons.1 h with h | h
      · exact .inr (by simp [h])
      · exact (ih h).imp_right fun h => by simp [h]

theorem Sorted.insert {t : Table α} (h : t.Sorted) (name : String) (a : α) : (t.insert name a).Sorted := by
  induction t with
  | nil => exact List.pairwise_singleton _ _
  | cons head rest ih =>
    obtain ⟨hhead, hrest⟩ := List.pairwise_cons.1 h
    rw [Table.insert]
    split
    · next hlt =>
      refine List.pairwise_cons.2 ⟨fun e he => ?_, h⟩
      rcases List.mem_cons.1 he with rfl | he
      · exact hlt
      · exact Std.TransCmp.lt_trans hlt (hhead e he)
    · next heq =>
      obtain rfl : name = head.1 := Std.LawfulEqOrd.eq_of_compare heq
      exact List.pairwise_cons.2 ⟨hhead, hrest⟩
    · next hgt =>
      refine List.pairwise_cons.2 ⟨fun e he => ?_, ih hrest⟩
      rcases mem_insert he with rfl | he
      · exact Std.OrientedCmp.lt_of_gt hgt
      · exact hhead e he

theorem Sorted.erase {t : Table α} (h : t.Sorted) (name : String) : (t.erase name).Sorted :=
  h.sublist List.filter_sublist

theorem sorted_ofList (pairs : List (String × α)) : (ofList pairs).Sorted := by
  have hfold (t : Table α) (ht : t.Sorted) : (pairs.foldl (fun t pair => t.insert pair.1 pair.2) t).Sorted := by
    induction pairs generalizing t with
    | nil => exact ht
    | cons pair pairs ih => exact ih _ (ht.insert pair.1 pair.2)
  exact hfold [] .nil

/-- A name after all others goes to the end. -/
theorem insert_eq_append {t : Table α} {name : String} (a : α) (h : ∀ e ∈ t, compare e.1 name = .lt) :
    t.insert name a = t ++ [(name, a)] := by
  induction t with
  | nil => rfl
  | cons head rest ih =>
    have hgt : compare name head.1 = .gt := Std.OrientedCmp.gt_of_lt (h head (by simp))
    rw [Table.insert, hgt, List.cons_append, ih fun e he => h e (by simp [he])]

theorem ofList_eq_self {t : Table α} (h : t.Sorted) : ofList t = t := by
  have hfold (done : Table α) (h : (done ++ t).Sorted) :
      t.foldl (fun t pair => t.insert pair.1 pair.2) done = done ++ t := by
    induction t generalizing done with
    | nil => simp
    | cons e rest ih =>
      obtain ⟨name, a⟩ := e
      obtain ⟨-, hright, hcross⟩ := List.pairwise_append.1 h
      have hlast : ∀ d ∈ done, compare d.1 name = .lt := fun d hd => hcross d hd (name, a) (by simp)
      have hrest := ih (List.pairwise_cons.1 hright).2 (done ++ [(name, a)]) (by simpa using h)
      rw [List.foldl_cons]
      simp only [insert_eq_append a hlast, hrest, List.append_assoc, List.singleton_append]
  exact hfold [] h

/-! ## Equality -/

theorem get?_eq_none {t : Table α} {name : String} (h : ∀ e ∈ t, compare name e.1 = .lt) : t.get? name = none := by
  induction t with
  | nil => rfl
  | cons head rest ih =>
    have hne : name ≠ head.1 := ne_of_compare (by rw [h head List.mem_cons_self]; decide)
    rw [get?_cons, if_neg hne, ih fun e he => h e (List.mem_cons_of_mem _ he)]

/-- A name before the first one has no value. -/
theorem Sorted.get?_eq_none {head : String × α} {rest : Table α} {name : String} (h : Sorted (head :: rest))
    (hlt : compare name head.1 = .lt) : get? (head :: rest) name = none := by
  apply Table.get?_eq_none
  intro e he
  rcases List.mem_cons.1 he with rfl | he
  · exact hlt
  · exact Std.TransCmp.lt_trans hlt ((List.pairwise_cons.1 h).1 e he)

theorem Sorted.get?_of_mem {t : Table α} (h : t.Sorted) {row : String × α} (hrow : row ∈ t) :
    t.get? row.1 = some row.2 := by
  induction t with
  | nil => cases hrow
  | cons head rest ih =>
    obtain ⟨hhead, hrest⟩ := List.pairwise_cons.1 h
    rw [get?_cons]
    rcases List.mem_cons.1 hrow with rfl | hrow
    · rw [if_pos rfl]
    · have hne : row.1 ≠ head.1 := (ne_of_compare (by rw [hhead row hrow]; decide)).symm
      rw [if_neg hne, ih hrest hrow]

theorem eq_of_get?_eq {s t : Table α} (hs : s.Sorted) (ht : t.Sorted) (h : ∀ name, s.get? name = t.get? name) :
    s = t := by
  induction s generalizing t with
  | nil =>
    cases t with
    | nil => rfl
    | cons b t =>
      have hb := h b.1
      rw [get?_cons, if_pos rfl] at hb
      cases hb
  | cons a s ih =>
    have ha := h a.1
    rw [get?_cons, if_pos rfl] at ha
    cases t with
    | nil => cases ha
    | cons b t =>
      have hb := h b.1
      rw [get?_cons b, if_pos rfl] at hb
      -- The first names are equal, as the smaller one would have a value in one table only.
      have hname : a.1 = b.1 := by
        cases hcompare : compare a.1 b.1 with
        | lt =>
          rw [ht.get?_eq_none hcompare] at ha
          cases ha
        | eq => exact Std.LawfulEqOrd.eq_of_compare hcompare
        | gt =>
          rw [hs.get?_eq_none (Std.OrientedCmp.lt_of_gt hcompare)] at hb
          cases hb
      have hvalue : a.2 = b.2 := by
        rw [get?_cons, if_pos hname] at ha
        exact Option.some.inj ha
      have hrest : s = t := by
        apply ih (List.pairwise_cons.1 hs).2 (List.pairwise_cons.1 ht).2
        intro name
        by_cases hfirst : name = a.1
        · rw [hfirst, Table.get?_eq_none (List.pairwise_cons.1 hs).1, hname,
            Table.get?_eq_none (List.pairwise_cons.1 ht).1]
        · have hother := h name
          rwa [get?_cons, if_neg hfirst, get?_cons, if_neg (hname ▸ hfirst)] at hother
      rw [Prod.ext hname hvalue, hrest]

end LintHub.Table
