import LintHub.Json.Printer
import LintHub.Proofs.Json.Tokens

/-!
# Written documents

* `Json.Written` : a text writes a value, an array from its items on or an object from its fields on, with any blanks
  between the tokens.
* `written_compactChars`, `written_prettyChars` : both printers write the value.
* `Json.induction` : what holds of a value if it holds of the values inside holds of every value.
-/

namespace LintHub.Json

theorem induction {P : Json → Prop} (null : P .null) (bool : ∀ b, P (.bool b)) (num : ∀ n, P (.num n))
    (str : ∀ s, P (.str s)) (arr : ∀ items, (∀ j ∈ items, P j) → P (.arr items))
    (obj : ∀ fields, (∀ field ∈ fields, P field.2) → P (.obj fields)) (j : Json) : P j :=
  match j with
  | .null => null
  | .bool b => bool b
  | .num n => num n
  | .str s => str s
  | .arr items => arr items fun j _ => induction null bool num str arr obj j
  | .obj fields => obj fields fun field hfield =>
    have : sizeOf field.2 < sizeOf fields := by
      have := List.sizeOf_lt_of_mem hfield
      have : sizeOf field = 1 + sizeOf field.1 + sizeOf field.2 := by cases field; rfl
      omega
    induction null bool num str arr obj field.2

/-! ## Grammar -/

/-- A piece of a document: a value, or the rest of an array or object that is not empty, after its bracket. -/
inductive Piece where
  | value (j : Json)
  | items (items : List Json)
  | fields (fields : List (String × Json))

/-- The texts that write a piece. -/
inductive Written : Piece → List Char → Prop where
  | null : Written (.value .null) "null".toList
  | bool (b : Bool) : Written (.value (.bool b)) (if b then "true" else "false").toList
  | num (n : Number) : Written (.value (.num n)) (numberText n)
  | str (s : String) : Written (.value (.str s)) (quote s)
  | emptyArr : Written (.value (.arr [])) ['[', ']']
  | arr {items s} : Written (.items items) s → Written (.value (.arr items)) ('[' :: s)
  | emptyObj : Written (.value (.obj [])) ['{', '}']
  | obj {fields s} : Written (.fields fields) s → Written (.value (.obj fields)) ('{' :: s)
  | lastItem {a b j s} : Spaces a → Spaces b → Written (.value j) s → Written (.items [j]) (a ++ s ++ b ++ [']'])
  | item {a b j s items t} : Spaces a → Spaces b → Written (.value j) s → Written (.items items) t →
    Written (.items (j :: items)) (a ++ s ++ b ++ ',' :: t)
  | lastField {a b d n j s} : Spaces a → Spaces b → Spaces d → Written (.value j) s →
    Written (.fields [(n, j)]) (a ++ quote n ++ ':' :: (b ++ s ++ d ++ ['}']))
  | field {a b d n j s fields t} : Spaces a → Spaces b → Spaces d → Written (.value j) s →
    Written (.fields fields) t → Written (.fields ((n, j) :: fields)) (a ++ quote n ++ ':' :: (b ++ s ++ d ++ ',' :: t))

/-! ## Printers -/

theorem spaces_blank : Spaces [' '] := by simp [Spaces, isSpace]

theorem spaces_newLine (depth : Nat) : Spaces (newLine depth) := by
  intro c hc
  rcases List.mem_cons.1 hc with rfl | hc
  · rfl
  · rw [List.eq_of_mem_replicate hc]
    rfl

theorem written_compactItems {items : List Json} (hne : items ≠ [])
    (h : ∀ j ∈ items, Written (.value j) j.compactChars) : Written (.items items) (compactItems items) := by
  induction items with
  | nil => exact absurd rfl hne
  | cons j rest ih =>
    have hj := h j (by simp)
    cases rest with
    | nil => simpa [compactItems] using Written.lastItem .nil .nil hj
    | cons next rest =>
      have hrest := ih (by simp) fun k hk => h k (by simp [hk])
      simpa [compactItems] using Written.item .nil .nil hj hrest

theorem written_compactFields {fields : List (String × Json)} (hne : fields ≠ [])
    (h : ∀ field ∈ fields, Written (.value field.2) field.2.compactChars) :
    Written (.fields fields) (compactFields fields) := by
  induction fields with
  | nil => exact absurd rfl hne
  | cons field rest ih =>
    obtain ⟨name, j⟩ := field
    have hj := h (name, j) (by simp)
    cases rest with
    | nil => simpa [compactFields] using Written.lastField (n := name) .nil .nil .nil hj
    | cons next rest =>
      have hrest := ih (by simp) fun k hk => h k (by simp [hk])
      simpa [compactFields] using Written.field (n := name) .nil .nil .nil hj hrest

theorem written_compactChars (j : Json) : Written (.value j) j.compactChars := by
  induction j using Json.induction with
  | null => exact .null
  | bool b => exact .bool b
  | num n => exact .num n
  | str s => exact .str s
  | arr items ih =>
    by_cases hne : items = []
    · subst hne
      exact .emptyArr
    · exact .arr (written_compactItems hne ih)
  | obj fields ih =>
    by_cases hne : fields = []
    · subst hne
      exact .emptyObj
    · exact .obj (written_compactFields hne ih)

theorem written_prettyItems (depth : Nat) {j : Json} {rest : List Json}
    (h : ∀ k ∈ j :: rest, Written (.value k) (k.prettyChars (depth + 1))) :
    Written (.items (j :: rest)) (newLine (depth + 1) ++ j.prettyChars (depth + 1) ++ prettyItems depth rest) := by
  have hj := h j (by simp)
  induction rest generalizing j with
  | nil => simpa [prettyItems] using Written.lastItem (spaces_newLine (depth + 1)) (spaces_newLine depth) hj
  | cons next rest ih =>
    have hrest := ih (fun k hk => h k (by simp [hk])) (h next (by simp))
    simpa [prettyItems] using Written.item (spaces_newLine (depth + 1)) .nil hj hrest

theorem written_prettyFields (depth : Nat) {name : String} {j : Json} {rest : List (String × Json)}
    (h : ∀ field ∈ (name, j) :: rest, Written (.value field.2) (field.2.prettyChars (depth + 1))) :
    Written (.fields ((name, j) :: rest)) (newLine (depth + 1) ++ quote name ++
      ':' :: ' ' :: j.prettyChars (depth + 1) ++ prettyFields depth rest) := by
  have hj := h (name, j) (by simp)
  induction rest generalizing name j with
  | nil =>
    simpa [prettyFields] using Written.lastField (n := name) (spaces_newLine (depth + 1)) spaces_blank
      (spaces_newLine depth) hj
  | cons next rest ih =>
    obtain ⟨after, k⟩ := next
    have hrest := ih (fun field hfield => h field (by simp [hfield])) (h (after, k) (by simp))
    simpa [prettyFields] using Written.field (n := name) (spaces_newLine (depth + 1)) spaces_blank .nil hj hrest

theorem written_prettyChars (j : Json) (depth : Nat) : Written (.value j) (j.prettyChars depth) := by
  induction j using Json.induction generalizing depth with
  | null => exact .null
  | bool b => exact .bool b
  | num n => exact .num n
  | str s => exact .str s
  | arr items ih =>
    cases items with
    | nil => exact .emptyArr
    | cons j rest => exact .arr (by simpa using written_prettyItems depth fun k hk => ih k hk (depth + 1))
  | obj fields ih =>
    cases fields with
    | nil => exact .emptyObj
    | cons field rest =>
      exact .obj (by simpa using written_prettyFields depth fun k hk => ih k hk (depth + 1))

end LintHub.Json
