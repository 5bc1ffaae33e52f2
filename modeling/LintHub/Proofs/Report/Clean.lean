import LintHub.Report.Escapes
import Mathlib.Data.List.Basic

/-!
# Passes of cleaning

Each pass of `Report.cleanChars` looks for one kind of decoration, once and from left to right.

* `dropFrom` : a pass, told from what it finds at the start of a text. `passes` : those of `cleanChars`.
* `dropFrom_eq_self_iff`, `cleanChars_eq_self_iff` : a text is left alone if nothing is found in it.
* `cleanChars_append_right` : what a clean text ends with is clean.
-/

namespace LintHub.Report

/-- Drops what `more?` finds: a character and as many more as it answers; `skip` characters are still to drop. -/
def dropFrom (more? : List Char → Option Nat) : Nat → List Char → List Char
  | _, [] => []
  | skip + 1, _ :: rest => dropFrom more? skip rest
  | 0, c :: rest =>
    match more? (c :: rest) with
    | some n => dropFrom more? n rest
    | none => c :: dropFrom more? 0 rest

/-- How many characters of an escape follow the first. -/
def escapeAt? : List Char → Option Nat
  | c :: rest => if c = escape then escapeLength? rest else none
  | [] => none

/-- How many characters of `part` follow the first. -/
def partAt? (part s : List Char) : Option Nat := if part.isPrefixOf s then some (part.length - 1) else none

/-- What the passes of cleaning look for, one after another. -/
def passes : List (List Char → Option Nat) := escapeAt? :: colours.map fun colour => partAt? colour.toList

theorem dropEscapesFrom_eq (skip : Nat) (s : List Char) : dropEscapesFrom skip s = dropFrom escapeAt? skip s := by
  induction s generalizing skip with
  | nil => rfl
  | cons c s ih =>
    cases skip with
    | succ skip => exact ih skip
    | zero =>
      rw [dropEscapesFrom, dropFrom, escapeAt?]
      split
      · cases escapeLength? s <;> simp only [ih]
      · rw [ih]

theorem eraseFrom_eq (part : List Char) (skip : Nat) (s : List Char) :
    Text.eraseFrom part skip s = dropFrom (partAt? part) skip s := by
  induction s generalizing skip with
  | nil => rfl
  | cons c s ih =>
    cases skip with
    | succ skip => exact ih skip
    | zero =>
      rw [Text.eraseFrom, dropFrom, partAt?]
      split <;> simp only [ih]

theorem foldl_passes {α : Type} (run : α → (List Char → Option Nat) → α) (a : α) :
    passes.foldl run a = colours.foldl (fun a colour => run a (partAt? colour.toList)) (run a escapeAt?) := by
  rw [passes, List.foldl_cons, List.foldl_map]

theorem cleanChars_eq (s : List Char) : cleanChars s = passes.foldl (fun t more? => dropFrom more? 0 t) s := by
  rw [foldl_passes, cleanChars, dropEscapes, dropEscapesFrom_eq]
  simp only [Text.erase, eraseFrom_eq]

/-! ## Clean texts -/

theorem dropFrom_sublist (more? : List Char → Option Nat) (skip : Nat) (s : List Char) :
    (dropFrom more? skip s).Sublist (s.drop skip) := by
  induction s generalizing skip with
  | nil => cases skip <;> exact List.Sublist.refl []
  | cons c s ih =>
    cases skip with
    | succ skip => exact ih skip
    | zero =>
      rw [dropFrom]
      split
      · next n _ => exact ((ih n).trans (List.drop_sublist n s)).cons c
      · exact (ih 0).cons_cons c

/-- A pass that changes nothing finds nothing. -/
theorem dropFrom_eq_self_iff {more? : List Char → Option Nat} {s : List Char} :
    dropFrom more? 0 s = s ↔ ∀ a b, s = a ++ b → b ≠ [] → more? b = none := by
  induction s with
  | nil => simp [dropFrom]
  | cons c s ih =>
    have hfirst : dropFrom more? 0 (c :: s) = c :: s ↔ more? (c :: s) = none ∧ dropFrom more? 0 s = s := by
      rw [dropFrom]
      split
      · next n hfound =>
        have hshort := ((dropFrom_sublist more? n s).trans (List.drop_sublist n s)).length_le
        simp only [hfound, reduceCtorEq, false_and, iff_false]
        intro h
        rw [h, List.length_cons] at hshort
        omega
      · next hnone => simp [hnone]
    rw [hfirst, ih]
    constructor
    · rintro ⟨hnone, hlater⟩ a b hab hb
      cases a with
      | nil => rwa [← show c :: s = b from hab]
      | cons d a => exact hlater a b (List.cons.inj hab).2 hb
    · intro h
      exact ⟨h [] (c :: s) rfl (List.cons_ne_nil _ _), fun a b hab => h (c :: a) b (by rw [hab, List.cons_append])⟩

theorem foldl_dropFrom_sublist (todo : List (List Char → Option Nat)) (s : List Char) :
    (todo.foldl (fun t more? => dropFrom more? 0 t) s).Sublist s := by
  induction todo generalizing s with
  | nil => exact List.Sublist.refl s
  | cons more? todo ih => exact (ih _).trans (dropFrom_sublist more? 0 s)

/-- What a later pass leaves is never longer, so that no pass changes a text if all together do not. -/
theorem foldl_dropFrom_eq_self_iff {todo : List (List Char → Option Nat)} {s : List Char} :
    todo.foldl (fun t more? => dropFrom more? 0 t) s = s ↔ ∀ more? ∈ todo, dropFrom more? 0 s = s := by
  induction todo with
  | nil => simp
  | cons more? todo ih =>
    rw [List.foldl_cons, List.forall_mem_cons]
    constructor
    · intro h
      have hsub := foldl_dropFrom_sublist todo (dropFrom more? 0 s)
      rw [h] at hsub
      have hfirst : dropFrom more? 0 s = s := (dropFrom_sublist more? 0 s).antisymm hsub
      rw [hfirst] at h
      exact ⟨hfirst, ih.1 h⟩
    · rintro ⟨hfirst, hlater⟩
      rw [hfirst]
      exact ih.2 hlater

/-- A text is clean if no pass finds anything in it. -/
theorem cleanChars_eq_self_iff {s : List Char} :
    cleanChars s = s ↔ ∀ more? ∈ passes, ∀ a b, s = a ++ b → b ≠ [] → more? b = none := by
  rw [cleanChars_eq, foldl_dropFrom_eq_self_iff]
  exact forall₂_congr fun _ _ => dropFrom_eq_self_iff

theorem cleanChars_append_right {a b : List Char} (h : cleanChars (a ++ b) = a ++ b) : cleanChars b = b := by
  rw [cleanChars_eq_self_iff] at h ⊢
  intro more? hpass front rest hb hrest
  exact h more? hpass (a ++ front) rest (by rw [hb, List.append_assoc]) hrest

end LintHub.Report
