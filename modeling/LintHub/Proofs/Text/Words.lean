import LintHub.Proofs.Text.Lines

/-!
# Words

* `words_append_blank` : a blank ends a word. All else follows from it.
* `isWord_of_mem_words` : what is cut out has no blank, `words_of_isWord` : and such a text is one word.
* `words_dropReturn` : the carriage return of a terminator belongs to no word.
-/

namespace LintHub.Text

/-- A text that is not empty and has no blank. -/
def IsWord (s : List Char) : Prop := s ≠ [] ∧ ∀ c ∈ s, isBlank c = false

theorem isWord_iff_all {s : List Char} : IsWord s ↔ s ≠ [] ∧ (s.all fun c => !isBlank c) = true := by
  simp [IsWord]

instance (s : List Char) : Decidable (IsWord s) := decidable_of_iff _ isWord_iff_all.symm

@[simp] theorem words_nil : words [] = [] := rfl

theorem wordsFrom_nil (acc : List Char) : wordsFrom acc [] = if acc.isEmpty then [] else [acc.reverse] := rfl

theorem wordsFrom_blank {c : Char} (hc : isBlank c = true) (acc s : List Char) :
    wordsFrom acc (c :: s) = wordsFrom acc [] ++ words s := by
  rw [wordsFrom_nil, words]
  cases acc <;> simp [wordsFrom, hc]

theorem wordsFrom_ink {c : Char} (hc : isBlank c = false) (acc s : List Char) :
    wordsFrom acc (c :: s) = wordsFrom (c :: acc) s := by
  simp [wordsFrom, hc]

theorem wordsFrom_append_blank {c : Char} (hc : isBlank c = true) (acc a b : List Char) :
    wordsFrom acc (a ++ c :: b) = wordsFrom acc a ++ words b := by
  induction a generalizing acc with
  | nil => exact wordsFrom_blank hc acc b
  | cons d a ih =>
    cases hd : isBlank d with
    | true =>
      have hrest : words (a ++ c :: b) = words a ++ words b := ih []
      rw [List.cons_append, wordsFrom_blank hd, wordsFrom_blank hd, hrest, List.append_assoc]
    | false => rw [List.cons_append, wordsFrom_ink hd, wordsFrom_ink hd, ih]

theorem words_append_blank {c : Char} (hc : isBlank c = true) (a b : List Char) :
    words (a ++ c :: b) = words a ++ words b :=
  wordsFrom_append_blank hc [] a b

theorem wordsFrom_of_ink {s : List Char} (h : ∀ c ∈ s, isBlank c = false) (acc : List Char) :
    wordsFrom acc s = wordsFrom (s.reverse ++ acc) [] := by
  induction s generalizing acc with
  | nil => rfl
  | cons c s ih =>
    rw [wordsFrom_ink (h c (by simp)), ih fun d hd => h d (by simp [hd])]
    simp

theorem words_of_isWord {s : List Char} (h : IsWord s) : words s = [s] := by
  rw [words, wordsFrom_of_ink h.2, wordsFrom_nil]
  simp [h.1]

theorem isWord_of_mem_wordsFrom {s acc w : List Char} (hacc : ∀ c ∈ acc, isBlank c = false)
    (hw : w ∈ wordsFrom acc s) : IsWord w := by
  have hlast {acc : List Char} (hacc : ∀ c ∈ acc, isBlank c = false) (hw : w ∈ wordsFrom acc []) : IsWord w := by
    rw [wordsFrom_nil] at hw
    split at hw
    · cases hw
    · next hne =>
      obtain rfl := List.mem_singleton.1 hw
      exact ⟨by simpa using hne, fun c hc => hacc c (List.mem_reverse.1 hc)⟩
  induction s generalizing acc with
  | nil => exact hlast hacc hw
  | cons c s ih =>
    cases hc : isBlank c with
    | true =>
      rw [wordsFrom_blank hc, List.mem_append] at hw
      exact hw.elim (hlast hacc) (ih (by simp))
    | false =>
      rw [wordsFrom_ink hc] at hw
      exact ih (List.forall_mem_cons.2 ⟨hc, hacc⟩) hw

theorem isWord_of_mem_words {s w : List Char} (hw : w ∈ words s) : IsWord w :=
  isWord_of_mem_wordsFrom (by simp) hw

theorem words_dropReturn (s : List Char) : words (dropReturn s) = words s := by
  rw [dropReturn]
  split
  · next h =>
    obtain ⟨t, rfl⟩ := List.getLast?_eq_some_iff.1 h
    rw [List.dropLast_concat, words_append_blank (by decide), words_nil, List.append_nil]
  · rfl

end LintHub.Text
