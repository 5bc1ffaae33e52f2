import LintHub.Text.Blank
import Mathlib.Data.List.DropRight

/-!
# Outer blanks

* `Tight` : no blank stands at either end. `tight_trim` says that `trim` gives such a text, `trim_eq_self` that it
  leaves one alone, and `trimmed_trimmed` is the law for strings.
* `trimEnd_append` and `trimStart_trimEnd` cut the blanks off the parts of a text.
-/

namespace LintHub.Text

/-- No blank stands at either end. -/
def Tight (s : List Char) : Prop :=
  (∀ c ∈ s.head?, isBlank c = false) ∧ ∀ c ∈ s.getLast?, isBlank c = false

/-! ## One end -/

theorem isBlank_head_trimStart {s : List Char} {c : Char} (h : c ∈ (trimStart s).head?) : isBlank c = false := by
  have := List.head?_dropWhile_not isBlank s
  rw [show s.dropWhile isBlank = trimStart s from rfl, h] at this
  exact this

theorem trimStart_cons_of_ink {c : Char} (s : List Char) (h : isBlank c = false) : trimStart (c :: s) = c :: s := by
  simp [trimStart, h]

theorem trimStart_cons_of_blank {c : Char} (s : List Char) (h : isBlank c = true) :
    trimStart (c :: s) = trimStart s := by
  simp [trimStart, h]

theorem trimStart_eq_self {s : List Char} (h : ∀ c ∈ s.head?, isBlank c = false) : trimStart s = s := by
  cases s with
  | nil => rfl
  | cons c s => exact trimStart_cons_of_ink s (h c rfl)

theorem trimStart_space {s : List Char} (h : ∀ c ∈ s.head?, isBlank c = false) : trimStart (' ' :: s) = s := by
  rw [trimStart_cons_of_blank s (by decide), trimStart_eq_self h]

theorem feed_notMem_of_ink {s : List Char} (h : ∀ c ∈ s, isBlank c = false) : '\n' ∉ s :=
  fun hfeed => absurd (h _ hfeed) (by decide)

theorem trimStart_append_of_blanks {a : List Char} (b : List Char) (h : ∀ c ∈ a, isBlank c = true) :
    trimStart (a ++ b) = trimStart b := by
  induction a with
  | nil => rfl
  | cons c a ih =>
    rw [List.cons_append, trimStart_cons_of_blank _ (h c (by simp))]
    exact ih fun d hd => h d (by simp [hd])

theorem trimStart_append_of_ink {a : List Char} (b : List Char) (h : trimStart a ≠ []) :
    trimStart (a ++ b) = trimStart a ++ b := by
  induction a with
  | nil => exact absurd rfl h
  | cons c a ih =>
    cases hc : isBlank c with
    | true =>
      rw [trimStart_cons_of_blank a hc] at h ⊢
      rw [List.cons_append, trimStart_cons_of_blank _ hc, ih h]
    | false => rw [List.cons_append, trimStart_cons_of_ink _ hc, trimStart_cons_of_ink _ hc, List.cons_append]

theorem trimStart_eq_nil {s : List Char} : trimStart s = [] ↔ ∀ c ∈ s, isBlank c = true :=
  List.dropWhile_eq_nil_iff

/-- A text is blanks and what `trimStart` leaves of it. -/
theorem exists_blanks_append_trimStart (s : List Char) :
    ∃ a, s = a ++ trimStart s ∧ ∀ c ∈ a, isBlank c = true :=
  ⟨s.takeWhile isBlank, (List.takeWhile_append_dropWhile).symm, fun _ h => List.mem_takeWhile_imp h⟩

theorem trimEnd_eq (s : List Char) : trimEnd s = s.rdropWhile isBlank := rfl

theorem trimEnd_prefix (s : List Char) : trimEnd s <+: s := List.rdropWhile_prefix isBlank s

theorem trimEnd_eq_self {s : List Char} (h : ∀ c ∈ s.getLast?, isBlank c = false) : trimEnd s = s := by
  rw [trimEnd_eq, List.rdropWhile_eq_self_iff]
  intro hs
  simp [h _ (List.getLast?_eq_some_getLast hs)]

theorem trimEnd_eq_nil {s : List Char} : trimEnd s = [] ↔ ∀ c ∈ s, isBlank c = true := by
  rw [trimEnd_eq, List.rdropWhile_eq_nil_iff]

theorem trimEnd_append {b : List Char} (a : List Char) (h : trimEnd b ≠ []) : trimEnd (a ++ b) = a ++ trimEnd b := by
  have hb : b.reverse.dropWhile isBlank ≠ [] := by simpa [trimEnd] using h
  rw [trimEnd, trimEnd, List.reverse_append, show (b.reverse ++ a.reverse).dropWhile isBlank =
    trimStart (b.reverse ++ a.reverse) from rfl, trimStart_append_of_ink _ hb, List.reverse_append,
    List.reverse_reverse]
  rfl

/-! ## Both ends -/

theorem tight_trim (s : List Char) : Tight (trim s) := by
  constructor
  · intro c hc
    obtain ⟨t, ht⟩ := trimEnd_prefix (trimStart s)
    apply isBlank_head_trimStart (s := s)
    rw [← ht, show trimEnd (trimStart s) = trim s from rfl, List.head?_append, hc]
    rfl
  · intro c hc
    have hs : trim s ≠ [] := by rintro h; simp [h] at hc
    have := List.rdropWhile_last_not isBlank (trimStart s) hs
    rw [List.getLast?_eq_some_getLast hs, Option.mem_some_iff] at hc
    subst hc
    simpa [trim, trimEnd_eq] using this

theorem trim_ne_nil {s : List Char} (h : trimStart s ≠ []) : trim s ≠ [] := by
  intro hs
  cases hc : trimStart s with
  | nil => exact h hc
  | cons c t =>
    have hblank : isBlank c = true := trimEnd_eq_nil.1 hs c (by simp [hc])
    rw [isBlank_head_trimStart (s := s) (by rw [hc]; rfl)] at hblank
    cases hblank

/-- The start of a text stays when its end is cut. -/
theorem exists_trim_eq {s t : List Char} {c : Char} (h : trimStart s = c :: t) :
    ∃ t', trim s = c :: t' ∧ t' <+: t := by
  have hstem := trimEnd_prefix (trimStart s)
  rw [h] at hstem
  cases hs : trim s with
  | nil => exact absurd hs (trim_ne_nil (by rw [h]; simp))
  | cons d t' =>
    rw [trim, h] at hs
    rw [hs, List.cons_prefix_cons] at hstem
    exact ⟨t', by rw [hstem.1], hstem.2⟩

theorem trim_eq_self {s : List Char} (h : Tight s) : trim s = s := by
  rw [trim, trimStart_eq_self h.1, trimEnd_eq_self h.2]

theorem trim_trim (s : List Char) : trim (trim s) = trim s := trim_eq_self (tight_trim s)

/-- The two ends are cut independently. -/
theorem trimStart_trimEnd (s : List Char) : trimStart (trimEnd s) = trim s := by
  obtain ⟨a, hs, ha⟩ := exists_blanks_append_trimStart s
  by_cases h : trim s = []
  · have hblank : ∀ c ∈ trimStart s, isBlank c = true := trimEnd_eq_nil.1 h
    have hall : ∀ c ∈ s, isBlank c = true := by
      intro c hc
      rw [hs, List.mem_append] at hc
      exact hc.elim (ha c) (hblank c)
    rw [h, trimEnd_eq_nil.2 hall]
    rfl
  · calc trimStart (trimEnd s) = trimStart (trimEnd (a ++ trimStart s)) := by rw [← hs]
      _ = trimStart (a ++ trim s) := by rw [trimEnd_append a h, trim]
      _ = trimStart (trim s) := trimStart_append_of_blanks _ ha
      _ = trim s := trimStart_eq_self (tight_trim s).1

/-! ## Strings -/

@[simp] theorem toList_trimmed (s : String) : (trimmed s).toList = trim s.toList := String.toList_ofList

theorem trimmed_trimmed (s : String) : trimmed (trimmed s) = trimmed s := by
  rw [trimmed, toList_trimmed, trim_trim]
  rfl

end LintHub.Text
