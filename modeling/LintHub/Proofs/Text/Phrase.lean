import LintHub.Proofs.Text.Lines
import LintHub.Text.Digit
import LintHub.Text.Word

/-!
# Phrases and characters

* `IsPhrase` : a text that can stand on a line by itself. `isPhrase_append_text` puts one together of parts,
  `exists_trim_append` and `trim_append` cut a text that ends or starts with one.
* `isBlank_of_isWord`, `isBlank_of_isAsciiDigit` and `toLower_of_isBlank` : a blank is no word character, no digit and no
  letter.
-/

namespace LintHub.Text

/-! ## Phrases -/

/-- A text that is not empty, stands on one line and has no outer blanks. -/
structure IsPhrase (s : String) : Prop where
  ne : s ≠ ""
  feed : '\n' ∉ s.toList
  trimmed : trimmed s = s

theorem isPhrase_iff {s : String} : IsPhrase s ↔ s ≠ "" ∧ '\n' ∉ s.toList ∧ trimmed s = s :=
  ⟨fun h => ⟨h.ne, h.feed, h.trimmed⟩, fun h => ⟨h.1, h.2.1, h.2.2⟩⟩

instance (s : String) : Decidable (IsPhrase s) := decidable_of_iff _ isPhrase_iff.symm

theorem IsPhrase.toList_ne {s : String} (h : IsPhrase s) : s.toList ≠ [] := by
  simpa using h.ne

theorem IsPhrase.tight {s : String} (h : IsPhrase s) : Tight s.toList := by
  have := tight_trim s.toList
  rwa [← toList_trimmed, h.trimmed] at this

theorem tight_of_ink {s : List Char} (h : ∀ c ∈ s, isBlank c = false) : Tight s :=
  ⟨fun c hc => h c (List.mem_of_mem_head? hc), fun c hc => h c (List.mem_of_getLast? hc)⟩

theorem isPhrase_of_tight {s : String} (hne : s ≠ "") (hfeed : '\n' ∉ s.toList) (h : Tight s.toList) : IsPhrase s :=
  ⟨hne, hfeed, by rw [Text.trimmed, trim_eq_self h, String.ofList_toList]⟩

theorem isPhrase_of_ink {s : String} (hne : s ≠ "") (h : ∀ c ∈ s.toList, isBlank c = false) : IsPhrase s :=
  isPhrase_of_tight hne (feed_notMem_of_ink h) (tight_of_ink h)

/-- A phrase with some text on the same line in front of it. -/
theorem isPhrase_append {a b : String} (hne : a ≠ "") (hstart : trimStart a.toList = a.toList)
    (hfeed : '\n' ∉ a.toList) (hb : IsPhrase b) : IsPhrase (a ++ b) := by
  have ha : a.toList ≠ [] := by simpa using hne
  have hhead : ∀ c ∈ a.toList.head?, isBlank c = false := fun c hc =>
    isBlank_head_trimStart (s := a.toList) (by rwa [hstart])
  refine isPhrase_of_tight (by simp [hne]) (by simp [hfeed, hb.feed]) ?_
  rw [String.toList_append]
  constructor
  · rwa [List.head?_append_of_ne_nil _ ha]
  · rw [List.getLast?_append_of_ne_nil _ hb.toList_ne]
    exact hb.tight.2

theorem isPhrase_append_text {a b c : String} (ha : IsPhrase a) (hb : '\n' ∉ b.toList) (hc : IsPhrase c) :
    IsPhrase (a ++ b ++ c) := by
  refine isPhrase_append (by simp [ha.ne]) (trimStart_eq_self ?_) (by simp [ha.feed, hb]) hc
  rw [String.toList_append, List.head?_append_of_ne_nil _ ha.toList_ne]
  exact ha.tight.1

theorem isPhrase_intercalate {ls : List String} (hne : ls ≠ []) (h : ∀ l ∈ ls, IsPhrase l) :
    IsPhrase (" ".intercalate ls) := by
  induction ls with
  | nil => exact absurd rfl hne
  | cons l ls ih =>
    cases ls with
    | nil => simpa using h l (by simp)
    | cons l' ls =>
      have hrest := ih (by simp) fun m hm => h m (by simp [hm])
      rw [String.intercalate_cons_cons]
      exact isPhrase_append_text (h l (by simp)) (by decide) hrest

/-- A tight end stays whole. -/
theorem exists_trim_append (a : List Char) {b : List Char} (hne : b ≠ []) (hb : Tight b) :
    ∃ front, trim (a ++ b) = front ++ b := by
  have hend : trimEnd b = b := trimEnd_eq_self hb.2
  by_cases ha : trimStart a = []
  · refine ⟨[], ?_⟩
    rw [trim, trimStart_append_of_blanks b (trimStart_eq_nil.1 ha), trimStart_eq_self hb.1, hend, List.nil_append]
  · refine ⟨trimStart a, ?_⟩
    rw [trim, trimStart_append_of_ink b ha, trimEnd_append _ (by rwa [hend]), hend]

theorem trimEnd_append_of_blanks (a : List Char) {b : List Char} (h : ∀ c ∈ b, isBlank c = true) :
    trimEnd (a ++ b) = trimEnd a := by
  have hb : ∀ c ∈ b.reverse, isBlank c = true := fun c hc => h c (List.mem_reverse.1 hc)
  rw [trimEnd, List.reverse_append, List.dropWhile_append_of_pos hb]
  rfl

/-- Blanks at the end are cut off. -/
theorem trim_append_of_blanks (a : List Char) {b : List Char} (h : ∀ c ∈ b, isBlank c = true) :
    trim (a ++ b) = trim a := by
  rw [← trimStart_trimEnd, trimEnd_append_of_blanks a h, trimStart_trimEnd]

/-- A tight front stays whole. -/
theorem trim_append {a : List Char} (b : List Char) (hne : a ≠ []) (ha : Tight a) : trim (a ++ b) = a ++ trimEnd b := by
  have hstart : trimStart a ≠ [] := by rwa [trimStart_eq_self ha.1]
  rw [trim, trimStart_append_of_ink b hstart, trimStart_eq_self ha.1]
  by_cases hb : trimEnd b = []
  · rw [hb, trimEnd_append_of_blanks a (trimEnd_eq_nil.1 hb), trimEnd_eq_self ha.2, List.append_nil]
  · exact trimEnd_append a hb

/-! ## Characters -/

/-- The code points of blanks above ASCII. -/
def highBlanks : List Nat := [0x85, 0xA0, 0x1680, 0x2000, 0x2001, 0x2002, 0x2003, 0x2004, 0x2005, 0x2006, 0x2007,
  0x2008, 0x2009, 0x200A, 0x2028, 0x2029, 0x202F, 0x205F, 0x3000]

theorem isBlank_cases {c : Char} (h : isBlank c = true) : c.toNat ≤ 0x20 ∨ c.toNat ∈ highBlanks := by
  simp only [isBlank, Bool.or_eq_true, Bool.and_eq_true, decide_eq_true_eq, beq_iff_eq] at h
  simp only [highBlanks, List.mem_cons, List.not_mem_nil, or_false]
  omega

theorem toNat_of_isBlank {c : Char} (h : isBlank c = true) : c.toNat ≤ 0x20 ∨ 0x85 ≤ c.toNat :=
  (isBlank_cases h).imp id ((by decide : ∀ n ∈ highBlanks, 0x85 ≤ n) _)

theorem isBlank_of_isAsciiDigit {c : Char} (h : isAsciiDigit c = true) : isBlank c = false := by
  simp only [isAsciiDigit, Bool.and_eq_true, decide_eq_true_eq] at h
  by_contra hblank
  rw [Bool.not_eq_false] at hblank
  have hcase := toNat_of_isBlank hblank
  omega

theorem inRanges_wordRanges_of_mem_highBlanks : ∀ n ∈ highBlanks, inRanges wordRanges n = false := by
  simp only [inRanges, ← Array.any_toList]
  decide +kernel

theorem isBlank_of_isWord {c : Char} (h : isWord c = true) : isBlank c = false := by
  by_contra hblank
  rw [Bool.not_eq_false] at hblank
  rw [isWord] at h
  rcases isBlank_cases hblank with hlow | hhigh
  · rw [if_pos (by omega)] at h
    have hunderscore : c ≠ '_' := by
      rintro rfl
      exact absurd hlow (by decide)
    have hval : c.val.toNat ≤ 0x20 := hlow
    unfold Char.isAlphanum Char.isAlpha Char.isUpper Char.isLower Char.isDigit at h
    simp [UInt32.le_iff_toNat_le, hunderscore] at h
    omega
  · have hge : 128 ≤ c.toNat := (by decide : ∀ n ∈ highBlanks, 128 ≤ n) _ hhigh
    rw [if_neg (by omega), inRanges_wordRanges_of_mem_highBlanks _ hhigh] at h
    cases h

theorem toLower_of_isBlank {c : Char} (h : isBlank c = true) : c.toLower = c := by
  have hcase := toNat_of_isBlank h
  have hval : c.val.toNat = c.toNat := rfl
  unfold Char.toLower
  rw [dif_neg]
  rw [ge_iff_le, UInt32.le_iff_toNat_le, UInt32.le_iff_toNat_le, hval]
  simp only [Char.reduceVal, UInt32.reduceToNat]
  omega

end LintHub.Text
