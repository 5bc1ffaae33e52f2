import LintHub.Path.Normal

/-!
# Components and their spelling

* `pieces_joinSegments` : segments joined with slashes are cut into the same segments.
* `Component.Proper` : the components that a text can spell below its head; `step?_text` reads one back.
* `components_of_isAbsolute` : an absolute path is the root and proper components.
* `components_ofComponents_root` : proper components below the root are read back from their text.
-/

namespace LintHub

open Text (pieces)

/-! ## Pieces -/

theorem pieces_ne_nil (sep : Char) (s : List Char) : pieces sep s ≠ [] := by
  induction s with
  | nil => simp [pieces]
  | cons c s ih =>
    rw [pieces]
    split
    · simp
    · split <;> simp

theorem sep_notMem_of_mem_pieces {sep : Char} {s p : List Char} (h : p ∈ pieces sep s) : sep ∉ p := by
  induction s generalizing p with
  | nil => simp_all [pieces]
  | cons c s ih =>
    rw [pieces] at h
    split at h
    · rcases List.mem_cons.1 h with rfl | h
      · simp
      · exact ih h
    · next hc =>
      split at h
      · next hnil => exact absurd hnil (pieces_ne_nil sep s)
      · next head tail hs =>
        rcases List.mem_cons.1 h with rfl | h
        · have := ih (p := head) (by simp [hs])
          simp [Ne.symm hc, this]
        · exact ih (by simp [hs, h])

theorem pieces_of_notMem {sep : Char} {s : List Char} (h : sep ∉ s) : pieces sep s = [s] := by
  induction s with
  | nil => rfl
  | cons c s ih =>
    rw [List.mem_cons, not_or] at h
    rw [pieces, if_neg (Ne.symm h.1), ih h.2]

theorem pieces_append_sep {sep : Char} {p : List Char} (s : List Char) (h : sep ∉ p) :
    pieces sep (p ++ sep :: s) = p :: pieces sep s := by
  induction p with
  | nil => simp [pieces]
  | cons c p ih =>
    rw [List.mem_cons, not_or] at h
    rw [List.cons_append, pieces, if_neg (Ne.symm h.1), ih h.2]

namespace Path

theorem joinSegments_cons_cons (p q : List Char) (rest : List (List Char)) :
    joinSegments (p :: q :: rest) = p ++ '/' :: joinSegments (q :: rest) := by
  simp [joinSegments]

@[simp] theorem joinSegments_singleton (p : List Char) : joinSegments [p] = p := by simp [joinSegments]

theorem pieces_joinSegments {segs : List (List Char)} (hne : segs ≠ []) (h : ∀ p ∈ segs, '/' ∉ p) :
    pieces '/' (joinSegments segs) = segs := by
  induction segs with
  | nil => exact absurd rfl hne
  | cons p segs ih =>
    cases segs with
    | nil => rw [joinSegments_singleton, pieces_of_notMem (h p (by simp))]
    | cons q rest =>
      rw [joinSegments_cons_cons, pieces_append_sep _ (h p (by simp)),
        ih (by simp) fun r hr => h r (by simp [hr])]

/-! ## One component -/

/-- A step up, or a name that a segment can spell. -/
def Component.Proper : Component → Prop
  | .up => True
  | .name n => '/' ∉ n.toList ∧ isIdle n.toList = false ∧ n.toList ≠ ['.', '.']
  | _ => False

theorem step?_text {c : Component} (h : c.Proper) : step? c.text.toList = some c := by
  cases c with
  | root => exact h.elim
  | here => exact h.elim
  | up => rfl
  | name n =>
    obtain ⟨-, hidle, hup⟩ := h
    simp [step?, Component.text, hidle, hup]

theorem proper_of_step? {p : List Char} {c : Component} (hp : '/' ∉ p) (h : step? p = some c) : c.Proper := by
  rw [step?] at h
  split at h
  · simp at h
  · next hidle =>
    split at h
    · cases h
      exact trivial
    · next hup =>
      cases h
      exact ⟨by simpa using hp, by simpa using hidle, by simpa using hup⟩

theorem slash_notMem_text {c : Component} (h : c.Proper) : '/' ∉ c.text.toList := by
  cases c with
  | root => exact h.elim
  | here => exact h.elim
  | up => decide
  | name n => exact h.1

theorem isIdle_text {c : Component} (h : c.Proper) : isIdle c.text.toList = false := by
  cases c with
  | root => exact h.elim
  | here => exact h.elim
  | up => decide
  | name n => exact h.2.1

theorem text_ne_nil {c : Component} (h : c.Proper) : c.text.toList ≠ [] := by
  intro hnil
  have := isIdle_text h
  simp [hnil, isIdle] at this

theorem proper_of_mem_steps {s : List Char} {c : Component} (h : c ∈ (pieces '/' s).filterMap step?) : c.Proper := by
  obtain ⟨p, hp, hc⟩ := List.mem_filterMap.1 h
  exact proper_of_step? (sep_notMem_of_mem_pieces hp) hc

theorem steps_texts {cs : List Component} (h : ∀ c ∈ cs, c.Proper) :
    (cs.map fun c => c.text.toList).filterMap step? = cs := by
  induction cs with
  | nil => rfl
  | cons c cs ih =>
    rw [List.map_cons, List.filterMap_cons, step?_text (h c (by simp)), ih fun d hd => h d (by simp [hd])]

/-! ## Whole paths -/

theorem isAbsolute_iff {p : Path} : p.isAbsolute = true ↔ ∃ s, p.text.toList = '/' :: s := by
  rw [isAbsolute, beq_iff_eq, List.head?_eq_some_iff]

/-- An absolute path is the root and what its other segments spell. -/
theorem components_of_isAbsolute {p : Path} (h : p.isAbsolute = true) :
    ∃ cs, p.components = .root :: cs ∧ ∀ c ∈ cs, c.Proper := by
  obtain ⟨s, hs⟩ := isAbsolute_iff.1 h
  refine ⟨(pieces '/' s).filterMap step?, ?_, fun c hc => proper_of_mem_steps hc⟩
  rw [components, hs, componentsOf]

/-- A text to which a step can be appended. -/
def opened (base : List Char) : List Char :=
  if base.isEmpty || base.getLast? == some '/' then base else base ++ ['/']

theorem appendStep_eq (base step : List Char) : appendStep base step = opened base ++ step := by
  unfold appendStep opened
  split <;> simp

theorem opened_append {c : Component} (base : List Char) (h : c.Proper) :
    opened (base ++ c.text.toList) = base ++ c.text.toList ++ ['/'] := by
  obtain ⟨last, hlast⟩ := Option.ne_none_iff_exists'.1 (mt List.getLast?_eq_none_iff.1 (text_ne_nil h))
  have hslash : last ≠ '/' := fun hl => slash_notMem_text h (hl ▸ List.mem_of_getLast? hlast)
  simp [opened, List.getLast?_append, hlast, hslash, text_ne_nil h]

theorem foldl_appendStep {cs : List Component} (base : List Char) (hne : cs ≠ []) (h : ∀ c ∈ cs, c.Proper) :
    cs.foldl (fun text c => if c = .root then ['/'] else appendStep text c.text.toList) base =
      opened base ++ joinSegments (cs.map fun c => c.text.toList) := by
  induction cs generalizing base with
  | nil => exact absurd rfl hne
  | cons c cs ih =>
    have hc : c.Proper := h c (by simp)
    have hroot : c ≠ .root := by rintro rfl; exact hc
    rw [List.foldl_cons, if_neg hroot, appendStep_eq]
    cases cs with
    | nil => simp
    | cons d cs =>
      rw [ih _ (by simp) fun e he => h e (by simp [he]), opened_append _ hc, List.map_cons, List.map_cons,
        List.map_cons, joinSegments_cons_cons]
      simp

theorem toList_text_ofComponents_root {cs : List Component} (h : ∀ c ∈ cs, c.Proper) :
    (ofComponents (.root :: cs)).text.toList = '/' :: joinSegments (cs.map fun c => c.text.toList) := by
  rw [ofComponents, String.toList_ofList, List.foldl_cons, if_pos rfl]
  cases cs with
  | nil => rfl
  | cons c cs => rw [foldl_appendStep _ (by simp) h]; rfl

/-- Proper components below the root are read back from their text. -/
theorem components_ofComponents_root {cs : List Component} (h : ∀ c ∈ cs, c.Proper) :
    (ofComponents (.root :: cs)).components = .root :: cs := by
  rw [components, toList_text_ofComponents_root h, componentsOf]
  congr 1
  cases cs with
  | nil => rfl
  | cons c cs =>
    have hslash : ∀ p ∈ (c :: cs).map fun c => c.text.toList, '/' ∉ p := by
      intro p hp
      obtain ⟨d, hd, rfl⟩ := List.mem_map.1 hp
      exact slash_notMem_text (h d hd)
    rw [pieces_joinSegments (by simp) hslash, steps_texts h]

end Path

end LintHub
