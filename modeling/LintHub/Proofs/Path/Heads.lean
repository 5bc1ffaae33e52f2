import LintHub.Proofs.Path.Segments

/-!
# Heads of paths

A text is its head and its segments. With less segments it is the start of the text.

* `ofHead_splitHead` : a text is put together again from its head and its segments.
* `prefix_ofHead_append` : a text with some of the segments is the start of the whole text.
* `Path.withSegments` : the path with other segments. `parent?_of_segments` and `trimEnd_eq` are of this form.
-/

namespace LintHub.Path

open Text (pieces)

variable {head : List Char} {segs : List (List Char)}

theorem joinSegments_pieces (s : List Char) : joinSegments (pieces '/' s) = s := by
  induction s with
  | nil => rfl
  | cons c s ih =>
    rw [pieces]
    cases hs : pieces '/' s with
    | nil => exact absurd hs (pieces_ne_nil '/' s)
    | cons first rest =>
      rw [hs] at ih
      split
      · next hc => rw [joinSegments_cons_cons, ih, hc, List.nil_append]
      · show joinSegments ((c :: first) :: rest) = c :: s
        rw [← ih]
        cases rest with
        | nil => rw [joinSegments_singleton, joinSegments_singleton]
        | cons next rest => rw [joinSegments_cons_cons, joinSegments_cons_cons, List.cons_append]

theorem prefix_joinSegments_append (segs more : List (List Char)) :
    joinSegments segs <+: joinSegments (segs ++ more) := by
  induction segs with
  | nil => exact List.nil_prefix
  | cons s segs ih =>
    cases segs with
    | nil =>
      cases more with
      | nil => exact List.prefix_rfl
      | cons t more =>
        rw [joinSegments_singleton, List.singleton_append, joinSegments_cons_cons]
        exact List.prefix_append s _
    | cons t segs =>
      rw [joinSegments_cons_cons, List.cons_append, List.cons_append, joinSegments_cons_cons]
      rw [List.cons_append] at ih
      exact (List.prefix_append_right_inj s).2 ((List.cons_prefix_cons).2 ⟨rfl, ih⟩)

/-! ## Heads -/

/-- What stands before the segments of a text: the root, a dot, or nothing. -/
inductive IsHead : List Char → Prop where
  | root : IsHead ['/']
  | here : IsHead ['.']
  | none : IsHead []

theorem ofHead_root (segs : List (List Char)) : ofHead (['/'], segs) = '/' :: joinSegments segs := by
  rw [ofHead] <;> simp

theorem ofHead_here_cons (s : List Char) (segs : List (List Char)) :
    ofHead (['.'], s :: segs) = '.' :: '/' :: joinSegments (s :: segs) := by
  rw [ofHead]
  simp

theorem ofHead_none (segs : List (List Char)) : ofHead ([], segs) = joinSegments segs := by
  rw [ofHead] <;> simp

/-- The cases of a text's head. -/
theorem splitHead_cases (s : List Char) :
    (∃ t, s = '/' :: t ∧ splitHead s = (['/'], pieces '/' t)) ∨
      (∃ rest, pieces '/' s = ['.'] :: rest ∧ splitHead s = (['.'], rest)) ∨
      (s.head? ≠ some '/' ∧ (pieces '/' s).head? ≠ some ['.'] ∧ splitHead s = ([], pieces '/' s)) := by
  unfold splitHead
  split
  · next t => exact .inl ⟨t, rfl, rfl⟩
  · next hroot =>
    split
    · next rest hpieces => exact .inr (.inl ⟨rest, hpieces, rfl⟩)
    · next hdot =>
      refine .inr (.inr ⟨?_, ?_, rfl⟩)
      · intro hhead
        obtain ⟨t, ht⟩ := List.head?_eq_some_iff.1 hhead
        exact hroot t ht
      · intro hhead
        obtain ⟨rest, hrest⟩ := List.head?_eq_some_iff.1 hhead
        exact hdot rest hrest

theorem isHead_splitHead (s : List Char) : IsHead (splitHead s).1 := by
  rcases splitHead_cases s with ⟨t, -, hsplit⟩ | ⟨rest, -, hsplit⟩ | ⟨-, -, hsplit⟩
  · rw [hsplit]
    exact .root
  · rw [hsplit]
    exact .here
  · rw [hsplit]
    exact .none

theorem slash_notMem_of_mem_splitHead {s seg : List Char} (h : seg ∈ (splitHead s).2) : '/' ∉ seg := by
  rcases splitHead_cases s with ⟨t, -, hsplit⟩ | ⟨rest, hpieces, hsplit⟩ | ⟨-, -, hsplit⟩
  · rw [hsplit] at h
    exact sep_notMem_of_mem_pieces h
  · rw [hsplit] at h
    apply sep_notMem_of_mem_pieces (s := s)
    rw [hpieces]
    exact List.mem_cons_of_mem _ h
  · rw [hsplit] at h
    exact sep_notMem_of_mem_pieces h

/-- A text is its head and its segments. -/
theorem ofHead_splitHead (s : List Char) : ofHead (splitHead s) = s := by
  rcases splitHead_cases s with ⟨t, rfl, hsplit⟩ | ⟨rest, hpieces, hsplit⟩ | ⟨-, -, hsplit⟩
  · rw [hsplit, ofHead_root, joinSegments_pieces]
  · have hs := joinSegments_pieces s
    rw [hpieces] at hs
    rw [hsplit]
    cases rest with
    | nil => rw [← hs, joinSegments_singleton, ofHead]
    | cons next rest => rw [ofHead_here_cons, ← hs, joinSegments_cons_cons, List.singleton_append]
  · rw [hsplit, ofHead_none, joinSegments_pieces]

/-- Some of the segments make the start of a text. -/
theorem prefix_ofHead_append (hhead : IsHead head) (segs more : List (List Char)) :
    ofHead (head, segs) <+: ofHead (head, segs ++ more) := by
  have hjoin := prefix_joinSegments_append segs more
  cases hhead with
  | root =>
    rw [ofHead_root, ofHead_root]
    exact List.cons_prefix_cons.2 ⟨rfl, hjoin⟩
  | none =>
    rw [ofHead_none, ofHead_none]
    exact hjoin
  | here =>
    cases segs with
    | nil =>
      cases more with
      | nil => exact List.prefix_rfl
      | cons t more =>
        rw [List.nil_append, ofHead_here_cons, ofHead]
        exact List.prefix_append ['.'] _
    | cons s segs =>
      rw [ofHead_here_cons, List.cons_append, ofHead_here_cons]
      exact List.cons_prefix_cons.2 ⟨rfl, List.cons_prefix_cons.2 ⟨rfl, hjoin⟩⟩

/-- Without its idle end, a text keeps a segment or its head. -/
theorem ofHead_dropIdleEnd_ne_nil {s : List Char} (h : s ≠ []) :
    ofHead ((splitHead s).1, dropIdleEnd (splitHead s).2) ≠ [] := by
  rcases splitHead_cases s with ⟨t, -, hsplit⟩ | ⟨rest, -, hsplit⟩ | ⟨hroot, hdot, hsplit⟩
  · rw [hsplit, ofHead_root]
    exact List.cons_ne_nil _ _
  · rw [hsplit]
    cases dropIdleEnd rest with
    | nil =>
      rw [ofHead]
      exact List.cons_ne_nil _ _
    | cons first rest =>
      rw [ofHead_here_cons]
      exact List.cons_ne_nil _ _
  · rw [hsplit, ofHead_none]
    -- Without a head, the first segment is a step, and is kept.
    have hjoin := joinSegments_pieces s
    cases hpieces : pieces '/' s with
    | nil => exact absurd hpieces (pieces_ne_nil '/' s)
    | cons first rest =>
      rw [hpieces] at hjoin hdot
      have hfirst : first ≠ [] := by
        rintro rfl
        cases rest with
        | nil => exact h hjoin.symm
        | cons next rest =>
          rw [joinSegments_cons_cons, List.nil_append] at hjoin
          exact hroot (by rw [← hjoin]; rfl)
      have hstep : isIdle first = false := by
        rw [isIdle, Bool.or_eq_false_iff, List.isEmpty_eq_false_iff, beq_eq_false_iff_ne]
        exact ⟨hfirst, fun hfirst => hdot (by rw [hfirst]; rfl)⟩
      obtain ⟨idle, hkept, hidle⟩ := exists_dropIdleEnd (first :: rest)
      cases hdrop : dropIdleEnd (first :: rest) with
      | nil =>
        rw [hdrop, List.nil_append] at hkept
        have hfirst := hidle first (by rw [← hkept]; exact List.mem_cons_self)
        rw [hstep] at hfirst
        cases hfirst
      | cons other kept =>
        rw [hdrop, List.cons_append] at hkept
        obtain ⟨rfl, -⟩ := List.cons.inj hkept
        intro hnil
        have hhead := head?_joinSegments kept hfirst
        rw [hnil] at hhead
        exact hfirst (List.head?_eq_none_iff.1 hhead.symm)

/-! ## Paths of fewer segments -/

/-- The segments of a path, after its head. -/
def segments (p : Path) : List (List Char) := (splitHead p.text.toList).2

/-- The path with the same head and other segments. -/
def withSegments (p : Path) (segs : List (List Char)) : Path :=
  ⟨String.ofList (ofHead ((splitHead p.text.toList).1, segs))⟩

theorem toList_withSegments (p : Path) (segs : List (List Char)) :
    (p.withSegments segs).text.toList = ofHead ((splitHead p.text.toList).1, segs) := String.toList_ofList

@[simp] theorem withSegments_segments (p : Path) : p.withSegments p.segments = p := by
  have htext : ofHead ((splitHead p.text.toList).1, p.segments) = p.text.toList := ofHead_splitHead p.text.toList
  rw [withSegments, htext, String.ofList_toList]

theorem trimEnd_eq (p : Path) : p.trimEnd = p.withSegments (dropIdleEnd p.segments) := rfl

theorem prefix_withSegments {p : Path} (h : segs <+: p.segments) :
    (p.withSegments segs).text.toList <+: p.text.toList := by
  obtain ⟨more, hmore⟩ := h
  conv_rhs => rw [← p.withSegments_segments]
  rw [toList_withSegments, toList_withSegments, ← hmore]
  exact prefix_ofHead_append (isHead_splitHead p.text.toList) segs more

theorem isAbsolute_withSegments {p : Path} (h : segs <+: p.segments) (hne : (p.withSegments segs).text ≠ "") :
    (p.withSegments segs).isAbsolute = p.isAbsolute := by
  obtain ⟨more, hmore⟩ := prefix_withSegments h
  rw [isAbsolute, isAbsolute, ← hmore, List.head?_append_of_ne_nil _ (mt String.toList_eq_nil_iff.1 hne)]

theorem trimEnd_text_ne {p : Path} (h : p.text ≠ "") : p.trimEnd.text ≠ "" := by
  intro hnil
  have htext := toList_withSegments p (dropIdleEnd p.segments)
  rw [← trimEnd_eq, String.toList_eq_nil_iff.2 hnil] at htext
  exact ofHead_dropIdleEnd_ne_nil (mt String.toList_eq_nil_iff.1 h) htext.symm

/-- A path that ends with a step has a parent. -/
theorem parent?_of_segments {p : Path} {last : List Char} (h : p.segments = segs ++ [last])
    (hlast : isIdle last = false) : p.parent? = some (p.withSegments (dropIdleEnd segs)) := by
  have hkept : dropIdleEnd (segs ++ [last]) = segs ++ [last] := by
    rw [dropIdleEnd, List.reverse_append, List.reverse_singleton, List.singleton_append,
      List.dropWhile_cons_of_neg (by simp [hlast])]
    simp
  have hsplit : splitHead p.text.toList = ((splitHead p.text.toList).1, segs ++ [last]) := by rw [← h]; rfl
  rw [parent?, hsplit]
  dsimp only
  rw [hkept]
  split
  · next hnil => simp at hnil
  · rw [List.dropLast_concat]
    rfl

end LintHub.Path
