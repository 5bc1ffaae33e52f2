import LintHub.Proofs.Path.Normal

/-!
# Segments of paths

* `pieces_append_sep_append` : a text is cut at each of its separators.
* `steps_dropIdleEnd`, `steps_dropSteps` : which steps are left of segments.
* `componentsOf_joinSegments` : segments that do not start like a head are read back as their steps. So are the texts of
  steps, with slashes between them (`components_intercalate`).
* `components_join` : the components of a path seen from a root.
* `components_relativeTo` : the components of an absolute path after those of a base. They do not depend on its
  spelling (`components_relativeTo_of_same`), and `components_relativeTo_join` undoes `join`.
* `components_join_relativeTo` : what is below a base goes on from it to the whole path.
* `pieces_of_same` : two spellings of an absolute path differ in idle segments only.
-/

namespace LintHub

open Text (pieces)

theorem pieces_append_sep_append (sep : Char) (s t : List Char) :
    pieces sep (s ++ sep :: t) = pieces sep s ++ pieces sep t := by
  induction s with
  | nil => simp [pieces]
  | cons c s ih =>
    rw [List.cons_append, pieces, pieces]
    split
    · rw [ih, List.cons_append]
    · rw [ih]
      cases hs : pieces sep s with
      | nil => exact absurd hs (pieces_ne_nil sep s)
      | cons head tail => rfl

theorem mem_iff_exists_mem_pieces {sep c : Char} {s : List Char} (hc : c ≠ sep) :
    c ∈ s ↔ ∃ p ∈ pieces sep s, c ∈ p := by
  induction s with
  | nil => simp [pieces]
  | cons x s ih =>
    rw [List.mem_cons, pieces, ih]
    split
    · next hx => simp [hx, hc]
    · cases hs : pieces sep s with
      | nil => exact absurd hs (pieces_ne_nil sep s)
      | cons head tail => simp [or_assoc]

namespace Path

variable {segs : List (List Char)}

/-! ## Steps -/

theorem step?_of_isIdle {s : List Char} (h : isIdle s = true) : step? s = none := by
  rw [step?, if_pos h]

theorem isSome_step? {s : List Char} (h : isIdle s = false) : ∃ c, step? s = some c := by
  rw [step?, if_neg (by simp [h])]
  split
  · exact ⟨_, rfl⟩
  · exact ⟨_, rfl⟩

/-- The segments that are not idle can be told from the steps. -/
theorem texts_steps (segs : List (List Char)) :
    (segs.filterMap step?).map (fun c => c.text.toList) = segs.filter fun s => !isIdle s := by
  induction segs with
  | nil => rfl
  | cons s segs ih =>
    rw [List.filterMap_cons]
    cases hidle : isIdle s with
    | true =>
      rw [step?_of_isIdle hidle, List.filter_cons_of_neg (by simp [hidle])]
      exact ih
    | false =>
      have htext : ∃ c, step? s = some c ∧ c.text.toList = s := by
        rw [step?, if_neg (by simp [hidle])]
        split
        · next hup => exact ⟨_, rfl, (beq_iff_eq.1 hup).symm⟩
        · exact ⟨_, rfl, String.toList_ofList⟩
      obtain ⟨c, hc, hs⟩ := htext
      rw [hc, List.filter_cons_of_pos (by simp [hidle]), List.map_cons, hs, ih]

theorem steps_of_idle (h : ∀ s ∈ segs, isIdle s = true) : segs.filterMap step? = [] := by
  rw [List.filterMap_eq_nil_iff]
  intro s hs
  exact step?_of_isIdle (h s hs)

theorem steps_dropWhile (segs : List (List Char)) : (segs.dropWhile isIdle).filterMap step? = segs.filterMap step? := by
  conv_rhs => rw [← List.takeWhile_append_dropWhile (p := isIdle) (l := segs)]
  rw [List.filterMap_append, steps_of_idle fun s hs => List.mem_takeWhile_imp hs, List.nil_append]

/-- The segments are those that are kept and idle ones. -/
theorem exists_dropIdleEnd (segs : List (List Char)) :
    ∃ idle, segs = dropIdleEnd segs ++ idle ∧ ∀ s ∈ idle, isIdle s = true := by
  refine ⟨(segs.reverse.takeWhile isIdle).reverse, ?_, ?_⟩
  · rw [dropIdleEnd, ← List.reverse_append, List.takeWhile_append_dropWhile, List.reverse_reverse]
  · intro s hs
    exact List.mem_takeWhile_imp (List.mem_reverse.1 hs)

theorem mem_of_mem_dropIdleEnd {s : List Char} (h : s ∈ dropIdleEnd segs) : s ∈ segs := by
  obtain ⟨idle, hsegs, -⟩ := exists_dropIdleEnd segs
  rw [hsegs]
  exact List.mem_append_left _ h

theorem head?_of_head?_dropIdleEnd {s : List Char} (h : s ∈ (dropIdleEnd segs).head?) : segs.head? = some s := by
  obtain ⟨idle, hsegs, -⟩ := exists_dropIdleEnd segs
  rw [hsegs, List.head?_append, h, Option.some_or]

theorem isIdle_of_mem_getLast?_dropIdleEnd {s : List Char} (h : s ∈ (dropIdleEnd segs).getLast?) :
    isIdle s = false := by
  rw [dropIdleEnd, List.getLast?_reverse] at h
  have hnot := List.head?_dropWhile_not isIdle segs.reverse
  rw [h] at hnot
  exact hnot

theorem steps_dropIdleEnd (segs : List (List Char)) : (dropIdleEnd segs).filterMap step? = segs.filterMap step? := by
  obtain ⟨idle, hsegs, hidle⟩ := exists_dropIdleEnd segs
  conv_rhs => rw [hsegs]
  rw [List.filterMap_append, steps_of_idle hidle, List.append_nil]

theorem steps_dropSteps (n : Nat) (segs : List (List Char)) :
    (dropSteps n segs).filterMap step? = (segs.filterMap step?).drop n := by
  induction segs generalizing n with
  | nil => cases n <;> rfl
  | cons s rest ih =>
    cases n with
    | zero => rfl
    | succ n =>
      rw [dropSteps]
      split
      · next hidle => rw [ih, List.filterMap_cons, step?_of_isIdle hidle]
      · next hidle =>
        obtain ⟨c, hc⟩ := isSome_step? (by simpa using hidle)
        rw [ih, List.filterMap_cons, hc, List.drop_succ_cons]

theorem dropSteps_suffix (n : Nat) (segs : List (List Char)) : dropSteps n segs <:+ segs := by
  induction segs generalizing n with
  | nil => cases n <;> exact List.suffix_refl []
  | cons s rest ih =>
    cases n with
    | zero => exact List.suffix_refl _
    | succ n =>
      rw [dropSteps]
      split
      · exact (ih _).trans (List.suffix_cons s rest)
      · exact (ih _).trans (List.suffix_cons s rest)

/-! ## Texts of segments -/

theorem steps_pieces_joinSegments (hslash : ∀ s ∈ segs, '/' ∉ s) :
    (pieces '/' (joinSegments segs)).filterMap step? = segs.filterMap step? := by
  by_cases hnil : segs = []
  · rw [hnil]
    rfl
  · rw [pieces_joinSegments hnil hslash]

/-- A text without a head spells the steps of its pieces. -/
theorem componentsOf_of_headless {cs : List Char} (hroot : cs.head? ≠ some '/')
    (hdot : (pieces '/' cs).head? ≠ some ['.']) : componentsOf cs = (pieces '/' cs).filterMap step? := by
  unfold componentsOf
  split
  · exact absurd rfl hroot
  · split
    · next hpieces => exact absurd (by rw [hpieces]; rfl) hdot
    · rfl

theorem head?_joinSegments {s : List Char} (rest : List (List Char)) (h : s ≠ []) :
    (joinSegments (s :: rest)).head? = s.head? := by
  cases rest with
  | nil => rw [joinSegments_singleton]
  | cons t rest => rw [joinSegments_cons_cons, List.head?_append_of_ne_nil s h]

theorem componentsOf_joinSegments (hslash : ∀ s ∈ segs, '/' ∉ s) (hfirst : ∀ s ∈ segs.head?, isIdle s = false) :
    componentsOf (joinSegments segs) = segs.filterMap step? := by
  cases segs with
  | nil => rfl
  | cons s rest =>
    have hs : isIdle s = false := hfirst s rfl
    rw [isIdle, Bool.or_eq_false_iff, List.isEmpty_eq_false_iff, beq_eq_false_iff_ne] at hs
    have hpieces : pieces '/' (joinSegments (s :: rest)) = s :: rest := pieces_joinSegments (by simp) hslash
    rw [componentsOf_of_headless, hpieces]
    · rw [head?_joinSegments rest hs.1]
      exact fun hhead => hslash s (by simp) (List.mem_of_mem_head? hhead)
    · rw [hpieces]
      simpa using hs.2

theorem componentsOf_texts {cs : List Component} (h : ∀ c ∈ cs, c.Proper) :
    componentsOf (joinSegments (cs.map fun c => c.text.toList)) = cs := by
  rw [componentsOf_joinSegments, steps_texts h]
  · intro s hs
    obtain ⟨c, hc, rfl⟩ := List.mem_map.1 hs
    exact slash_notMem_text (h c hc)
  · intro s hs
    obtain ⟨c, hc, rfl⟩ := List.mem_map.1 (List.mem_of_mem_head? hs)
    exact isIdle_text (h c hc)

theorem components_intercalate {cs : List Component} (h : ∀ c ∈ cs, c.Proper) :
    (Path.mk ("/".intercalate (cs.map Component.text))).components = cs := by
  have htext : ("/".intercalate (cs.map Component.text)).toList = joinSegments (cs.map fun c => c.text.toList) := by
    rw [String.toList_intercalate, List.map_map]
    rfl
  rw [components, htext, componentsOf_texts h]

/-! ## Paths seen from others -/

theorem components_of_relative {p : Path} (hp : p.isAbsolute = false) (hdot : p.components.head? ≠ some .here) :
    p.components = (pieces '/' p.text.toList).filterMap step? := by
  apply componentsOf_of_headless
  · exact beq_eq_false_iff_ne.1 hp
  · intro hpieces
    apply hdot
    obtain ⟨rest, hrest⟩ := List.head?_eq_some_iff.1 hpieces
    rw [components, componentsOf]
    · rw [hrest]
      rfl
    · intro rest' htext
      rw [isAbsolute, htext] at hp
      cases hp

theorem root_notMem_components {p : Path} (hp : p.isAbsolute = false) : .root ∉ p.components := by
  have hsteps (s : List Char) : Component.root ∉ (pieces '/' s).filterMap step? := by
    intro h
    exact proper_of_mem_steps h
  have hrest {first : List Char} {rest : List (List Char)} (h : pieces '/' p.text.toList = first :: rest) :
      Component.root ∉ rest.filterMap step? := by
    intro hmem
    apply hsteps p.text.toList
    rw [h]
    exact (List.Sublist.filterMap step? (List.sublist_cons_self first rest)).subset hmem
  rw [components]
  unfold componentsOf
  split
  · next htext => exact absurd (isAbsolute_iff.2 ⟨_, htext⟩) (by simp [hp])
  · split
    · next hpieces => simpa using hrest hpieces
    · exact hsteps _

theorem isAbsolute_iff_root_mem {p : Path} : p.isAbsolute = true ↔ .root ∈ p.components := by
  constructor
  · intro h
    obtain ⟨cs, hcs, -⟩ := components_of_isAbsolute h
    rw [hcs]
    exact List.mem_cons_self
  · intro h
    by_contra hp
    exact root_notMem_components (by simpa using hp) h

theorem isAbsolute_eq_of_same {p q : Path} (h : p.components = q.components) : p.isAbsolute = q.isAbsolute := by
  rw [Bool.eq_iff_iff, isAbsolute_iff_root_mem, isAbsolute_iff_root_mem, h]

theorem isAbsolute_of_isAbsolute_join {base p : Path} (hp : p.isAbsolute = false)
    (h : (base.join p).isAbsolute = true) : base.isAbsolute = true := by
  rw [isAbsolute_iff] at h ⊢
  obtain ⟨s, hs⟩ := h
  rw [join, hp] at hs
  simp only [Bool.false_eq_true, if_false, String.toList_ofList, appendStep] at hs
  cases hbase : base.text.toList with
  | nil =>
    rw [hbase] at hs
    exact absurd (isAbsolute_iff.2 ⟨s, hs⟩) (by simp [hp])
  | cons c cs =>
    rw [hbase] at hs
    split at hs <;> simp_all

/-- A relative path that starts with no dot goes on where an absolute one ends. -/
theorem components_join {root p : Path} (hroot : root.isAbsolute = true) (hp : p.isAbsolute = false)
    (hdot : p.components.head? ≠ some .here) : (root.join p).components = root.components ++ p.components := by
  obtain ⟨s, hs⟩ := isAbsolute_iff.1 hroot
  have hroots : root.components = .root :: (pieces '/' s).filterMap step? := by
    rw [components, hs, componentsOf]
  rw [components_of_relative hp hdot, hroots, join, hp, components]
  simp only [Bool.false_eq_true, if_false, String.toList_ofList, appendStep_eq, hs]
  by_cases hend : ('/' :: s).getLast? = some '/'
  · rw [opened, if_pos (by simp [hend]), List.cons_append, componentsOf, List.cons_append]
    congr 1
    -- The slash at the end of the root is the only one, or there is one more segment, which is empty.
    cases s using List.reverseRecOn with
    | nil => rfl
    | append_singleton s c =>
      rw [← List.cons_append, List.getLast?_concat, Option.some.injEq] at hend
      subst hend
      rw [List.append_assoc, List.singleton_append, pieces_append_sep_append, pieces_append_sep_append,
        List.filterMap_append, List.filterMap_append]
      simp [pieces, step?, isIdle]
  · rw [opened, if_neg (by simp [hend]), List.append_assoc, List.cons_append, componentsOf, List.singleton_append,
      pieces_append_sep_append, List.filterMap_append, List.cons_append]

theorem components_trimEnd_of_isAbsolute {p : Path} (hp : p.isAbsolute = true) :
    p.trimEnd.components = p.components := by
  obtain ⟨s, hs⟩ := isAbsolute_iff.1 hp
  have hslash : ∀ t ∈ dropIdleEnd (pieces '/' s), '/' ∉ t := by
    intro t ht
    exact sep_notMem_of_mem_pieces (mem_of_mem_dropIdleEnd ht)
  have htext : p.trimEnd.text.toList = '/' :: joinSegments (dropIdleEnd (pieces '/' s)) := by
    rw [trimEnd, hs, splitHead, String.toList_ofList, ofHead]
    · rfl
    all_goals simp
  rw [components, htext, components, hs, componentsOf, componentsOf, steps_pieces_joinSegments hslash,
    steps_dropIdleEnd]

/-- What is below a base with a component is the text of segments, and neither the first nor the last of them is
idle. -/
theorem exists_segments_relativeTo {base p : Path} (hp : p.isAbsolute = true) (hbase : base.components ≠ [])
    (h : base.components <+: p.components) :
    ∃ segs, (relativeTo base p).text.toList = joinSegments segs ∧ (∀ s ∈ segs, '/' ∉ s) ∧
      (∀ s ∈ segs.head?, isIdle s = false) ∧ (∀ s ∈ segs.getLast?, isIdle s = false) ∧
      segs.filterMap step? = p.components.drop base.components.length := by
  obtain ⟨s, hs⟩ := isAbsolute_iff.1 hp
  obtain ⟨n, hn⟩ := Nat.exists_eq_succ_of_ne_zero (mt List.length_eq_zero_iff.1 hbase)
  refine ⟨dropIdleEnd ((dropSteps n (pieces '/' s)).dropWhile isIdle), ?_, ?_, ?_, ?_, ?_⟩
  · rw [relativeTo, stripPrefix?, if_pos (List.isPrefixOf_iff_prefix.2 h), hn, hs, Option.getD_some]
    exact String.toList_ofList
  · intro t ht
    apply sep_notMem_of_mem_pieces (s := s)
    apply (dropSteps_suffix n _).subset
    exact (List.dropWhile_sublist _).subset (mem_of_mem_dropIdleEnd ht)
  · intro t ht
    have hnot := List.head?_dropWhile_not isIdle (dropSteps n (pieces '/' s))
    rw [head?_of_head?_dropIdleEnd ht] at hnot
    exact hnot
  · exact fun t ht => isIdle_of_mem_getLast?_dropIdleEnd ht
  · rw [steps_dropIdleEnd, steps_dropWhile, steps_dropSteps, hn, components, hs, componentsOf, List.drop_succ_cons]

/-- What an absolute path is below a base are its components after those of the base. -/
theorem components_relativeTo {base p : Path} (hp : p.isAbsolute = true) (h : base.components <+: p.components) :
    (relativeTo base p).components = p.components.drop base.components.length := by
  by_cases hbase : base.components = []
  · rw [relativeTo, stripPrefix?, if_pos (List.isPrefixOf_iff_prefix.2 h), hbase, List.length_nil, Option.getD_some,
      components_trimEnd_of_isAbsolute hp, List.drop_zero]
  · obtain ⟨segs, htext, hslash, hfirst, -, hsteps⟩ := exists_segments_relativeTo hp hbase h
    rw [components, htext, componentsOf_joinSegments hslash hfirst, hsteps]

theorem relativeTo_of_not_below {base p : Path} (h : ¬ base.components <+: p.components) : relativeTo base p = p := by
  rw [relativeTo, stripPrefix?, if_neg (mt List.isPrefixOf_iff_prefix.1 h), Option.getD_none]

/-- Two spellings of an absolute path are the same path below a base. -/
theorem components_relativeTo_of_same {p q : Path} (base : Path) (hp : p.isAbsolute = true)
    (h : p.components = q.components) : (relativeTo base p).components = (relativeTo base q).components := by
  by_cases hbelow : base.components <+: p.components
  · rw [components_relativeTo hp hbelow, h,
      components_relativeTo (isAbsolute_eq_of_same h ▸ hp) (h ▸ hbelow)]
  · rw [relativeTo_of_not_below hbelow, h, relativeTo_of_not_below (h ▸ hbelow)]

/-- A relative path is seen from an absolute base as the path that it is there. -/
theorem components_relativeTo_join {base p : Path} (hbase : base.isAbsolute = true) (hp : p.isAbsolute = false)
    (hdot : p.components.head? ≠ some .here) :
    (relativeTo base (base.join p)).components = (relativeTo base p).components := by
  have hjoin := components_join hbase hp hdot
  have hnot : ¬ base.components <+: p.components := by
    intro hbelow
    exact root_notMem_components hp (hbelow.subset (isAbsolute_iff_root_mem.1 hbase))
  rw [components_relativeTo (isAbsolute_join p hbase) (by rw [hjoin]; exact List.prefix_append _ _), hjoin,
    List.drop_left, relativeTo_of_not_below hnot]

section Below

variable {base p : Path} (hbase : base.isAbsolute = true) (hp : p.isAbsolute = true)
  (hbelow : base.components <+: p.components)
include hbase hp hbelow

theorem proper_of_mem_relativeTo : ∀ c ∈ (relativeTo base p).components, c.Proper := by
  obtain ⟨cs, hcs, hproper⟩ := components_of_isAbsolute hp
  obtain ⟨bs, hbs, -⟩ := components_of_isAbsolute hbase
  rw [components_relativeTo hp hbelow, hcs, hbs, List.length_cons, List.drop_succ_cons]
  exact fun c hc => hproper c (List.mem_of_mem_drop hc)

theorem isAbsolute_relativeTo : (relativeTo base p).isAbsolute = false := by
  rw [Bool.eq_false_iff]
  exact fun habs => proper_of_mem_relativeTo hbase hp hbelow .root (isAbsolute_iff_root_mem.1 habs)

/-- A path that goes on from a base does not end with an idle segment, however it is spelled itself. -/
theorem isIdle_of_mem_getLast?_join (hne : p.components ≠ base.components) {s : List Char}
    (h : s ∈ (pieces '/' (base.join (relativeTo base p)).text.toList).getLast?) : isIdle s = false := by
  have hroot : base.components ≠ [] := List.ne_nil_of_mem (isAbsolute_iff_root_mem.1 hbase)
  obtain ⟨segs, htext, hslash, -, hlast, hsteps⟩ := exists_segments_relativeTo hp hroot hbelow
  have hsegs : segs ≠ [] := by
    rintro rfl
    rw [List.filterMap_nil, eq_comm, List.drop_eq_nil_iff] at hsteps
    exact hne (hbelow.eq_of_length_le hsteps).symm
  obtain ⟨front, hfront⟩ : ∃ front, opened base.text.toList = front ++ ['/'] := by
    obtain ⟨t, ht⟩ := isAbsolute_iff.1 hbase
    rw [opened, ht]
    split
    · next hend => exact List.getLast?_eq_some_iff.1 (by simpa using hend)
    · exact ⟨_, rfl⟩
  have hjoin : (base.join (relativeTo base p)).text.toList = front ++ '/' :: joinSegments segs := by
    rw [join, isAbsolute_relativeTo hbase hp hbelow, if_neg (by decide), String.toList_ofList, appendStep_eq, hfront,
      htext, List.append_assoc, List.singleton_append]
  rw [hjoin, pieces_append_sep_append, pieces_joinSegments hsegs hslash, List.getLast?_append_of_ne_nil _ hsegs] at h
  exact hlast s h

end Below

/-- What is below a base goes on from it to the whole path. -/
theorem components_join_relativeTo {base p : Path} (hbase : base.isAbsolute = true) (hp : p.isAbsolute = true) :
    (base.join (relativeTo base p)).components = p.components := by
  by_cases hbelow : base.components <+: p.components
  · have hdot : (relativeTo base p).components.head? ≠ some .here :=
      fun hhead => proper_of_mem_relativeTo hbase hp hbelow .here (List.mem_of_mem_head? hhead)
    rw [components_join hbase (isAbsolute_relativeTo hbase hp hbelow) hdot, components_relativeTo hp hbelow]
    exact List.prefix_iff_eq_append.1 hbelow
  · rw [relativeTo_of_not_below hbelow, join, if_pos hp]

/-! ## Spellings -/

/-- Two spellings of an absolute path differ in idle segments only. -/
theorem pieces_of_same {p q : Path} (hp : p.isAbsolute = true) (h : p.components = q.components) :
    (pieces '/' p.text.toList).filter (fun s => !isIdle s) = (pieces '/' q.text.toList).filter fun s => !isIdle s := by
  have hsteps {p : Path} (hp : p.isAbsolute = true) :
      p.components = .root :: (pieces '/' p.text.toList).filterMap step? := by
    obtain ⟨s, hs⟩ := isAbsolute_iff.1 hp
    rw [components, hs, componentsOf, pieces, if_pos rfl, List.filterMap_cons, step?_of_isIdle (by rfl)]
  have hq : q.isAbsolute = true := isAbsolute_eq_of_same h ▸ hp
  rw [hsteps hp, hsteps hq, List.cons_inj_right] at h
  rw [← texts_steps, ← texts_steps, h]

theorem mem_text_of_same {p q : Path} {c : Char} (hp : p.isAbsolute = true) (h : p.components = q.components)
    (hslash : c ≠ '/') (hdot : c ≠ '.') (hc : c ∈ p.text.toList) : c ∈ q.text.toList := by
  obtain ⟨s, hs, hcs⟩ := (mem_iff_exists_mem_pieces hslash).1 hc
  have hidle : isIdle s = false := by
    rw [isIdle, Bool.or_eq_false_iff, List.isEmpty_eq_false_iff, beq_eq_false_iff_ne]
    constructor
    · rintro rfl
      cases hcs
    · rintro rfl
      exact hdot (List.mem_singleton.1 hcs)
  have hmem : s ∈ (pieces '/' p.text.toList).filter fun s => !isIdle s := List.mem_filter.2 ⟨hs, by simp [hidle]⟩
  rw [pieces_of_same hp h] at hmem
  exact (mem_iff_exists_mem_pieces hslash).2 ⟨s, (List.mem_filter.1 hmem).1, hcs⟩

end Path

end LintHub
