import LintHub.Proofs.Path.Segments

/-!
# Normal forms of paths

`Path.normalize` takes the components of a path one after another onto those that it has kept so far. Whatever the path,
the outcome is normal.

* `components_normalize_eq` : the outcome is read back from the text of the normal path.
* `steps_join` : a relative path goes on from any base, spelled in any way, and so, by `normalize_join`, from the base's
  normal form too.
* `normalize_normalForm` : all of this for a path, and for what a tool reports from a root.
-/

namespace LintHub.Path

open Text (pieces)

variable {cs done : List Component} {c d : Component} {p base : Path}

/-! ## Texts -/

theorem components_ofComponents (h : ∀ c ∈ cs, c.Proper) : (ofComponents cs).components = cs := by
  cases cs with
  | nil => rfl
  | cons c cs =>
    have htext : (ofComponents (c :: cs)).text.toList = joinSegments ((c :: cs).map fun c => c.text.toList) := by
      rw [ofComponents, String.toList_ofList, foldl_appendStep _ (List.cons_ne_nil c cs) h]
      rfl
    rw [components, htext, componentsOf_texts h]

theorem proper_of_mem_components (h : c ∈ p.components) : c = .root ∨ c = .here ∨ c.Proper := by
  rw [components] at h
  unfold componentsOf at h
  split at h
  · rcases List.mem_cons.1 h with rfl | h
    · exact .inl rfl
    · exact .inr (.inr (proper_of_mem_steps h))
  · split at h
    · next rest hpieces =>
      rcases List.mem_cons.1 h with rfl | h
      · exact .inr (.inl rfl)
      · refine .inr (.inr (proper_of_mem_steps (s := p.text.toList) ?_))
        rw [hpieces]
        exact h
    · exact .inr (.inr (proper_of_mem_steps h))

theorem components_normalize_eq (p : Path) : p.normalize.components = normalizeComponents p.components := by
  have hproper {names : List Component} (hnames : ∀ c ∈ names, c.IsName)
      (hsub : ∀ c ∈ names, c ∈ normalizeComponents p.components) : ∀ c ∈ names, c.Proper := by
    intro c hc
    rcases proper_of_mem_components (mem_of_mem_normalizeComponents (hsub c hc)) with rfl | rfl | hproper
    · exact (hnames .root hc).elim
    · exact (hnames .here hc).elim
    · exact hproper
  rw [normalize]
  rcases normal_normalizeComponents p.components with ⟨names, heq, hnames⟩ | ⟨k, names, heq, hnames⟩
  · rw [heq] at hproper ⊢
    exact components_ofComponents_root (hproper hnames fun c hc => List.mem_cons_of_mem _ hc)
  · rw [heq] at hproper ⊢
    apply components_ofComponents
    intro c hc
    rcases List.mem_append.1 hc with hup | hname
    · rw [List.eq_of_mem_replicate hup]
      exact trivial
    · exact hproper hnames (fun c hc => List.mem_append_right _ hc) c hname

theorem normalize_of_components {q : Path} (h : p.components = q.components) : p.normalize = q.normalize := by
  rw [normalize, normalize, h]

theorem normalize_normalize (p : Path) : p.normalize.normalize = p.normalize := by
  rw [normalize, components_normalize_eq, normalizeComponents_of_normal (normal_normalizeComponents _)]
  rfl

theorem isAbsolute_normalize_eq (p : Path) : p.normalize.isAbsolute = p.isAbsolute := by
  cases hp : p.isAbsolute with
  | true => exact isAbsolute_normalize hp
  | false =>
    rw [Bool.eq_false_iff]
    intro habs
    have hroot : .root ∈ normalizeComponents p.components := by
      rw [← components_normalize_eq]
      exact isAbsolute_iff_root_mem.1 habs
    exact root_notMem_components hp (mem_of_mem_normalizeComponents hroot)

/-- The components of the normal form: names below the root if the path is absolute, and otherwise steps up and
names. -/
theorem components_normalize_cases (p : Path) :
    (p.isAbsolute = true → ∃ names, p.normalize.components = .root :: names ∧ ∀ c ∈ names, c.IsName) ∧
    (p.isAbsolute = false →
      ∃ k names, p.normalize.components = List.replicate k .up ++ names ∧ ∀ c ∈ names, c.IsName) := by
  refine ⟨components_normalize, fun hp => ?_⟩
  rw [components_normalize_eq]
  rcases normal_normalizeComponents p.components with ⟨names, heq, -⟩ | hups
  · have hroot : .root ∈ normalizeComponents p.components := by
      rw [heq]
      exact List.mem_cons_self
    exact absurd (mem_of_mem_normalizeComponents hroot) (root_notMem_components hp)
  · exact hups

/-! ## Joins -/

/-- The steps that a path's segments name: its components without the root and without a leading dot. -/
def steps (p : Path) : List Component := (pieces '/' p.text.toList).filterMap step?

theorem components_of_absolute (hp : p.isAbsolute = true) : p.components = .root :: p.steps := by
  obtain ⟨s, hs⟩ := isAbsolute_iff.1 hp
  rw [components, steps, hs, componentsOf, pieces, if_pos rfl, List.filterMap_cons, step?_of_isIdle rfl]

/-- A leading dot does not matter to what is kept. -/
theorem foldl_pushComponent_of_relative (done : List Component) (hp : p.isAbsolute = false) :
    p.components.foldl pushComponent done = p.steps.foldl pushComponent done := by
  rw [components, steps]
  unfold componentsOf
  split
  · next htext => exact absurd (isAbsolute_iff.2 ⟨_, htext⟩) (by simp [hp])
  · split
    · next rest hpieces =>
      rw [hpieces, List.filterMap_cons, step?_of_isIdle rfl, List.foldl_cons]
      rfl
    · rfl

theorem steps_join (base : Path) (hp : p.isAbsolute = false) : (base.join p).steps = base.steps ++ p.steps := by
  have htext : (base.join p).text.toList = opened base.text.toList ++ p.text.toList := by
    rw [join, hp, if_neg (by decide), String.toList_ofList, appendStep_eq]
  rw [steps, steps, steps, htext]
  by_cases hnil : base.text.toList = []
  · rw [hnil]
    rfl
  · -- A slash ends the opened base, and the base has the steps of what is before it.
    obtain ⟨front, hopened, hfront⟩ : ∃ front, opened base.text.toList = front ++ ['/'] ∧
        (pieces '/' base.text.toList).filterMap step? = (pieces '/' front).filterMap step? := by
      rw [opened]
      split
      · next hend =>
        rw [Bool.or_eq_true, List.isEmpty_iff, beq_iff_eq] at hend
        obtain ⟨front, hfront⟩ := List.getLast?_eq_some_iff.1 (hend.resolve_left hnil)
        refine ⟨front, hfront, ?_⟩
        rw [hfront, pieces_append_sep_append, List.filterMap_append]
        exact List.append_nil _
      · exact ⟨_, rfl, rfl⟩
    rw [hopened, hfront, List.append_assoc, List.singleton_append, pieces_append_sep_append, List.filterMap_append]

theorem isAbsolute_join_eq (base : Path) (hp : p.isAbsolute = false) : (base.join p).isAbsolute = base.isAbsolute := by
  rw [Bool.eq_iff_iff]
  exact ⟨isAbsolute_of_isAbsolute_join hp, isAbsolute_join p⟩

/-- What is kept of a join is what is kept of the base, and then the steps of the other path are taken. -/
theorem foldl_pushComponent_join (base : Path) (hp : p.isAbsolute = false) :
    (base.join p).components.foldl pushComponent [] =
      p.steps.foldl pushComponent (base.components.foldl pushComponent []) := by
  have hjoin := isAbsolute_join_eq base hp
  cases hbase : base.isAbsolute with
  | true =>
    rw [hbase] at hjoin
    rw [components_of_absolute hjoin, components_of_absolute hbase, steps_join base hp, List.foldl_cons,
      List.foldl_cons, List.foldl_append]
  | false =>
    rw [hbase] at hjoin
    rw [foldl_pushComponent_of_relative [] hjoin, foldl_pushComponent_of_relative [] hbase, steps_join base hp,
      List.foldl_append]

theorem foldl_pushComponent_normalize (p : Path) :
    p.normalize.components.foldl pushComponent [] = p.components.foldl pushComponent [] := by
  apply List.reverse_injective
  show normalizeComponents p.normalize.components = normalizeComponents p.components
  rw [components_normalize_eq, normalizeComponents_of_normal (normal_normalizeComponents _)]

theorem normalize_join (base p : Path) : (base.join p).normalize = (base.normalize.join p).normalize := by
  cases hp : p.isAbsolute with
  | true => rw [join, join, if_pos hp, if_pos hp]
  | false =>
    rw [normalize, normalize, normalizeComponents, normalizeComponents, foldl_pushComponent_join base hp,
      foldl_pushComponent_join base.normalize hp, foldl_pushComponent_normalize]

/-! ## Normal forms -/

/-- A step up takes back the name before it. -/
theorem normalize_child_up {n : String} (base : Path) (hn : (Component.name n).Proper) :
    ((base.child n).child "..").normalize = base.normalize := by
  have hstep : step? n.toList = some (.name n) := step?_text hn
  have hslash : '/' ∉ n.toList := hn.1
  have hname : (Path.mk n).isAbsolute = false := by
    rw [Bool.eq_false_iff]
    intro habs
    obtain ⟨s, hs⟩ := isAbsolute_iff.1 habs
    apply hslash
    rw [hs]
    exact List.mem_cons_self
  have hsteps : (Path.mk n).steps = [.name n] := by
    rw [steps, pieces_of_notMem hslash, List.filterMap_cons, hstep]
    rfl
  have hback : (Path.mk "..").steps = [.up] := by decide
  have hkept : ((base.child n).child "..").components.foldl pushComponent [] =
      base.components.foldl pushComponent [] := by
    rw [child, child, foldl_pushComponent_join _ (by decide), foldl_pushComponent_join _ hname, hsteps, hback]
    rfl
  rw [normalize, normalize, normalizeComponents, normalizeComponents, hkept]

theorem here_notMem_of_normal (h : Normal cs) : .here ∉ cs := by
  intro hmem
  rcases h with ⟨names, rfl, hnames⟩ | ⟨k, names, rfl, hnames⟩
  · rcases List.mem_cons.1 hmem with hroot | hname
    · cases hroot
    · exact hnames .here hname
  · rcases List.mem_append.1 hmem with hup | hname
    · cases List.eq_of_mem_replicate hup
    · exact hnames .here hname

theorem resolveNormal_congr {root root' : Path} (h : root.normalize = root'.normalize) (reported : String) :
    root.resolveNormal reported = root'.resolveNormal reported := by
  rw [resolveNormal, resolve, normalize_join, h, ← normalize_join]
  rfl

/-- A normalized path is in normal form: it stays what it is when it is normalized again, it is as absolute as the path
was, it has no dot, and steps up only in front of the names of a relative path. A path of that form is left alone, and a
step up takes back the name before it. A base may be normalized before a join, so that what a tool reports from a root
does not depend on how the root is spelled. -/
theorem normalize_normalForm :
    (∀ p : Path, p.normalize.normalize = p.normalize ∧ p.normalize.isAbsolute = p.isAbsolute ∧
      .here ∉ p.normalize.components ∧
      (p.isAbsolute = true → ∃ names, p.normalize.components = .root :: names ∧ ∀ c ∈ names, c.IsName) ∧
      (p.isAbsolute = false →
        ∃ k names, p.normalize.components = List.replicate k .up ++ names ∧ ∀ c ∈ names, c.IsName) ∧
      (Normal p.components → p.normalize.components = p.components)) ∧
    (∀ base p : Path, (base.join p).normalize = (base.normalize.join p).normalize) ∧
    (∀ (base : Path) (n : String), (Component.name n).Proper →
      ((base.child n).child "..").normalize = base.normalize) ∧
    ∀ (root root' : Path) (reported : String), root.same root' = true ∨ root.normalize = root'.normalize →
      root.resolveNormal reported = root'.resolveNormal reported := by
  refine ⟨fun p => ?_, normalize_join, fun base n hn => normalize_child_up base hn, ?_⟩
  · obtain ⟨habsolute, hrelative⟩ := components_normalize_cases p
    refine ⟨normalize_normalize p, isAbsolute_normalize_eq p, ?_, habsolute, hrelative, fun hnormal => ?_⟩
    · rw [components_normalize_eq]
      exact here_notMem_of_normal (normal_normalizeComponents _)
    · rw [components_normalize_eq, normalizeComponents_of_normal hnormal]
  · rintro root root' reported (hsame | hnormal)
    · exact resolveNormal_congr (normalize_of_components (beq_iff_eq.1 hsame)) reported
    · exact resolveNormal_congr hnormal reported

/-- A root in three spellings, and relative paths with steps up that nothing takes back. -/
theorem normalize_normalForm_respelled :
    ((Path.mk "/w//./").same ⟨"/w"⟩ = true ∧
      (Path.mk "/w//./").resolveNormal "../../b.yml" = (Path.mk "/w").resolveNormal "../../b.yml") ∧
    ((Path.mk "/../w/a/..").normalize = (Path.mk "/w").normalize ∧
      (Path.mk "/../w/a/..").resolveNormal "../../b.yml" = (Path.mk "/w").resolveNormal "../../b.yml") ∧
    ((Path.mk "a/../../x/./y").isAbsolute = false ∧ ∃ k names,
      (Path.mk "a/../../x/./y").normalize.components = List.replicate k .up ++ names ∧ ∀ c ∈ names, c.IsName) ∧
    ((Path.mk "/../w").isAbsolute = true ∧
      ∃ names, (Path.mk "/../w").normalize.components = .root :: names ∧ ∀ c ∈ names, c.IsName) ∧
    (Normal (Path.mk "../x//y").components ∧
      (Path.mk "../x//y").normalize.components = (Path.mk "../x//y").components) ∧
    ((Component.name "y").Proper ∧
      (((Path.mk "../x").child "y").child "..").normalize = (Path.mk "../x").normalize) := by
  obtain ⟨hforms, -, hback, hroots⟩ := normalize_normalForm
  have hsame : (Path.mk "/w//./").same ⟨"/w"⟩ = true := by decide
  have hnormal : (Path.mk "/../w/a/..").normalize = (Path.mk "/w").normalize := by decide
  have hrelative : (Path.mk "a/../../x/./y").isAbsolute = false := by decide
  have habsolute : (Path.mk "/../w").isAbsolute = true := by decide
  have hkept : Normal (Path.mk "../x//y").components :=
    .inr ⟨1, [.name "x", .name "y"], by decide, by simp [Component.IsName]⟩
  have hname : (Component.name "y").Proper := ⟨by decide, by decide, by decide⟩
  exact ⟨⟨hsame, hroots _ _ _ (.inl hsame)⟩, ⟨hnormal, hroots _ _ _ (.inr hnormal)⟩,
    ⟨hrelative, (hforms _).2.2.2.2.1 hrelative⟩, ⟨habsolute, (hforms _).2.2.2.1 habsolute⟩,
    ⟨hkept, (hforms _).2.2.2.2.2 hkept⟩, hname, hback _ _ hname⟩

end LintHub.Path
