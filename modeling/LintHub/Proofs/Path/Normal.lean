import LintHub.Proofs.Path.Spelling
import LintHub.Proofs.Text.Trim

/-!
# Resolved paths

* `isAbsolute_resolve` : what a tool run in an absolute root reports is an absolute path.
* `Settled` : what the components that were kept so far, last one first, look like. `Settled.pushComponent` : one more
  component leaves them so, whatever it is.
* `normal_normalizeComponents`, `normalizeComponents_of_normal` : the outcome is normal, and a normal list is left as it
  is.
* `components_normalize` : an absolute path is normalized to names below the root, so that `isAbsolute_normalize`
  holds and `dotFree_normalize` says that no segment of its text is a dot or a step up.
* `components_normalize_of_notMem` : without steps up it stays the same path.
-/

namespace LintHub.Path

open Text (pieces)

variable {cs done : List Component} {c d : Component}

/-- No segment of the text is a dot or a step up. -/
def DotFree (p : Path) : Prop := ['.'] ∉ pieces '/' p.text.toList ∧ ['.', '.'] ∉ pieces '/' p.text.toList

/-! ## Absolute paths -/

theorem isAbsolute_join {base : Path} (p : Path) (h : base.isAbsolute = true) : (base.join p).isAbsolute = true := by
  rw [join]
  split
  · next hp => exact hp
  · obtain ⟨s, hs⟩ := isAbsolute_iff.1 h
    refine isAbsolute_iff.2 ?_
    rw [String.toList_ofList, appendStep_eq, hs, opened]
    split <;> simp

theorem isAbsolute_resolve {root : Path} (reported : String) (h : root.isAbsolute = true) :
    (root.resolve reported).isAbsolute = true :=
  isAbsolute_join _ h

/-! ## Components kept so far -/

/-- No dot was kept, a step up was kept on other steps up only, and the root was kept on nothing. -/
structure Settled (done : List Component) : Prop where
  here : .here ∉ done
  below : done.Pairwise fun later earlier => later.IsName ∨ later = .up ∧ earlier = .up

theorem Settled.nil : Settled [] := ⟨List.not_mem_nil, List.Pairwise.nil⟩

theorem settled_singleton (h : c ≠ .here) : Settled [c] :=
  ⟨fun hmem => h (List.mem_singleton.1 hmem).symm, List.pairwise_singleton _ c⟩

theorem Settled.tail (h : Settled (c :: done)) : Settled done :=
  ⟨fun hmem => h.here (List.mem_cons_of_mem c hmem), (List.pairwise_cons.1 h.below).2⟩

/-- Below the step up that was kept last, all are steps up. -/
theorem Settled.eq_up (h : Settled (.up :: done)) : ∀ d ∈ done, d = .up := by
  intro d hd
  rcases (List.pairwise_cons.1 h.below).1 d hd with hname | ⟨-, hup⟩
  · exact hname.elim
  · exact hup

/-- Below the root there is nothing. -/
theorem Settled.eq_nil (h : Settled (.root :: done)) : done = [] := by
  apply List.eq_nil_iff_forall_not_mem.2
  intro d hd
  rcases (List.pairwise_cons.1 h.below).1 d hd with hname | ⟨hup, -⟩
  · exact hname
  · cases hup

/-- One more component leaves the kept ones settled. -/
theorem Settled.pushComponent (h : Settled done) (c : Component) : Settled (pushComponent done c) := by
  cases c with
  | root => exact settled_singleton (by decide)
  | here => exact h
  | name n =>
    refine ⟨fun hmem => ?_, List.pairwise_cons.2 ⟨fun d _ => .inl trivial, h.below⟩⟩
    rcases List.mem_cons.1 hmem with hname | hmem
    · cases hname
    · exact h.here hmem
  | up =>
    cases done with
    | nil => exact settled_singleton (by decide)
    | cons last rest =>
      cases last with
      | name n => exact h.tail
      | root => exact h
      | here => exact absurd List.mem_cons_self h.here
      | up =>
        refine ⟨fun hmem => ?_, List.pairwise_cons.2 ⟨fun d hd => ?_, h.below⟩⟩
        · rcases List.mem_cons.1 hmem with hup | hmem
          · cases hup
          · exact h.here hmem
        · rcases List.mem_cons.1 hd with rfl | hd
          · exact .inr ⟨rfl, rfl⟩
          · exact .inr ⟨rfl, h.eq_up d hd⟩

theorem settled_foldl_pushComponent (h : Settled done) (cs : List Component) :
    Settled (cs.foldl LintHub.Path.pushComponent done) := by
  induction cs generalizing done with
  | nil => exact h
  | cons c cs ih => exact ih (h.pushComponent c)

/-- In their own order, settled components are a normal list. -/
theorem Settled.normal (h : Settled done) : Normal done.reverse := by
  induction done with
  | nil => exact .inr ⟨0, [], rfl, by simp⟩
  | cons c done ih =>
    rw [List.reverse_cons]
    cases c with
    | here => exact absurd List.mem_cons_self h.here
    | root =>
      rw [h.eq_nil]
      exact .inl ⟨[], rfl, by simp⟩
    | up =>
      refine .inr ⟨done.length + 1, [], ?_, by simp⟩
      rw [List.eq_replicate_of_mem h.eq_up, List.reverse_replicate, List.append_nil, List.length_replicate,
        List.replicate_succ']
    | name n =>
      have hlast {names : List Component} (hnames : ∀ c ∈ names, c.IsName) :
          ∀ c ∈ names ++ [.name n], c.IsName := by
        intro c hc
        rcases List.mem_append.1 hc with hc | hc
        · exact hnames c hc
        · rw [List.mem_singleton.1 hc]
          exact trivial
      rcases ih h.tail with ⟨names, heq, hnames⟩ | ⟨k, names, heq, hnames⟩
      · exact .inl ⟨names ++ [.name n], by rw [heq, List.cons_append], hlast hnames⟩
      · exact .inr ⟨k, names ++ [.name n], by rw [heq, List.append_assoc], hlast hnames⟩

/-! ## Lists of components -/

theorem normal_normalizeComponents (cs : List Component) : Normal (normalizeComponents cs) :=
  (settled_foldl_pushComponent .nil cs).normal

theorem mem_of_mem_pushComponent (h : d ∈ pushComponent done c) : d = c ∨ d ∈ done := by
  cases c with
  | root => exact .inl (List.mem_singleton.1 h)
  | here => exact .inr h
  | name n => exact List.mem_cons.1 h
  | up =>
    cases done with
    | nil => exact .inl (List.mem_singleton.1 h)
    | cons last rest =>
      cases last with
      | name n => exact .inr (List.mem_cons_of_mem _ h)
      | root => exact .inr h
      | here => exact List.mem_cons.1 h
      | up => exact List.mem_cons.1 h

theorem mem_of_mem_foldl_pushComponent (h : d ∈ cs.foldl pushComponent done) : d ∈ cs ∨ d ∈ done := by
  induction cs generalizing done with
  | nil => exact .inr h
  | cons c cs ih =>
    rcases ih h with hcs | hdone
    · exact .inl (List.mem_cons_of_mem c hcs)
    · rcases mem_of_mem_pushComponent hdone with rfl | hdone
      · exact .inl List.mem_cons_self
      · exact .inr hdone

/-- No component is made up. -/
theorem mem_of_mem_normalizeComponents (h : d ∈ normalizeComponents cs) : d ∈ cs := by
  rcases mem_of_mem_foldl_pushComponent (List.mem_reverse.1 h) with hcs | hnil
  · exact hcs
  · cases hnil

theorem root_mem_pushComponent (h : .root ∈ done) (c : Component) : .root ∈ pushComponent done c := by
  cases c with
  | root => exact List.mem_singleton_self _
  | here => exact h
  | name n => exact List.mem_cons_of_mem _ h
  | up =>
    cases done with
    | nil => cases h
    | cons last rest =>
      cases last with
      | name n =>
        rcases List.mem_cons.1 h with hname | h
        · cases hname
        · exact h
      | root => exact h
      | here => exact List.mem_cons_of_mem _ h
      | up => exact List.mem_cons_of_mem _ h

/-- The root is never taken back. -/
theorem root_mem_foldl_pushComponent (h : .root ∈ done) (cs : List Component) :
    .root ∈ cs.foldl pushComponent done := by
  induction cs generalizing done with
  | nil => exact h
  | cons c cs ih => exact ih (root_mem_pushComponent h c)

/-- Names are taken as they are. -/
theorem foldl_pushComponent_names {cs : List Component} (done : List Component) (h : ∀ c ∈ cs, c.IsName) :
    cs.foldl pushComponent done = cs.reverse ++ done := by
  induction cs generalizing done with
  | nil => rfl
  | cons c cs ih =>
    have hpush : pushComponent done c = c :: done := by
      cases c with
      | name n => rfl
      | root => exact (h .root (by simp)).elim
      | here => exact (h .here (by simp)).elim
      | up => exact (h .up (by simp)).elim
    rw [List.foldl_cons, hpush, ih _ fun d hd => h d (by simp [hd]), List.reverse_cons, List.append_assoc]
    rfl

theorem foldl_pushComponent_ups (j k : Nat) :
    (List.replicate k .up).foldl pushComponent (List.replicate j .up) = List.replicate (j + k) .up := by
  induction k generalizing j with
  | zero => rfl
  | succ k ih =>
    have hpush : pushComponent (List.replicate j .up) .up = List.replicate (j + 1) .up := by
      cases j <;> rfl
    rw [List.replicate_succ, List.foldl_cons, hpush, ih, Nat.add_right_comm, Nat.add_assoc]

theorem normalizeComponents_of_normal (h : Normal cs) : normalizeComponents cs = cs := by
  rw [normalizeComponents]
  rcases h with ⟨names, rfl, hnames⟩ | ⟨k, names, rfl, hnames⟩
  · rw [List.foldl_cons, foldl_pushComponent_names _ hnames, List.reverse_append, List.reverse_reverse]
    rfl
  · have hups : (List.replicate k Component.up).foldl pushComponent [] = List.replicate k .up := by
      have hfold := foldl_pushComponent_ups 0 k
      rwa [Nat.zero_add] at hfold
    rw [List.foldl_append, hups, foldl_pushComponent_names _ hnames, List.reverse_append, List.reverse_reverse,
      List.reverse_replicate]

/-! ## Normal paths -/

theorem normalizeComponents_of_isAbsolute {p : Path} (h : p.isAbsolute = true) :
    ∃ names, normalizeComponents p.components = .root :: names ∧ ∀ c ∈ names, c.Proper ∧ c.IsName := by
  obtain ⟨cs, hp, hcs⟩ := components_of_isAbsolute h
  have hroot : .root ∈ normalizeComponents p.components := by
    rw [hp]
    exact List.mem_reverse.2 (root_mem_foldl_pushComponent (List.mem_singleton_self _) cs)
  rcases normal_normalizeComponents p.components with ⟨names, heq, hnames⟩ | ⟨k, names, heq, hnames⟩
  · refine ⟨names, heq, fun c hc => ⟨?_, hnames c hc⟩⟩
    have hmem : c ∈ p.components := by
      apply mem_of_mem_normalizeComponents
      rw [heq]
      exact List.mem_cons_of_mem _ hc
    rw [hp] at hmem
    rcases List.mem_cons.1 hmem with rfl | hmem
    · exact (hnames .root hc).elim
    · exact hcs c hmem
  · rw [heq] at hroot
    rcases List.mem_append.1 hroot with hup | hname
    · cases List.eq_of_mem_replicate hup
    · exact (hnames .root hname).elim

/-- An absolute path is normalized to names below the root. -/
theorem components_normalize {p : Path} (h : p.isAbsolute = true) :
    ∃ names, p.normalize.components = .root :: names ∧ ∀ c ∈ names, c.IsName := by
  obtain ⟨names, hp, hn⟩ := normalizeComponents_of_isAbsolute h
  refine ⟨names, ?_, fun c hc => (hn c hc).2⟩
  rw [normalize, hp, components_ofComponents_root fun c hc => (hn c hc).1]

/-- An absolute path without steps up stays the same path when it is normalized. -/
theorem components_normalize_of_notMem {p : Path} (h : p.isAbsolute = true) (hup : .up ∉ p.components) :
    p.normalize.components = p.components := by
  obtain ⟨cs, hcs, hproper⟩ := components_of_isAbsolute h
  rw [hcs] at hup
  have hname : ∀ c ∈ cs, c.IsName := by
    intro c hc
    cases c with
    | name n => trivial
    | root => exact hproper .root hc
    | here => exact hproper .here hc
    | up => exact hup (List.mem_cons_of_mem _ hc)
  have hnormal : normalizeComponents p.components = .root :: cs := by
    rw [hcs]
    exact normalizeComponents_of_normal (.inl ⟨cs, rfl, hname⟩)
  rw [normalize, hnormal, components_ofComponents_root hproper, hcs]

theorem isAbsolute_normalize {p : Path} (h : p.isAbsolute = true) : p.normalize.isAbsolute = true := by
  obtain ⟨names, hp, hn⟩ := normalizeComponents_of_isAbsolute h
  refine isAbsolute_iff.2 ⟨joinSegments (names.map fun c => c.text.toList), ?_⟩
  rw [normalize, hp, toList_text_ofComponents_root fun c hc => (hn c hc).1]

theorem dotFree_normalize {p : Path} (h : p.isAbsolute = true) : p.normalize.DotFree := by
  obtain ⟨names, hp, hn⟩ := normalizeComponents_of_isAbsolute h
  have htext : p.normalize.text.toList = '/' :: joinSegments (names.map fun c => c.text.toList) := by
    rw [normalize, hp, toList_text_ofComponents_root fun c hc => (hn c hc).1]
  have hsegs : ∀ s ∈ pieces '/' p.normalize.text.toList, s = [] ∨ ∃ c ∈ names, s = c.text.toList := by
    intro s hs
    rw [htext, show '/' :: joinSegments (names.map fun c => c.text.toList) =
      [] ++ '/' :: joinSegments (names.map fun c => c.text.toList) from rfl,
      pieces_append_sep _ (by simp), List.mem_cons] at hs
    rcases hs with rfl | hs
    · exact .inl rfl
    · cases names with
      | nil => exact .inl (by simpa [joinSegments, Text.pieces] using hs)
      | cons c names =>
        rw [pieces_joinSegments (by simp) fun p hp => ?_] at hs
        · obtain ⟨d, hd, rfl⟩ := List.mem_map.1 hs
          exact .inr ⟨d, hd, rfl⟩
        · obtain ⟨d, hd, rfl⟩ := List.mem_map.1 hp
          exact slash_notMem_text (hn d hd).1
  constructor
  · intro hdot
    rcases hsegs _ hdot with hnil | ⟨c, hc, hct⟩
    · simp at hnil
    · have := isIdle_text (hn c hc).1
      rw [← hct] at this
      simp [isIdle] at this
  · intro hup
    rcases hsegs _ hup with hnil | ⟨c, hc, hct⟩
    · simp at hnil
    · obtain ⟨hproper, hname⟩ := hn c hc
      cases c with
      | name n => exact hproper.2.2 hct.symm
      | root => exact hname.elim
      | here => exact hname.elim
      | up => exact hname.elim

theorem isAbsolute_resolveNormal {root : Path} (reported : String) (h : root.isAbsolute = true) :
    (root.resolveNormal reported).isAbsolute = true :=
  isAbsolute_normalize (isAbsolute_resolve reported h)

end LintHub.Path
