import LintHub.Discovery
import LintHub.Proofs.Disk.Places

/-!
# Which files are left out

A file that is found under the base is compared with the patterns of files to leave out under the path under which it is
returned. A file that is named is compared under the name that was given, and returned under its path without links,
dots and steps up.

* `FileFilter.Honors` : a path under the base is not left out.
* `FileFilter.mem_of_mem_inOrder`, `FileFilter.exists_same_of_mem` : the paths in order are the paths, up to spelling.
* `FileFilter.discover_honors_iff` : when all discovered files are honored.
-/

namespace LintHub.FileFilter

variable {f : FileFilter} {d : Disk} {base p : Path} {names : List String}

/-- The path is not left out, if it lies under the base. -/
def Honors (f : FileFilter) (base p : Path) : Prop :=
  base.components <+: p.components → f.excludes (Path.relativeTo base p) = false

/-! ## Each path once -/

theorem dropRepeats_sublist (ps : List Path) : (dropRepeats ps).Sublist ps := by
  fun_induction dropRepeats ps with
  | case1 => exact List.Sublist.refl []
  | case2 p => exact List.Sublist.refl [p]
  | case3 p q rest hsame ih => exact ih.trans ((List.sublist_cons_self q rest).cons_cons p)
  | case4 p q rest hsame ih => exact ih.cons_cons p

theorem exists_same_of_mem_dropRepeats {ps : List Path} (h : p ∈ ps) : ∃ q ∈ dropRepeats ps, q.same p = true := by
  fun_induction dropRepeats ps generalizing p with
  | case1 => cases h
  | case2 q =>
    rw [List.mem_singleton.1 h]
    exact ⟨q, by simp, by simp [Path.same]⟩
  | case3 q r rest hsame ih =>
    simp only [List.mem_cons] at h
    rcases h with rfl | rfl | h
    · exact ih (by simp)
    · -- The path that is dropped is the same as the one that stays.
      obtain ⟨kept, hkept, hq⟩ := ih (p := q) (by simp)
      simp only [Path.same, beq_iff_eq] at hq hsame ⊢
      exact ⟨kept, hkept, hq.trans hsame⟩
    · exact ih (by simp [h])
  | case4 q r rest hsame ih =>
    rcases List.mem_cons.1 h with rfl | h
    · exact ⟨p, by simp, by simp [Path.same]⟩
    · obtain ⟨kept, hkept, hp⟩ := ih h
      exact ⟨kept, List.mem_cons_of_mem q hkept, hp⟩

theorem mem_of_mem_inOrder {ps : List Path} (h : p ∈ inOrder ps) : p ∈ ps :=
  List.mem_mergeSort.1 ((dropRepeats_sublist _).subset h)

theorem exists_same_of_mem {ps : List Path} (h : p ∈ ps) : ∃ q ∈ inOrder ps, q.same p = true :=
  exists_same_of_mem_dropRepeats (List.mem_mergeSort.2 h)

/-! ## What is found -/

theorem eq_of_namedFile? {name : String} (h : namedFile? d base name = some p) :
    p = base.child name ∧ d.isPlainFile p = true := by
  rw [namedFile?] at h
  split at h
  · next hfile =>
    obtain rfl := Option.some.inj h
    exact ⟨rfl, hfile⟩
  · cases h

/-- A named file that is not left out under its given name is returned under its canonical path. -/
theorem mem_named : p ∈ f.named d base names ↔ ∃ name ∈ names, ∃ q, namedFile? d base name = some q ∧
    f.excludes (Path.relativeTo base q) = false ∧ d.canonical q = .ok p := by
  simp only [named, List.mem_map, List.mem_filter, List.mem_filterMap, Bool.not_eq_true']
  constructor
  · rintro ⟨q, ⟨⟨name, hname, hq⟩, hexcludes⟩, hp⟩
    obtain ⟨c, hc⟩ := Disk.exists_canonical_of_isPlainFile (eq_of_namedFile? hq).2
    rw [hc] at hp
    exact ⟨name, hname, q, hq, hexcludes, by rw [hc]; exact congrArg Except.ok hp⟩
  · rintro ⟨name, hname, q, hq, hexcludes, hp⟩
    exact ⟨q, ⟨⟨name, hname, hq⟩, hexcludes⟩, by rw [hp]; rfl⟩

theorem mem_matching {patterns : List (List Glob.Token)} (h : p ∈ f.matching d base patterns) :
    p ∈ filesUnder d base ∧ f.excludes (Path.relativeTo base p) = false := by
  rw [matching] at h
  split at h
  · cases h
  · obtain ⟨hmem, hkeep⟩ := List.mem_filter.1 h
    simp only [ignores, Bool.and_eq_true, Bool.not_eq_true', Bool.or_eq_false_iff] at hkeep
    exact ⟨hmem, hkeep.2.1⟩

section Canonical

variable (hd : d.WellNamed) (hbase : d.canonical base = .ok base)

include hbase

theorem isPlacePath_of_mem_named (h : p ∈ f.named d base names) : Disk.IsPlacePath p := by
  obtain ⟨loc, n, -, heq⟩ := Disk.canonical_eq_ok hbase
  have habsolute : base.isAbsolute = true := by
    rw [heq]
    exact Disk.isAbsolute_pathOf loc
  obtain ⟨name, -, q, hq, -, hp⟩ := mem_named.1 h
  obtain ⟨rfl, -⟩ := eq_of_namedFile? hq
  exact Disk.isPlacePath_of_canonical (Path.isAbsolute_join ⟨name⟩ habsolute) hp

include hd

theorem isPlacePath_of_mem {patterns : List (List Glob.Token)}
    (h : p ∈ f.named d base names ++ f.matching d base patterns) : Disk.IsPlacePath p := by
  rcases List.mem_append.1 h with h | h
  · exact isPlacePath_of_mem_named hbase h
  · obtain ⟨entry, hentry, rfl⟩ := List.mem_map.1 (mem_matching h).1
    exact Disk.isPlacePath_of_mem_tree hd hbase (List.mem_of_mem_filter hentry)

end Canonical

/-- All discovered files under the base are honored exactly if each named file that is not left out under its given
name is not left out under its canonical path either. -/
theorem discover_honors_iff {paths : List Path} (hd : d.WellNamed) (hbase : d.canonical base = .ok base)
    (h : f.discover d base names = .ok paths) :
    (∀ p ∈ paths, f.Honors base p) ↔
      ∀ name ∈ names, ∀ p c, namedFile? d base name = some p → f.excludes (Path.relativeTo base p) = false →
        d.canonical p = .ok c → f.Honors base c := by
  rw [discover] at h
  cases hpatterns : patternsAmong d base names with
  | error e =>
    rw [hpatterns] at h
    cases h
  | ok patterns =>
    rw [hpatterns] at h
    obtain rfl := Except.ok.inj h
    constructor
    · intro hall name hname p c hp hexcludes hc
      have hmem : c ∈ f.named d base names ++ f.matching d base patterns :=
        List.mem_append_left _ (mem_named.2 ⟨name, hname, p, hp, hexcludes, hc⟩)
      -- What stays in place of a repeated path is the same, and so the path itself.
      obtain ⟨q, hq, hsame⟩ := exists_same_of_mem hmem
      have heq : q = c := (isPlacePath_of_mem hd hbase (mem_of_mem_inOrder hq)).eq_of_same
        (isPlacePath_of_mem hd hbase hmem) hsame
      exact heq ▸ hall q hq
    · intro hnamed p hp hunder
      rcases List.mem_append.1 (mem_of_mem_inOrder hp) with hmem | hmem
      · obtain ⟨name, hname, q, hq, hexcludes, hc⟩ := mem_named.1 hmem
        exact hnamed name hname q p hq hexcludes hc hunder
      · exact (mem_matching hmem).2

/-- A directory and a file beside it. -/
def besideDisk : Disk := ⟨[(["w"], .dir), (["w", "d"], .dir), (["w", "x"], .file ⟨#[]⟩ false)], []⟩

/-- A file that is left out is discovered if its name steps through a directory and up again. -/
theorem discover_honors_iff_stepUp :
    besideDisk.WellNamed ∧ besideDisk.canonical ⟨"/w"⟩ = .ok ⟨"/w"⟩ ∧
    discover ⟨[], [[.literal 'x']]⟩ besideDisk ⟨"/w"⟩ ["d/../x"] = .ok [⟨"/w/x"⟩] ∧
    ¬ ∀ p ∈ [⟨"/w/x"⟩], Honors ⟨[], [[.literal 'x']]⟩ ⟨"/w"⟩ p := by
  have hd : besideDisk.WellNamed := by
    have hproper : ∀ n ∈ ["w", "d", "x"], (Path.Component.name n).Proper := by
      simp [Path.Component.Proper, Path.isIdle]
    have hnames : ∀ entry ∈ besideDisk.nodes, ∀ n ∈ entry.1, n ∈ ["w", "d", "x"] := by simp [besideDisk]
    exact fun entry hentry n hn => hproper n (hnames entry hentry n hn)
  have hbase : besideDisk.canonical ⟨"/w"⟩ = .ok ⟨"/w"⟩ := by
    have hplain : Disk.IsPlain ⟨"/w"⟩ ["w"] := by decide
    have hfollow : besideDisk.follow? [] ["w"] = some (["w"], some .dir) := by rfl
    rw [Disk.canonical, Disk.stat_of_follow? hplain hfollow]
    rfl
  have hfind (follow : Bool) : besideDisk.find follow ⟨"/w/d/../x"⟩ = .ok (["w", "x"], some (.file ⟨#[]⟩ false)) := by
    have hsegments : Disk.segmentsOf "/w/d/../x" = ["", "w", "d", "..", "x"] := by decide
    simp +decide [Disk.find, hsegments, Disk.walk, Disk.node?, besideDisk]
  have hnamed : namedFile? besideDisk ⟨"/w"⟩ "d/../x" = some ⟨"/w/d/../x"⟩ := by
    have hchild : Path.child ⟨"/w"⟩ "d/../x" = ⟨"/w/d/../x"⟩ := by decide
    rw [namedFile?, hchild, Disk.isPlainFile, Disk.stat, hfind]
    rfl
  have hcanonical : besideDisk.canonical ⟨"/w/d/../x"⟩ = .ok ⟨"/w/x"⟩ := by
    rw [Disk.canonical, Disk.stat, hfind]
    rfl
  have hkept : excludes ⟨[], [[.literal 'x']]⟩ (Path.relativeTo ⟨"/w"⟩ ⟨"/w/d/../x"⟩) = false := by decide +kernel
  have hleft : excludes ⟨[], [[.literal 'x']]⟩ (Path.relativeTo ⟨"/w"⟩ ⟨"/w/x"⟩) = true := by decide +kernel
  have hdiscover : discover ⟨[], [[.literal 'x']]⟩ besideDisk ⟨"/w"⟩ ["d/../x"] = .ok [⟨"/w/x"⟩] := by
    have hpatterns : patternsAmong besideDisk ⟨"/w"⟩ ["d/../x"] = .ok [] := by
      rw [patternsAmong, List.filter_cons_of_neg (by simp [hnamed])]
      rfl
    have hfound : named ⟨[], [[.literal 'x']]⟩ besideDisk ⟨"/w"⟩ ["d/../x"] = [⟨"/w/x"⟩] := by
      simp [named, hnamed, hkept, hcanonical]
      rfl
    rw [discover, hpatterns, hfound]
    simp [matching, inOrder, dropRepeats]
  refine ⟨hd, hbase, hdiscover, fun hall => ?_⟩
  have hhonors := (discover_honors_iff hd hbase hdiscover).1 hall "d/../x" (by simp) _ _ hnamed hkept hcanonical
  rw [hhonors (by decide)] at hleft
  cases hleft

end LintHub.FileFilter
